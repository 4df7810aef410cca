import MsaSaga.Schema

/-!
# ConsumeClaim

`consumerGroupHandler.ConsumeClaim` takes the messages of a partition claim one at a time, hands
each to the handler and then marks it, whatever the handler returned: the comment at the mark
says so, to keep a failed message from being processed again, and leaves idempotency to the
handlers. The offset manager commits the marked offset in the background, and a group that
restarts or rebalances resumes the partition at the committed offset.

So what a claim hands out does not depend on what the handlers return. A message whose handler
failed is not redelivered once the mark past it is committed, and is redelivered when the group
restarts before that commit, as a message whose handler returned `nil` is.
-/
namespace MsaSaga.Consume
open Schema

/-- A partition claim: the next offset it hands out, the offsets the session has marked and
the group has committed, the offset whose handler runs, and each handler's return value with
its offset. -/
structure Claim where
  next : Nat := 0
  marked : Nat := 0
  committed : Nat := 0
  handling : Option Nat := none
  returned : List (Nat × HandlerResult) := []

inductive ClaimAction where
  /-- `for message := range claim.Messages()` takes the next message. -/
  | receive
  /-- The handler returns, and `session.MarkMessage` marks past the message. -/
  | handlerReturns (r : HandlerResult)
  /-- The offset manager commits the marked offset. -/
  | commit
  /-- The group restarts or rebalances: the claim resumes at the committed offset. -/
  | restart

/-- One step of a claim on a partition of `log` messages. -/
def Claim.step (log : Nat) (c : Claim) : ClaimAction → Option Claim
  | .receive =>
      if c.handling = none ∧ c.next < log then
        some { c with handling := some c.next, next := c.next + 1 }
      else none
  | .handlerReturns r => c.handling.map fun k =>
      { c with handling := none, marked := k + 1, returned := c.returned ++ [(k, r)] }
  | .commit => some { c with committed := c.marked }
  | .restart => some { c with next := c.committed, marked := c.committed, handling := none }

/-- Where a claim stands in its partition. -/
def Claim.offsets (c : Claim) : Nat × Nat × Nat × Option Nat :=
  (c.next, c.marked, c.committed, c.handling)

/-- An action with the handler's return value forgotten. -/
def ClaimAction.shape : ClaimAction → ClaimAction
  | .handlerReturns _ => .handlerReturns (.ok ())
  | a => a

/-- A step moves the offsets the same way whatever the handler returned. -/
theorem Claim.step_offsets (log : Nat) {c d : Claim} (h : c.offsets = d.offsets)
    {a b : ClaimAction} (hs : a.shape = b.shape) :
    (c.step log a).map Claim.offsets = (d.step log b).map Claim.offsets := by
  simp only [Claim.offsets, Prod.mk.injEq] at h
  obtain ⟨h₁, h₂, h₃, h₄⟩ := h
  cases a <;> cases b <;> simp only [ClaimAction.shape, reduceCtorEq] at hs <;>
    simp [Claim.step, Claim.offsets, h₁, h₂, h₃, h₄]
  cases d.handling <;> rfl

/-- Over every run of a claim, the offsets it hands out, marks and commits are the same whatever
the handlers return. -/
theorem Claim.run_offsets (log : Nat) :
    ∀ (as bs : List ClaimAction) {c d : Claim}, c.offsets = d.offsets →
      as.map ClaimAction.shape = bs.map ClaimAction.shape →
      (runSteps (Claim.step log) c as).map Claim.offsets =
        (runSteps (Claim.step log) d bs).map Claim.offsets
  | [], [], _, _, h, _ => by simp [runSteps, h]
  | a :: as, b :: bs, c, d, h, hs => by
      simp only [List.map_cons, List.cons.injEq] at hs
      have hstep := Claim.step_offsets log h hs.1
      simp only [runSteps]
      cases hc : c.step log a with
      | none =>
          rw [hc, Option.map_none'] at hstep
          rw [Option.map_eq_none'.mp hstep.symm]
          rfl
      | some c' =>
          rw [hc, Option.map_some'] at hstep
          obtain ⟨d', hd, he⟩ := Option.map_eq_some'.mp hstep.symm
          rw [hd]
          exact Claim.run_offsets log as bs he.symm hs.2
  | [], _ :: _, _, _, _, hs => by simp at hs
  | _ :: _, [], _, _, _, hs => by simp at hs

/-! ## Marks and redelivery -/

/-- Where a claim stands in every run: the committed mark at or below the session's mark, at or
below the next offset, within the partition; the offset in the handler is the last one handed
out, at or past the session's mark. -/
structure Claim.Inv (log : Nat) (c : Claim) : Prop where
  committed_le : c.committed ≤ c.marked
  marked_le : c.marked ≤ c.next
  next_le : c.next ≤ log
  handling : ∀ k, c.handling = some k → c.next = k + 1 ∧ c.marked ≤ k

/-- A step keeps the invariant and never lowers the committed mark. -/
theorem Claim.Inv.step {log : Nat} {c c' : Claim} (hi : c.Inv log) {a : ClaimAction}
    (h : c.step log a = some c') : c'.Inv log ∧ c.committed ≤ c'.committed := by
  cases a with
  | receive =>
      simp only [Claim.step, Option.ite_none_right_eq_some, Option.some.injEq] at h
      obtain ⟨⟨-, hn⟩, rfl⟩ := h
      refine ⟨⟨hi.committed_le, Nat.le_succ_of_le hi.marked_le, hn, fun k hk => ?_⟩, le_rfl⟩
      cases hk
      exact ⟨rfl, hi.marked_le⟩
  | handlerReturns r =>
      obtain ⟨k, hk, rfl⟩ := Option.map_eq_some'.mp h
      obtain ⟨hn, hm⟩ := hi.handling k hk
      exact ⟨⟨by dsimp only; have := hi.committed_le; omega, hn.ge, hi.next_le, nofun⟩, le_rfl⟩
  | commit =>
      cases h
      exact ⟨⟨le_rfl, hi.marked_le, hi.next_le, hi.handling⟩, hi.committed_le⟩
  | restart =>
      cases h
      exact ⟨⟨le_rfl, le_rfl, hi.committed_le.trans (hi.marked_le.trans hi.next_le), nofun⟩, le_rfl⟩

theorem Claim.Inv.run {log : Nat} : ∀ {as : List ClaimAction} {c c' : Claim}, c.Inv log →
    runSteps (Claim.step log) c as = some c' → c'.Inv log ∧ c.committed ≤ c'.committed
  | [], _, _, hi, h => by cases h; exact ⟨hi, le_rfl⟩
  | a :: as, c, c', hi, h => by
      simp only [runSteps, Option.bind_eq_some] at h
      obtain ⟨c₁, h₁, h₂⟩ := h
      obtain ⟨hi₁, hc₁⟩ := hi.step h₁
      obtain ⟨hi', hc'⟩ := hi₁.run h₂
      exact ⟨hi', hc₁.trans hc'⟩

theorem Claim.inv_of_reach {log : Nat} {c : Claim} (h : Reach (Claim.step log) {} c) :
    c.Inv log := by
  induction h with
  | init => exact ⟨le_rfl, le_rfl, Nat.zero_le _, nofun⟩
  | step a _ ha ih => exact (ih.step ha).1

/-- A step other than a restart moves the claim forward: the next offset does not decrease, and
the offset in the handler is the one there before or a new one. -/
theorem Claim.step_forward {log : Nat} {c c' : Claim} {a : ClaimAction} (ha : a ≠ .restart)
    (h : c.step log a = some c') :
    c.next ≤ c'.next ∧ ∀ k, c'.handling = some k → c.handling = some k ∨ c.next ≤ k := by
  cases a with
  | receive =>
      simp only [Claim.step, Option.ite_none_right_eq_some, Option.some.injEq] at h
      obtain ⟨-, rfl⟩ := h
      exact ⟨Nat.le_succ _, fun k hk => .inr (Option.some.inj hk).le⟩
  | handlerReturns r =>
      obtain ⟨k, -, rfl⟩ := Option.map_eq_some'.mp h
      exact ⟨le_rfl, nofun⟩
  | commit => cases h; exact ⟨le_rfl, fun _ => .inl⟩
  | restart => exact absurd rfl ha

/-- Without a restart a claim hands out no offset it handed out before, but the one its handler
still holds. -/
theorem Claim.run_forward {log : Nat} : ∀ {as : List ClaimAction} {c c' : Claim},
    ClaimAction.restart ∉ as → runSteps (Claim.step log) c as = some c' →
      c.next ≤ c'.next ∧ ∀ k, c'.handling = some k → c.handling = some k ∨ c.next ≤ k
  | [], _, _, _, h => by cases h; exact ⟨le_rfl, fun _ => .inl⟩
  | a :: as, c, c', hr, h => by
      simp only [runSteps, Option.bind_eq_some] at h
      obtain ⟨c₁, h₁, h₂⟩ := h
      have hne := not_or.mp (List.mem_cons.not.mp hr)
      obtain ⟨hn₁, hk₁⟩ := Claim.step_forward (Ne.symm hne.1) h₁
      obtain ⟨hn', hk'⟩ := Claim.run_forward hne.2 h₂
      refine ⟨hn₁.trans hn', fun k hk => ?_⟩
      rcases hk' k hk with hk | hk
      · exact hk₁ k hk
      · exact .inr (hn₁.trans hk)

/-- Every claim marks a message once its handler returns, whatever it returned: the session's
mark moves just past it. Over every run, the offsets it hands out, marks and commits are the same
whatever the handlers return. From every state a claim reaches, no offset below its committed
mark is handed out again, and an offset it handed out before is handed out again only after a
restart or a rebalance. So a failed message is redelivered only when the group restarts before
the mark past it is committed, as one whose handler returned `nil` is. -/
theorem consumeClaim_marks_whatever_handlers_return (log : Nat) :
    (∀ (as bs : List ClaimAction) {c d : Claim}, c.offsets = d.offsets →
      as.map ClaimAction.shape = bs.map ClaimAction.shape →
      (runSteps (Claim.step log) c as).map Claim.offsets =
        (runSteps (Claim.step log) d bs).map Claim.offsets) ∧
    (∀ {c c' : Claim} (r : HandlerResult), Reach (Claim.step log) {} c →
      c.step log (.handlerReturns r) = some c' →
      ∃ k, c.handling = some k ∧ c'.marked = k + 1 ∧ c'.next = k + 1 ∧
        c'.returned = c.returned ++ [(k, r)]) ∧
    ∀ {c c' : Claim} (as : List ClaimAction), Reach (Claim.step log) {} c →
      runSteps (Claim.step log) c as = some c' → ∀ k, c'.handling = some k →
        c.committed ≤ k ∧ (k < c.next → c.handling = some k ∨ ClaimAction.restart ∈ as) := by
  refine ⟨Claim.run_offsets log, fun r hc h => ?_, fun as hc h k hk => ?_⟩
  · obtain ⟨k, hk, rfl⟩ := Option.map_eq_some'.mp h
    exact ⟨k, hk, rfl, ((Claim.inv_of_reach hc).handling k hk).1, rfl⟩
  · obtain ⟨hi', hmono⟩ := (Claim.inv_of_reach hc).run h
    refine ⟨hmono.trans (hi'.committed_le.trans (hi'.handling k hk).2), fun hlt => ?_⟩
    by_cases hr : ClaimAction.restart ∈ as
    · exact .inr hr
    · exact .inl (((Claim.run_forward hr h).2 k hk).resolve_right (Nat.not_le.mpr hlt))

/-- Offset 0 is handed out and its handler fails: the mark moves past it. Once that mark is
committed, the restart and the next receive hand out offset 1, at the committed mark. -/
theorem failed_handler_marked_then_skipped :
    let err : HandlerResult := .error (plainErr "order not found")
    ∃ c c' d, runSteps (Claim.step 2) {} [.receive] = some c ∧
      c.step 2 (.handlerReturns err) = some c' ∧
      runSteps (Claim.step 2) c' [.commit, .restart, .receive] = some d ∧
      d.handling = some 1 ∧
      (∃ k, c.handling = some k ∧ c'.marked = k + 1 ∧ c'.next = k + 1 ∧
        c'.returned = c.returned ++ [(k, err)]) ∧
      (c'.committed ≤ 1 ∧ (1 < c'.next → c'.handling = some 1 ∨
        ClaimAction.restart ∈ [ClaimAction.commit, .restart, .receive])) := by
  intro err
  have hc : Reach (Claim.step 2) {} { next := 1, handling := some 0 } :=
    Reach.step .receive Reach.init rfl
  refine ⟨_, _, _, rfl, rfl, rfl, rfl,
    (consumeClaim_marks_whatever_handlers_return 2).2.1 err hc rfl,
    (consumeClaim_marks_whatever_handlers_return 2).2.2 [.commit, .restart, .receive]
      (Reach.step (.handlerReturns err) hc rfl) rfl 1 rfl⟩

/-- The handler of offset 0 returns an error; the mark past it is committed and the group
restarts: the claim goes on at offset 1, and offset 0 is not handed out again. -/
theorem failed_message_is_not_redelivered :
    (runSteps (Claim.step 2) {}
        [.receive, .handlerReturns (.error (plainErr "order not found")), .commit, .restart,
          .receive]).map (fun c => (c.handling, c.committed, c.returned.map (·.1))) =
      some (some 1, 1, [0]) := by
  decide

end MsaSaga.Consume
