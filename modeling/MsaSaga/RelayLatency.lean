import MsaSaga.Clock

/-!
# How long a row waits for its relay

A tick of a relay whose query, `Publish` and `MarkSent` calls all return `nil` publishes the
first 100 `PENDING` rows of its outbox in `created_at` order, each with the relay's key, and
marks every row with one of their ids `SENT`.

A row is therefore published within a bounded number of such ticks, whatever else happens in
between. What may still be published before it is counted by `Sys.backlog`: the `PENDING` rows
that `ORDER BY created_at` puts ahead of it, and the executions holding a clock reading earlier
than its `created_at`, each of which may still commit one row that sorts ahead of it. A row
committed after another can sort ahead of it, since its `created_at` was read before the
other's commit; but a reading taken now is later than every `created_at` in the table, so no
step raises the count, and a healthy tick of the row's relay lowers it by 100 unless it
publishes the row.
-/
namespace MsaSaga.System
open Events Schema Executions OrderService Keys

/-! ## A healthy tick -/

/-- `MarkSent` of each of `ids`, in any order. -/
def markAll (ids : List Nat) (rows : List OutboxRow) : List OutboxRow :=
  rows.map fun r => if r.id ∈ ids then { r with status := .sent } else r

theorem markAll_markSent (ids : List Nat) (id : Nat) (rows : List OutboxRow) :
    markAll ids (markSent id rows) = markAll (id :: ids) rows := by
  simp only [markAll, Schema.markSent, List.map_map]
  congr 1
  funext r
  by_cases h : r.id = id <;> by_cases h' : r.id ∈ ids <;> simp [h, h']

theorem Sys.publishRow_outbox (s : Sys) (svc : Service) (r : OutboxRow) (svc' : Service) :
    (s.publishRow svc r true).outbox svc' =
      if svc' = svc then markSent r.id (s.outbox svc) else s.outbox svc' :=
  Sys.outbox_setOutbox s svc _ svc'

theorem zip_healthy : ∀ {rows : List OutboxRow} {outcomes : List (Bool × Bool)},
    outcomes.length = rows.length → (∀ o ∈ outcomes, o = (true, true)) →
      rows.zip outcomes = rows.map fun r => (r, true, true)
  | [], [], _, _ => rfl
  | r :: rows, o :: outcomes, hl, hok => by
      rw [hok o (List.mem_cons_self _ _), List.zip_cons_cons, List.map_cons,
        zip_healthy (Nat.succ.inj hl) fun o' h' => hok o' (List.mem_cons_of_mem _ h')]

/-- The loop over rows whose `Publish` and `MarkSent` return `nil`. -/
theorem Sys.relayRows_healthy (svc : Service) (key : Event → String) :
    ∀ (rows : List OutboxRow) (s : Sys),
    (s.relayRows svc key (rows.map fun r => (r, true, true))).2 =
        rows.map (fun r => ⟨r.eventType, key r.payload, r.payload⟩) ∧
      (s.relayRows svc key (rows.map fun r => (r, true, true))).1.bus =
        s.bus ++ rows.map (fun r => ⟨r.eventType, r.payload⟩) ∧
      ∀ svc', (s.relayRows svc key (rows.map fun r => (r, true, true))).1.outbox svc' =
        if svc' = svc then markAll (rows.map (·.id)) (s.outbox svc) else s.outbox svc'
  | [], s => ⟨rfl, (List.append_nil _).symm, fun svc' => by
      split
      · subst svc'
        simp [Sys.relayRows, markAll]
      · rfl⟩
  | r :: rows, s => by
      obtain ⟨hp, hb, ho⟩ := Sys.relayRows_healthy svc key rows (s.publishRow svc r true)
      simp only [List.map_cons, Sys.relayRows, if_true]
      refine ⟨by rw [hp], by rw [hb]; simp [Sys.publishRow], fun svc' => ?_⟩
      rw [ho, Sys.publishRow_outbox, Sys.publishRow_outbox, if_pos rfl]
      split
      · exact markAll_markSent _ _ _
      · rfl

/-- A tick of a relay whose query, `Publish` and `MarkSent` calls all return `nil`: the loop
over the rows the query returned. -/
theorem Sys.relayTick_healthy {s : Sys} {svc : Service} {outcomes : List (Bool × Bool)}
    {r : Sys × List Publication} (h : s.relayTick svc true outcomes = some r)
    (hok : ∀ o ∈ outcomes, o = (true, true)) :
    r.2 = (findPending (s.outbox svc) 100).map
        (fun x => ⟨x.eventType, relayKey svc x.payload, x.payload⟩) ∧
      r.1.bus = s.bus ++
        (findPending (s.outbox svc) 100).map (fun x => ⟨x.eventType, x.payload⟩) ∧
      r.1.outbox svc = markAll ((findPending (s.outbox svc) 100).map (·.id)) (s.outbox svc) ∧
      ∀ svc', svc' ≠ svc → r.1.outbox svc' = s.outbox svc' := by
  rcases Sys.relayLoop_eq_some (Sys.relayTick_loop h).2 with ⟨-, hl, rfl⟩ | ⟨h₀, -⟩
  · rw [zip_healthy hl hok]
    obtain ⟨hp, hb, ho⟩ :=
      Sys.relayRows_healthy svc (relayKey svc) (findPending (s.outbox svc) 100) s
    exact ⟨hp, hb, by rw [ho, if_pos rfl], fun svc' hne => by rw [ho, if_neg hne]⟩
  · cases h₀

/-- The `PENDING` rows that `ORDER BY created_at` can return before the row at place `i` of
`out`, created at `c`: the earlier rows of the table created no later than `c`, and the later
ones created before `c`. -/
def queuedBefore (out : List OutboxRow) (i c : Nat) : Nat :=
  (out.take i).countP (fun x => x.status = .pending ∧ x.createdAt ≤ c) +
    (out.drop (i + 1)).countP (fun x => x.status = .pending ∧ x.createdAt < c)

/-- The executions holding a clock reading before `c`: each may still commit one row that sorts
before a row created at `c`. -/
def heldBefore (vs : List Held) (c : Nat) : Nat := vs.countP fun z => z.reading.any (· < c)

/-- What the relay of `svc` may still publish before the row at place `i` of its outbox, created
at `c`. -/
def Sys.backlog (s : Sys) (svc : Service) (i c : Nat) : Nat :=
  queuedBefore (s.outbox svc) i c + heldBefore (s.clocks svc) c

theorem queuedBefore_settled {out out' : List OutboxRow} (h : Settled out out') (i c : Nat) :
    queuedBefore out' i c ≤ queuedBefore out i c :=
  Nat.add_le_add
    (Settled.countP_le (fun _ _ hs hq => hs.eq_of_pending (of_decide_eq_true hq).1 ▸ hq)
      (List.forall₂_take i h))
    (Settled.countP_le (fun _ _ hs hq => hs.eq_of_pending (of_decide_eq_true hq).1 ▸ hq)
      (List.forall₂_drop (i + 1) h))

theorem queuedBefore_append {out : List OutboxRow} {i : Nat} (hi : i < out.length)
    (xs : List OutboxRow) (c : Nat) : queuedBefore (out ++ xs) i c =
      queuedBefore out i c + xs.countP (fun x => x.status = .pending ∧ x.createdAt < c) := by
  simp only [queuedBefore, List.take_append_of_le_length hi.le,
    List.drop_append_of_le_length (show i + 1 ≤ out.length by omega), List.countP_append]
  omega

theorem countP_advance {τ : Type} (p : τ → Bool) {ts : List τ} {j : Nat} {t : τ}
    (ht : ts[j]? = some t) (t' : Option τ) :
    (advance ts j t').countP p + (if p t then 1 else 0) =
      ts.countP p + (t'.map fun x => if p x then 1 else 0).getD 0 := by
  induction ts generalizing j with
  | nil => simp at ht
  | cons a ts ih =>
      cases j with
      | zero =>
          obtain rfl : a = t := by simpa using ht
          cases t' <;> simp [advance, List.countP_cons]
          omega
      | succ j =>
          have := ih (j := j) (by simpa using ht)
          cases t' <;> simp only [advance, List.eraseIdx_cons_succ, List.set_cons_succ,
            List.countP_cons] at this ⊢ <;> omega

/-- An execution that goes on holds a reading before `c` only if it held one and the outbox
stayed: a reading taken now is not before `c`. -/
theorem heldMove_before {out out' : List OutboxRow} {x z : Held} {u u' c : Nat}
    (hm : HeldMove out out' x z u u') (hcu : c < u) (hz : z.reading.any (· < c)) :
    out' = out ∧ x.reading.any (· < c) := by
  rcases hm.2 with hn | ⟨ho, hr | ⟨hr, -⟩⟩
  · simp [hn] at hz
  · exact ⟨ho, hr ▸ hz⟩
  · simp only [hr, Option.any_some, decide_eq_true_eq] at hz
    omega

/-- The row a transaction holds sorts before a row created at `c` only if its execution's
reading is before `c`. -/
theorem carries_before {x : Held} (hx : x.Carries) (c : Nat) :
    x.rows.countP (fun r => r.status = .pending ∧ r.createdAt < c) ≤
      if x.reading.any (· < c) then 1 else 0 := by
  rcases hx with he | ⟨r, he, hr⟩
  · simp [he]
  · rw [he, hr]
    by_cases h : r.createdAt < c
    · simp only [List.countP_singleton, Option.any_some, h, decide_eq_true_eq, if_true]
      split <;> omega
    · simp [h]

/-- No step raises what may be published before a row created before the clock's value. -/
theorem HeldStep.backlog_le {u u' n n' c i : Nat} {out out' : List OutboxRow} {vs vs' : List Held}
    (h : HeldStep u u' n n' out vs out' vs') (hc : Clocked u out vs) (hcu : c < u)
    (hi : i < out.length) :
    queuedBefore out' i c + heldBefore vs' c ≤ queuedBefore out i c + heldBefore vs c := by
  cases h with
  | settle hs => exact Nat.add_le_add_right (queuedBefore_settled hs i c) _
  | crash => exact Nat.add_le_add_left ((List.eraseIdx_sublist _ _).countP_le _) _
  | start _ fresh hf =>
      have : heldBefore fresh c = 0 := List.countP_eq_zero.2 fun z hz => by simp [hf z hz]
      simp only [heldBefore, List.countP_append] at this ⊢
      omega
  | @call out' _ _ x y hj hr hy =>
      have hx := hc.2 x (List.getElem?_mem hj)
      have hadv := countP_advance (fun z : Held => z.reading.any (· < c)) hj y
      have hcar := carries_before hx.1 c
      -- what the execution holds after the call counts only if it kept an earlier reading
      have hyle : (y.map fun z => if z.reading.any (· < c) then 1 else 0).getD 0 ≤
          if out' = out then (if x.reading.any (· < c) then 1 else 0) else 0 := by
        cases y with
        | none => exact Nat.zero_le _
        | some z =>
            by_cases hz : z.reading.any (· < c)
            · obtain ⟨ho, hxc⟩ := heldMove_before (hy z rfl) hcu hz
              simp [hz, ho, hxc]
            · simp [hz]
      simp only [heldBefore] at hadv ⊢
      rcases hr.2.2.1 with rfl | ⟨rfl, -⟩
      · simp only [if_true] at hyle
        omega
      · rw [queuedBefore_append hi]
        rcases hx.1 with hxr | ⟨r₀, hxr, -⟩
        · simp only [hxr, List.append_nil, if_true, List.countP_nil] at hyle ⊢
          omega
        · simp only [hxr, List.append_right_eq_self, List.cons_ne_nil, if_false] at hyle
          omega

/-- The row at a place of the outbox stays there, `PENDING` or marked `SENT`. -/
theorem HeldStep.getElem? {u u' n n' i : Nat} {out out' : List OutboxRow} {vs vs' : List Held}
    (h : HeldStep u u' n n' out vs out' vs') {r : OutboxRow} (hr : out[i]? = some r) :
    ∃ r', out'[i]? = some r' ∧ Settles r r' := by
  cases h with
  | settle hs => exact hs.getElem? hr
  | crash | start => exact ⟨r, hr, .inl rfl⟩
  | call _ hrs =>
      rcases hrs.2.2.1 with rfl | ⟨rfl, -⟩
      · exact ⟨r, hr, .inl rfl⟩
      · exact ⟨r, by rw [List.getElem?_append_left (List.getElem?_eq_some_iff.mp hr).1, hr], .inl rfl⟩

/-! ## A healthy tick lowers the backlog -/

/-- Marking rows `SENT` takes from a count of `PENDING` rows those that were marked. -/
theorem countP_markAll (ids : List Nat) {p : OutboxRow → Bool}
    (hp : ∀ x : OutboxRow, p { x with status := .sent } = false) (l : List OutboxRow) :
    (markAll ids l).countP p + l.countP (fun x => p x ∧ x.id ∈ ids) = l.countP p := by
  induction l with
  | nil => rfl
  | cons x l ih =>
      have e : markAll ids (x :: l) =
          (if x.id ∈ ids then { x with status := .sent } else x) :: markAll ids l := rfl
      rw [e, List.countP_cons, List.countP_cons, List.countP_cons]
      by_cases hx : x.id ∈ ids <;> by_cases hpx : p x <;> simp [hx, hpx, hp] at ih ⊢ <;> omega

theorem markAll_take (ids : List Nat) (l : List OutboxRow) (i : Nat) :
    (markAll ids l).take i = markAll ids (l.take i) := (List.map_take ..).symm

theorem markAll_drop (ids : List Nat) (l : List OutboxRow) (i : Nat) :
    (markAll ids l).drop i = markAll ids (l.drop i) := (List.map_drop ..).symm

/-- A tick that publishes the first `limit` `PENDING` rows and marks them `SENT` either marks the
row at place `i`, or marks `limit` rows that the query could return before it. -/
theorem queuedBefore_markAll {out : List OutboxRow} {i limit : Nat} {r : OutboxRow}
    (hn : out.Nodup) (hr : out[i]? = some r) (hp : r.status = .pending) :
    r.id ∈ (findPending out limit).map (·.id) ∨
      queuedBefore (markAll ((findPending out limit).map (·.id)) out) i r.createdAt + limit ≤
        queuedBefore out i r.createdAt := by
  set P := findPending out limit
  set ids := P.map (·.id)
  by_cases hrP : r ∈ P
  · exact .inl (List.mem_map_of_mem _ hrP)
  refine .inr ?_
  obtain ⟨hlen, hle⟩ := findPending_first (List.getElem?_mem hr) hp hrP
  have hsplit : out = out.take i ++ r :: out.drop (i + 1) := by
    obtain ⟨hi, hget⟩ := List.getElem?_eq_some_iff.mp hr
    rw [← hget, ← List.drop_eq_getElem_cons hi, List.take_append_drop]
  -- every row the tick marks could be returned before the row at place `i`
  have hahead : ∀ x ∈ P, x ∈ (out.take i).filter (fun x => (x.status = .pending ∧
      x.createdAt ≤ r.createdAt) ∧ x.id ∈ ids) ++ (out.drop (i + 1)).filter (fun x =>
      (x.status = .pending ∧ x.createdAt < r.createdAt) ∧ x.id ∈ ids) := by
    intro x hx
    obtain ⟨hxo, hxp⟩ := mem_of_mem_findPending hx
    have hxr : x ≠ r := fun h => hrP (h ▸ hx)
    have hxid : x.id ∈ ids := List.mem_map_of_mem _ hx
    rw [hsplit] at hxo
    rcases List.mem_append.mp hxo with hxo | hxo
    · exact List.mem_append_left _ (List.mem_filter.2 ⟨hxo, by simp [hxp, hle x hx, hxid]⟩)
    · have hxo := (List.mem_cons.mp hxo).resolve_left hxr
      have hlt : x.createdAt < r.createdAt := by
        refine lt_of_le_of_ne (hle x hx) fun heq => ?_
        have hsub : List.Sublist [r, x] out := by
          rw [hsplit]
          exact ((List.singleton_sublist.2 hxo).cons₂ r).trans (List.sublist_append_right _ _)
        exact findPending_stable hn hsub hp hxp heq.ge hrP hx
      exact List.mem_append_right _ (List.mem_filter.2 ⟨hxo, by simp [hxp, hxid, hlt]⟩)
  have hPn : P.Nodup := ((List.perm_insertionSort _ _).nodup_iff.2 (hn.filter _)).sublist
    (List.take_sublist _ _)
  have hcount := (hPn.subperm hahead).length_le
  rw [hlen, List.length_append, ← List.countP_eq_length_filter,
    ← List.countP_eq_length_filter] at hcount
  have h₁ := countP_markAll ids (p := fun x => x.status = .pending ∧ x.createdAt ≤ r.createdAt)
    (by simp) (out.take i)
  have h₂ := countP_markAll ids (p := fun x => x.status = .pending ∧ x.createdAt < r.createdAt)
    (by simp) (out.drop (i + 1))
  simp only [queuedBefore, markAll_take, markAll_drop, decide_eq_true_eq] at h₁ h₂ hcount ⊢
  omega

/-! ## Every run -/

/-- A tick of the relay of `svc` whose query, `Publish` and `MarkSent` calls all return `nil`. -/
def RelayAction.healthy (svc : Service) : RelayAction → Bool
  | .tick svc' scanned outcomes => decide (svc' = svc) && scanned && outcomes.all (· = (true, true))
  | .act _ => false

theorem RelayAction.healthy_eq {svc : Service} {a : RelayAction} (h : a.healthy svc = true) :
    ∃ outcomes, a = .tick svc true outcomes ∧ ∀ o ∈ outcomes, o = (true, true) := by
  cases a with
  | act => cases h
  | tick svc' scanned outcomes =>
      simp only [RelayAction.healthy, Bool.and_eq_true, decide_eq_true_eq, List.all_eq_true] at h
      obtain ⟨⟨rfl, rfl⟩, hok⟩ := h
      exact ⟨outcomes, rfl, hok⟩

/-- One step keeps the row at place `i` there, `PENDING` or marked `SENT`; while it is `PENDING`,
the step raises nothing that may be published before it, and a healthy tick of its relay lowers
that by 100. -/
theorem RelayInv.backlog_step {s s' : Sys} (hi : RelayInv s) {a : RelayAction}
    (hs : s.relayStep a = some s') {svc : Service} {i : Nat} {r : OutboxRow}
    (hr : (s.outbox svc)[i]? = some r) :
    ∃ r', (s'.outbox svc)[i]? = some r' ∧ Settles r r' ∧ (r'.status = .pending →
      s'.backlog svc i r.createdAt + (if a.healthy svc then 100 else 0) ≤
        s.backlog svc i r.createdAt) := by
  obtain ⟨hu, hh⟩ := Sys.relayStep_held hi.sound (fun z hz => ((hi.clocked .payment).2 z hz).1) hs
  have hcu : r.createdAt < s.uuid := (hi.clocked svc).1 r (List.getElem?_mem hr)
  obtain ⟨r', hr', hst⟩ := (hh svc).getElem? hr
  refine ⟨r', hr', hst, fun hp => ?_⟩
  have hle := (hh svc).backlog_le (hi.clocked svc) hcu (List.getElem?_eq_some_iff.mp hr).1
  cases hheal : a.healthy svc
  · simpa [Sys.backlog] using hle
  obtain ⟨outcomes, rfl, hok⟩ := RelayAction.healthy_eq hheal
  simp only [Sys.relayStep, Option.ite_none_right_eq_some, Option.map_eq_some'] at hs
  obtain ⟨-, res, hres, rfl⟩ := hs
  obtain ⟨-, -, hout, -⟩ := Sys.relayTick_healthy hres hok
  have hcl := ((Sys.relayTick_held hres).2 svc).2.1
  obtain rfl := hst.eq_of_pending hp
  have hnd := ((hi.ids svc).append_left).nodup
  rcases @queuedBefore_markAll _ i 100 _ hnd hr hp with hin | hdec
  · rw [hout, markAll, List.getElem?_map, hr] at hr'
    simp only [hin, if_true, Option.map_some', Option.some.injEq] at hr'
    rw [← hr'] at hp
    cases hp
  · simp only [Sys.backlog, hout, hcl, if_true]
    omega

/-- Over a run, the row at place `i` stays there, `PENDING` or marked `SENT`; while it is
`PENDING`, what may be published before it has fallen by 100 for each healthy tick of its
relay. -/
theorem RelayInv.backlog_run {svc : Service} {i : Nat} :
    ∀ {as : List RelayAction} {s s' : Sys} {r : OutboxRow}, RelayInv s →
      runSteps Sys.relayStep s as = some s' → (s.outbox svc)[i]? = some r →
      ∃ r', (s'.outbox svc)[i]? = some r' ∧ Settles r r' ∧ (r'.status = .pending →
        s'.backlog svc i r.createdAt + 100 * as.countP (·.healthy svc) ≤
          s.backlog svc i r.createdAt)
  | [], s, s', r, _, hrun, hr => by
      cases hrun
      exact ⟨r, hr, .inl rfl, fun _ => by simp⟩
  | a :: as, s, s', r, hi, hrun, hr => by
      simp only [runSteps, Option.bind_eq_some] at hrun
      obtain ⟨s₁, h₁, h₂⟩ := hrun
      obtain ⟨r₁, hr₁, hs₁, hb₁⟩ := hi.backlog_step h₁ hr
      obtain ⟨r', hr', hs', hb'⟩ := (hi.relayStep h₁).backlog_run h₂ hr₁
      refine ⟨r', hr', hs₁.trans hs', fun hp => ?_⟩
      have hp₁ : r₁.status = .pending := hs'.eq_of_pending hp ▸ hp
      have h₁ := hb₁ hp₁
      have h₂ := hb' hp
      rw [hs₁.createdAt] at h₂
      rw [List.countP_cons]
      split <;> simp_all <;> omega

/-- Every run of the system with the relay loops, from any state they reach: a row of the outbox
of `svc` at place `i` is `SENT`, and its event on the bus, once the run has held more than
`k / 100` healthy ticks of that relay, where `k` counts the `PENDING` rows that `ORDER BY
created_at` puts before it and the executions holding an earlier clock reading; whatever other
steps, failed ticks and ticks of other relays come in between. -/
theorem relay_sends_row_within_ticks {inv : List InventoryRow} {s s' : Sys}
    {as : List RelayAction} {svc : Service} {i : Nat} {r : OutboxRow} (h : RelayReachable inv s)
    (hrun : runSteps Sys.relayStep s as = some s') (hr : (s.outbox svc)[i]? = some r)
    (hticks : s.backlog svc i r.createdAt / 100 < as.countP (·.healthy svc)) :
    (s'.outbox svc)[i]? = some { r with status := .sent } ∧
      (⟨r.eventType, r.payload⟩ : Message) ∈ s'.bus := by
  obtain ⟨r', hr', hst, hb⟩ := (relayInv_of_relayReachable h).backlog_run hrun hr
  have hsent : r'.status = .sent := by
    cases hs : r'.status
    · have := hb hs
      omega
    · rfl
  have hr'eq : r' = { r with status := .sent } := by
    rcases hst with rfl | rfl
    · cases r'
      simp_all
    · rfl
  subst hr'eq
  exact ⟨hr', (relayInv_of_relayReachable (Reach.trans h (Reach.init.run hrun))).sound.2.2.sent svc
    { r with status := .sent } (List.getElem?_mem hr') rfl⟩

/-- Order 1's `OrderCreated` is committed while the execution creating order 2 holds an earlier
clock reading, so one thing may still be published before it: that execution's row. The
execution commits, and one healthy tick of the Order relay publishes both rows, order 2's first,
and marks order 1's `SENT`. -/
theorem order_row_sent_after_earlier_reading_commits :
    let cmd : CreateOrderCommand :=
      { userId := 1001, amount := 50000, quantity := 1, idempotencyKey := "k1" }
    let calls (j n : Nat) : List RelayAction := List.replicate n (.act (.call .order j true))
    let run : List RelayAction := calls 0 3 ++ [.tick .order true [(true, true), (true, true)]]
    ∃ s s' r, runSteps Sys.relayStep (Sys.init [])
        ([.act (.request cmd), .act (.request { cmd with idempotencyKey := "k2" })] ++
          calls 0 2 ++ calls 1 5) = some s ∧
      runSteps Sys.relayStep s run = some s' ∧ (s.outbox .order)[0]? = some r ∧
      r.payload.orderId = 1 ∧ s.backlog .order 0 r.createdAt = 1 ∧
      (s'.outbox .order)[0]? = some { r with status := .sent } ∧
      (⟨r.eventType, r.payload⟩ : Message) ∈ s'.bus := by
  intro cmd calls run
  obtain ⟨s, hs, he⟩ := Option.bind_eq_some.mp (show
    (runSteps Sys.relayStep (Sys.init [])
        ([.act (.request cmd), .act (.request { cmd with idempotencyKey := "k2" })] ++
          calls 0 2 ++ calls 1 5)).bind (fun s => ((s.outbox .order)[0]?).bind fun r =>
      (runSteps Sys.relayStep s run).map fun _ => (r.payload.orderId, s.backlog .order 0 r.createdAt)) =
      some (1, 1) by decide)
  obtain ⟨r, hr, he⟩ := Option.bind_eq_some.mp he
  obtain ⟨s', hs', hv⟩ := Option.map_eq_some'.mp he
  obtain ⟨ho, hb⟩ := Prod.mk.inj hv
  exact ⟨s, s', r, hs, hs', hr, ho, hb,
    relay_sends_row_within_ticks (Reach.init.run hs) hs' hr (by rw [hb]; decide)⟩

end MsaSaga.System
