import MsaSaga.PaymentLedger

/-!
# The statuses of the payments table

`HandleOrderCreated` creates a payment only once the gateway charged it, and creates it
`COMPLETED`; a decline writes only a `PaymentFailed` to the outbox. The only status update is
the compensation's `UpdateStatus(REFUNDED)`, which comes after the gateway's refund. So in every
state the system reaches, a payment is `COMPLETED`, or `REFUNDED` with the gateway's refund
behind it, and a `REFUNDED` payment stays so: no payment is ever `PENDING` or `FAILED`, and none
goes back.

The converse fails: a process that stops between the gateway's refund and `UpdateStatus`, or an
`UpdateStatus` that fails, leaves a refunded payment `COMPLETED`.
-/
namespace MsaSaga.PaymentService
open Events Schema

/-! ## What one call does to the payments table -/

/-- What one call does to the payments table and the gateway's refunds: nothing, `Create` of a
`COMPLETED` payment under the next id, a refund, or `UpdateStatus(REFUNDED)` of a refunded
payment. -/
inductive PaymentsStep (db db' : PaymentDb) : Prop
  | same : db'.payments = db.payments → db'.nextPaymentId = db.nextPaymentId →
      db'.refunds = db.refunds → PaymentsStep db db'
  | create (p : Payment) : p.id = db.nextPaymentId → p.status = .completed →
      db'.payments = db.payments ++ [p] → db'.nextPaymentId = db.nextPaymentId + 1 →
      db'.refunds = db.refunds → PaymentsStep db db'
  | refund (id : Nat) : db'.payments = db.payments → db'.nextPaymentId = db.nextPaymentId →
      db'.refunds = db.refunds ++ [id] → PaymentsStep db db'
  | update (id : Nat) (reason : String) : id ∈ db.refunds →
      db'.payments = (updateStatus db id .refunded reason).payments →
      db'.nextPaymentId = db.nextPaymentId → db'.refunds = db.refunds → PaymentsStep db db'

theorem PaymentsStep.refunds {db db' : PaymentDb} (h : PaymentsStep db db') :
    db.refunds ⊆ db'.refunds := by
  cases h with
  | refund _ _ _ hr => exact hr ▸ List.subset_append_left _ _
  | same _ _ hr | create _ _ _ _ _ hr | update _ _ _ _ _ hr => exact hr ▸ List.Subset.refl _

/-- Ids below the sequence and distinct; a payment `COMPLETED`, or `REFUNDED` and refunded. -/
structure PaymentDb.Settled (db : PaymentDb) : Prop where
  below : ∀ p ∈ db.payments, p.id < db.nextPaymentId
  nodup : (db.payments.map (·.id)).Nodup
  status : ∀ p ∈ db.payments, p.status = .completed ∨ (p.status = .refunded ∧ p.id ∈ db.refunds)

theorem mem_updateStatus {db : PaymentDb} {id : Nat} {st : PaymentStatus} {reason : String}
    {p' : Payment} (h : p' ∈ (updateStatus db id st reason).payments) :
    ∃ p ∈ db.payments, p'.id = p.id ∧ p'.status = if p.id = id then st else p.status := by
  obtain ⟨p, hp, rfl⟩ := List.mem_map.mp h
  exact ⟨p, hp, by split <;> rfl, by split <;> rfl⟩

theorem PaymentsStep.settled {db db' : PaymentDb} (h : PaymentsStep db db') (hs : db.Settled) :
    db'.Settled := by
  cases h with
  | same ho hn hr => exact ⟨ho ▸ hn ▸ hs.below, ho ▸ hs.nodup, ho ▸ hr ▸ hs.status⟩
  | create p hid hst ho hn hr =>
      refine ⟨fun q hq => ?_, ?_, fun q hq => ?_⟩
      · rw [ho] at hq
        rw [hn]
        rcases List.mem_append.mp hq with hq | hq
        · exact Nat.lt_succ_of_lt (hs.below q hq)
        · rw [List.mem_singleton.mp hq]; omega
      · rw [ho, List.map_append]
        refine List.nodup_append.mpr ⟨hs.nodup, List.nodup_singleton _, fun a ha hb => ?_⟩
        obtain ⟨q, hq, rfl⟩ := List.mem_map.mp ha
        have := hs.below q hq
        have : q.id = p.id := by simpa using hb
        omega
      · rw [ho] at hq
        rw [hr]
        rcases List.mem_append.mp hq with hq | hq
        · exact hs.status q hq
        · exact .inl (List.mem_singleton.mp hq ▸ hst)
  | refund id ho hn hr =>
      refine ⟨ho ▸ hn ▸ hs.below, ho ▸ hs.nodup, fun q hq => ?_⟩
      rw [hr]
      exact (hs.status q (ho ▸ hq)).imp_right fun h => ⟨h.1, List.mem_append_left _ h.2⟩
  | update id reason hid ho hn hr =>
      refine ⟨fun q hq => ?_, ?_, fun q hq => ?_⟩
      · obtain ⟨p, hp, hpq, -⟩ := mem_updateStatus (ho ▸ hq)
        exact hn ▸ hpq ▸ hs.below p hp
      · rw [ho]
        simpa [updateStatus, List.map_map, Function.comp_def, apply_ite] using hs.nodup
      · obtain ⟨p, hp, hpq, hst⟩ := mem_updateStatus (ho ▸ hq)
        rw [hr, hpq]
        split at hst
        next hpid => exact .inr ⟨hst, hpid ▸ hid⟩
        next => exact hst ▸ hs.status p hp

/-- A `REFUNDED` payment stays `REFUNDED`: a new payment takes a fresh id, and the update
writes only `REFUNDED`. -/
theorem PaymentsStep.keeps_refunded {db db' : PaymentDb} (h : PaymentsStep db db')
    (hs : db.Settled) {p : Payment} (hp : p ∈ db.payments) (hst : p.status = .refunded)
    {p' : Payment} (hp' : p' ∈ db'.payments) (hid : p'.id = p.id) : p'.status = .refunded := by
  have same : ∀ {q}, q ∈ db.payments → q.id = p.id → q = p := fun hq h =>
    List.inj_on_of_nodup_map hs.nodup hq hp h
  cases h with
  | same ho _ _ | refund _ ho _ _ => exact same (ho ▸ hp') hid ▸ hst
  | create q hq _ ho _ _ =>
      rcases List.mem_append.mp (ho ▸ hp') with hp' | hp'
      · exact same hp' hid ▸ hst
      · have := hs.below p hp
        rw [List.mem_singleton.mp hp'] at hid
        omega
  | update id _ _ ho _ _ =>
      obtain ⟨q, hq, hqid, hqst⟩ := mem_updateStatus (ho ▸ hp')
      obtain rfl := same hq (hqid ▸ hid)
      rw [hqst]
      split <;> simp [hst]

/-! ## The handlers -/

/-- What a compensation relies on before `UpdateStatus`: the gateway refunded the payment. -/
def RefundRun.Refunded (db : PaymentDb) (m : RefundRun) : Prop :=
  match m.pc with
  | .updateStatus p => p.id ∈ db.refunds
  | _ => True

theorem RefundRun.Refunded.mono {db db' : PaymentDb} (h : db.refunds ⊆ db'.refunds)
    {m : RefundRun} (hm : m.Refunded db) : m.Refunded db' := by
  obtain ⟨pc, tx⟩ := m
  cases pc <;> first | trivial | exact h hm

section Handlers
variable (evt : Event) (ok : Bool) (u : Nat) {db : PaymentDb}

theorem handleOrderCreated_payments (m : OrderCreatedRun) :
    Next.Sat (fun _ _ db' => PaymentsStep db db') (fun _ _ db' => PaymentsStep db db')
      (handleOrderCreated evt m ok u db) := by
  obtain ⟨pc, tx⟩ := m
  cases pc <;> cases ok <;>
    simp only [handleOrderCreated, Bool.false_eq_true, false_and, true_and, ↓reduceIte] <;>
    (repeat' split) <;> simp only [Next.Sat]
  case create.true.h_1 h =>
    obtain ⟨-, rfl, rfl⟩ := create_eq_ok h
    exact .create _ rfl rfl rfl rfl rfl
  all_goals exact .same rfl rfl rfl

theorem handleStockReservationFailed_payments (m : RefundRun) (hm : m.Refunded db) :
    Next.Sat (fun m' _ db' => PaymentsStep db db' ∧ m'.Refunded db')
      (fun _ _ db' => PaymentsStep db db') (handleStockReservationFailed evt m ok u db) := by
  obtain ⟨pc, tx⟩ := m
  cases pc <;> cases ok <;> simp only [RefundRun.Refunded] at hm <;>
    simp only [handleStockReservationFailed, Bool.false_eq_true, ↓reduceIte] <;>
    (repeat' split) <;> simp only [Next.Sat, RefundRun.Refunded]
  case refundPayment.false p | refundPayment.true p =>
    exact ⟨.refund p.id rfl rfl rfl, List.mem_append_right _ (List.mem_singleton_self _)⟩
  case updateStatus.true p => exact ⟨.update p.id evt.reason hm rfl rfl rfl, trivial⟩
  all_goals first | exact .same rfl rfl rfl | exact ⟨.same rfl rfl rfl, trivial⟩

/-- What a handler of a consumer execution relies on. -/
def PaymentRun.Refunded (db : PaymentDb) : PaymentRun → Prop
  | .orderCreated _ => True
  | .stockReservationFailed m => m.Refunded db

theorem PaymentRun.Refunded.mono {db db' : PaymentDb} (h : db.refunds ⊆ db'.refunds) :
    ∀ {r : PaymentRun}, r.Refunded db → r.Refunded db'
  | .orderCreated _, _ => trivial
  | .stockReservationFailed _, hm => RefundRun.Refunded.mono h hm

theorem PaymentRun.step_payments (h : PaymentRun) (hh : h.Refunded db) :
    Next.Sat (fun h' _ db' => PaymentsStep db db' ∧ h'.Refunded db')
      (fun _ _ db' => PaymentsStep db db') (h.step evt ok u db) := by
  cases h with
  | orderCreated m =>
      have := @handleOrderCreated_payments evt ok u db m
      simp only [PaymentRun.step]
      generalize handleOrderCreated evt m ok u db = r at this
      obtain ⟨_ | _, _, _⟩ := r
      · exact ⟨this, trivial⟩
      · exact this
  | stockReservationFailed m =>
      have := handleStockReservationFailed_payments evt ok u m hh
      simp only [PaymentRun.step]
      generalize handleStockReservationFailed evt m ok u db = r at this
      obtain ⟨_ | _, _, _⟩ := r <;> exact this

end Handlers

/-- What a consumer execution relies on, while it runs its handler. -/
def PaymentConsumer.Refunded (db : PaymentDb) (c : PaymentConsumer) : Prop :=
  ∀ h ∈ c.stage.run?, h.Refunded db

theorem PaymentConsumer.step_payments (c : PaymentConsumer) (ok : Bool) (u : Nat) (gate : List Nat)
    {db : PaymentDb} (hc : c.Refunded db) :
    PaymentsStep db (c.step ok u gate db).2.2.2 ∧
      ∀ c' ∈ (c.step ok u gate db).1, c'.Refunded (c.step ok u gate db).2.2.2 := by
  obtain ⟨src, evt, stage⟩ := c
  have := @Stage.step_sat _ _ (PaymentRun.step evt) evt.eventId
    (fun h' _ db' => PaymentsStep db db' ∧ h'.Refunded db') (fun _ _ db' => PaymentsStep db db')
    stage ok u gate db (fun h e => ⟨.same rfl rfl rfl, hc h (by simp [e])⟩) (.same rfl rfl rfl)
    (fun h e => PaymentRun.step_payments evt ok u h (hc h (by simp [e])))
  simp only [PaymentConsumer.step]
  generalize Stage.step (PaymentRun.step evt) evt.eventId stage ok u gate db = r at this ⊢
  obtain ⟨(h' | h' | _) | e, u', gate', db'⟩ := r
  · exact this.elim
  · exact ⟨this.1, by simpa [PaymentConsumer.Refunded] using this.2⟩
  · exact ⟨this, by simp [PaymentConsumer.Refunded]⟩
  · exact ⟨this, by simp⟩

theorem PaymentConsumer.start_refunded {src : Nat} {msg : Message} {c : PaymentConsumer}
    (h : c ∈ (PaymentConsumer.start src msg).toList) (db : PaymentDb) : c.Refunded db := by
  simp only [PaymentConsumer.start, Option.mem_toList, Option.mem_def, Option.map_eq_some'] at h
  obtain ⟨r, hr, rfl⟩ := h
  unfold runOf at hr
  split at hr <;> cases hr <;>
    simp [PaymentConsumer.Refunded, PaymentRun.Refunded, RefundRun.Refunded]

/-! ## Every reachable state -/

/-- The service's part: its payments table and every execution in flight. -/
structure PaymentSvc.Settled (s : PaymentSvc) : Prop where
  db : s.db.Settled
  threads : ∀ c ∈ s.threads, c.Refunded s.db

/-- One step of the service moves its payments table by one `PaymentsStep` and keeps it
settled. -/
theorem PaymentSvc.Settled.step {s s' : PaymentSvc} (hi : s.Settled) {a : PaymentAction}
    (h : s.step a = some s') : s'.Settled ∧ PaymentsStep s.db s'.db := by
  cases a with
  | deliver src msg =>
      cases h
      exact ⟨⟨hi.db, fun c hc => (List.mem_append.mp hc).elim (hi.threads c)
        fun hc => PaymentConsumer.start_refunded hc _⟩, .same rfl rfl rfl⟩
  | call j ok u =>
      obtain ⟨r, hr, rfl⟩ := Option.map_eq_some'.mp h
      obtain ⟨t, ht, rfl⟩ := Option.map_eq_some'.mp hr
      obtain ⟨hstep, hnew⟩ := t.step_payments ok u s.gate (hi.threads t (List.getElem?_mem ht))
      exact ⟨⟨hstep.settled hi.db, fun c hc => (mem_advance hc).elim
        (fun hc h hh => (hi.threads c (List.mem_of_mem_eraseIdx hc) h hh).mono hstep.refunds)
        (hnew c)⟩, hstep⟩
  | crash j =>
      cases h
      exact ⟨⟨hi.db, fun c hc => hi.threads c (List.mem_of_mem_eraseIdx hc)⟩, .same rfl rfl rfl⟩
  | expire k => cases h; exact ⟨⟨hi.db, hi.threads⟩, .same rfl rfl rfl⟩
  | markSent id =>
      cases h
      exact ⟨⟨⟨hi.db.below, hi.db.nodup, hi.db.status⟩, hi.threads⟩, .same rfl rfl rfl⟩

theorem settled_of_reachable {s : PaymentSvc} (h : PaymentSvc.Reachable s) : s.Settled := by
  induction h with
  | init => exact ⟨⟨by simp, by simp, by simp⟩, by simp⟩
  | step a _ hs ih => exact (ih.step hs).1

end MsaSaga.PaymentService

namespace MsaSaga.System
open Events Schema OrderService PaymentService

/-- In every state the system reaches, every payment is `COMPLETED`, or `REFUNDED` after the
gateway refunded it, and no step of the system turns a `REFUNDED` payment back. -/
theorem payments_completed_or_refunded_for_good {inv : List InventoryRow} {s : Sys}
    (h : Reachable inv s) :
    (∀ p ∈ s.payment.db.payments,
      p.status = .completed ∨ (p.status = .refunded ∧ p.id ∈ s.payment.db.refunds)) ∧
    ∀ (a : Action) (s' : Sys), s.step a = some s' → ∀ p ∈ s.payment.db.payments,
      p.status = .refunded → ∀ p' ∈ s'.payment.db.payments, p'.id = p.id → p'.status = .refunded := by
  have hi := settled_of_reachable h.payment
  refine ⟨hi.db.status, fun a s' ha p hp hst p' hp' hid => ?_⟩
  rcases Sys.step_payment ha with he | ⟨b, hb⟩
  · exact (PaymentsStep.same rfl rfl rfl).keeps_refunded hi.db hp hst (he ▸ hp') hid
  · exact (hi.step hb).2.keeps_refunded hi.db hp hst hp' hid

/-- Order 1 is charged, its stock reservation fails, and the compensation refunds it: its payment
is `REFUNDED`, with the gateway's refund of payment 1 behind it. -/
theorem compensated_payment_is_refunded :
    let cmd : CreateOrderCommand :=
      { userId := 1001, amount := 50000, quantity := 1, idempotencyKey := "k1" }
    let calls (svc : Service) (js : List Nat) : List Action := js.map (.call svc · true)
    ∃ s, runSteps Sys.step (Sys.init [⟨1, 0, 0, 0⟩])
        (.request cmd :: calls .order (List.replicate 5 0) ++
          [.publish .order 1 true, .deliver .payment 0] ++ calls .payment (List.replicate 8 0) ++
          [.publish .payment 1 true, .deliver .inventory 1] ++
          calls .inventory (List.replicate 6 0) ++ [.publish .inventory 1 true] ++
          .deliver .payment 2 :: calls .payment (List.replicate 8 0)) = some s ∧
      s.payment.db.payments.map (·.status) = [.refunded] ∧ s.payment.db.refunds = [1] ∧
      (∀ p ∈ s.payment.db.payments,
        p.status = .completed ∨ (p.status = .refunded ∧ p.id ∈ s.payment.db.refunds)) ∧
      ∀ (a : Action) (s' : Sys), s.step a = some s' → ∀ p ∈ s.payment.db.payments,
        p.status = .refunded → ∀ p' ∈ s'.payment.db.payments, p'.id = p.id →
          p'.status = .refunded := by
  intro cmd calls
  obtain ⟨s, hs, he⟩ := Option.map_eq_some'.mp (show
    (runSteps Sys.step (Sys.init [⟨1, 0, 0, 0⟩])
        (.request cmd :: calls .order (List.replicate 5 0) ++
          [.publish .order 1 true, .deliver .payment 0] ++ calls .payment (List.replicate 8 0) ++
          [.publish .payment 1 true, .deliver .inventory 1] ++
          calls .inventory (List.replicate 6 0) ++ [.publish .inventory 1 true] ++
          .deliver .payment 2 :: calls .payment (List.replicate 8 0))).map
        (fun s => (s.payment.db.payments.map (·.status), s.payment.db.refunds)) =
      some ([.refunded], [1]) by decide)
  exact ⟨s, hs, (Prod.mk.inj he).1, (Prod.mk.inj he).2,
    payments_completed_or_refunded_for_good (Reach.init.run hs)⟩

end MsaSaga.System
