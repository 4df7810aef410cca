import MsaSaga.PaymentStatuses

/-!
# A refund answers a failed reservation

The only code that calls the gateway's refund is `HandleStockReservationFailed`, and it refunds
the payment `FindByOrderID` returns for the order of the `StockReservationFailed` it handles,
an event the Inventory service committed. So in every run each refund, and each `REFUNDED`
payment, is of a payment whose order has a `StockReservationFailed` in the Inventory outbox:
the compensation never refunds an order whose reservation did not fail. It may refund one
twice: two executions on one `StockReservationFailed`, delivered twice, both pass the Redis
gate and read the payment `COMPLETED` before either writes, and both refund it.
-/
namespace MsaSaga.PaymentService
open Events Schema Executions

theorem handleOrderCreated_refunds (evt : Event) (m : OrderCreatedRun) (ok : Bool) (u : Nat)
    (db : PaymentDb) : (handleOrderCreated evt m ok u db).2.2.refunds = db.refunds := by
  obtain ⟨pc, tx⟩ := m
  cases pc <;> cases ok <;> simp only [handleOrderCreated] <;> (repeat' split) <;> simp_all
  case create.true.h_1 h => obtain ⟨-, -, rfl⟩ := create_eq_ok h; rfl

/-- The compensation refunds only at `refundPayment`, the payment it read. -/
theorem handleStockReservationFailed_refunds (evt : Event) (m : RefundRun) (ok : Bool) (u : Nat)
    (db : PaymentDb) : (handleStockReservationFailed evt m ok u db).2.2.refunds = db.refunds ∨
      ∃ p, m.pc = .refundPayment p ∧
        (handleStockReservationFailed evt m ok u db).2.2.refunds = db.refunds ++ [p.id] := by
  obtain ⟨pc, tx⟩ := m
  cases pc
  case refundPayment p => exact .inr ⟨p, rfl, rfl⟩
  all_goals cases ok <;> simp only [handleStockReservationFailed] <;> (repeat' split) <;>
    simp [updateStatus]

/-- One call of a consumer execution refunds nothing, or the payment the compensation it runs
read. -/
theorem PaymentConsumer.step_refunds (c : PaymentConsumer) (ok : Bool) (u : Nat)
    (gate : List Nat) (db : PaymentDb) :
    (c.step ok u gate db).2.2.2.refunds = db.refunds ∨
      ∃ m p, c.stage = .handle (.stockReservationFailed m) ∧ m.pc = .refundPayment p ∧
        (c.step ok u gate db).2.2.2.refunds = db.refunds ++ [p.id] := by
  obtain ⟨src, evt, stage⟩ := c
  cases stage with
  | isProcessed h => simp only [PaymentConsumer.step, Stage.step]; split <;> exact .inl rfl
  | reserve => exact .inl rfl
  | handle h =>
      have hdb : (PaymentConsumer.step ⟨src, evt, .handle h⟩ ok u gate db).2.2.2 =
          (h.step evt ok u db).2.2 := by
        simp only [PaymentConsumer.step, Stage.step]; split <;> rfl
      rw [hdb]
      cases h with
      | orderCreated m => exact .inl (handleOrderCreated_refunds evt m ok u db)
      | stockReservationFailed m =>
          exact (handleStockReservationFailed_refunds evt m ok u db).imp_right
            fun ⟨p, hp, h⟩ => ⟨m, p, rfl, hp, h⟩

/-- Every refund of the gateway is of a stored payment whose order has an event of `A`. -/
def PaymentDb.RefundsFor (A : Event → Prop) (db : PaymentDb) : Prop :=
  ∀ id ∈ db.refunds, ∃ o a, (id, o, a) ∈ db.ledger ∧ ∃ e, A e ∧ e.orderId = o

theorem PaymentDb.RefundsFor.mono {A A' : Event → Prop} (hA : ∀ e, A e → A' e)
    {db db' : PaymentDb} (hl : db.ledger ⊆ db'.ledger) (hr : db'.refunds ⊆ db.refunds)
    (h : db.RefundsFor A) : db'.RefundsFor A' := fun id hid =>
  let ⟨o, a, hx, e, he, ho⟩ := h id (hr hid)
  ⟨o, a, hl hx, e, hA e he, ho⟩

/-- Every step of the service keeps its refunds answering events of `A`, given that every
compensation in flight handles such an event. -/
theorem PaymentDb.RefundsFor.step {A A' : Event → Prop} (hA : ∀ e, A e → A' e)
    {s s' : PaymentSvc} (hi : s.db.RefundsFor A) (hf : s.Funded)
    (hrun : ∀ c ∈ s.threads, ∀ m, .stockReservationFailed m ∈ c.stage.run? → A c.event)
    {b : PaymentAction} (h : s.step b = some s') : s'.db.RefundsFor A' := by
  cases b with
  | call j ok u =>
      obtain ⟨r, hr, rfl⟩ := Option.map_eq_some'.mp h
      obtain ⟨t, ht, rfl⟩ := Option.map_eq_some'.mp hr
      have htm := List.getElem?_mem ht
      obtain ⟨-, hg, -⟩ := t.step_funded ok u s.gate hf.db (hf.threads t htm)
      rcases t.step_refunds ok u s.gate s.db with he | ⟨m, p, hst, hpc, he⟩
      · exact hi.mono hA hg.ledger fun x h => (congrArg (x ∈ ·) he).mp h
      · intro i hi'
        rw [he] at hi'
        rcases List.mem_append.mp hi' with hi' | hi'
        · obtain ⟨o, a, hx, e, he, ho⟩ := hi i hi'
          exact ⟨o, a, hg.ledger hx, e, hA e he, ho⟩
        · obtain rfl := List.mem_singleton.mp hi'
          have hm := hf.threads t htm (.stockReservationFailed m) (by simp [hst])
          simp only [PaymentRun.Funded, RefundRun.Funded, hpc] at hm
          exact ⟨t.event.orderId, p.amount, hg.ledger hm.2, t.event,
            hA _ (hrun t htm m (by simp [hst])), rfl⟩
  | _ => cases h; exact hi.mono hA (fun _ h => h) (fun _ h => h)

end MsaSaga.PaymentService

namespace MsaSaga.System
open Events Schema Executions OrderService PaymentService

theorem refundsFor_of_reachable {inv : List InventoryRow} {s : Sys} (h : Reachable inv s) :
    s.payment.db.RefundsFor (s.Stored .stockReservationFailed) := by
  induction h with
  | init => simp [PaymentDb.RefundsFor, Sys.init]
  | step a hr hs ih =>
      obtain ⟨ho, hf⟩ := lineage_of_reachable hr
      have hA := fun e he => Sys.Stored.mono (t := .stockReservationFailed) (e := e) (hf.step ho hs).2 he
      rcases Sys.step_payment hs with he | ⟨b, hb⟩
      · rw [he]
        exact ih.mono hA (fun _ h => h) (fun _ h => h)
      · exact ih.step hA (funded_of_reachable (Reachable.payment hr))
          (fun c hc m hm => (hf.payment c hc).2 _ hm) hb

/-- In every run each refund of the gateway, and each `REFUNDED` payment, is of a payment
whose order has a `StockReservationFailed` in the Inventory outbox. -/
theorem refunds_answer_stock_failures {inv : List InventoryRow} {s : Sys} (h : Reachable inv s) :
    (∀ id ∈ s.payment.db.refunds, ∃ p ∈ s.payment.db.payments, p.id = id ∧
      ∃ e, s.Stored .stockReservationFailed e ∧ e.orderId = p.orderId) ∧
    ∀ p ∈ s.payment.db.payments, p.status = .refunded →
      ∃ e, s.Stored .stockReservationFailed e ∧ e.orderId = p.orderId := by
  have hrefund : ∀ id ∈ s.payment.db.refunds, ∃ p ∈ s.payment.db.payments, p.id = id ∧
      ∃ e, s.Stored .stockReservationFailed e ∧ e.orderId = p.orderId := fun id hid => by
    obtain ⟨o, a, hx, e, he, ho⟩ := refundsFor_of_reachable h id hid
    obtain ⟨p, hp, hpx⟩ := PaymentDb.mem_ledger.mp hx
    simp only [Prod.mk.injEq] at hpx
    exact ⟨p, hp, hpx.1, e, he, ho.trans hpx.2.1.symm⟩
  have hs := (settled_of_reachable (Reachable.payment h)).db
  refine ⟨hrefund, fun p hp hst => ?_⟩
  have hid := ((hs.status p hp).resolve_left (by rw [hst]; nofun)).2
  obtain ⟨q, hq, hqp, e, he, ho⟩ := hrefund p.id hid
  obtain rfl := List.inj_on_of_nodup_map hs.nodup hq hp hqp
  exact ⟨e, he, ho⟩

/-- Order 1 is charged, its stock reservation fails, and the compensation refunds payment 1:
the refund answers the `StockReservationFailed` of order 1. -/
theorem compensation_answers_failed_reservation :
    let cmd : CreateOrderCommand :=
      { userId := 1001, amount := 50000, quantity := 1, idempotencyKey := "k1" }
    let calls (svc : Service) (n : Nat) : List Action := List.replicate n (.call svc 0 true)
    let trace : List Action :=
      .request cmd :: calls .order 5 ++ [.publish .order 1 true, .deliver .payment 0] ++
        calls .payment 8 ++ [.publish .payment 1 true, .deliver .inventory 1] ++
        calls .inventory 6 ++ [.publish .inventory 1 true, .deliver .payment 2] ++
        calls .payment 8
    ∃ s, runSteps Sys.step (Sys.init [⟨1, 0, 0, 0⟩]) trace = some s ∧
      s.payment.db.refunds = [1] ∧
      (∀ id ∈ s.payment.db.refunds, ∃ p ∈ s.payment.db.payments, p.id = id ∧
        ∃ e, s.Stored .stockReservationFailed e ∧ e.orderId = p.orderId) ∧
      ∀ p ∈ s.payment.db.payments, p.status = .refunded →
        ∃ e, s.Stored .stockReservationFailed e ∧ e.orderId = p.orderId := by
  intro cmd calls trace
  obtain ⟨s, hs, he⟩ := Option.map_eq_some'.mp (show
    (runSteps Sys.step (Sys.init [⟨1, 0, 0, 0⟩]) trace).map (·.payment.db.refunds) = some [1]
    by decide)
  exact ⟨s, hs, he, refunds_answer_stock_failures (Reach.init.run hs)⟩

/-- Order 1 is paid and finds no stock: the Inventory service commits `StockReservationFailed`.
Delivered twice to the Payment group, the two executions pass `IsProcessed` and read the
payment `COMPLETED` before either updates it; each refunds it and commits a `PaymentRefunded`.
Delivered again after the first has returned, the message is stopped at the gate. -/
theorem overlapping_compensations_refund_twice :
    let cmd : CreateOrderCommand :=
      { userId := 1001, amount := 50000, quantity := 1, idempotencyKey := "k1" }
    let calls (svc : Service) (js : List Nat) : List Action := js.map (.call svc · true)
    let failed : List Action :=
      .request cmd :: calls .order (List.replicate 5 0) ++
        [.publish .order 1 true, .deliver .payment 0] ++ calls .payment (List.replicate 8 0) ++
        [.publish .payment 1 true, .deliver .inventory 1] ++
        calls .inventory (List.replicate 6 0) ++ [.publish .inventory 1 true]
    let refunds (s : Sys) := (s.payment.db.refunds, s.payment.db.outbox.map (·.eventType))
    ∃ s, runSteps Sys.step (Sys.init [⟨1, 0, 0, 0⟩])
        (failed ++ [.deliver .payment 2, .deliver .payment 2] ++
          calls .payment ([0, 1, 0, 1] ++ List.replicate 12 0)) = some s ∧
      Reachable [⟨1, 0, 0, 0⟩] s ∧ s.payment.db.refunds = [1, 1] ∧
      s.payment.db.outbox.map (·.eventType) =
        [.paymentCompleted, .paymentRefunded, .paymentRefunded] ∧
      (runSteps Sys.step (Sys.init [⟨1, 0, 0, 0⟩])
          (failed ++ .deliver .payment 2 :: calls .payment (List.replicate 8 0) ++
            .deliver .payment 2 :: calls .payment [0])).map refunds =
        some ([1], [.paymentCompleted, .paymentRefunded]) := by
  intro cmd calls failed refunds
  obtain ⟨s, hs, he⟩ := Option.map_eq_some'.mp (show
    (runSteps Sys.step (Sys.init [⟨1, 0, 0, 0⟩])
        (failed ++ [.deliver .payment 2, .deliver .payment 2] ++
          calls .payment ([0, 1, 0, 1] ++ List.replicate 12 0))).map refunds =
      some ([1, 1], [.paymentCompleted, .paymentRefunded, .paymentRefunded]) by decide)
  exact ⟨s, hs, Reach.init.run hs, (Prod.mk.inj he).1, (Prod.mk.inj he).2, by decide⟩

end MsaSaga.System
