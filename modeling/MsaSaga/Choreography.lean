import MsaSaga.FreshIds
import MsaSaga.WrittenEvents

/-!
# The choreography: which event each handler answers

Each handler writes events of fixed types in answer to the one topic its consumer group hands
it, copying the order id and the correlation id of the event it handles:
`HandleOrderCreated` writes `PaymentCompleted` or `PaymentFailed`,
`HandleStockReservationFailed` of the Payment service `PaymentRefunded`,
`HandlePaymentCompleted` of the Inventory service `StockReserved` or `StockReservationFailed`,
`HandlePaymentRefunded` `StockRestored`, and `HandleStockReserved` of the Delivery service
`DeliveryStarted`; only `CreateOrder` writes `OrderCreated`. So in every run each event of an
outbox, and each message on the bus, is an `OrderCreated` or answers an event of its trigger
topic for the same order and the same saga, which the service emitting that topic committed.
-/
namespace MsaSaga.Events

/-- The topic whose handler writes events of a type: the edges of the choreography. The four
types no handler writes have none, and `OrderCreated` is written by `CreateOrder`. -/
def EventType.trigger : EventType → Option EventType
  | .paymentCompleted | .paymentFailed => some .orderCreated
  | .paymentRefunded => some .stockReservationFailed
  | .stockReserved | .stockReservationFailed => some .paymentCompleted
  | .stockRestored => some .paymentRefunded
  | .deliveryStarted => some .stockReserved
  | _ => none

end MsaSaga.Events

namespace MsaSaga.PaymentService
open Events Schema Executions

/-- A Payment handler writes only events its own topic triggers. -/
theorem PaymentRun.tx_trigger {evt : Event} {h : PaymentRun} (hh : h.Shape evt) :
    ∀ x ∈ views h.tx, x.1.trigger = some h.topic := by
  rcases h with ⟨pc, tx⟩ | ⟨pc, tx⟩ <;> cases pc <;>
    simp only [PaymentRun.Shape, OrderCreatedRun.Shape, RefundRun.Shape] at hh
  case orderCreated.mk.commitCompleted | orderCreated.mk.commitFailed | stockReservationFailed.mk.commit =>
    obtain ⟨e, he, -⟩ := hh.views_eq
    simp [PaymentRun.tx, PaymentRun.topic, he, EventType.trigger]
  case orderCreated.mk.insertCompleted => simp [PaymentRun.tx, hh.1]
  all_goals simp [PaymentRun.tx, hh]

theorem PaymentConsumer.tx_trigger {c : PaymentConsumer} (hc : c.Shape) :
    ∀ x ∈ views c.tx, ∃ h ∈ c.stage.run?, x.1.trigger = some h.topic := by
  unfold PaymentConsumer.tx
  split
  · rename_i h hh
    exact fun x hx => ⟨h, hh, PaymentRun.tx_trigger (hc h hh) x hx⟩
  · simp

end MsaSaga.PaymentService

namespace MsaSaga.InventoryService
open Events Schema Executions

/-- An Inventory handler writes only events its own topic triggers. -/
theorem InventoryRun.tx_trigger {evt : Event} {h : InventoryRun} (hh : h.Shape evt) :
    ∀ x ∈ views h.tx.outbox, x.1.trigger = some h.topic := by
  rcases h with ⟨pc, tx⟩ | ⟨pc, tx⟩ <;> cases pc <;>
    simp only [InventoryRun.Shape, ReserveRun.Shape, RestoreRun.Shape] at hh
  case reserve.mk.commit | reserve.mk.commitFailed | restore.mk.commit =>
    obtain ⟨e, he, -⟩ := hh.1.views_eq
    simp [InventoryRun.tx, InventoryRun.topic, he, EventType.trigger]
  all_goals simp [InventoryRun.tx, hh.1]

theorem InventoryConsumer.tx_trigger {c : InventoryConsumer} (hc : c.Shape) :
    ∀ x ∈ views c.tx.outbox, ∃ h ∈ c.stage.run?, x.1.trigger = some h.topic := by
  obtain ⟨src, evt, stage⟩ := c
  cases stage with
  | handle h => exact fun x hx => ⟨h, rfl, InventoryRun.tx_trigger hc x hx⟩
  | _ => simp [InventoryConsumer.tx]

end MsaSaga.InventoryService

namespace MsaSaga.System
open Events Schema Executions OrderService PaymentService InventoryService DeliveryService

/-- An `OrderCreated`, or an event that copies the ids of a stored event of its trigger topic. -/
def Sys.Triggered (s : Sys) (x : EventType × Event) : Prop :=
  x.1 = .orderCreated ∨ ∃ t e, x.1.trigger = some t ∧ s.Stored t e ∧ Copies e x.2

theorem Sys.Triggered.mono {s s' : Sys} (hg : s.Grows s') {x : EventType × Event}
    (h : s.Triggered x) : s'.Triggered x :=
  h.imp id fun ⟨t, e, ht, he, hc⟩ => ⟨t, e, ht, he.mono hg, hc⟩

/-- Every row of an open transaction is triggered: a `CreateOrder` holds its `OrderCreated`,
and a consumer execution holds rows its handler's topic triggers, copying the ids of the
stored event it works on. -/
theorem FlowInv.txRows_triggered {s : Sys} (hf : FlowInv s) (ho : OrderInv s.order) :
    ∀ svc, ∀ x ∈ views (s.txRows svc), s.Triggered x := by
  intro svc x hx
  obtain ⟨r, hr, rfl⟩ := List.mem_map.mp hx
  cases svc with
  | order =>
      obtain ⟨t, ht, hrt⟩ := List.mem_flatMap.mp hr
      have hx : (r.eventType, r.payload) ∈ views t.tx := List.mem_map_of_mem _ hrt
      rcases OrderThread.tx_views (ho.creating t ht).1 with hv | ⟨e, i, hv, -⟩ <;> rw [hv] at hx
      · cases hx
      · exact .inl (Prod.mk.inj (List.mem_singleton.mp hx)).1
  | payment =>
      obtain ⟨t, ht, hrt⟩ := List.mem_flatMap.mp hr
      have hx : (r.eventType, r.payload) ∈ views t.tx := List.mem_map_of_mem _ hrt
      obtain ⟨hs, htop⟩ := hf.payment t ht
      obtain ⟨h, hh, htr⟩ := PaymentConsumer.tx_trigger hs _ hx
      exact .inr ⟨h.topic, t.event, htr, htop h hh, (PaymentConsumer.tx_views hs _ hx).1⟩
  | inventory =>
      obtain ⟨t, ht, hrt⟩ := List.mem_flatMap.mp hr
      have hx : (r.eventType, r.payload) ∈ views t.tx.outbox := List.mem_map_of_mem _ hrt
      obtain ⟨hs, htop⟩ := hf.inventory t ht
      obtain ⟨h, hh, htr⟩ := InventoryConsumer.tx_trigger hs _ hx
      exact .inr ⟨h.topic, t.event, htr, htop h hh, (InventoryConsumer.tx_views hs _ hx).1⟩
  | delivery =>
      obtain ⟨t, ht, hrt⟩ := List.mem_flatMap.mp hr
      have hx : (r.eventType, r.payload) ∈ views t.tx.outbox := List.mem_map_of_mem _ hrt
      obtain ⟨hs, htop⟩ := hf.delivery t ht
      obtain ⟨hc, htype, m, hm⟩ := DeliveryConsumer.tx_views hs _ hx
      exact .inr ⟨.stockReserved, t.event, by rw [htype]; rfl, htop m hm, hc⟩

/-- Every event of every outbox is triggered. -/
def Sys.Traced (s : Sys) : Prop := ∀ svc, ∀ x ∈ s.stored svc, s.Triggered x

theorem Sys.Traced.step {s s' : Sys} (hi : s.Traced) (hf : FlowInv s) (ho : OrderInv s.order)
    {a : Action} (h : s.step a = some s') : s'.Traced := by
  have hg := (hf.step ho h).2
  intro svc x hx
  rcases Sys.step_stored hf h svc x hx with hx | hx
  exacts [(hi svc x hx).mono hg, (hf.txRows_triggered ho svc x hx).mono hg]

theorem traced_of_reachable {inv : List InventoryRow} {s : Sys} (h : Reachable inv s) :
    s.Traced := by
  induction h with
  | init => simp [Sys.Traced]
  | step a hr hs ih =>
      obtain ⟨ho, hf⟩ := lineage_of_reachable hr
      exact ih.step hf ho hs

/-- In every run each event of an outbox, and each message on the bus, is an `OrderCreated`
or answers an event of its trigger topic: it copies the order id and the correlation id of an
event of that topic in the outbox of the service that emits it. -/
theorem events_follow_the_choreography {inv : List InventoryRow} {s : Sys}
    (h : Reachable inv s) :
    (∀ svc, ∀ x ∈ s.stored svc, x.1 = .orderCreated ∨
      ∃ t e, x.1.trigger = some t ∧ s.Stored t e ∧ Copies e x.2) ∧
    ∀ m ∈ s.bus, m.topic = .orderCreated ∨
      ∃ t e, m.topic.trigger = some t ∧ s.Stored t e ∧ Copies e m.payload := by
  have hi := traced_of_reachable h
  exact ⟨hi, fun m hm => hi _ _ ((lineage_of_reachable h).2.published m hm)⟩

/-- The compensation path: order 1 meets an empty stock, and the Payment service refunds it.
The `PaymentRefunded` on the bus answers the `StockReservationFailed` of the Inventory
outbox, which answers the `PaymentCompleted`, which answers the `OrderCreated`. -/
theorem refund_answers_stock_failure :
    let cmd : CreateOrderCommand :=
      { userId := 1001, amount := 50000, quantity := 1, idempotencyKey := "k1" }
    let calls (svc : Service) (n : Nat) : List Action := List.replicate n (.call svc 0 true)
    let trace : List Action :=
      .request cmd :: calls .order 5 ++ [.publish .order 1 true, .deliver .payment 0] ++
        calls .payment 8 ++ [.publish .payment 1 true, .deliver .inventory 1] ++
        calls .inventory 6 ++ [.publish .inventory 1 true, .deliver .payment 2] ++
        calls .payment 8 ++ [.publish .payment 2 true]
    ∃ s, runSteps Sys.step (Sys.init [⟨1, 0, 0, 0⟩]) trace = some s ∧
      s.bus.map (·.topic) = [.orderCreated, .paymentCompleted, .stockReservationFailed,
        .paymentRefunded] ∧
      (∀ svc, ∀ x ∈ s.stored svc, x.1 = .orderCreated ∨
        ∃ t e, x.1.trigger = some t ∧ s.Stored t e ∧ Copies e x.2) ∧
      ∀ m ∈ s.bus, m.topic = .orderCreated ∨
        ∃ t e, m.topic.trigger = some t ∧ s.Stored t e ∧ Copies e m.payload := by
  intro cmd calls trace
  obtain ⟨s, hs, he⟩ := Option.map_eq_some'.mp (show
    (runSteps Sys.step (Sys.init [⟨1, 0, 0, 0⟩]) trace).map (fun s => s.bus.map (·.topic)) =
      some [.orderCreated, .paymentCompleted, .stockReservationFailed, .paymentRefunded] by decide)
  exact ⟨s, hs, he, events_follow_the_choreography (Reach.init.run hs)⟩

end MsaSaga.System
