import MsaSaga.Amounts
import MsaSaga.FreshIds

/-!
# Event types no code path writes

The handlers write eight of the twelve event types: `CreateOrder` writes `OrderCreated`, the
Payment handlers `PaymentCompleted`, `PaymentFailed` and `PaymentRefunded`, the Inventory
handlers `StockReserved`, `StockReservationFailed` and `StockRestored`, and the Delivery
service's `HandleStockReserved` writes `DeliveryStarted` only. `OrderCompleted`,
`OrderCanceled`, `OrderFailed` and `DeliveryFailed` are declared and never written. In every
run no outbox row and no message has one of these four types, so the Order group's
subscription to `DeliveryFailed` delivers nothing and `HandleDeliveryFailed` never runs.
-/
namespace MsaSaga.OrderService
open Events Schema

/-- The handler an Order execution runs; `none` for a `CreateOrder`. -/
def OrderThread.handler? : OrderThread → Option OrderHandler
  | .createOrder _ => none
  | .consumer c => some c.handler

/-- An execution keeps its handler from call to call. -/
theorem OrderThread.handler?_step (t : OrderThread) (ok : Bool) (u : Nat) (gate : List Nat)
    (db : OrderDb) : ∀ t' ∈ (t.step ok u gate db).1, t'.handler? = t.handler? := by
  rcases t with t | c <;> simp [OrderThread.step, OrderThread.handler?]

/-- A delivered message starts the handler of its topic, if any. -/
theorem OrderSvc.handler?_deliver (s : OrderSvc) (src : Nat) (msg : Message) :
    ∀ t ∈ (s.deliver src msg).threads, t ∈ s.threads ∨ t.handler? = handlerOf msg.topic := by
  intro t ht
  refine (List.mem_append.mp ht).imp id fun ht => ?_
  obtain ⟨c, hc, rfl⟩ := List.mem_map.mp ht
  simp only [OrderConsumer.start, Option.mem_toList, Option.mem_def, Option.map_eq_some'] at hc
  obtain ⟨h, hh, rfl⟩ := hc
  exact hh.symm

/-- The topic whose messages `HandleMessage` hands to a handler. -/
def OrderHandler.topic : OrderHandler → EventType
  | .paymentCompleted => .paymentCompleted
  | .paymentFailed => .paymentFailed
  | .stockReserved => .stockReserved
  | .stockReservationFailed => .stockReservationFailed
  | .deliveryStarted => .deliveryStarted
  | .deliveryFailed => .deliveryFailed

/-- `HandleMessage` runs a handler on the messages of its topic only. -/
theorem handlerOf_eq_some {t : EventType} {h : OrderHandler} (ht : handlerOf t = some h) :
    t = h.topic := by
  cases t <;> cases ht <;> rfl

/-- A step of the service starts no execution of handler `hd` as long as it is handed no message
of its topic. -/
theorem OrderSvc.step_not_handler {hd : OrderHandler} {s s' : OrderSvc} {b : OrderAction}
    (hi : ∀ t ∈ s.threads, t.handler? ≠ some hd)
    (hb : ∀ src msg, b = .deliver src msg → msg.topic ≠ hd.topic)
    (h : s.step b = some s') : ∀ t ∈ s'.threads, t.handler? ≠ some hd := by
  cases b with
  | request cmd =>
      cases h
      intro t ht
      rcases List.mem_append.mp ht with ht | ht
      · exact hi t ht
      · rw [List.mem_singleton.mp ht]; nofun
  | deliver src msg =>
      cases h
      intro t ht hs
      rcases s.handler?_deliver src msg t ht with ht | ht
      · exact hi t ht hs
      · exact hb src msg rfl (handlerOf_eq_some (ht.symm.trans hs))
  | call j ok u =>
      obtain ⟨r, hr, rfl⟩ := Option.map_eq_some'.mp h
      obtain ⟨t, ht, rfl⟩ := Option.map_eq_some'.mp hr
      intro t' ht'
      rcases mem_advance ht' with ht' | ht'
      · exact hi t' (List.mem_of_mem_eraseIdx ht')
      · rw [t.handler?_step _ _ _ _ t' ht']
        exact hi t (List.getElem?_mem ht)
  | crash j => cases h; exact fun t ht => hi t (List.mem_of_mem_eraseIdx ht)
  | _ => cases h; exact hi

end MsaSaga.OrderService

namespace MsaSaga.System
open Events Schema Executions OrderService DeliveryService

/-- The event types some handler writes to its outbox. -/
def Written : EventType → Bool
  | .orderCompleted | .orderCanceled | .orderFailed | .deliveryFailed => false
  | _ => true

/-- The Delivery outbox holds `DeliveryStarted` rows only, and no Order execution runs
`HandleDeliveryFailed`. -/
structure Sys.Unfailed (s : Sys) : Prop where
  delivery : ∀ x ∈ s.stored .delivery, x.1 = .deliveryStarted
  handlers : ∀ t ∈ s.order.threads, t.handler? ≠ some .deliveryFailed

section Unfailed

variable {s : Sys} (hi : s.Unfailed) (hf : FlowInv s) (ho : OrderInv s.order)
include hi hf ho

/-- Every outbox row has a written type: each service's outbox holds the types it emits, the
Order outbox `OrderCreated` only, and the Delivery outbox `DeliveryStarted` only. -/
theorem Sys.Unfailed.written_stored : ∀ svc, ∀ x ∈ s.stored svc, Written x.1 = true := by
  intro svc x hx
  have he := hf.emitters svc x hx
  cases svc
  case order => rw [ho.created x hx]; rfl
  case delivery => rw [hi.delivery x hx]; rfl
  all_goals obtain ⟨t, e⟩ := x; cases t <;> first | rfl | cases he

/-- A message on the bus is a row of its emitter's outbox, so it has a written type. -/
theorem Sys.Unfailed.written_bus : ∀ m ∈ s.bus, Written m.topic = true :=
  fun m hm => hi.written_stored hf ho _ _ (hf.published m hm)

end Unfailed

/-- Every step keeps the Delivery outbox to `DeliveryStarted` and starts no
`HandleDeliveryFailed`: the message a delivery hands the Order group has a written type. -/
theorem Sys.Unfailed.step {s s' : Sys} (hi : s.Unfailed) (hf : FlowInv s) (ho : OrderInv s.order)
    {a : Action} (h : s.step a = some s') : s'.Unfailed := by
  refine ⟨fun x hx => (Sys.step_stored hf h .delivery x hx).elim (hi.delivery x) fun hx => ?_, ?_⟩
  · obtain ⟨r, hr, rfl⟩ := List.mem_map.mp hx
    obtain ⟨t, ht, hrt⟩ := List.mem_flatMap.mp hr
    exact (DeliveryConsumer.tx_views (hf.delivery t ht).1 _ (List.mem_map_of_mem _ hrt)).2.1
  · rcases Sys.step_order_bus h with he | ⟨b, hb, hbus⟩
    · rw [he]; exact hi.handlers
    refine s.order.step_not_handler hi.handlers (fun src msg hm ht => ?_) hb
    have := hi.written_bus hf ho msg (hbus src msg hm)
    rw [ht] at this
    cases this

theorem unfailed_of_reachable {inv : List InventoryRow} {s : Sys} (h : Reachable inv s) :
    s.Unfailed := by
  induction h with
  | init => exact ⟨by simp, by simp [Sys.init]⟩
  | step a hr hs ih =>
      obtain ⟨ho, hf⟩ := lineage_of_reachable hr
      exact ih.step hf ho hs

/-- In every run each outbox row and each message on the bus has a type some handler writes,
and no Order execution runs `HandleDeliveryFailed`. -/
theorem only_written_events_flow {inv : List InventoryRow} {s : Sys} (h : Reachable inv s) :
    (∀ svc, ∀ x ∈ s.stored svc, Written x.1 = true) ∧ (∀ m ∈ s.bus, Written m.topic = true) ∧
      ∀ t ∈ s.order.threads, t.handler? ≠ some .deliveryFailed := by
  obtain ⟨ho, hf⟩ := lineage_of_reachable h
  have hi := unfailed_of_reachable h
  exact ⟨hi.written_stored hf ho, hi.written_bus hf ho, hi.handlers⟩

/-- The happy path to the end, with `DeliveryStarted` published and handed to the Order
group: every message is of a written type, and the execution it starts runs
`HandleDeliveryStarted`. -/
theorem delivered_order_runs_no_failure_handler :
    let cmd : CreateOrderCommand :=
      { userId := 1001, amount := 50000, quantity := 1, idempotencyKey := "k1" }
    let calls (svc : Service) (n : Nat) : List Action := List.replicate n (.call svc 0 true)
    let trace : List Action :=
      .request cmd :: calls .order 5 ++ [.publish .order 1 true, .deliver .payment 0] ++
        calls .payment 8 ++ [.publish .payment 1 true, .deliver .inventory 1] ++
        calls .inventory 9 ++ [.publish .inventory 1 true, .deliver .delivery 2] ++
        calls .delivery 7 ++ [.publish .delivery 1 true, .deliver .order 3]
    ∃ s, runSteps Sys.step (Sys.init [⟨1, 100, 0, 0⟩]) trace = some s ∧
      s.bus.map (·.topic) = [.orderCreated, .paymentCompleted, .stockReserved, .deliveryStarted] ∧
      s.order.threads.map (·.handler?) = [some .deliveryStarted] ∧
      (∀ svc, ∀ x ∈ s.stored svc, Written x.1 = true) ∧ (∀ m ∈ s.bus, Written m.topic = true) ∧
      ∀ t ∈ s.order.threads, t.handler? ≠ some .deliveryFailed := by
  intro cmd calls trace
  obtain ⟨s, hs, he⟩ := Option.map_eq_some'.mp (show
    (runSteps Sys.step (Sys.init [⟨1, 100, 0, 0⟩]) trace).map
      (fun s => (s.bus.map (·.topic), s.order.threads.map (·.handler?))) =
        some ([.orderCreated, .paymentCompleted, .stockReserved, .deliveryStarted],
          [some .deliveryStarted]) by decide)
  exact ⟨s, hs, (Prod.mk.inj he).1, (Prod.mk.inj he).2, only_written_events_flow (Reach.init.run hs)⟩

end MsaSaga.System
