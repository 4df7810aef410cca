import MsaSaga.OrderVersions
import MsaSaga.WrittenEvents

/-!
# What explains an order's status

An Order handler reads the order its event names and writes its decision at the version it
read, and the Order group hands a handler the messages of its topic only. So in every run an
order that left `PENDING` holds the decision of a handler on a published event for that order,
an event the service that emits it committed to its outbox. Since no `DeliveryFailed` is ever
written, each status has one cause: `STOCK_RESERVING` a `PaymentCompleted`,
`DELIVERY_PREPARING` a `StockReserved`, `COMPLETED` a `DeliveryStarted`, `CANCELED` a
`PaymentFailed` and `FAILED` a `StockReservationFailed`; `PAYMENT_PROCESSING` has none.

A `DeliveryStarted` is committed with its delivery row, so a `COMPLETED` order was shipped,
reserved and charged. The failure handlers check no status and can still move a `COMPLETED`
order on; the results are about the status an order has. Nor does a `CANCELED` order lack a
charge: a redelivered `OrderCreated` can be declined and then approved, the Order service
cancels the order on `PaymentFailed` and drops the `PaymentCompleted` by its status guard, and
the Inventory and Delivery services act on the approval without consulting the order.
-/
namespace MsaSaga.Schema

/-- The event whose handler decides a status; `FAILED` is decided by
`HandleStockReservationFailed` and by `HandleDeliveryFailed`, which never runs. -/
def OrderStatus.cause : OrderStatus → Option Events.EventType
  | .stockReserving => some .paymentCompleted
  | .deliveryPreparing => some .stockReserved
  | .completed => some .deliveryStarted
  | .canceled => some .paymentFailed
  | .failed => some .stockReservationFailed
  | .pending | .paymentProcessing => none

end MsaSaga.Schema

namespace MsaSaga.OrderService
open Events Schema

/-- Every handler but `HandleDeliveryFailed` decides only statuses its own topic causes. -/
theorem OrderHandler.cause_of_transition {h : OrderHandler} {x st : OrderStatus}
    (hh : h ≠ .deliveryFailed) (ht : h.transition x = some st) : st.cause = some h.topic := by
  revert hh ht
  cases h <;> cases x <;> cases st <;> decide

theorem OrderHandler.eq_deliveryStarted_of_transition {h : OrderHandler} {x : OrderStatus}
    (hx : h.transition x = some .completed) : h = .deliveryStarted := by
  revert hx
  cases h <;> cases x <;> decide

/-- A `CreateOrder` call leaves the orders table or adds one `PENDING` order. -/
theorem CreateOrderThread.step_orders_cases (t : CreateOrderThread) (ok : Bool) (u : Nat)
    (db : OrderDb) : (t.step ok u db).2.2.orders = db.orders ∨
      ∃ r : Order, r.status = .pending ∧ (t.step ok u db).2.2.orders = db.orders ++ [r] := by
  obtain ⟨cmd, pc, tx⟩ := t
  cases pc <;> cases ok <;>
    simp only [CreateOrderThread.step, Bool.false_eq_true, ↓reduceIte, true_or] <;>
    (repeat' split)
  case create.true.h_1 h => obtain ⟨-, rfl, rfl⟩ := create_eq_ok h; exact .inr ⟨_, rfl, rfl⟩
  all_goals exact .inl rfl

/-- One call of an Order consumer execution writes at most the update it holds, and the
execution goes on with its handler and event, to an update of the order its event names. -/
theorem OrderConsumer.step_update (c : OrderConsumer) (ok : Bool) (u : Nat) (gate : List Nat)
    (db : OrderDb) (hc : (OrderThread.consumer c).Reads db) :
    (((OrderThread.consumer c).step ok u gate db).2.2.2.orders = db.orders ∨
      ∃ o st, c.stage = .handle (.update o st) ∧
        ((OrderThread.consumer c).step ok u gate db).2.2.2.orders =
          db.orders.map (setStatus o.id st o.version)) ∧
    ∀ t' ∈ ((OrderThread.consumer c).step ok u gate db).1, ∃ c', t' = .consumer c' ∧
      c'.handler = c.handler ∧ c'.event = c.event ∧
      ∀ o st, c'.stage = .handle (.update o st) → o.id = c.event.orderId := by
  obtain ⟨src, evt, hd, stage⟩ := c
  cases stage with
  | isProcessed pc =>
      simp only [OrderThread.Reads] at hc
      subst hc
      simp only [OrderThread.step, Stage.step]
      split <;> simp
  | handle pc =>
      cases pc with
      | findByID =>
          obtain ⟨hdb, hpc⟩ := hd.step_findByID evt ok u db
          simp only [OrderThread.step, Stage.step]
          generalize hd.step evt .findByID ok u db = r at hdb hpc ⊢
          obtain ⟨n, u', db'⟩ := r
          subst hdb
          rcases n with pc | (e | ⟨⟩)
          · obtain ⟨o, st, rfl, hf, -⟩ := hpc _ rfl
            simp
            exact findByID_id hf
          all_goals simp
      | update o st =>
          simp only [OrderThread.step, Stage.step, OrderHandler.step]
          cases ok
          · simp
          · exact ⟨.inr ⟨o, st, rfl, rfl⟩, by simp⟩
  | reserve => simp [OrderThread.step, Stage.step]

/-- After one call of an execution, an order was there before, is a new `PENDING` order, or
holds the decision of the consumer execution that made the call, on the order it read. -/
theorem OrderThread.step_decided (t : OrderThread) (ok : Bool) (u : Nat) (gate : List Nat)
    (db : OrderDb) (ht : t.Reads db) :
    ∀ r ∈ (t.step ok u gate db).2.2.2.orders, r ∈ db.orders ∨ r.status = .pending ∨
      ∃ c o st, t = .consumer c ∧ c.stage = .handle (.update o st) ∧
        c.handler.transition o.status = some r.status ∧ r.id = o.id := by
  intro r hr
  rcases t with t | c
  · rcases t.step_orders_cases ok u db with h | ⟨q, hq, h⟩ <;>
      simp only [OrderThread.step, h, List.mem_append, List.mem_singleton] at hr
    · exact .inl hr
    · rcases hr with hr | rfl
      exacts [.inl hr, .inr (.inl hq)]
  · rcases (c.step_update ok u gate db ht).1 with h | ⟨o, st, hs, h⟩ <;> rw [h] at hr
    · exact .inl hr
    obtain ⟨q, hq, rfl⟩ := List.mem_map.mp hr
    by_cases hm : q.id = o.id ∧ q.version = o.version
    · have hread : c.handler.transition o.status = some st := by
        simp only [OrderThread.Reads, hs] at ht
        exact ht.1
      exact .inr (.inr ⟨c, o, st, rfl, hs, by simpa [hm] using hread, by simpa using hm.1⟩)
    · exact .inl (by simpa [setStatus, hm] using hq)

/-- An order still `PENDING`, or holding a handler's decision on an event of `A` for it. -/
def Explained (A : EventType → Event → Prop) (r : Order) : Prop :=
  r.status = .pending ∨ ∃ (h : OrderHandler) (x : OrderStatus) (e : Event),
    h.transition x = some r.status ∧ A h.topic e ∧ e.orderId = r.id

theorem Explained.mono {A A' : EventType → Event → Prop} (hA : ∀ t e, A t e → A' t e)
    {r : Order} (h : Explained A r) : Explained A' r :=
  h.imp id fun ⟨h, x, e, ht, he, hid⟩ => ⟨h, x, e, ht, hA _ _ he, hid⟩

/-- Every order is explained by an event of `A`, and each consumer execution works on an event
of `A` of its handler's topic, updating the order its event names only. -/
structure OrderSvc.Caused (A : EventType → Event → Prop) (s : OrderSvc) : Prop where
  threads : ∀ c, .consumer c ∈ s.threads →
    A c.handler.topic c.event ∧ ∀ o st, c.stage = .handle (.update o st) → o.id = c.event.orderId
  orders : ∀ r ∈ s.db.orders, Explained A r

section Caused

variable {A A' : EventType → Event → Prop} {s : OrderSvc} (hi : s.Caused A)
  (hA : ∀ t e, A t e → A' t e)
include hi hA

/-- A step that starts no consumer execution and writes no order, for a larger `A`. -/
theorem OrderSvc.Caused.frame {s' : OrderSvc}
    (ht : ∀ c, .consumer c ∈ s'.threads → .consumer c ∈ s.threads)
    (ho : s'.db.orders = s.db.orders) : s'.Caused A' :=
  ⟨fun c hc => (hi.threads c (ht c hc)).imp_left (hA _ _),
    fun r hr => (hi.orders r (ho ▸ hr)).mono hA⟩

/-- One call of an execution keeps the invariant. -/
theorem OrderSvc.Caused.call (hv : s.Versions) {j : Nat} {ok : Bool} {u : Nat}
    {r : OrderSvc × Nat × Option Nat} (h : s.call j ok u = some r) : r.1.Caused A' := by
  obtain ⟨t, ht, rfl⟩ := Option.map_eq_some'.mp h
  have htm := List.getElem?_mem ht
  refine ⟨fun c hc => (mem_advance hc).elim (fun hc => ?_) fun hc => ?_, fun q hq => ?_⟩
  · exact (hi.threads c (List.mem_of_mem_eraseIdx hc)).imp_left (hA _ _)
  · rcases t with t | c₀
    · simp [OrderThread.step] at hc
    · obtain ⟨c', hc', hh, he, hu⟩ := (c₀.step_update ok u s.gate s.db (hv.reads _ htm)).2 _ hc
      cases hc'
      rw [hh, he]
      exact ⟨hA _ _ (hi.threads c₀ htm).1, hu⟩
  · rcases t.step_decided ok u s.gate s.db (hv.reads _ htm) q hq with
      hq | hq | ⟨c, o, st, rfl, hst, htr, hid⟩
    · exact (hi.orders q hq).mono hA
    · exact .inl hq
    · obtain ⟨he, hu⟩ := hi.threads c htm
      exact .inr ⟨c.handler, o.status, c.event, htr, hA _ _ he, (hu o st hst).symm.trans hid.symm⟩

/-- Every step of the service keeps the invariant, given that the messages it is handed are of
`A'`: the group hands a handler a message of its topic. -/
theorem OrderSvc.Caused.step (hv : s.Versions) {s' : OrderSvc} {b : OrderAction}
    (hb : ∀ src msg, b = .deliver src msg → A' msg.topic msg.payload)
    (h : s.step b = some s') : s'.Caused A' := by
  cases b with
  | request cmd =>
      cases h
      exact hi.frame hA (fun c hc => (List.mem_append.mp hc).resolve_right (by simp)) rfl
  | deliver src msg =>
      cases h
      refine ⟨fun c hc => (List.mem_append.mp hc).elim (fun hc => ?_) fun hc => ?_,
        fun q hq => (hi.orders q hq).mono hA⟩
      · exact (hi.threads c hc).imp_left (hA _ _)
      · obtain ⟨c', hc', hc⟩ := List.mem_map.mp hc
        cases hc
        simp only [OrderConsumer.start, Option.mem_toList, Option.mem_def,
          Option.map_eq_some'] at hc'
        obtain ⟨hd, ht, rfl⟩ := hc'
        refine ⟨?_, by simp⟩
        rw [← handlerOf_eq_some ht]
        exact hb src msg rfl
  | call j ok u =>
      obtain ⟨r, hr, rfl⟩ := Option.map_eq_some'.mp h
      exact hi.call hA hv hr
  | crash j => cases h; exact hi.frame hA (fun _ => List.mem_of_mem_eraseIdx) rfl
  | _ => cases h; exact hi.frame hA (fun _ h => h) rfl

end Caused

end MsaSaga.OrderService

namespace MsaSaga.System
open Events Schema Executions OrderService

/-- The bus only grows at its end: a step publishes one message or none. -/
theorem Sys.step_bus {s s' : Sys} {a : Action} (h : s.step a = some s') : s.bus <+: s'.bus := by
  cases a with
  | request cmd => cases h; exact List.prefix_refl _
  | call svc j ok =>
      cases svc <;> simp only [Sys.step, Sys.call, Option.map_eq_some'] at h <;>
        obtain ⟨r, -, rfl⟩ := h <;> exact List.prefix_refl _
  | crash svc j =>
      simp only [Sys.step, Option.ite_none_right_eq_some, Option.some.injEq] at h
      obtain ⟨-, rfl⟩ := h
      cases svc <;> exact List.prefix_refl _
  | publish svc id marked =>
      obtain ⟨r, -, rfl⟩ := Sys.step_publish.mp h
      exact List.prefix_append _ _
  | deliver g i =>
      simp only [Sys.step, Option.map_eq_some'] at h
      obtain ⟨m, -, rfl⟩ := h
      cases g <;> exact List.prefix_refl _
  | expire svc k => cases h; cases svc <;> exact List.prefix_refl _

/-- The messages of the bus, by topic and payload. -/
def Sys.Published (s : Sys) (t : EventType) (e : Event) : Prop := (⟨t, e⟩ : Message) ∈ s.bus

/-- Every step keeps the Order service explained by the bus: the bus only grows, and the Order
service is handed messages of the bus. -/
theorem Sys.step_caused {s s' : Sys} (hi : s.order.Caused s.Published) (hv : s.order.Versions)
    {a : Action} (h : s.step a = some s') : s'.order.Caused s'.Published := by
  have hA : ∀ t e, s.Published t e → s'.Published t e := fun _ _ he => (Sys.step_bus h).subset he
  rcases Sys.step_order_bus h with he | ⟨b, hb, hbus⟩
  · rw [he]; exact hi.frame hA (fun _ => id) rfl
  · exact hi.step hA hv (fun src msg hm => hA _ _ (hbus src msg hm)) hb

theorem caused_of_reachable {inv : List InventoryRow} {s : Sys} (h : Reachable inv s) :
    s.order.Caused s.Published := by
  induction h with
  | init => exact ⟨by simp [Sys.init], by simp [Sys.init]⟩
  | step a hr hs ih => exact Sys.step_caused ih (versions_of_reachable (Reachable.order hr)) hs

/-- In every run an order is `PENDING`, or its status has a cause: a message of the bus for
that order, whose type the status's deciding handler serves, and which the service that emits
that type committed to its outbox. -/
theorem order_statuses_explained_by_events {inv : List InventoryRow} {s : Sys}
    (h : Reachable inv s) :
    ∀ r ∈ s.order.db.orders, r.status = .pending ∨ ∃ t e, r.status.cause = some t ∧
      (⟨t, e⟩ : Message) ∈ s.bus ∧ s.Stored t e ∧ e.orderId = r.id := by
  have hf := (lineage_of_reachable h).2
  intro r hr
  refine ((caused_of_reachable h).orders r hr).imp id fun ⟨hd, x, e, ht, he, hid⟩ =>
    ⟨hd.topic, e, OrderHandler.cause_of_transition (fun hdf => ?_) ht, he, hf.published _ he, hid⟩
  subst hdf
  cases (unfailed_of_reachable h).delivery _ (hf.published _ he)

/-- Order 1 meets an empty stock: its `PaymentCompleted` and then its `StockReservationFailed`
are handed to the Order group, and the order is `FAILED` by the latter. -/
theorem stock_failure_explains_failed_order :
    let cmd : CreateOrderCommand :=
      { userId := 1001, amount := 50000, quantity := 1, idempotencyKey := "k1" }
    let calls (svc : Service) (n : Nat) : List Action := List.replicate n (.call svc 0 true)
    let trace : List Action :=
      .request cmd :: calls .order 5 ++ [.publish .order 1 true, .deliver .payment 0] ++
        calls .payment 8 ++ [.publish .payment 1 true, .deliver .inventory 1] ++
        calls .inventory 6 ++ [.publish .inventory 1 true] ++
        ([1, 2].map fun i => .deliver .order i :: calls .order 4).flatten
    ∃ s, runSteps Sys.step (Sys.init [⟨1, 0, 0, 0⟩]) trace = some s ∧
      s.order.db.orders.map (·.status) = [.failed] ∧
      ∀ r ∈ s.order.db.orders, r.status = .pending ∨ ∃ t e, r.status.cause = some t ∧
        (⟨t, e⟩ : Message) ∈ s.bus ∧ s.Stored t e ∧ e.orderId = r.id := by
  intro cmd calls trace
  obtain ⟨s, hs, he⟩ := Option.map_eq_some'.mp (show
    (runSteps Sys.step (Sys.init [⟨1, 0, 0, 0⟩]) trace).map
      (fun s => s.order.db.orders.map (·.status)) = some [.failed] by decide)
  exact ⟨s, hs, he, order_statuses_explained_by_events (Reach.init.run hs)⟩

/-- A `DeliveryStarted` of the Delivery outbox was committed with its delivery row. -/
theorem delivery_of_started {inv : List InventoryRow} {s : Sys} (h : Reachable inv s)
    {e : Event} (he : (.deliveryStarted, e) ∈ s.stored .delivery) :
    ∃ d ∈ s.delivery.db.deliveries, d.orderId = e.orderId := by
  have hpos : 0 < emitted (s.stored .delivery) .deliveryStarted e.orderId :=
    List.countP_pos_iff.mpr ⟨_, he, by simp⟩
  obtain ⟨d, hd, hdo⟩ := List.countP_pos_iff.mp
    (lt_of_lt_of_le hpos ((counts_of_reachable h).2.2.announced e.orderId))
  exact ⟨d, hd, of_decide_eq_true hdo⟩

/-- In every run an order is `COMPLETED` only once it is shipped: its `DeliveryStarted` is in
the Delivery outbox, and it has a delivery row, a stock reservation and a payment the gateway
charged. -/
theorem completed_orders_were_shipped {inv : List InventoryRow} {s : Sys} (h : Reachable inv s) :
    ∀ r ∈ s.order.db.orders, r.status = .completed →
      (∃ e, (.deliveryStarted, e) ∈ s.stored .delivery ∧ e.orderId = r.id) ∧
      (∃ d ∈ s.delivery.db.deliveries, d.orderId = r.id) ∧
      (∃ q ∈ s.inventory.db.reservations, q.orderId = r.id) ∧
      ∃ p ∈ s.payment.db.payments, p.orderId = r.id ∧ (p.orderId, p.amount) ∈ s.payment.db.charges := by
  intro r hr hs
  obtain hp | ⟨hd, x, e, ht, he, hid⟩ := (caused_of_reachable h).orders r hr
  · rw [hs] at hp; cases hp
  rw [hs] at ht
  have hst : (.deliveryStarted, e) ∈ s.stored .delivery := by
    have := (lineage_of_reachable h).2.published _ he
    rwa [OrderHandler.eq_deliveryStarted_of_transition ht] at this
  obtain ⟨d, hd, hdo⟩ := delivery_of_started h hst
  obtain ⟨q, hq, hqo⟩ := delivery_reserved h d hd
  obtain ⟨p, hp, hpo, hpc⟩ := reservation_charged h q hq
  have hdr : d.orderId = r.id := hdo.trans hid
  exact ⟨⟨e, hst, hid⟩, ⟨d, hd, hdr⟩, ⟨q, hq, hqo.trans hdr⟩, p, hp, hpo.trans (hqo.trans hdr), hpc⟩

/-- The happy path to the end, with `DeliveryStarted` handed to the Order group and handled:
order 1 is `COMPLETED`, and it was shipped. -/
theorem completed_order_was_shipped :
    let cmd : CreateOrderCommand :=
      { userId := 1001, amount := 50000, quantity := 1, idempotencyKey := "k1" }
    let calls (svc : Service) (n : Nat) : List Action := List.replicate n (.call svc 0 true)
    let trace : List Action :=
      .request cmd :: calls .order 5 ++ [.publish .order 1 true, .deliver .payment 0] ++
        calls .payment 8 ++ [.publish .payment 1 true, .deliver .inventory 1] ++
        calls .inventory 9 ++ [.publish .inventory 1 true, .deliver .delivery 2] ++
        calls .delivery 7 ++ [.publish .delivery 1 true] ++
        ([1, 2, 3].map fun i => .deliver .order i :: calls .order 4).flatten
    ∃ s, runSteps Sys.step (Sys.init [⟨1, 100, 0, 0⟩]) trace = some s ∧
      s.order.db.orders.map (·.status) = [.completed] ∧
      ∀ r ∈ s.order.db.orders, r.status = .completed →
        (∃ e, (.deliveryStarted, e) ∈ s.stored .delivery ∧ e.orderId = r.id) ∧
        (∃ d ∈ s.delivery.db.deliveries, d.orderId = r.id) ∧
        (∃ q ∈ s.inventory.db.reservations, q.orderId = r.id) ∧
        ∃ p ∈ s.payment.db.payments,
          p.orderId = r.id ∧ (p.orderId, p.amount) ∈ s.payment.db.charges := by
  intro cmd calls trace
  obtain ⟨s, hs, he⟩ := Option.map_eq_some'.mp (show
    (runSteps Sys.step (Sys.init [⟨1, 100, 0, 0⟩]) trace).map
      (fun s => s.order.db.orders.map (·.status)) = some [.completed] by decide)
  exact ⟨s, hs, he, completed_orders_were_shipped (Reach.init.run hs)⟩

/-- The run of a redelivered `OrderCreated`, declined and then charged, carried on until nothing
is left to do: the payment rows are published, the Order group handles `PaymentFailed` then `PaymentCompleted`, the Inventory group reserves stock
on `PaymentCompleted`, and the Delivery group starts a delivery on `StockReserved`. The system
is quiescent with the order `CANCELED`, its payment `COMPLETED`, its reservation `RESERVED`
and one delivery. -/
theorem canceled_order_keeps_payment_reservation_and_delivery :
    let cmd : CreateOrderCommand :=
      { userId := 1001, amount := 50000, quantity := 1, idempotencyKey := "k1" }
    let calls (svc : Service) (n : Nat) : List Action := (List.replicate n true).map (.call svc 0)
    let trace : List Action :=
      .request cmd :: calls .order 5 ++
        [.publish .order 1 false, .publish .order 1 true, .deliver .payment 0] ++
        [true, true, true, false, true, true].map (.call .payment 0) ++
        .deliver .payment 1 :: calls .payment 8 ++
        [.publish .payment 1 true, .publish .payment 2 true, .deliver .order 2] ++ calls .order 4 ++
        .deliver .order 3 :: calls .order 3 ++ .deliver .inventory 3 :: calls .inventory 9 ++
        [.publish .inventory 1 true, .deliver .order 4] ++ calls .order 3 ++
        .deliver .delivery 4 :: calls .delivery 7 ++
        [.publish .delivery 1 true, .deliver .order 5] ++ calls .order 3
    ∃ s, runSteps Sys.step (Sys.init [⟨1, 100, 0, 0⟩]) trace = some s ∧
      Reachable [⟨1, 100, 0, 0⟩] s ∧ s.Quiescent ∧
      (findByID s.order.db 1).map (·.status) = some .canceled ∧
      s.payment.db.payments.map (fun p => (p.orderId, p.status)) = [(1, .completed)] ∧
      s.inventory.db.reservations.map (fun r => (r.orderId, r.status)) = [(1, .reserved)] ∧
      s.delivery.db.deliveries.map (·.orderId) = [1] := by
  intro cmd calls trace
  obtain ⟨s, hs, he⟩ := Option.map_eq_some'.mp (show
    (runSteps Sys.step (Sys.init [⟨1, 100, 0, 0⟩]) trace).map (fun s =>
      decide s.Quiescent && (findByID s.order.db 1).map (·.status) == some .canceled &&
        s.payment.db.payments.map (fun p => (p.orderId, p.status)) == [(1, .completed)] &&
        s.inventory.db.reservations.map (fun r => (r.orderId, r.status)) == [(1, .reserved)] &&
        s.delivery.db.deliveries.map (·.orderId) == [1]) = some true by decide)
  simp only [Bool.and_eq_true, beq_iff_eq, decide_eq_true_eq] at he
  obtain ⟨⟨⟨⟨hq, ho⟩, hp⟩, hr⟩, hd⟩ := he
  exact ⟨s, hs, Reach.init.run hs, hq, ho, hp, hr, hd⟩

end MsaSaga.System
