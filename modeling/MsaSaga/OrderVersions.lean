import MsaSaga.Amounts
import MsaSaga.Progress

/-!
# Order statuses under the version check

An Order handler reads the order with `FindByID` and writes its decision with
`UpdateStatusWithVersion`, which matches the row only at the version it read. Every write
raises the version and order ids are never reused, so a write that matches finds the row as
the handler read it: in every run, whatever the interleaving, an order's status changes only
to a handler's decision on the order's current status, and an order is created `PENDING`.
A decision on a stale read matches no row and is lost, but it never lands on a status it was
not made for. Two handlers on one order that read one version before either writes lose the
second decision, which the handler does not check: the order keeps the first, where the two
run one after the other reach another status.

The domain model's `Order.CanTransitionTo` is a second table of the same statuses, and no
handler calls it. Against it the handlers' moves differ in two ways: `HandlePaymentCompleted`
moves `PENDING` to `STOCK_RESERVING`, where the table asks for `PAYMENT_PROCESSING` first,
and the failure handlers move orders out of `COMPLETED`, `CANCELED` and `FAILED`, which the
table leaves without an entry. No run ever reaches `PAYMENT_PROCESSING`.
-/
namespace MsaSaga.Schema

/-! ## The domain's table -/

/-- The map of `Order.CanTransitionTo`; a terminal status has no entry. -/
def transitions : OrderStatus → Option (List OrderStatus)
  | .pending => some [.paymentProcessing, .canceled, .failed]
  | .paymentProcessing => some [.stockReserving, .canceled, .failed]
  | .stockReserving => some [.deliveryPreparing, .canceled, .failed]
  | .deliveryPreparing => some [.completed, .canceled, .failed]
  | .completed | .canceled | .failed => none

/-- `Order.CanTransitionTo`: `false` for a status the map has no entry for. -/
def Order.canTransitionTo (o : Order) (newStatus : OrderStatus) : Bool :=
  match transitions o.status with
  | none => false
  | some allowed => allowed.contains newStatus

/-- `Order.TransitionTo`. -/
def Order.transitionTo (o : Order) (newStatus : OrderStatus) : Bool × Order :=
  if o.canTransitionTo newStatus then (true, { o with status := newStatus }) else (false, o)

end MsaSaga.Schema

namespace MsaSaga.OrderService
open Events Schema

/-- A handler's decision is a move of the domain's table exactly when the handler is not
`HandlePaymentCompleted` and the order had an entry in the map. -/
theorem canTransitionTo_of_transition (h : OrderHandler) (o : Order) {st : OrderStatus}
    (hs : h.transition o.status = some st) :
    o.canTransitionTo st = true ↔ h ≠ .paymentCompleted ∧ (transitions o.status).isSome := by
  obtain ⟨id, userId, amount, quantity, status, version, key⟩ := o
  simp only [Order.canTransitionTo] at hs ⊢
  cases h <;> cases status <;> cases hs <;> decide

/-! ## What an update relies on -/

/-- The orders table: ids below the sequence and distinct, and no order `PAYMENT_PROCESSING`. -/
structure OrderDb.Rows (db : OrderDb) : Prop where
  below : ∀ r ∈ db.orders, r.id < db.nextOrderId
  nodup : (db.orders.map (·.id)).Nodup
  statuses : ∀ r ∈ db.orders, r.status ≠ .paymentProcessing

/-- What an update that read `o` relies on: the rows of `o`'s id are at `o`'s version or
later, and at `o`'s version they have `o`'s status. -/
def OrderDb.Read (db : OrderDb) (o : Order) : Prop :=
  o.id < db.nextOrderId ∧
    ∀ r ∈ db.orders, r.id = o.id → o.version ≤ r.version ∧ (r.version = o.version → r.status = o.status)

/-- An Order execution: a consumer starts at `FindByID`, and at its update holds the decision
it made on the order it read. -/
def OrderThread.Reads (db : OrderDb) : OrderThread → Prop
  | .consumer c => match c.stage with
    | .isProcessed pc => pc = .findByID
    | .handle (.update o st) => c.handler.transition o.status = some st ∧ db.Read o
    | _ => True
  | .createOrder _ => True

/-- What one call does to the orders table: nothing, `Create` of a `PENDING` order under the
next id, or the update of an execution that read `o` and decided `st`. -/
inductive OrdersStep (db db' : OrderDb) : Prop
  | same : db'.orders = db.orders → db'.nextOrderId = db.nextOrderId → OrdersStep db db'
  | create (r : Order) : r.id = db.nextOrderId → r.status = .pending →
      db'.orders = db.orders ++ [r] → db'.nextOrderId = db.nextOrderId + 1 → OrdersStep db db'
  | update (o : Order) (st : OrderStatus) (h : OrderHandler) : h.transition o.status = some st →
      db.Read o → db'.orders = db.orders.map (setStatus o.id st o.version) →
      db'.nextOrderId = db.nextOrderId → OrdersStep db db'

@[simp] theorem setStatus_status (id : Nat) (st : OrderStatus) (v : Nat) (r : Order) :
    (setStatus id st v r).status = if r.id = id ∧ r.version = v then st else r.status := by
  unfold setStatus; split <;> rfl

@[simp] theorem setStatus_version (id : Nat) (st : OrderStatus) (v : Nat) (r : Order) :
    (setStatus id st v r).version = if r.id = id ∧ r.version = v then r.version + 1 else r.version := by
  unfold setStatus; split <;> rfl

theorem OrdersStep.rows {db db' : OrderDb} (h : OrdersStep db db') (hr : db.Rows) : db'.Rows := by
  cases h with
  | same ho hn => exact ⟨ho ▸ hn ▸ hr.below, ho ▸ hr.nodup, ho ▸ hr.statuses⟩
  | create r hid hst ho hn =>
      refine ⟨fun q hq => ?_, ?_, fun q hq => ?_⟩
      · rw [ho] at hq
        rcases List.mem_append.mp hq with hq | hq
        · exact hn ▸ Nat.lt_succ_of_lt (hr.below q hq)
        · obtain rfl := List.mem_singleton.mp hq
          omega
      · rw [ho, List.map_append]
        refine List.nodup_append.mpr ⟨hr.nodup, List.nodup_singleton _, fun a ha hb => ?_⟩
        obtain ⟨q, hq, rfl⟩ := List.mem_map.mp ha
        have := hr.below q hq
        have : q.id = r.id := by simpa using hb
        omega
      · rw [ho] at hq
        rcases List.mem_append.mp hq with hq | hq
        · exact hr.statuses q hq
        · rw [List.mem_singleton.mp hq, hst]; decide
  | update o st hd hs _ ho hn =>
      refine ⟨fun q hq => ?_, by simpa [ho, List.map_map, Function.comp_def] using hr.nodup,
        fun q hq => ?_⟩ <;> rw [ho] at hq <;> obtain ⟨q, hq', rfl⟩ := List.mem_map.mp hq
      · simpa [hn] using hr.below q hq'
      · simp only [setStatus_status]
        split
        · exact (hd.transition_rank hs).2.2
        · exact hr.statuses q hq'

/-- A call keeps what every other update relies on: a write raises the version it matched,
and a new order takes an id no update read. -/
theorem OrdersStep.read {db db' : OrderDb} (h : OrdersStep db db') {o : Order} (hr : db.Read o) :
    db'.Read o := by
  obtain ⟨hlt, hrows⟩ := hr
  cases h with
  | same ho hn => exact ⟨hn ▸ hlt, ho ▸ hrows⟩
  | create r hid _ ho hn =>
      refine ⟨hn ▸ Nat.lt_succ_of_lt hlt, fun q hq hqo => ?_⟩
      rw [ho] at hq
      rcases List.mem_append.mp hq with hq | hq
      · exact hrows q hq hqo
      · obtain rfl := List.mem_singleton.mp hq
        omega
  | update o₁ st hd _ _ ho hn =>
      refine ⟨hn ▸ hlt, fun q hq hqo => ?_⟩
      rw [ho] at hq
      obtain ⟨q, hq', rfl⟩ := List.mem_map.mp hq
      have hqo' : q.id = o.id := by simpa using hqo
      obtain ⟨hle, heq⟩ := hrows q hq' hqo'
      simp only [setStatus_status, setStatus_version]
      split
      · exact ⟨by omega, by omega⟩
      · exact ⟨hle, heq⟩

/-- What `FindByID` returns is what an update may rely on. -/
theorem OrderDb.Rows.read {db : OrderDb} (hr : db.Rows) {i : Nat} {o : Order}
    (hf : findByID db i = some o) : db.Read o := by
  have ho := List.mem_of_find?_eq_some hf
  refine ⟨hr.below o ho, fun r hr' hid => ?_⟩
  obtain rfl := List.inj_on_of_nodup_map hr.nodup hr' ho hid
  exact ⟨le_refl _, fun _ => rfl⟩

/-! ## One call -/

theorem CreateOrderThread.step_orders (t : CreateOrderThread) (ok : Bool) (u : Nat) (db : OrderDb) :
    OrdersStep db (t.step ok u db).2.2 := by
  obtain ⟨cmd, pc, tx⟩ := t
  cases pc <;> cases ok <;>
    simp only [CreateOrderThread.step, Bool.false_eq_true, ↓reduceIte] <;> (repeat' split)
  case create.true.h_1 h => obtain ⟨-, rfl, rfl⟩ := create_eq_ok h; exact .create _ rfl rfl rfl rfl
  all_goals exact .same rfl rfl

/-- `FindByID` writes nothing, and the handler goes on only to write its decision on the order
it read. -/
theorem OrderHandler.step_findByID (h : OrderHandler) (evt : Event) (ok : Bool) (u : Nat)
    (db : OrderDb) :
    (h.step evt .findByID ok u db).2.2 = db ∧ ∀ pc, (h.step evt .findByID ok u db).1 = .cont pc →
      ∃ o st, pc = .update o st ∧ findByID db evt.orderId = some o ∧ h.transition o.status = some st := by
  simp only [OrderHandler.step]
  split
  · exact ⟨rfl, by simp⟩
  · rename_i o ho
    have hf : findByID db evt.orderId = some o := by cases ok <;> simp_all
    split
    · rename_i st hst
      exact ⟨rfl, fun pc hpc => ⟨o, st, (Next.cont.inj hpc).symm, hf, hst⟩⟩
    · exact ⟨rfl, by simp⟩

/-- One call of an Order execution: what it does to the orders table, and what the execution
it continues with relies on. -/
theorem OrderThread.step_orders (t : OrderThread) (ok : Bool) (u : Nat) (gate : List Nat)
    {db : OrderDb} (hr : db.Rows) (ht : t.Reads db) :
    OrdersStep db (t.step ok u gate db).2.2.2 ∧
      ∀ t' ∈ (t.step ok u gate db).1, t'.Reads (t.step ok u gate db).2.2.2 := by
  rcases t with t | ⟨src, evt, hd, stage⟩
  · exact ⟨t.step_orders ok u db, by simp [OrderThread.step, OrderThread.Reads]⟩
  cases stage with
  | isProcessed pc =>
      simp only [OrderThread.Reads] at ht
      subst ht
      simp only [OrderThread.step, Stage.step]
      split <;> exact ⟨.same rfl rfl, by simp [OrderThread.Reads]⟩
  | handle pc =>
      cases pc with
      | findByID =>
          obtain ⟨hdb, hpc⟩ := hd.step_findByID evt ok u db
          simp only [OrderThread.step, Stage.step]
          generalize hd.step evt .findByID ok u db = r at hdb hpc ⊢
          obtain ⟨n, u', db'⟩ := r
          subst hdb
          rcases n with pc | (e | ⟨⟩)
          · obtain ⟨o, st, rfl, hf, hs⟩ := hpc _ rfl
            exact ⟨.same rfl rfl, by simpa [OrderThread.Reads] using ⟨hs, hr.read hf⟩⟩
          · exact ⟨.same rfl rfl, by simp⟩
          · exact ⟨.same rfl rfl, by simp [OrderThread.Reads]⟩
      | update o st =>
          simp only [OrderThread.Reads] at ht
          simp only [OrderThread.step, Stage.step, OrderHandler.step]
          cases ok
          · exact ⟨.same rfl rfl, by simp⟩
          · exact ⟨.update o st hd ht.1 ht.2 rfl rfl, by simp [OrderThread.Reads]⟩
  | reserve =>
      simp only [OrderThread.step, Stage.step]
      exact ⟨.same rfl rfl, by simp⟩

theorem OrderThread.Reads.mono {db db' : OrderDb} (h : OrdersStep db db') {t : OrderThread}
    (ht : t.Reads db) : t.Reads db' := by
  rcases t with _ | ⟨src, evt, hd, (_ | (_ | ⟨o, st⟩) | _)⟩
  case consumer.mk.handle.update => exact ⟨ht.1, h.read ht.2⟩
  all_goals exact ht

/-- How a call moves order `i` as `FindByID` reads it: its status stays, it is created
`PENDING`, or it takes a handler's decision on its current status. -/
theorem OrdersStep.find {db db' : OrderDb} (h : OrdersStep db db') (i : Nat) :
    (findByID db' i).map (·.status) = (findByID db i).map (·.status) ∨
      (findByID db i = none ∧ (findByID db' i).map (·.status) = some .pending) ∨
      ∃ (o o' : Order) (hd : OrderHandler), findByID db i = some o ∧ findByID db' i = some o' ∧
        hd.transition o.status = some o'.status := by
  cases h with
  | same ho _ => exact .inl (by simp [findByID, ho])
  | create r _ hst ho _ =>
      cases hf : findByID db i with
      | some o => exact .inl (by rw [findByID_append ho hf])
      | none =>
          have hf' : findByID db' i = if r.id = i then some r else none := by
            simp only [findByID] at hf ⊢
            by_cases hri : r.id = i <;> simp [ho, List.find?_append, hf, hri]
          rw [hf']
          split
          · exact .inr (.inl ⟨rfl, by simp [hst]⟩)
          · exact .inl rfl
  | update o st hd hs hread ho _ =>
      have hfind : findByID db' i = (findByID db i).map (setStatus o.id st o.version) := by
        rw [← findByID_updateStatus]
        simp [findByID, ho, updateStatusWithVersion]
      rw [hfind]
      cases hf : findByID db i with
      | none => exact .inl rfl
      | some r =>
          by_cases hm : r.id = o.id ∧ r.version = o.version
          · have hro : r.status = o.status :=
              (hread.2 r (List.mem_of_find?_eq_some hf) hm.1).2 hm.2
            exact .inr (.inr ⟨r, _, hd, rfl, rfl, by simp [hm, hro, hs]⟩)
          · exact .inl (by simp [hm])

/-! ## Every reachable state -/

/-- The service's part: its orders table and every execution in flight. -/
structure OrderSvc.Versions (s : OrderSvc) : Prop where
  rows : s.db.Rows
  reads : ∀ t ∈ s.threads, t.Reads s.db

theorem OrderSvc.Versions.step {s s' : OrderSvc} (hi : s.Versions) {a : OrderAction}
    (h : s.step a = some s') : s'.Versions ∧ OrdersStep s.db s'.db := by
  cases a with
  | request cmd =>
      cases h
      exact ⟨⟨hi.rows, fun t ht => (List.mem_append.mp ht).elim (hi.reads t) fun ht => by
        obtain rfl := List.mem_singleton.mp ht
        trivial⟩, .same rfl rfl⟩
  | deliver src msg =>
      cases h
      refine ⟨⟨hi.rows, fun t ht => (List.mem_append.mp ht).elim (hi.reads t) fun ht => ?_⟩,
        .same rfl rfl⟩
      obtain ⟨c, hc, rfl⟩ := List.mem_map.mp ht
      simp only [OrderConsumer.start, Option.mem_toList, Option.mem_def, Option.map_eq_some'] at hc
      obtain ⟨_, -, rfl⟩ := hc
      rfl
  | call j ok u =>
      obtain ⟨r, hr, rfl⟩ := Option.map_eq_some'.mp h
      obtain ⟨t, ht, rfl⟩ := Option.map_eq_some'.mp hr
      obtain ⟨hstep, hnew⟩ := t.step_orders ok u s.gate hi.rows (hi.reads t (List.getElem?_mem ht))
      exact ⟨⟨hstep.rows hi.rows, fun c hc => (mem_advance hc).elim
        (fun hc => (hi.reads c (List.mem_of_mem_eraseIdx hc)).mono hstep) (hnew c)⟩, hstep⟩
  | crash j =>
      cases h
      exact ⟨⟨hi.rows, fun c hc => hi.reads c (List.mem_of_mem_eraseIdx hc)⟩, .same rfl rfl⟩
  | expire k => cases h; exact ⟨⟨hi.rows, hi.reads⟩, .same rfl rfl⟩
  | markSent id =>
      cases h
      exact ⟨⟨⟨hi.rows.below, hi.rows.nodup, hi.rows.statuses⟩, hi.reads⟩, .same rfl rfl⟩

theorem versions_of_reachable {s : OrderSvc} (h : OrderSvc.Reachable s) : s.Versions := by
  induction h with
  | init => exact ⟨⟨by simp, by simp, by simp⟩, by simp⟩
  | step a _ hs ih => exact (ih.step hs).1

end MsaSaga.OrderService

namespace MsaSaga.System
open Events Schema OrderService

/-- In every state the system reaches no order is `PAYMENT_PROCESSING`, and every step from
it changes an order's status only by creating the order `PENDING` or by writing a handler's
decision on the order's current status; such a write is a move the domain's
`Order.CanTransitionTo` allows exactly when the handler is not `HandlePaymentCompleted` and the
order was not in a terminal status. -/
theorem order_statuses_move_by_handler_decisions {inv : List InventoryRow} {s : Sys}
    (h : Reachable inv s) :
    (∀ r ∈ s.order.db.orders, r.status ≠ .paymentProcessing) ∧
      ∀ (a : Action) (s' : Sys), s.step a = some s' → ∀ i,
        (findByID s'.order.db i).map (·.status) = (findByID s.order.db i).map (·.status) ∨
          (findByID s.order.db i = none ∧ (findByID s'.order.db i).map (·.status) = some .pending) ∨
          ∃ (o o' : Order) (hd : OrderHandler), findByID s.order.db i = some o ∧
            findByID s'.order.db i = some o' ∧ hd.transition o.status = some o'.status ∧
            (o.canTransitionTo o'.status = true ↔
              hd ≠ .paymentCompleted ∧ (transitions o.status).isSome) := by
  have hv := versions_of_reachable h.order
  refine ⟨hv.rows.statuses, fun a s' hs i => ?_⟩
  have hmove : OrdersStep s.order.db s'.order.db := by
    rcases Sys.step_order hs with he | ⟨b, hb⟩
    · exact he ▸ .same rfl rfl
    · exact (hv.step hb).2
  rcases hmove.find i with he | hc | ⟨o, o', hd, ho, ho', hs'⟩
  · exact .inl he
  · exact .inr (.inl hc)
  · exact .inr (.inr ⟨o, o', hd, ho, ho', hs', canTransitionTo_of_transition hd o hs'⟩)

/-- Order 1 is paid and the Order group takes its `PaymentCompleted`: the handler's update moves
the order from `PENDING` to `STOCK_RESERVING`, a move the domain's table does not have. -/
theorem paid_order_skips_payment_processing :
    let cmd : CreateOrderCommand :=
      { userId := 1001, amount := 50000, quantity := 1, idempotencyKey := "k1" }
    let calls (svc : Service) (n : Nat) : List Action := List.replicate n (.call svc 0 true)
    let trace : List Action :=
      .request cmd :: calls .order 5 ++ [.publish .order 1 true, .deliver .payment 0] ++
        calls .payment 8 ++ [.publish .payment 1 true, .deliver .order 1] ++ calls .order 2
    ∃ s, runSteps Sys.step (Sys.init []) trace = some s ∧ Reachable [] s ∧
      (∃ s', s.step (.call .order 0 true) = some s' ∧
        (findByID s.order.db 1).map (·.status) = some .pending ∧
        (findByID s'.order.db 1).map (·.status) = some .stockReserving) ∧
      (∀ r ∈ s.order.db.orders, r.status ≠ .paymentProcessing) ∧
      ∀ (a : Action) (s' : Sys), s.step a = some s' → ∀ i,
        (findByID s'.order.db i).map (·.status) = (findByID s.order.db i).map (·.status) ∨
          (findByID s.order.db i = none ∧ (findByID s'.order.db i).map (·.status) = some .pending) ∨
          ∃ (o o' : Order) (hd : OrderHandler), findByID s.order.db i = some o ∧
            findByID s'.order.db i = some o' ∧ hd.transition o.status = some o'.status ∧
            (o.canTransitionTo o'.status = true ↔
              hd ≠ .paymentCompleted ∧ (transitions o.status).isSome) := by
  intro cmd calls trace
  obtain ⟨s, hs, he⟩ := Option.map_eq_some'.mp (show
    (runSteps Sys.step (Sys.init []) trace).map (fun s =>
      ((findByID s.order.db 1).map (·.status),
        (s.step (.call .order 0 true)).map fun s' => (findByID s'.order.db 1).map (·.status))) =
      some (some .pending, some (some .stockReserving)) by decide)
  obtain ⟨s', hs', he'⟩ := Option.map_eq_some'.mp (Prod.mk.inj he).2
  have hr := Reach.init.run hs
  exact ⟨s, hs, hr, ⟨s', hs', (Prod.mk.inj he).1, he'⟩, order_statuses_move_by_handler_decisions hr⟩

/-- Order 1's payment is declined, and a redelivered `OrderCreated` charges it: the Payment
outbox holds `PaymentFailed` and then `PaymentCompleted`. With both delivered to the Order
group, the two handlers read `PENDING` at version 0; `HandlePaymentCompleted` writes
`STOCK_RESERVING`, and `HandlePaymentFailed`'s update to `CANCELED` at version 0 matches no
row. Both return `nil`, so both event ids enter the Order service's Redis gate, and the order
stays `STOCK_RESERVING`. Handled one after the other, in either order, the two leave it
`CANCELED`. -/
theorem order_handlers_lose_an_update :
    let cmd : CreateOrderCommand :=
      { userId := 1001, amount := 50000, quantity := 1, idempotencyKey := "k1" }
    let calls (svc : Service) (js : List Nat) : List Action := js.map (.call svc · true)
    let both : List Action :=
      .request cmd :: calls .order (List.replicate 5 0) ++
        [.publish .order 1 false, .publish .order 1 true, .deliver .payment 0] ++
        [true, true, true, false, true, true].map (.call .payment 0) ++
        .deliver .payment 1 :: calls .payment (List.replicate 8 0) ++
        [.publish .payment 1 true, .publish .payment 2 true, .deliver .order 3, .deliver .order 2]
    let status (s : Sys) := (findByID s.order.db 1).map (·.status)
    ∃ s, runSteps Sys.step (Sys.init []) (both ++ calls .order [0, 1, 0, 1, 0, 1, 0, 0]) = some s ∧
      Reachable [] s ∧ (s.bus.drop 2).map (·.topic) = [.paymentFailed, .paymentCompleted] ∧
      (∀ m ∈ s.bus.drop 2, m.payload.eventId ∈ s.order.gate) ∧ status s = some .stockReserving ∧
      (runSteps Sys.step (Sys.init []) (both ++ calls .order (List.replicate 8 0))).map status =
        some (some .canceled) ∧
      (runSteps Sys.step (Sys.init []) (both ++ calls .order [1, 1, 1, 1, 0, 0, 0])).map status =
        some (some .canceled) := by
  intro cmd calls both status
  obtain ⟨s, hs, he⟩ := Option.map_eq_some'.mp (show
    (runSteps Sys.step (Sys.init []) (both ++ calls .order [0, 1, 0, 1, 0, 1, 0, 0])).map
      (fun s => ((s.bus.drop 2).map (·.topic),
        (s.bus.drop 2).all (fun m => s.order.gate.contains m.payload.eventId), status s)) =
      some ([.paymentFailed, .paymentCompleted], true, some .stockReserving) by decide)
  simp only [Prod.mk.injEq, List.all_eq_true, List.elem_eq_mem, decide_eq_true_eq] at he
  exact ⟨s, hs, Reach.init.run hs, he.1, he.2.1, he.2.2, by decide, by decide⟩

end MsaSaga.System
