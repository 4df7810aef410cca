import MsaSaga.Schema

/-!
# Order service

`orderService.CreateOrder` and the six event handlers, each as a machine that makes one
database call per step, behind the consumer wrapper of `handler.EventHandler`
(`IsProcessed`, the handler, `Reserve`). The order repository's statements go through `r.db`
and autocommit; only the outbox insert of `CreateOrder` runs in its transaction, which holds
nothing else. A failed call takes the error path the source takes at that call, and a
deferred `tx.Rollback()` discards whatever the transaction holds when the handler returns.

The three success handlers read the status and update only from the status they expect;
the three failure handlers update whatever they read.
-/
namespace MsaSaga.OrderService
open Events Schema

/-- The Order service's database. -/
structure OrderDb where
  orders : List Order := []
  outbox : List OutboxRow := []
  nextOrderId : Nat := 1
  nextOutboxId : Nat := 1
  deriving DecidableEq, Repr

/-- `orderRepository.FindByIdempotencyKey`. -/
def findByIdempotencyKey (db : OrderDb) (key : String) : Option Order :=
  db.orders.find? (·.idempotencyKey = key)

/-- `orderRepository.FindByID`. -/
def findByID (db : OrderDb) (id : Nat) : Option Order :=
  db.orders.find? (·.id = id)

/-- `orderRepository.Create`: an autocommitted insert; a key longer than its `VARCHAR(64)`
column fails it, and the unique index on `idempotency_key` rejects a second row with the same
key. `RETURNING id, version` gives the stored row back. -/
def create (db : OrderDb) (o : Order) : Except Err (Order × OrderDb) :=
  if keyColumnWidth < o.idempotencyKey.length then .error (plainErr "failed to create order")
  else if db.orders.any (·.idempotencyKey = o.idempotencyKey) then
    .error (plainErr "duplicate idempotency key")
  else
    let row := { o with id := db.nextOrderId, version := 0 }
    .ok (row, { db with orders := db.orders ++ [row], nextOrderId := db.nextOrderId + 1 })

theorem create_eq_ok {db : OrderDb} {o row : Order} {db' : OrderDb}
    (h : create db o = .ok (row, db')) :
    (∀ q ∈ db.orders, q.idempotencyKey ≠ o.idempotencyKey) ∧
      row = { o with id := db.nextOrderId, version := 0 } ∧
      db' = { db with orders := db.orders ++ [row], nextOrderId := db.nextOrderId + 1 } := by
  unfold create at h
  split at h
  · cases h
  split at h
  · cases h
  · cases h
    simp_all

/-- `UPDATE orders SET status, version = version + 1 WHERE id = $2 AND version = $3`. -/
def setStatus (id : Nat) (status : OrderStatus) (currentVersion : Nat) (o : Order) : Order :=
  if o.id = id ∧ o.version = currentVersion then { o with status, version := o.version + 1 }
  else o

/-- `orderRepository.UpdateStatusWithVersion`: autocommitted; returns whether a row matched. -/
def updateStatusWithVersion (db : OrderDb) (id : Nat) (status : OrderStatus)
    (currentVersion : Nat) : Bool × OrderDb :=
  (db.orders.any (fun o => o.id = id ∧ o.version = currentVersion),
    { db with orders := db.orders.map (setStatus id status currentVersion) })

/-! ## CreateOrder -/

structure CreateOrderCommand where
  userId : Int
  amount : Int
  quantity : Int
  idempotencyKey : String
  deriving DecidableEq, Repr

structure CreateOrderResult where
  orderId : Nat
  status : OrderStatus
  deriving DecidableEq, Repr

/-- The call `CreateOrder` makes next. -/
inductive CreateOrderPc where
  | findByIdempotencyKey
  | beginTx
  | create
  | insertTx (order : Order)
  | commit (order : Order)
  deriving DecidableEq, Repr

/-- An execution of `CreateOrder`; `now` is the `time.Now()` it read after `BeginTx`. -/
structure CreateOrderThread where
  cmd : CreateOrderCommand
  pc : CreateOrderPc := .findByIdempotencyKey
  tx : List OutboxRow := []
  now : Nat := 0
  deriving DecidableEq, Repr

/-- The order `CreateOrder` hands to `Create`. -/
def CreateOrderCommand.toOrder (cmd : CreateOrderCommand) : Order :=
  { id := 0, userId := cmd.userId, amount := cmd.amount, quantity := cmd.quantity,
    status := .pending, version := 0, idempotencyKey := cmd.idempotencyKey }

abbrev CreateOrderReturn := Except Err CreateOrderResult

/-- Input validation, then `BeginTx`. -/
def validate (t : CreateOrderThread) : Next CreateOrderThread CreateOrderReturn :=
  if t.cmd.amount ≤ 0 then .ret (.error ⟨some .invalidOrder, "amount must be positive"⟩)
  else if t.cmd.quantity ≤ 0 then .ret (.error ⟨some .invalidOrder, "quantity must be positive"⟩)
  else .cont { t with pc := .beginTx }

/-- The `OrderCreated` event of a new order: the correlation id is drawn first, then the
event id. -/
def orderCreatedEvent (u : Nat) (o : Order) : Event :=
  { eventId := u + 1, eventType := .orderCreated, correlationId := u, orderId := o.id,
    userId := o.userId, amount := o.amount, quantity := o.quantity }

/-- One call of `CreateOrder`, with `ok` the outcome of that call and `u` the next fresh value
of the UUIDs and the clock. A lookup error is discarded (`if err == nil`), so it reads as "no
such order". -/
def CreateOrderThread.step (t : CreateOrderThread) (ok : Bool) (u : Nat) (db : OrderDb) :
    Next CreateOrderThread CreateOrderReturn × Nat × OrderDb :=
  match t.pc with
  | .findByIdempotencyKey =>
      match (if t.cmd.idempotencyKey ≠ "" ∧ ok = true then
          findByIdempotencyKey db t.cmd.idempotencyKey else none) with
      | some o => (.ret (.ok ⟨o.id, o.status⟩), u, db)
      | none => (validate t, u, db)
  | .beginTx =>
      if ok then (.cont { t with pc := .create, now := u }, u + 1, db)
      else (.ret (.error (dbErr "failed to begin transaction")), u, db)
  | .create =>
      match (if ok then create db t.cmd.toOrder else .error (plainErr "failed to create order")) with
      | .ok (o, db') => (.cont { t with pc := .insertTx o }, u, db')
      | .error _ => (.ret (.error (dbErr "failed to create order")), u, db)
  | .insertTx o =>
      if ok then
        let row : OutboxRow :=
          { id := db.nextOutboxId, aggregateType := "order", aggregateId := o.id,
            eventType := .orderCreated, payload := orderCreatedEvent u o, createdAt := t.now }
        (.cont { t with pc := .commit o, tx := t.tx ++ [row] }, u + 2,
          { db with nextOutboxId := db.nextOutboxId + 1 })
      else (.ret (.error (dbErr "failed to insert outbox event")), u + 2, db)
  | .commit o =>
      if ok then (.ret (.ok ⟨o.id, o.status⟩), u, { db with outbox := db.outbox ++ t.tx })
      else (.ret (.error (dbErr "failed to commit transaction")), u, db)

/-- A request enters `CreateOrder`. -/
def CreateOrderThread.start (cmd : CreateOrderCommand) : CreateOrderThread := { cmd }

/-! ## The event handlers -/

/-- The six event handlers of `orderService`. -/
inductive OrderHandler where
  | paymentCompleted | paymentFailed | stockReserved | stockReservationFailed
  | deliveryStarted | deliveryFailed
  deriving DecidableEq, Repr

/-- A handler that updates the status to `target` only when it read `expected`. -/
def guardedTransition (expected target : OrderStatus) (current : OrderStatus) :
    Option OrderStatus :=
  if current = expected then some target else none

/-- A handler that updates the status to `target` whatever it read. -/
def unguardedTransition (target : OrderStatus) (_current : OrderStatus) : Option OrderStatus :=
  some target

/-- `HandlePaymentCompleted`: PENDING to STOCK_RESERVING. -/
def handlePaymentCompleted : OrderStatus → Option OrderStatus :=
  guardedTransition .pending .stockReserving

/-- `HandlePaymentFailed`: to CANCELED, with no status check. -/
def handlePaymentFailed : OrderStatus → Option OrderStatus :=
  unguardedTransition .canceled

/-- `HandleStockReserved`: STOCK_RESERVING to DELIVERY_PREPARING. -/
def handleStockReserved : OrderStatus → Option OrderStatus :=
  guardedTransition .stockReserving .deliveryPreparing

/-- `HandleStockReservationFailed`: to FAILED, with no status check. -/
def handleStockReservationFailed : OrderStatus → Option OrderStatus :=
  unguardedTransition .failed

/-- `HandleDeliveryStarted`: DELIVERY_PREPARING to COMPLETED. -/
def handleDeliveryStarted : OrderStatus → Option OrderStatus :=
  guardedTransition .deliveryPreparing .completed

/-- `HandleDeliveryFailed`: to FAILED, with no status check. -/
def handleDeliveryFailed : OrderStatus → Option OrderStatus :=
  unguardedTransition .failed

/-- The status a handler writes after reading `current`; `none` is the guarded no-op. -/
def OrderHandler.transition : OrderHandler → OrderStatus → Option OrderStatus
  | .paymentCompleted => handlePaymentCompleted
  | .paymentFailed => handlePaymentFailed
  | .stockReserved => handleStockReserved
  | .stockReservationFailed => handleStockReservationFailed
  | .deliveryStarted => handleDeliveryStarted
  | .deliveryFailed => handleDeliveryFailed

/-- `EventHandler.HandleMessage`: the handler of a topic. Any other topic returns `nil`. -/
def handlerOf : EventType → Option OrderHandler
  | .paymentCompleted => some .paymentCompleted
  | .paymentFailed => some .paymentFailed
  | .stockReserved => some .stockReserved
  | .stockReservationFailed => some .stockReservationFailed
  | .deliveryStarted => some .deliveryStarted
  | .deliveryFailed => some .deliveryFailed
  | _ => none

/-- The call an Order handler makes next. -/
inductive OrderEventPc where
  | findByID
  | update (order : Order) (status : OrderStatus)
  deriving DecidableEq, Repr

/-- One call of an Order event handler on `evt`. `FindByID` failing, for a missing row or a
database error, returns `order not found`; the update's row count is discarded. -/
def OrderHandler.step (h : OrderHandler) (evt : Event) (pc : OrderEventPc) (ok : Bool) (u : Nat)
    (db : OrderDb) : Next OrderEventPc HandlerResult × Nat × OrderDb :=
  match pc with
  | .findByID =>
      match (if ok then findByID db evt.orderId else none) with
      | none => (.ret (.error (plainErr "order not found")), u, db)
      | some o =>
          match h.transition o.status with
          | some s => (.cont (.update o s), u, db)
          | none => (.ret (.ok ()), u, db)
  | .update o s =>
      if ok then (.ret (.ok ()), u, (updateStatusWithVersion db o.id s o.version).2)
      else (.ret (.error (plainErr "failed to update order status")), u, db)

/-- One consumer execution: the message's offset, its event and handler, and the stage. -/
structure OrderConsumer where
  src : Nat
  event : Event
  handler : OrderHandler
  stage : Stage OrderEventPc
  deriving DecidableEq, Repr

/-- `HandleMessage` on a delivered message; `none` for a topic without a handler. -/
def OrderConsumer.start (src : Nat) (msg : Message) : Option OrderConsumer :=
  (handlerOf msg.topic).map fun h =>
    { src, event := msg.payload, handler := h, stage := .isProcessed .findByID }

/-! ## The service -/

inductive OrderThread where
  | createOrder (t : CreateOrderThread)
  | consumer (c : OrderConsumer)
  deriving DecidableEq, Repr

/-- The service: its database, its Redis keys `order-service:<eventId>`, and the executions in
flight. -/
structure OrderSvc where
  db : OrderDb := {}
  gate : List Nat := []
  threads : List OrderThread := []
  deriving DecidableEq, Repr

/-- One call of an in-flight execution; `none` once it has returned. -/
def OrderThread.step : OrderThread → Bool → Nat → List Nat → OrderDb →
    Option OrderThread × Nat × List Nat × OrderDb
  | .createOrder t, ok, u, gate, db =>
      let r := t.step ok u db
      (r.1.cont?.map .createOrder, r.2.1, gate, r.2.2)
  | .consumer c, ok, u, gate, db =>
      let r := Stage.step (c.handler.step c.event) c.event.eventId c.stage ok u gate db
      (r.1.cont?.map fun st => .consumer { c with stage := st }, r.2.1, r.2.2.1, r.2.2.2)

def OrderThread.src? : OrderThread → Option Nat
  | .createOrder _ => none
  | .consumer c => some c.src

/-- A `POST /orders` request enters `CreateOrder`. -/
def OrderSvc.request (s : OrderSvc) (cmd : CreateOrderCommand) : OrderSvc :=
  { s with threads := s.threads ++ [.createOrder (.start cmd)] }

/-- The consumer group hands message `src` to the service. -/
def OrderSvc.deliver (s : OrderSvc) (src : Nat) (msg : Message) : OrderSvc :=
  { s with threads := s.threads ++ (OrderConsumer.start src msg).toList.map .consumer }

/-- One call of execution `j` with outcome `ok` and next UUID `u`: the new service, the next
UUID, and the offset of the message whose handler returned, for `ConsumeClaim` to mark. -/
def OrderSvc.call (s : OrderSvc) (j : Nat) (ok : Bool) (u : Nat) :
    Option (OrderSvc × Nat × Option Nat) :=
  s.threads[j]?.map fun t =>
    let r := t.step ok u s.gate s.db
    ({ db := r.2.2.2, gate := r.2.2.1, threads := advance s.threads j r.1 }, r.2.1,
      if r.1.isNone then t.src? else none)

/-- The process running execution `j` stops between two calls. -/
def OrderSvc.crash (s : OrderSvc) (j : Nat) : OrderSvc :=
  { s with threads := s.threads.eraseIdx j }

/-- A Redis key expires or is lost. -/
def OrderSvc.expire (s : OrderSvc) (k : Nat) : OrderSvc :=
  { s with gate := s.gate.erase k }

/-- What can happen to the service: a request arrives, the group hands it a message, an
execution makes a call or stops, a Redis key expires, or the relay marks a row `SENT`. -/
inductive OrderAction where
  | request (cmd : CreateOrderCommand)
  | deliver (src : Nat) (msg : Message)
  | call (j : Nat) (ok : Bool) (u : Nat)
  | crash (j : Nat)
  | expire (eventId : Nat)
  | markSent (id : Nat)
  deriving DecidableEq, Repr

def OrderSvc.step (s : OrderSvc) : OrderAction → Option OrderSvc
  | .request cmd => some (s.request cmd)
  | .deliver src msg => some (s.deliver src msg)
  | .call j ok u => (s.call j ok u).map (·.1)
  | .crash j => some (s.crash j)
  | .expire k => some (s.expire k)
  | .markSent id => some { s with db := { s.db with outbox := markSent id s.db.outbox } }

/-- The states the service reaches from an empty database, under any interleaving of requests
and executions on any messages. -/
def OrderSvc.Reachable : OrderSvc → Prop :=
  Reach OrderSvc.step {}

end MsaSaga.OrderService
