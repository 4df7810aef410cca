import Mathlib.Data.List.Sort
import MsaSaga.Schema

/-!
# Payment service

`paymentService.HandleOrderCreated` and `HandleStockReservationFailed` as machines of one
call a step. The payment repository's `Create` and `UpdateStatus` go through `r.db` and
autocommit; the transaction holds only the outbox row. The gateway is the external
collaborator: `processPayment` approves or declines (the outcome of its step) and
`refundPayment` always succeeds; both are recorded, as the charges and refunds the world sees.
-/
namespace MsaSaga.PaymentService
open Events Schema

/-- The Payment service's database, and the gateway's record of charges (order, amount) and
refunds (payment id). -/
structure PaymentDb where
  payments : List Payment := []
  outbox : List OutboxRow := []
  nextPaymentId : Nat := 1
  nextOutboxId : Nat := 1
  charges : List (Nat × Int) := []
  refunds : List Nat := []
  deriving DecidableEq, Repr

/-- `paymentRepository.FindByIdempotencyKey`. -/
def findByIdempotencyKey (db : PaymentDb) (key : IdemKey) : Option Payment :=
  db.payments.find? (·.idempotencyKey = key)

/-- `paymentRepository.FindByOrderID`: `WHERE order_id = $1 ORDER BY created_at DESC LIMIT 1`,
with the order of equal timestamps, which SQL leaves open, taken as the table's. -/
def findByOrderID (db : PaymentDb) (orderId : Nat) : Option Payment :=
  ((db.payments.filter (·.orderId = orderId)).insertionSort
    fun p q => q.createdAt ≤ p.createdAt).head?

theorem findByOrderID_mem {db : PaymentDb} {o : Nat} {p : Payment}
    (h : findByOrderID db o = some p) : p ∈ db.payments ∧ p.orderId = o := by
  have hp := (List.perm_insertionSort _ _).subset (List.mem_of_mem_head? h)
  exact ⟨(List.mem_filter.mp hp).1, of_decide_eq_true (List.mem_filter.mp hp).2⟩

/-- `paymentRepository.Create`: an autocommitted insert under the unique index on
`idempotency_key`. -/
def create (db : PaymentDb) (p : Payment) : Except Err (Payment × PaymentDb) :=
  if db.payments.any (·.idempotencyKey = p.idempotencyKey) then
    .error (plainErr "duplicate idempotency key")
  else
    let row := { p with id := db.nextPaymentId }
    .ok (row, { db with payments := db.payments ++ [row], nextPaymentId := db.nextPaymentId + 1 })

theorem create_eq_ok {db : PaymentDb} {p row : Payment} {db' : PaymentDb}
    (h : create db p = .ok (row, db')) :
    (∀ q ∈ db.payments, q.idempotencyKey ≠ p.idempotencyKey) ∧ row = { p with id := db.nextPaymentId } ∧
      db' = { db with payments := db.payments ++ [row], nextPaymentId := db.nextPaymentId + 1 } := by
  unfold create at h
  split at h
  · cases h
  · cases h
    simp_all

/-- `paymentRepository.UpdateStatus`: autocommitted, on the row with that id. -/
def updateStatus (db : PaymentDb) (id : Nat) (status : PaymentStatus) (reason : String) :
    PaymentDb :=
  { db with payments := db.payments.map fun p => if p.id = id then { p with status, reason } else p }

@[simp] theorem updateStatus_outbox (db : PaymentDb) (id : Nat) (status : PaymentStatus)
    (reason : String) : (updateStatus db id status reason).outbox = db.outbox := rfl

/-- A transaction's outbox insert, with the id the sequence hands out and the `CreatedAt` the
handler set. -/
def PaymentDb.outboxRow (db : PaymentDb) (aggregateId : Nat) (ev : Event) (createdAt : Nat) :
    OutboxRow :=
  { id := db.nextOutboxId, aggregateType := "payment", aggregateId, eventType := ev.eventType,
    payload := ev, createdAt }

@[simp] theorem PaymentDb.outboxRow_eventType (db : PaymentDb) (a : Nat) (ev : Event) (c : Nat) :
    (db.outboxRow a ev c).eventType = ev.eventType := rfl

@[simp] theorem PaymentDb.outboxRow_payload (db : PaymentDb) (a : Nat) (ev : Event) (c : Nat) :
    (db.outboxRow a ev c).payload = ev := rfl

/-! ## HandleOrderCreated -/

/-- The call `HandleOrderCreated` makes next; `insertFailed` and `commitFailed` are the two
calls of `publishPaymentFailed`. -/
inductive OrderCreatedPc where
  | findByIdempotencyKey
  | beginTx
  | processPayment
  | create
  | insertCompleted (payment : Payment)
  | commitCompleted
  | insertFailed (reason : String)
  | commitFailed (reason : String)
  deriving DecidableEq, Repr

/-- An execution of `HandleOrderCreated`; `now` is the `time.Now()` it read once the
gateway answered. -/
structure OrderCreatedRun where
  pc : OrderCreatedPc := .findByIdempotencyKey
  tx : List OutboxRow := []
  now : Nat := 0
  deriving DecidableEq, Repr

/-- The message of the gateway's decline, `err.Error()` of the `DomainError`. -/
def declineReason : String := "[PAYMENT_DECLINED] payment declined by gateway"

/-- One call of `HandleOrderCreated` on `evt`. At `processPayment`, `ok` is the gateway's
answer. -/
def handleOrderCreated (evt : Event) (m : OrderCreatedRun) (ok : Bool) (u : Nat) (db : PaymentDb) :
    Next OrderCreatedRun HandlerResult × Nat × PaymentDb :=
  let key := paymentKey evt.orderId evt.eventId
  match m.pc with
  | .findByIdempotencyKey =>
      if ok ∧ (findByIdempotencyKey db key).isSome then (.ret (.ok ()), u, db)
      else (.cont { m with pc := .beginTx }, u, db)
  | .beginTx =>
      if ok then (.cont { m with pc := .processPayment }, u, db)
      else (.ret (.error (dbErr "failed to begin transaction")), u, db)
  | .processPayment =>
      if ok then
        (.cont { m with pc := .create, now := u }, u + 1,
          { db with charges := db.charges ++ [(evt.orderId, evt.amount)] })
      else (.cont { m with pc := .insertFailed declineReason, now := u }, u + 1, db)
  | .create =>
      let p : Payment :=
        { id := 0, orderId := evt.orderId, amount := evt.amount, status := .completed,
          idempotencyKey := key, createdAt := m.now }
      match (if ok then create db p else .error (plainErr "failed to create payment")) with
      | .ok (p, db') => (.cont { m with pc := .insertCompleted p }, u, db')
      | .error _ => (.ret (.error (dbErr "failed to create payment")), u, db)
  | .insertCompleted p =>
      let ev : Event :=
        { eventId := u, eventType := .paymentCompleted, correlationId := evt.correlationId,
          orderId := evt.orderId, paymentId := p.id, amount := p.amount }
      if ok then
        (.cont { m with pc := .commitCompleted, tx := m.tx ++ [db.outboxRow p.id ev m.now] },
          u + 1,
          { db with nextOutboxId := db.nextOutboxId + 1 })
      else (.ret (.error (dbErr "failed to insert outbox event")), u + 1, db)
  | .commitCompleted =>
      if ok then (.ret (.ok ()), u, { db with outbox := db.outbox ++ m.tx })
      else (.ret (.error (dbErr "failed to commit transaction")), u, db)
  | .insertFailed reason =>
      let ev : Event :=
        { eventId := u, eventType := .paymentFailed, correlationId := evt.correlationId,
          orderId := evt.orderId, reason }
      if ok then
        (.cont { m with pc := .commitFailed reason,
                        tx := m.tx ++ [db.outboxRow evt.orderId ev m.now] }, u + 1, { db with nextOutboxId := db.nextOutboxId + 1 })
      else (.ret (.error (dbErr "failed to insert outbox event")), u + 1, db)
  | .commitFailed reason =>
      if ok then (.ret (.error (plainErr ("payment failed: " ++ reason))), u,
        { db with outbox := db.outbox ++ m.tx })
      else (.ret (.error (dbErr "failed to commit transaction")), u, db)

/-! ## HandleStockReservationFailed -/

/-- The call `HandleStockReservationFailed` makes next. -/
inductive RefundPc where
  | findByOrderID
  | beginTx (payment : Payment)
  | refundPayment (payment : Payment)
  | updateStatus (payment : Payment)
  | insertRefunded (payment : Payment)
  | commit
  deriving DecidableEq, Repr

/-- An execution of `HandleStockReservationFailed`; `now` is the `time.Now()` it read after
`UpdateStatus`. -/
structure RefundRun where
  pc : RefundPc := .findByOrderID
  tx : List OutboxRow := []
  now : Nat := 0
  deriving DecidableEq, Repr

/-- One call of `HandleStockReservationFailed` on `evt`: the compensation. A failed lookup
returns `failed to find payment: ` with the driver's error, whose text is left out. -/
def handleStockReservationFailed (evt : Event) (m : RefundRun) (ok : Bool) (u : Nat)
    (db : PaymentDb) : Next RefundRun HandlerResult × Nat × PaymentDb :=
  match m.pc with
  | .findByOrderID =>
      if ok then
        match findByOrderID db evt.orderId with
        | none =>
            (.ret (.error (plainErr ("payment not found for order: " ++ toString evt.orderId))),
              u, db)
        | some p =>
            if p.status = .refunded then (.ret (.ok ()), u, db)
            else (.cont { m with pc := .beginTx p }, u, db)
      else (.ret (.error (plainErr "failed to find payment")), u, db)
  | .beginTx p =>
      if ok then (.cont { m with pc := .refundPayment p }, u, db)
      else (.ret (.error (dbErr "failed to begin transaction")), u, db)
  | .refundPayment p =>
      (.cont { m with pc := .updateStatus p }, u, { db with refunds := db.refunds ++ [p.id] })
  | .updateStatus p =>
      if ok then
        (.cont { m with pc := .insertRefunded p, now := u }, u + 1,
          updateStatus db p.id .refunded evt.reason)
      else (.ret (.error (dbErr "failed to update payment status")), u, db)
  | .insertRefunded p =>
      let ev : Event :=
        { eventId := u, eventType := .paymentRefunded, correlationId := evt.correlationId,
          orderId := evt.orderId, paymentId := p.id, amount := p.amount }
      if ok then
        (.cont { m with pc := .commit, tx := m.tx ++ [db.outboxRow p.id ev m.now] }, u + 1,
          { db with nextOutboxId := db.nextOutboxId + 1 })
      else (.ret (.error (dbErr "failed to insert outbox event")), u + 1, db)
  | .commit =>
      if ok then (.ret (.ok ()), u, { db with outbox := db.outbox ++ m.tx })
      else (.ret (.error (dbErr "failed to commit transaction")), u, db)

/-! ## The service -/

/-- The handler a Payment consumer execution runs, at its program point. -/
inductive PaymentRun where
  | orderCreated (m : OrderCreatedRun)
  | stockReservationFailed (m : RefundRun)
  deriving DecidableEq, Repr

/-- One call of the handler a consumer execution runs on `evt`. -/
def PaymentRun.step (evt : Event) : PaymentRun → Bool → Nat → PaymentDb →
    Next PaymentRun HandlerResult × Nat × PaymentDb
  | .orderCreated m, ok, u, db =>
      let r := handleOrderCreated evt m ok u db
      (match r.1 with | .cont m' => .cont (.orderCreated m') | .ret e => .ret e, r.2.1, r.2.2)
  | .stockReservationFailed m, ok, u, db =>
      let r := handleStockReservationFailed evt m ok u db
      (match r.1 with | .cont m' => .cont (.stockReservationFailed m') | .ret e => .ret e,
        r.2.1, r.2.2)

/-- `EventHandler.HandleMessage` of the Payment service. -/
def runOf : EventType → Option PaymentRun
  | .orderCreated => some (.orderCreated {})
  | .stockReservationFailed => some (.stockReservationFailed {})
  | _ => none

structure PaymentConsumer where
  src : Nat
  event : Event
  stage : Stage PaymentRun
  deriving DecidableEq, Repr

def PaymentConsumer.start (src : Nat) (msg : Message) : Option PaymentConsumer :=
  (runOf msg.topic).map fun r => { src, event := msg.payload, stage := .isProcessed r }

/-- The service: its database, its Redis keys `payment-service:<eventId>`, and the consumer
executions in flight. -/
structure PaymentSvc where
  db : PaymentDb := {}
  gate : List Nat := []
  threads : List PaymentConsumer := []
  deriving DecidableEq, Repr

/-- One call of a consumer execution; `none` once it has returned. -/
def PaymentConsumer.step (c : PaymentConsumer) (ok : Bool) (u : Nat) (gate : List Nat)
    (db : PaymentDb) : Option PaymentConsumer × Nat × List Nat × PaymentDb :=
  let r := Stage.step (PaymentRun.step c.event) c.event.eventId c.stage ok u gate db
  (r.1.cont?.map fun st => { c with stage := st }, r.2.1, r.2.2.1, r.2.2.2)

/-- The consumer group hands message `src` to the service. -/
def PaymentSvc.deliver (s : PaymentSvc) (src : Nat) (msg : Message) : PaymentSvc :=
  { s with threads := s.threads ++ (PaymentConsumer.start src msg).toList }

/-- One call of execution `j` with outcome `ok` and next UUID `u`: the new service, the next
UUID, and the offset of the message whose handler returned. -/
def PaymentSvc.call (s : PaymentSvc) (j : Nat) (ok : Bool) (u : Nat) :
    Option (PaymentSvc × Nat × Option Nat) :=
  s.threads[j]?.map fun t =>
    let r := t.step ok u s.gate s.db
    ({ db := r.2.2.2, gate := r.2.2.1, threads := advance s.threads j r.1 }, r.2.1,
      if r.1.isNone then some t.src else none)

/-- The process running execution `j` stops between two calls. -/
def PaymentSvc.crash (s : PaymentSvc) (j : Nat) : PaymentSvc :=
  { s with threads := s.threads.eraseIdx j }

/-- A Redis key expires or is lost. -/
def PaymentSvc.expire (s : PaymentSvc) (k : Nat) : PaymentSvc :=
  { s with gate := s.gate.erase k }

/-- What can happen to the service: the group hands it a message, an execution makes a call or
stops, a Redis key expires, or the relay marks a row `SENT`. -/
inductive PaymentAction where
  | deliver (src : Nat) (msg : Message)
  | call (j : Nat) (ok : Bool) (u : Nat)
  | crash (j : Nat)
  | expire (eventId : Nat)
  | markSent (id : Nat)
  deriving DecidableEq, Repr

def PaymentSvc.step (s : PaymentSvc) : PaymentAction → Option PaymentSvc
  | .deliver src msg => some (s.deliver src msg)
  | .call j ok u => (s.call j ok u).map (·.1)
  | .crash j => some (s.crash j)
  | .expire k => some (s.expire k)
  | .markSent id => some { s with db := { s.db with outbox := markSent id s.db.outbox } }

/-- The states the service reaches from an empty database, under any interleaving of
executions on any messages. -/
def PaymentSvc.Reachable : PaymentSvc → Prop :=
  Reach PaymentSvc.step {}

end MsaSaga.PaymentService
