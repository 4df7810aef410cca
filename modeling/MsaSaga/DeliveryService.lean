import MsaSaga.Schema

/-!
# Delivery service

`deliveryService.HandleStockReserved`, one call a step: the delivery row and its
`DeliveryStarted` outbox row are inserted in one transaction. A second execution inserting
the same idempotency key waits while the first transaction holds it, and fails on the unique
index once it is committed. The service's `main`, with its consumer wrapper and its outbox
relay, is not among the sources; the wrapper is taken to be the one the other services use.
-/
namespace MsaSaga.DeliveryService
open Events Schema

/-- The Delivery service's database. -/
structure DeliveryDb where
  deliveries : List Delivery := []
  outbox : List OutboxRow := []
  nextDeliveryId : Nat := 1
  nextOutboxId : Nat := 1
  deriving DecidableEq, Repr

/-- The writes of an open transaction, and the time it began, which `NOW()` reads. -/
structure DeliveryTx where
  deliveries : List Delivery := []
  outbox : List OutboxRow := []
  startedAt : Nat := 0
  deriving DecidableEq, Repr

/-- `tx.Commit()`. -/
def DeliveryDb.commit (db : DeliveryDb) (tx : DeliveryTx) : DeliveryDb :=
  { db with deliveries := db.deliveries ++ tx.deliveries, outbox := db.outbox ++ tx.outbox }

/-- `SELECT id FROM deliveries WHERE idempotency_key = $1`, outside the transaction. -/
def selectDeliveryByKey (db : DeliveryDb) (key : IdemKey) : Option Delivery :=
  db.deliveries.find? (·.idempotencyKey = key)

/-- The call `HandleStockReserved` makes next. -/
inductive DeliveryPc where
  | selectKey
  | beginTx
  | insertDelivery
  | insertStarted (deliveryId : Nat)
  | commit
  deriving DecidableEq, Repr

structure DeliveryRun where
  pc : DeliveryPc := .selectKey
  tx : DeliveryTx := {}
  deriving DecidableEq, Repr

/-- One call of `HandleStockReserved` on `evt`. -/
def handleStockReserved (evt : Event) (m : DeliveryRun) (ok : Bool) (u : Nat) (db : DeliveryDb) :
    Next DeliveryRun HandlerResult × Nat × DeliveryDb :=
  let key := deliveryKey evt.orderId evt.eventId
  match m.pc with
  | .selectKey =>
      if ok ∧ (selectDeliveryByKey db key).isSome then (.ret (.ok ()), u, db)
      else (.cont { m with pc := .beginTx }, u, db)
  | .beginTx =>
      if ok then (.cont { m with pc := .insertDelivery, tx := { m.tx with startedAt := u } }, u + 1,
        db)
      else (.ret (.error (dbErr "failed to begin transaction")), u, db)
  | .insertDelivery =>
      if ok ∧ key.Fits ∧ !(db.deliveries ++ m.tx.deliveries).any (·.idempotencyKey = key) then
        let d : Delivery :=
          { id := db.nextDeliveryId, orderId := evt.orderId, status := .preparing,
            idempotencyKey := key }
        (.cont { m with pc := .insertStarted d.id,
                        tx := { m.tx with deliveries := m.tx.deliveries ++ [d] } }, u,
          { db with nextDeliveryId := db.nextDeliveryId + 1 })
      else (.ret (.error (dbErr "failed to create delivery")), u, db)
  | .insertStarted did =>
      let ev : Event :=
        { eventId := u, eventType := .deliveryStarted, correlationId := evt.correlationId,
          orderId := evt.orderId, deliveryId := did }
      let row : OutboxRow :=
        { id := db.nextOutboxId, aggregateType := "delivery", aggregateId := did,
          eventType := .deliveryStarted, payload := ev, createdAt := m.tx.startedAt }
      if ok then
        (.cont { m with pc := .commit, tx := { m.tx with outbox := m.tx.outbox ++ [row] } },
          u + 1, { db with nextOutboxId := db.nextOutboxId + 1 })
      else (.ret (.error (dbErr "failed to insert outbox event")), u + 1, db)
  | .commit =>
      if ok then (.ret (.ok ()), u, db.commit m.tx)
      else (.ret (.error (dbErr "failed to commit transaction")), u, db)

/-- The next call of an execution on `evt` waits for a transaction holding its key. -/
def DeliveryRun.waitsFor (evt : Event) (other : DeliveryTx) (m : DeliveryRun) : Bool :=
  match m.pc with
  | .insertDelivery =>
      other.deliveries.any (·.idempotencyKey = deliveryKey evt.orderId evt.eventId)
  | _ => false

/-- Modelled from the spec: the consumer of the Delivery service (its `main` is absent) serves
`stock.reserved.v1` with `HandleStockReserved` behind the same gate as its siblings. -/
def runOf : EventType → Option DeliveryRun
  | .stockReserved => some {}
  | _ => none

structure DeliveryConsumer where
  src : Nat
  event : Event
  stage : Stage DeliveryRun
  deriving DecidableEq, Repr

def DeliveryConsumer.start (src : Nat) (msg : Message) : Option DeliveryConsumer :=
  (runOf msg.topic).map fun r => { src, event := msg.payload, stage := .isProcessed r }

def DeliveryConsumer.tx (c : DeliveryConsumer) : DeliveryTx :=
  match c.stage with
  | .handle m => m.tx
  | _ => {}

def DeliveryConsumer.blocked (c : DeliveryConsumer) (others : List DeliveryConsumer) : Bool :=
  match c.stage with
  | .handle m => others.any fun o => m.waitsFor c.event o.tx
  | _ => false

/-- The service: its database, its Redis keys, and the consumer executions in flight. -/
structure DeliverySvc where
  db : DeliveryDb := {}
  gate : List Nat := []
  threads : List DeliveryConsumer := []
  deriving DecidableEq, Repr

def DeliveryConsumer.step (c : DeliveryConsumer) (ok : Bool) (u : Nat) (gate : List Nat)
    (db : DeliveryDb) : Option DeliveryConsumer × Nat × List Nat × DeliveryDb :=
  let r := Stage.step (handleStockReserved c.event) c.event.eventId c.stage ok u gate db
  (r.1.cont?.map fun st => { c with stage := st }, r.2.1, r.2.2.1, r.2.2.2)

/-- The consumer group hands message `src` to the service. -/
def DeliverySvc.deliver (s : DeliverySvc) (src : Nat) (msg : Message) : DeliverySvc :=
  { s with threads := s.threads ++ (DeliveryConsumer.start src msg).toList }

/-- One call of execution `j` with outcome `ok` and next UUID `u`: the new service, the next
UUID, and the offset of the message whose handler returned. An execution whose call waits for another transaction cannot make it. -/
def DeliverySvc.call (s : DeliverySvc) (j : Nat) (ok : Bool) (u : Nat) :
    Option (DeliverySvc × Nat × Option Nat) :=
  (s.threads[j]?.filter fun t => !t.blocked (s.threads.eraseIdx j)).map fun t =>
    let r := t.step ok u s.gate s.db
    ({ db := r.2.2.2, gate := r.2.2.1, threads := advance s.threads j r.1 }, r.2.1,
      if r.1.isNone then some t.src else none)

/-- The process running execution `j` stops between two calls. -/
def DeliverySvc.crash (s : DeliverySvc) (j : Nat) : DeliverySvc :=
  { s with threads := s.threads.eraseIdx j }

/-- A Redis key expires or is lost. -/
def DeliverySvc.expire (s : DeliverySvc) (k : Nat) : DeliverySvc :=
  { s with gate := s.gate.erase k }

end MsaSaga.DeliveryService
