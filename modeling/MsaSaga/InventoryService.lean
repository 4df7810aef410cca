import MsaSaga.Schema

/-!
# Inventory service

`inventoryService.HandlePaymentCompleted` and `HandlePaymentRefunded`, one call a step. Both
run their writes inside a transaction, so a transaction here is a buffer: the inventory rows
it holds the lock of, as it sees them, its pending reservation inserts and status updates,
and its outbox rows. Other executions read the committed tables only (`READ COMMITTED`);
`Commit` applies the buffer in one step, and an execution that returns or stops without
committing leaves nothing behind.

`SELECT ... FOR UPDATE` and `UPDATE inventory` take the row lock, which is held to the end of
the transaction; an execution whose next call needs a lock or a pending unique key that
another transaction holds waits (`Blocked`). `updates` is ghost state: one entry, the
product id, for each committed transaction that updated an inventory row.
-/
namespace MsaSaga.InventoryService
open Events Schema

/-- The Inventory service's database. -/
structure InventoryDb where
  inventory : List InventoryRow := []
  reservations : List StockReservation := []
  outbox : List OutboxRow := []
  nextReservationId : Nat := 1
  nextOutboxId : Nat := 1
  updates : List Nat := []
  deriving DecidableEq, Repr

/-- An inventory row a transaction holds the lock of, as that transaction sees it. -/
structure LockedRow where
  row : InventoryRow
  updated : Bool := false
  deriving DecidableEq, Repr

/-- The writes of an open transaction, and the time it began, which `NOW()` reads. -/
structure InvTx where
  locked : List LockedRow := []
  reservations : List StockReservation := []
  canceled : List Nat := []
  outbox : List OutboxRow := []
  startedAt : Nat := 0
  deriving DecidableEq, Repr

/-- The inventory row of a product as the transaction sees it. -/
def InvTx.view (tx : InvTx) (db : InventoryDb) (p : Nat) : Option InventoryRow :=
  match tx.locked.find? (·.row.productId = p) with
  | some l => some l.row
  | none => db.inventory.find? (·.productId = p)

/-- Take the lock of a row (a no-op when the transaction holds it already). -/
def InvTx.lock (tx : InvTx) (r : InventoryRow) : InvTx :=
  if tx.locked.any (·.row.productId = r.productId) then tx
  else { tx with locked := tx.locked ++ [⟨r, false⟩] }

/-- An `UPDATE inventory` on a row the transaction has locked. -/
def InvTx.modify (tx : InvTx) (p : Nat) (f : InventoryRow → InventoryRow) : InvTx :=
  { tx with locked := tx.locked.map fun l =>
      if l.row.productId = p then ⟨f l.row, true⟩ else l }

@[simp] theorem InvTx.lock_reservations (tx : InvTx) (r : InventoryRow) :
    (tx.lock r).reservations = tx.reservations := by unfold InvTx.lock; split <;> rfl
@[simp] theorem InvTx.lock_canceled (tx : InvTx) (r : InventoryRow) :
    (tx.lock r).canceled = tx.canceled := by unfold InvTx.lock; split <;> rfl
@[simp] theorem InvTx.lock_outbox (tx : InvTx) (r : InventoryRow) :
    (tx.lock r).outbox = tx.outbox := by unfold InvTx.lock; split <;> rfl
@[simp] theorem InvTx.modify_reservations (tx : InvTx) (p : Nat) (f : InventoryRow → InventoryRow) :
    (tx.modify p f).reservations = tx.reservations := rfl
@[simp] theorem InvTx.modify_canceled (tx : InvTx) (p : Nat) (f : InventoryRow → InventoryRow) :
    (tx.modify p f).canceled = tx.canceled := rfl
@[simp] theorem InvTx.modify_outbox (tx : InvTx) (p : Nat) (f : InventoryRow → InventoryRow) :
    (tx.modify p f).outbox = tx.outbox := rfl
@[simp] theorem InvTx.lock_startedAt (tx : InvTx) (r : InventoryRow) :
    (tx.lock r).startedAt = tx.startedAt := by unfold InvTx.lock; split <;> rfl
@[simp] theorem InvTx.modify_startedAt (tx : InvTx) (p : Nat) (f : InventoryRow → InventoryRow) :
    (tx.modify p f).startedAt = tx.startedAt := rfl

/-- The row as a committed transaction leaves it. -/
def InvTx.commitRow (tx : InvTx) (r : InventoryRow) : InventoryRow :=
  match tx.locked.find? (·.row.productId = r.productId) with
  | some l => l.row
  | none => r

/-- A reservation after the transaction's status updates. -/
def InvTx.commitReservation (tx : InvTx) (r : StockReservation) : StockReservation :=
  if r.id ∈ tx.canceled then { r with status := .canceled } else r

@[simp] theorem InvTx.commitReservation_orderId (tx : InvTx) (r : StockReservation) :
    (tx.commitReservation r).orderId = r.orderId := by
  unfold InvTx.commitReservation; split <;> rfl

@[simp] theorem InvTx.commitReservation_idempotencyKey (tx : InvTx) (r : StockReservation) :
    (tx.commitReservation r).idempotencyKey = r.idempotencyKey := by
  unfold InvTx.commitReservation; split <;> rfl

/-- `tx.Commit()`. -/
def InventoryDb.commit (db : InventoryDb) (tx : InvTx) : InventoryDb :=
  { db with
    inventory := db.inventory.map tx.commitRow
    reservations := (db.reservations ++ tx.reservations).map tx.commitReservation
    outbox := db.outbox ++ tx.outbox
    updates := db.updates ++ (tx.locked.filter (·.updated)).map (·.row.productId) }

/-- Every row the transaction locked is unchanged by it and still the committed row. -/
def InvTx.Unupdated (tx : InvTx) (inventory : List InventoryRow) : Prop :=
  ∀ l ∈ tx.locked, l.updated = false ∧ inventory.find? (·.productId = l.row.productId) = some l.row

theorem find?_of_mem_nodup {l : List InventoryRow} (hn : (l.map (·.productId)).Nodup)
    {r : InventoryRow} (hr : r ∈ l) : l.find? (·.productId = r.productId) = some r := by
  induction l with
  | nil => simp at hr
  | cons a l ih =>
      simp only [List.map_cons, List.nodup_cons, List.mem_map] at hn
      rcases List.mem_cons.mp hr with rfl | hr
      · simp
      · have : a.productId ≠ r.productId := fun h => hn.1 ⟨r, hr, h.symm⟩
        simp [this, ih hn.2 hr]

/-- Committing a transaction that changed no row, inserted no reservation and cancelled none
only appends its outbox rows. -/
theorem commit_of_unupdated {db : InventoryDb} {tx : InvTx}
    (hn : (db.inventory.map (·.productId)).Nodup) (hu : tx.Unupdated db.inventory)
    (hr : tx.reservations = []) (hc : tx.canceled = []) :
    db.commit tx = { db with outbox := db.outbox ++ tx.outbox } := by
  have hinv : db.inventory.map tx.commitRow = db.inventory := by
    refine (List.map_congr_left fun r hr => ?_).trans (List.map_id _)
    unfold InvTx.commitRow
    split
    · rename_i l hl
      have hp : l.row.productId = r.productId := by simpa using List.find?_some hl
      have h := (hu l (List.mem_of_find?_eq_some hl)).2
      rw [hp, find?_of_mem_nodup hn hr] at h
      exact (Option.some.inj h).symm
    · rfl
  have hupd : tx.locked.filter (·.updated) = [] :=
    List.filter_eq_nil_iff.mpr fun l hl => by simp [(hu l hl).1]
  have hres : db.reservations.map tx.commitReservation = db.reservations :=
    (List.map_congr_left fun r _ => by simp [InvTx.commitReservation, hc]).trans (List.map_id _)
  simp [InventoryDb.commit, hinv, hr, hupd, hres]

/-- Locking the row a transaction read keeps its locked rows unchanged and committed. -/
theorem InvTx.Unupdated.lock {tx : InvTx} {db : InventoryDb} (hu : tx.Unupdated db.inventory)
    {p : Nat} {r : InventoryRow} (hv : tx.view db p = some r) : (tx.lock r).Unupdated db.inventory := by
  have hr : db.inventory.find? (·.productId = r.productId) = some r := by
    unfold InvTx.view at hv
    split at hv
    · rename_i l hl
      cases hv
      exact (hu l (List.mem_of_find?_eq_some hl)).2
    · have hp : r.productId = p := by simpa using List.find?_some hv
      rwa [hp]
  unfold InvTx.lock
  split
  · exact hu
  · intro l hl
    rcases List.mem_append.mp hl with hl | hl
    · exact hu l hl
    · simp only [List.mem_singleton] at hl
      subst hl
      exact ⟨rfl, hr⟩

/-- `SELECT id FROM stock_reservations WHERE idempotency_key = $1`, outside the transaction. -/
def selectReservationByKey (db : InventoryDb) (key : IdemKey) : Option StockReservation :=
  db.reservations.find? (·.idempotencyKey = key)

/-- `SELECT id, product_id, quantity FROM stock_reservations WHERE order_id = $1 AND
status = 'RESERVED'` through `QueryRow`, outside the transaction: the first matching row. -/
def selectReservedByOrder (db : InventoryDb) (orderId : Nat) : Option StockReservation :=
  db.reservations.find? fun r => r.orderId = orderId ∧ r.status = .reserved

/-- An error the source returns as the driver gave it, without wrapping. -/
def driverErr : Err := plainErr "driver error"

/-- A transaction's outbox insert, with the id the sequence hands out and `created_at` the
transaction's `NOW()`. -/
def InventoryDb.outboxRow (db : InventoryDb) (aggregateType : String) (aggregateId : Nat)
    (ev : Event) (tx : InvTx) : OutboxRow :=
  { id := db.nextOutboxId, aggregateType, aggregateId, eventType := ev.eventType, payload := ev,
    createdAt := tx.startedAt }

@[simp] theorem InventoryDb.outboxRow_eventType (db : InventoryDb) (t : String) (a : Nat)
    (ev : Event) (tx : InvTx) : (db.outboxRow t a ev tx).eventType = ev.eventType := rfl

@[simp] theorem InventoryDb.outboxRow_payload (db : InventoryDb) (t : String) (a : Nat)
    (ev : Event) (tx : InvTx) : (db.outboxRow t a ev tx).payload = ev := rfl

/-! ## HandlePaymentCompleted -/

/-- `productID := int64(1)`: the product every reservation is taken from. -/
def productID : Nat := 1

/-- `quantity := 1`: the quantity every reservation takes. -/
def quantity : Int := 1

/-- The call `HandlePaymentCompleted` makes next; the last two are the calls of
`publishStockReservationFailed`. -/
inductive ReservePc where
  | selectKey
  | beginTx
  | selectForUpdate
  | update (version : Nat)
  | insertReservation
  | insertReserved (reservationId : Nat)
  | commit
  | insertFailed (reason : String)
  | commitFailed (reason : String)
  deriving DecidableEq, Repr

structure ReserveRun where
  pc : ReservePc := .selectKey
  tx : InvTx := {}
  deriving DecidableEq, Repr

/-- The version-guarded reservation update: `available - $1`, `reserved + $1`, `version + 1`. -/
def reserveRow (r : InventoryRow) : InventoryRow :=
  { r with available := r.available - quantity, reserved := r.reserved + quantity,
           version := r.version + 1 }

/-- One call of `HandlePaymentCompleted` on `evt`. -/
def handlePaymentCompleted (evt : Event) (m : ReserveRun) (ok : Bool) (u : Nat)
    (db : InventoryDb) : Next ReserveRun HandlerResult × Nat × InventoryDb :=
  let key := reservationKey evt.orderId evt.eventId
  match m.pc with
  | .selectKey =>
      if ok ∧ (selectReservationByKey db key).isSome then (.ret (.ok ()), u, db)
      else (.cont { m with pc := .beginTx }, u, db)
  | .beginTx =>
      if ok then
        (.cont { m with pc := .selectForUpdate, tx := { m.tx with startedAt := u } }, u + 1, db)
      else (.ret (.error (dbErr "failed to begin transaction")), u, db)
  | .selectForUpdate =>
      match (if ok then m.tx.view db productID else none) with
      | none => (.cont { m with pc := .insertFailed "product not found" }, u, db)
      | some r =>
          let tx := m.tx.lock r
          if r.available < quantity then
            (.cont { m with pc := .insertFailed "insufficient stock", tx }, u, db)
          else (.cont { m with pc := .update r.version, tx }, u, db)
  | .update v =>
      if ok then
        match m.tx.view db productID with
        | some r =>
            if r.version = v then
              (.cont { m with pc := .insertReservation, tx := m.tx.modify productID reserveRow },
                u, db)
            else (.cont { m with pc := .insertFailed "version conflict" }, u, db)
        | none => (.cont { m with pc := .insertFailed "version conflict" }, u, db)
      else (.ret (.error (dbErr "failed to update inventory")), u, db)
  | .insertReservation =>
      if ok ∧ key.Fits ∧ !(db.reservations ++ m.tx.reservations).any (·.idempotencyKey = key) then
        let r : StockReservation :=
          { id := db.nextReservationId, orderId := evt.orderId, productId := productID,
            quantity, status := .reserved, idempotencyKey := key }
        (.cont { m with pc := .insertReserved r.id,
                        tx := { m.tx with reservations := m.tx.reservations ++ [r] } }, u,
          { db with nextReservationId := db.nextReservationId + 1 })
      else (.ret (.error (dbErr "failed to create reservation")), u, db)
  | .insertReserved rid =>
      let ev : Event :=
        { eventId := u, eventType := .stockReserved, correlationId := evt.correlationId,
          orderId := evt.orderId, reservationId := rid, quantity }
      if ok then
        (.cont { m with pc := .commit,
                        tx := { m.tx with outbox := m.tx.outbox ++
                          [db.outboxRow "stock_reservation" rid ev m.tx] } }, u + 1,
          { db with nextOutboxId := db.nextOutboxId + 1 })
      else (.ret (.error (dbErr "failed to insert outbox event")), u + 1, db)
  | .commit =>
      if ok then (.ret (.ok ()), u, db.commit m.tx)
      else (.ret (.error (dbErr "failed to commit transaction")), u, db)
  | .insertFailed reason =>
      let ev : Event :=
        { eventId := u, eventType := .stockReservationFailed, correlationId := evt.correlationId,
          orderId := evt.orderId, quantity := 1, reason }
      if ok then
        (.cont { m with pc := .commitFailed reason,
                        tx := { m.tx with outbox := m.tx.outbox ++
                          [db.outboxRow "order" evt.orderId ev m.tx] } }, u + 1,
          { db with nextOutboxId := db.nextOutboxId + 1 })
      else (.ret (.error driverErr), u + 1, db)
  | .commitFailed reason =>
      if ok then (.ret (.error (plainErr ("stock reservation failed: " ++ reason))), u,
        db.commit m.tx)
      else (.ret (.error driverErr), u, db)

/-! ## HandlePaymentRefunded -/

/-- The call `HandlePaymentRefunded` makes next, with the reservation it read. -/
inductive RestorePc where
  | selectReservation
  | beginTx (r : StockReservation)
  | restore (r : StockReservation)
  | cancel (r : StockReservation)
  | insertRestored (r : StockReservation)
  | commit
  deriving DecidableEq, Repr

structure RestoreRun where
  pc : RestorePc := .selectReservation
  tx : InvTx := {}
  deriving DecidableEq, Repr

/-- The restoring update: `available + $1`, `reserved - $1`, `version + 1`. -/
def restoreRow (q : Int) (r : InventoryRow) : InventoryRow :=
  { r with available := r.available + q, reserved := r.reserved - q, version := r.version + 1 }

/-- One call of `HandlePaymentRefunded` on `evt`: the compensation. The reservation is read
outside the transaction, and the status update is not conditioned on the status. -/
def handlePaymentRefunded (evt : Event) (m : RestoreRun) (ok : Bool) (u : Nat)
    (db : InventoryDb) : Next RestoreRun HandlerResult × Nat × InventoryDb :=
  match m.pc with
  | .selectReservation =>
      match (if ok then selectReservedByOrder db evt.orderId else none) with
      | none => (.ret (.ok ()), u, db)
      | some r => (.cont { m with pc := .beginTx r }, u, db)
  | .beginTx r =>
      if ok then (.cont { m with pc := .restore r, tx := { m.tx with startedAt := u } }, u + 1, db)
      else (.ret (.error driverErr), u, db)
  | .restore r =>
      if ok then
        let tx := match m.tx.view db r.productId with
          | some row => (m.tx.lock row).modify r.productId (restoreRow r.quantity)
          | none => m.tx
        (.cont { m with pc := .cancel r, tx }, u, db)
      else (.ret (.error driverErr), u, db)
  | .cancel r =>
      if ok then (.cont { m with pc := .insertRestored r,
                                 tx := { m.tx with canceled := m.tx.canceled ++ [r.id] } }, u, db)
      else (.ret (.error driverErr), u, db)
  | .insertRestored r =>
      let ev : Event :=
        { eventId := u, eventType := .stockRestored, correlationId := evt.correlationId,
          orderId := evt.orderId, reservationId := r.id, quantity := r.quantity }
      if ok then
        (.cont { m with pc := .commit,
                        tx := { m.tx with outbox := m.tx.outbox ++
                          [db.outboxRow "stock_reservation" r.id ev m.tx] } }, u + 1,
          { db with nextOutboxId := db.nextOutboxId + 1 })
      else (.ret (.error driverErr), u + 1, db)
  | .commit =>
      if ok then (.ret (.ok ()), u, db.commit m.tx) else (.ret (.error driverErr), u, db)

/-! ## The service -/

/-- The handler an Inventory consumer execution runs, at its program point. -/
inductive InventoryRun where
  | reserve (m : ReserveRun)
  | restore (m : RestoreRun)
  deriving DecidableEq, Repr

def InventoryRun.tx : InventoryRun → InvTx
  | .reserve m => m.tx
  | .restore m => m.tx

/-- One call of the handler a consumer execution runs on `evt`. -/
def InventoryRun.step (evt : Event) : InventoryRun → Bool → Nat → InventoryDb →
    Next InventoryRun HandlerResult × Nat × InventoryDb
  | .reserve m, ok, u, db =>
      let r := handlePaymentCompleted evt m ok u db
      (match r.1 with | .cont m' => .cont (.reserve m') | .ret e => .ret e, r.2.1, r.2.2)
  | .restore m, ok, u, db =>
      let r := handlePaymentRefunded evt m ok u db
      (match r.1 with | .cont m' => .cont (.restore m') | .ret e => .ret e, r.2.1, r.2.2)

/-- Whether the next call of an execution on `evt` waits for a transaction holding `other`:
a row lock it needs, or a pending reservation with the key it inserts. -/
def InventoryRun.waitsFor (evt : Event) (other : InvTx) : InventoryRun → Bool
  | .reserve { pc := .selectForUpdate, .. } => other.locked.any (·.row.productId = productID)
  | .reserve { pc := .insertReservation, .. } =>
      other.reservations.any (·.idempotencyKey = reservationKey evt.orderId evt.eventId)
  | .restore { pc := .restore r, .. } => other.locked.any (·.row.productId = r.productId)
  | _ => false

/-- The consumer closure of the Inventory `main`. -/
def runOf : EventType → Option InventoryRun
  | .paymentCompleted => some (.reserve {})
  | .paymentRefunded => some (.restore {})
  | _ => none

structure InventoryConsumer where
  src : Nat
  event : Event
  stage : Stage InventoryRun
  deriving DecidableEq, Repr

def InventoryConsumer.start (src : Nat) (msg : Message) : Option InventoryConsumer :=
  (runOf msg.topic).map fun r => { src, event := msg.payload, stage := .isProcessed r }

/-- The open transaction of an execution. -/
def InventoryConsumer.tx (c : InventoryConsumer) : InvTx :=
  match c.stage with
  | .handle m => m.tx
  | _ => {}

/-- An execution waits while another execution's transaction holds what its next call needs. -/
def InventoryConsumer.blocked (c : InventoryConsumer) (others : List InventoryConsumer) : Bool :=
  match c.stage with
  | .handle m => others.any fun o => m.waitsFor c.event o.tx
  | _ => false

/-- The service: its database, its Redis keys `inventory-service:<eventId>`, and the consumer
executions in flight. -/
structure InventorySvc where
  db : InventoryDb := {}
  gate : List Nat := []
  threads : List InventoryConsumer := []
  deriving DecidableEq, Repr

/-- One call of a consumer execution; `none` once it has returned. -/
def InventoryConsumer.step (c : InventoryConsumer) (ok : Bool) (u : Nat) (gate : List Nat)
    (db : InventoryDb) : Option InventoryConsumer × Nat × List Nat × InventoryDb :=
  let r := Stage.step (InventoryRun.step c.event) c.event.eventId c.stage ok u gate db
  (r.1.cont?.map fun st => { c with stage := st }, r.2.1, r.2.2.1, r.2.2.2)

/-- The consumer group hands message `src` to the service. -/
def InventorySvc.deliver (s : InventorySvc) (src : Nat) (msg : Message) : InventorySvc :=
  { s with threads := s.threads ++ (InventoryConsumer.start src msg).toList }

/-- One call of execution `j` with outcome `ok` and next UUID `u`: the new service, the next
UUID, and the offset of the message whose handler returned. An execution whose call waits for another transaction cannot make it. -/
def InventorySvc.call (s : InventorySvc) (j : Nat) (ok : Bool) (u : Nat) :
    Option (InventorySvc × Nat × Option Nat) :=
  (s.threads[j]?.filter fun t => !t.blocked (s.threads.eraseIdx j)).map fun t =>
    let r := t.step ok u s.gate s.db
    ({ db := r.2.2.2, gate := r.2.2.1, threads := advance s.threads j r.1 }, r.2.1,
      if r.1.isNone then some t.src else none)

/-- The process running execution `j` stops between two calls. -/
def InventorySvc.crash (s : InventorySvc) (j : Nat) : InventorySvc :=
  { s with threads := s.threads.eraseIdx j }

/-- A Redis key expires or is lost. -/
def InventorySvc.expire (s : InventorySvc) (k : Nat) : InventorySvc :=
  { s with gate := s.gate.erase k }

/-- What can happen to the service on its own: a message of any topic and payload arrives,
an execution makes a call with any outcome and any fresh UUID, a process stops, a Redis key
expires, the relay marks an outbox row `SENT`. -/
inductive InventoryAction where
  | deliver (src : Nat) (msg : Message)
  | call (j : Nat) (ok : Bool) (u : Nat)
  | crash (j : Nat)
  | expire (eventId : Nat)
  | markSent (id : Nat)
  deriving DecidableEq, Repr

def InventorySvc.step (s : InventorySvc) : InventoryAction → Option InventorySvc
  | .deliver src msg => some (s.deliver src msg)
  | .call j ok u => (s.call j ok u).map (·.1)
  | .crash j => some (s.crash j)
  | .expire k => some (s.expire k)
  | .markSent id => some { s with db := { s.db with outbox := markSent id s.db.outbox } }

/-- The states the service reaches from an `inventory` table with no reservations, under any
interleaving of executions on any messages. -/
def InventorySvc.Reachable (inventory : List InventoryRow) : InventorySvc → Prop :=
  Reach InventorySvc.step { db := { inventory } }

end MsaSaga.InventoryService
