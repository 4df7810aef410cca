import MsaSaga.System

/-!
# What a handler commits, and what it returns

Every write path is meant to put its state change and the outbox row describing it into one
transaction. `CreateOrder` begins a transaction and then inserts the order through `r.db`, so
the order row is committed on its own, before the outbox row. The payment inserts and the
refund's status update do the same.

Each handler's exits are read off one invariant of its running points, carried through every
call by `runCalls_sat`: the outbox is untouched until the commit, and the transaction holds
exactly the row of the path taken. A handler returns `nil` after committing its success
event or nothing, and an error after committing nothing, except on the two business-failure
paths, which commit their failure event and then return an error. There the Redis gate is not
reserved and no payment row records the decision, so a redelivered `OrderCreated` asks the
gateway again: declined once and approved the second time, one event leaves both a
`PaymentFailed` and a `PaymentCompleted`, which no single execution commits.
-/
namespace MsaSaga.OutboxAtomicity
open Events Schema

/-! ## CreateOrder commits the order before its outbox row -/

section CreateOrder
open OrderService

/-- `CreateOrder` on a fresh key, whose `InsertTx` fails after `Create` succeeded: it returns
an error, and the order row is durable while its `OrderCreated` row is not. -/
theorem createOrder_commits_order_without_outbox_row :
    let cmd : CreateOrderCommand :=
      { userId := 1001, amount := 50000, quantity := 1, idempotencyKey := "k1" }
    let r := runCalls CreateOrderThread.step (.cont (.start cmd)) [true, true, true, false] 0 {}
    r.1 = .ret (.error (dbErr "failed to insert outbox event")) ∧
      r.2.2.orders.map (·.idempotencyKey) = ["k1"] ∧ r.2.2.outbox = [] := ⟨rfl, rfl, rfl⟩

end CreateOrder

/-! ## How a return value agrees with the outbox -/

/-- The exits of a handler whose success event is `success` and whose business-failure event,
if it has one, is `failure`, reported as `failPrefix ++ reason`. -/
inductive Exit (success : EventType) (failure : Option EventType) (failPrefix : String)
    (before : List OutboxRow) : HandlerResult → List OutboxRow → Prop
  | noop : Exit success failure failPrefix before (.ok ()) before
  | committed (row : OutboxRow) : row.eventType = success →
      Exit success failure failPrefix before (.ok ()) (before ++ [row])
  | rolledBack (e : Err) : Exit success failure failPrefix before (.error e) before
  | businessFailure (row : OutboxRow) (reason : String) : some row.eventType = failure →
      Exit success failure failPrefix before (.error (plainErr (failPrefix ++ reason)))
        (before ++ [row])

/-- A handler commits at most one outbox row. -/
theorem Exit.length_le {success : EventType} {failure : Option EventType} {failPrefix : String}
    {before after : List OutboxRow} {r : HandlerResult}
    (h : Exit success failure failPrefix before r after) : after.length ≤ before.length + 1 := by
  cases h <;> simp

section Payment
open PaymentService

/-- The transaction of `HandleOrderCreated` at each of its points. -/
def orderCreatedShape (m : OrderCreatedRun) : Prop :=
  match m.pc with
  | .commitCompleted => ∃ r, m.tx = [r] ∧ r.eventType = .paymentCompleted
  | .commitFailed _ => ∃ r, m.tx = [r] ∧ r.eventType = .paymentFailed
  | _ => m.tx = []

theorem handleOrderCreated_exits (evt : Event) (oks : List Bool) (u : Nat) (db : PaymentDb) :
    Next.Sat (fun m _ db' => orderCreatedShape m ∧ db'.outbox = db.outbox)
      (fun r _ db' => Exit .paymentCompleted (some .paymentFailed) "payment failed: " db.outbox r db'.outbox)
      (runCalls (handleOrderCreated evt) (.cont {}) oks u db) := by
  refine runCalls_sat ?_ oks _ u db ⟨rfl, rfl⟩
  rintro ⟨pc, tx⟩ ok u' db' ⟨hs, ho⟩
  cases pc
  case commitCompleted =>
    obtain ⟨r, rfl, hr⟩ := hs
    cases ok <;> simp only [handleOrderCreated, Next.Sat, ho, Bool.false_eq_true, if_false, if_true]
    · exact .rolledBack _
    · exact .committed r hr
  case commitFailed reason =>
    obtain ⟨r, rfl, hr⟩ := hs
    cases ok <;> simp only [handleOrderCreated, Next.Sat, ho, Bool.false_eq_true, if_false, if_true]
    · exact .rolledBack _
    · exact .businessFailure r reason (congrArg some hr)
  case create =>
    cases ok <;> simp only [handleOrderCreated] <;> (try split) <;>
      simp_all [Next.Sat, orderCreatedShape, Exit.rolledBack]
    rename_i h
    rw [(create_eq_ok h).2.2]; exact ho
  all_goals
    cases ok <;> simp only [handleOrderCreated] <;> (try split) <;>
      simp_all [Next.Sat, orderCreatedShape, Exit.rolledBack, Exit.noop]

/-- The transaction of `HandleStockReservationFailed` at each of its points. -/
def refundShape (m : RefundRun) : Prop :=
  match m.pc with
  | .commit => ∃ r, m.tx = [r] ∧ r.eventType = .paymentRefunded
  | _ => m.tx = []

theorem handleStockReservationFailed_exits (evt : Event) (oks : List Bool) (u : Nat)
    (db : PaymentDb) :
    Next.Sat (fun m _ db' => refundShape m ∧ db'.outbox = db.outbox)
      (fun r _ db' => Exit .paymentRefunded none "" db.outbox r db'.outbox)
      (runCalls (handleStockReservationFailed evt) (.cont {}) oks u db) := by
  refine runCalls_sat ?_ oks _ u db ⟨rfl, rfl⟩
  rintro ⟨pc, tx⟩ ok u' db' ⟨hs, ho⟩
  cases pc
  case commit =>
    obtain ⟨r, rfl, hr⟩ := hs
    cases ok <;> simp only [handleStockReservationFailed, Next.Sat, ho, Bool.false_eq_true,
      if_false, if_true]
    · exact .rolledBack _
    · exact .committed r hr
  all_goals
    cases ok <;> simp only [handleStockReservationFailed] <;> (repeat' split) <;>
      simp_all [Next.Sat, refundShape, Exit.rolledBack, Exit.noop, updateStatus]

end Payment

section Inventory
open InventoryService

/-- The transaction of `HandlePaymentCompleted` at each of its points. -/
def reserveShape (inventory : List InventoryRow) (m : ReserveRun) : Prop :=
  m.tx.canceled = [] ∧
  match m.pc with
  | .insertReservation | .insertReserved _ => m.tx.outbox = []
  | .commit => ∃ r, m.tx.outbox = [r] ∧ r.eventType = .stockReserved
  | .commitFailed _ => (∃ r, m.tx.outbox = [r] ∧ r.eventType = .stockReservationFailed) ∧
      m.tx.reservations = [] ∧ m.tx.Unupdated inventory
  | _ => m.tx.outbox = [] ∧ m.tx.reservations = [] ∧ m.tx.Unupdated inventory

theorem handlePaymentCompleted_exits (evt : Event) (oks : List Bool) (u : Nat) (db : InventoryDb)
    (hn : (db.inventory.map (·.productId)).Nodup) :
    Next.Sat (fun m _ db' => reserveShape db.inventory m ∧ db'.outbox = db.outbox ∧
        db'.inventory = db.inventory ∧ db'.reservations = db.reservations)
      (fun r _ db' => Exit .stockReserved (some .stockReservationFailed) "stock reservation failed: "
          db.outbox r db'.outbox ∧
        ∀ e, r = .error e → db'.inventory = db.inventory ∧ db'.reservations = db.reservations)
      (runCalls (handlePaymentCompleted evt) (.cont {}) oks u db) := by
  refine runCalls_sat ?_ oks _ u db ⟨⟨rfl, rfl, rfl, fun _ h => nomatch h⟩, rfl, rfl, rfl⟩
  rintro ⟨pc, tx⟩ ok u' db' ⟨⟨hc, hs⟩, ho, hi, hr⟩
  cases pc <;> cases ok <;> simp only [handlePaymentCompleted] <;> (repeat' split) <;>
    simp_all [Next.Sat, reserveShape, Exit.rolledBack, Exit.noop]
  case beginTx.true.isTrue => exact hs.2.2
  case selectForUpdate.true.h_2.isTrue | selectForUpdate.true.h_2.isFalse =>
    have hu := @InvTx.Unupdated.lock _ db' (by rw [hi]; exact hs.2.2) _ _ ‹_›
    rwa [hi] at hu
  case commit.true.isTrue =>
    obtain ⟨r, hro, hrt⟩ := hs
    simp only [InventoryDb.commit, hro, ho]
    exact .committed r hrt
  case insertFailed.true.isTrue => exact hs.2.2
  case commitFailed.true.isTrue =>
    obtain ⟨⟨r, hro, hrt⟩, hres, hu⟩ := hs
    rw [commit_of_unupdated (hi ▸ hn) (hi ▸ hu) hres hc]
    simp only [hro, ho, hi, hr, and_self, implies_true, and_true]
    exact .businessFailure r _ (by rw [hrt])

/-- The transaction of `HandlePaymentRefunded` at each of its points. -/
def restoreShape (m : RestoreRun) : Prop :=
  match m.pc with
  | .commit => ∃ r, m.tx.outbox = [r] ∧ r.eventType = .stockRestored
  | _ => m.tx.outbox = []

theorem handlePaymentRefunded_exits (evt : Event) (oks : List Bool) (u : Nat) (db : InventoryDb) :
    Next.Sat (fun m _ db' => restoreShape m ∧ db'.outbox = db.outbox ∧
        db'.inventory = db.inventory ∧ db'.reservations = db.reservations)
      (fun r _ db' => Exit .stockRestored none "" db.outbox r db'.outbox ∧
        ∀ e, r = .error e → db'.inventory = db.inventory ∧ db'.reservations = db.reservations)
      (runCalls (handlePaymentRefunded evt) (.cont {}) oks u db) := by
  refine runCalls_sat ?_ oks _ u db ⟨rfl, rfl, rfl, rfl⟩
  rintro ⟨pc, tx⟩ ok u' db' ⟨hs, ho, hi, hr⟩
  cases pc <;> cases ok <;> simp only [handlePaymentRefunded] <;> (repeat' split) <;>
    simp_all [Next.Sat, restoreShape, Exit.rolledBack, Exit.noop]
  case commit.true.isTrue =>
    obtain ⟨r, hro, hrt⟩ := hs
    simp only [InventoryDb.commit, hro, ho]
    exact .committed r hrt

end Inventory

section Delivery
open DeliveryService

/-- The transaction of `HandleStockReserved` at each of its points. -/
def deliveryShape (m : DeliveryRun) : Prop :=
  match m.pc with
  | .commit => ∃ r, m.tx.outbox = [r] ∧ r.eventType = .deliveryStarted
  | _ => m.tx.outbox = []

theorem handleStockReserved_exits (evt : Event) (oks : List Bool) (u : Nat) (db : DeliveryDb) :
    Next.Sat (fun m _ db' => deliveryShape m ∧ db'.outbox = db.outbox ∧
        db'.deliveries = db.deliveries)
      (fun r _ db' => Exit .deliveryStarted none "" db.outbox r db'.outbox ∧
        ∀ e, r = .error e → db'.deliveries = db.deliveries)
      (runCalls (handleStockReserved evt) (.cont {}) oks u db) := by
  refine runCalls_sat ?_ oks _ u db ⟨rfl, rfl, rfl⟩
  rintro ⟨pc, tx⟩ ok u' db' ⟨hs, ho, hd⟩
  cases pc <;> cases ok <;> simp only [handleStockReserved] <;> (repeat' split) <;>
    simp_all [Next.Sat, deliveryShape, Exit.rolledBack, Exit.noop]
  case commit.true.isTrue =>
    obtain ⟨r, hro, hrt⟩ := hs
    simp only [DeliveryDb.commit, hro, ho]
    exact .committed r hrt

end Delivery

section Order
open OrderService

/-- The transaction of `CreateOrder` at each of its points. -/
def createOrderShape (t : CreateOrderThread) : Prop :=
  match t.pc with
  | .commit _ => ∃ r, t.tx = [r] ∧ r.eventType = .orderCreated
  | _ => t.tx = []

theorem createOrder_exits (cmd : CreateOrderCommand) (oks : List Bool) (u : Nat) (db : OrderDb) :
    Next.Sat (fun t _ db' => createOrderShape t ∧ db'.outbox = db.outbox)
      (fun r _ db' => Exit .orderCreated none "" db.outbox (r.map fun _ => ()) db'.outbox)
      (runCalls CreateOrderThread.step (.cont (.start cmd)) oks u db) := by
  refine runCalls_sat ?_ oks _ u db ⟨rfl, rfl⟩
  rintro ⟨cmd, pc, tx⟩ ok u' db' ⟨hs, ho⟩
  cases pc <;> cases ok <;> simp only [CreateOrderThread.step, validate] <;> (repeat' split) <;>
    simp_all [Next.Sat, createOrderShape, Exit.rolledBack, Exit.noop, Except.map]
  case create.true.h_1 h => rw [(create_eq_ok h).2.2]; exact ho
  case commit.true.isTrue =>
    obtain ⟨r, rfl, hrt⟩ := hs
    exact .committed r hrt


/-- An Order event handler writes only its status update, and returns `nil` once that update
is made; an error leaves the database as it was. -/
theorem orderHandler_exits (h : OrderHandler) (evt : Event) (oks : List Bool) (u : Nat)
    (db : OrderDb) :
    Next.Sat (fun _ _ db' => db' = db)
      (fun r _ db' => db'.outbox = db.outbox ∧ ∀ e, r = .error e → db' = db)
      (runCalls (h.step evt) (.cont .findByID) oks u db) := by
  refine runCalls_sat ?_ oks _ u db rfl
  rintro pc ok u' db' rfl
  cases pc <;> cases ok <;> simp only [OrderHandler.step] <;> (repeat' split) <;>
    simp_all [Next.Sat, updateStatusWithVersion]

end Order

/-! ## Every handler -/

section All
open OrderService PaymentService InventoryService DeliveryService System

/-- `publishPaymentFailed` commits the `PaymentFailed` row and then returns an error: a
declined `OrderCreated` leaves the outbox one row longer and reports failure. -/
theorem declined_payment_commits_and_returns_error :
    let evt : Event :=
      { eventId := 1, eventType := .orderCreated, correlationId := 0, orderId := 1, amount := 50000 }
    let r := runCalls (handleOrderCreated evt) (.cont {}) [true, true, false, true, true] 2 {}
    r.1 = .ret (.error (plainErr ("payment failed: " ++ declineReason))) ∧
      r.2.2.outbox.map (·.eventType) = [.paymentFailed] := ⟨rfl, rfl⟩

/-- Every handler returns `nil` after committing its success event or nothing, and an error
after committing nothing of its transaction, except the two business-failure paths, which
commit their failure event and return an error. Where all of a handler's writes run in its
transaction, an error leaves its tables as they were. -/
theorem handlers_return_what_they_commit :
    (∀ cmd oks u (db : OrderDb) r u' db',
      runCalls CreateOrderThread.step (.cont (.start cmd)) oks u db = (.ret r, u', db') →
        Exit .orderCreated none "" db.outbox (r.map fun _ => ()) db'.outbox) ∧
    (∀ (h : OrderHandler) evt oks u (db : OrderDb) r u' db',
      runCalls (h.step evt) (.cont .findByID) oks u db = (.ret r, u', db') →
        db'.outbox = db.outbox ∧ ∀ e, r = .error e → db' = db) ∧
    (∀ evt oks u (db : PaymentDb) r u' db',
      runCalls (handleOrderCreated evt) (.cont {}) oks u db = (.ret r, u', db') →
        Exit .paymentCompleted (some .paymentFailed) "payment failed: " db.outbox r db'.outbox) ∧
    (∀ evt oks u (db : PaymentDb) r u' db',
      runCalls (handleStockReservationFailed evt) (.cont {}) oks u db = (.ret r, u', db') →
        Exit .paymentRefunded none "" db.outbox r db'.outbox) ∧
    (∀ evt oks u (db : InventoryDb) r u' db', (db.inventory.map (·.productId)).Nodup →
      runCalls (handlePaymentCompleted evt) (.cont {}) oks u db = (.ret r, u', db') →
        Exit .stockReserved (some .stockReservationFailed) "stock reservation failed: "
          db.outbox r db'.outbox ∧
        ∀ e, r = .error e → db'.inventory = db.inventory ∧ db'.reservations = db.reservations) ∧
    (∀ evt oks u (db : InventoryDb) r u' db',
      runCalls (handlePaymentRefunded evt) (.cont {}) oks u db = (.ret r, u', db') →
        Exit .stockRestored none "" db.outbox r db'.outbox ∧
        ∀ e, r = .error e → db'.inventory = db.inventory ∧ db'.reservations = db.reservations) ∧
    (∀ evt oks u (db : DeliveryDb) r u' db',
      runCalls (handleStockReserved evt) (.cont {}) oks u db = (.ret r, u', db') →
        Exit .deliveryStarted none "" db.outbox r db'.outbox ∧
        ∀ e, r = .error e → db'.deliveries = db.deliveries) :=
  ⟨fun cmd oks u db _ _ _ h => (createOrder_exits cmd oks u db).of_ret h,
   fun hd evt oks u db _ _ _ h => (orderHandler_exits hd evt oks u db).of_ret h,
   fun evt oks u db _ _ _ h => (handleOrderCreated_exits evt oks u db).of_ret h,
   fun evt oks u db _ _ _ h => (handleStockReservationFailed_exits evt oks u db).of_ret h,
   fun evt oks u db _ _ _ hn h => (handlePaymentCompleted_exits evt oks u db hn).of_ret h,
   fun evt oks u db _ _ _ h => (handlePaymentRefunded_exits evt oks u db).of_ret h,
   fun evt oks u db _ _ _ h => (handleStockReserved_exits evt oks u db).of_ret h⟩

/-- One execution of `HandleOrderCreated` commits at most one outbox row, whatever the gateway
and the database answer. -/
theorem handleOrderCreated_outbox_length (evt : Event) (oks : List Bool) (u : Nat)
    (db : PaymentDb) :
    (runCalls (handleOrderCreated evt) (.cont {}) oks u db).2.2.outbox.length ≤
      db.outbox.length + 1 := by
  have h := handleOrderCreated_exits evt oks u db
  generalize runCalls (handleOrderCreated evt) (.cont {}) oks u db = r at h
  obtain ⟨_ | _, _, _⟩ := r
  · exact h.2 ▸ Nat.le_succ _
  · exact h.length_le

/-- The order `CreateOrder` accepts and the relay publishes twice, because its first
`MarkSent` fails. Delivered once and declined, it leaves one `PaymentFailed` and no charge;
delivered again and approved, it adds a payment, a charge and a `PaymentCompleted`, which no
single execution can do. -/
theorem orderCreated_redelivered_after_decline_is_charged :
    let cmd : CreateOrderCommand :=
      { userId := 1001, amount := 50000, quantity := 1, idempotencyKey := "k1" }
    let once : List Action :=
      .request cmd :: (List.replicate 5 true).map (.call .order 0) ++
        [.publish .order 1 false, .publish .order 1 true, .deliver .payment 0] ++
        [true, true, true, false, true, true].map (.call .payment 0)
    let twice := once ++ .deliver .payment 1 :: (List.replicate 8 true).map (.call .payment 0)
    let seen (s : Sys) :=
      (s.payment.db.outbox.map (·.eventType), s.payment.db.charges,
        s.payment.db.payments.map (·.status))
    (runSteps Sys.step (Sys.init []) once).map seen = some ([.paymentFailed], [], []) ∧
    (runSteps Sys.step (Sys.init []) twice).map seen =
      some ([.paymentFailed, .paymentCompleted], [(1, 50000)], [.completed]) ∧
    ∀ evt oks u (db : PaymentDb),
      (runCalls (handleOrderCreated evt) (.cont {}) oks u db).2.2.outbox.length ≤
        db.outbox.length + 1 :=
  ⟨by decide, by decide, handleOrderCreated_outbox_length⟩

end All

end MsaSaga.OutboxAtomicity
