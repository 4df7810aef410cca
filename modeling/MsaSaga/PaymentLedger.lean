import MsaSaga.Lineage

/-!
# What the gateway charges and refunds

`HandleOrderCreated` calls `processPayment` before `Create`, and creates the payment with the
order id and amount of the event it charged; `HandleStockReservationFailed` refunds the
payment `FindByOrderID` returned, a row of the table. `UpdateStatus` changes a status and a
reason, never an id, an order or an amount, and nothing deletes a payment. So under any
interleaving of executions, crashes, redeliveries and lost Redis keys, every payment was
charged for its order and amount, every refund is of a stored payment, and every
`PaymentCompleted` and `PaymentRefunded` the service writes names a stored payment with its
order and amount.

The converse fails: a process that stops between the charge and `Create`, or a `Create` that
fails, leaves a charge with no payment.
-/
namespace MsaSaga.PaymentService
open Events Schema Executions

/-! ## The ledger a status update keeps -/

/-- Every payment by id, order and amount. -/
def PaymentDb.ledger (db : PaymentDb) : List (Nat × Nat × Int) :=
  db.payments.map fun p => (p.id, p.orderId, p.amount)

@[simp] theorem updateStatus_ledger (db : PaymentDb) (id : Nat) (status : PaymentStatus)
    (reason : String) : (updateStatus db id status reason).ledger = db.ledger := by
  simp only [PaymentDb.ledger, updateStatus, List.map_map]
  exact List.map_congr_left fun p _ => by simp only [Function.comp]; split <;> rfl

theorem PaymentDb.mem_ledger {db : PaymentDb} {x : Nat × Nat × Int} :
    x ∈ db.ledger ↔ ∃ p ∈ db.payments, (p.id, p.orderId, p.amount) = x :=
  List.mem_map

theorem findByOrderID_ledger {db : PaymentDb} {o : Nat} {p : Payment}
    (h : findByOrderID db o = some p) : (p.id, o, p.amount) ∈ db.ledger := by
  obtain ⟨hp, ho⟩ := findByOrderID_mem h
  exact ho ▸ List.mem_map_of_mem _ hp

/-- An event that reports money names a stored payment by id, with its order and amount. -/
def Backed (db : PaymentDb) (x : EventType × Event) : Prop :=
  x.1 = .paymentCompleted ∨ x.1 = .paymentRefunded →
    (x.2.paymentId, x.2.orderId, x.2.amount) ∈ db.ledger

/-- The payments and the charges only grow. -/
structure PaymentDb.Grows (db db' : PaymentDb) : Prop where
  ledger : db.ledger ⊆ db'.ledger
  charges : db.charges ⊆ db'.charges

theorem PaymentDb.Grows.refl (db : PaymentDb) : db.Grows db := ⟨fun _ => id, fun _ => id⟩

theorem PaymentDb.Grows.trans {db db' db'' : PaymentDb} (h : db.Grows db') (h' : db'.Grows db'') :
    db.Grows db'' := ⟨h.ledger.trans h'.ledger, h.charges.trans h'.charges⟩

theorem Backed.mono {db db' : PaymentDb} (hg : db.Grows db') {x : EventType × Event}
    (h : Backed db x) : Backed db' x := fun ht => hg.ledger (h ht)

/-- Every payment was charged, every refund is of a payment, and every row reports money of
a payment. -/
structure PaymentDb.Funded (db : PaymentDb) : Prop where
  charged : ∀ x ∈ db.ledger, (x.2.1, x.2.2) ∈ db.charges
  refunded : ∀ id ∈ db.refunds, ∃ x ∈ db.ledger, x.1 = id
  stored : ∀ x ∈ views db.outbox, Backed db x

theorem PaymentDb.Grows.of_ledger {db db' : PaymentDb} (hl : db'.ledger = db.ledger)
    (hc : db.charges ⊆ db'.charges) : db.Grows db' :=
  ⟨hl ▸ List.Subset.refl _, hc⟩

/-- A call that keeps the payments, the refunds and the outbox, and charges nothing or more. -/
theorem PaymentDb.Funded.keep {db db' : PaymentDb} (h : db.Funded) (hl : db'.ledger = db.ledger)
    (hc : db.charges ⊆ db'.charges) (hr : db'.refunds = db.refunds)
    (ho : db'.outbox = db.outbox) : db'.Funded where
  charged x hx := hc (h.charged x (hl ▸ hx))
  refunded id hid := hl ▸ h.refunded id (hr ▸ hid)
  stored x hx := (h.stored x (ho ▸ hx)).mono (.of_ledger hl hc)

/-- An insert into the outbox sequence. -/
theorem PaymentDb.Funded.nextOutboxId {db : PaymentDb} (h : db.Funded) (n : Nat) :
    { db with nextOutboxId := n }.Funded ∧ db.Grows { db with nextOutboxId := n } :=
  ⟨h.keep rfl (List.Subset.refl _) rfl rfl, .of_ledger rfl (List.Subset.refl _)⟩

/-- A commit of rows that report money of payments. -/
theorem PaymentDb.Funded.commit {db : PaymentDb} (h : db.Funded) {tx : List OutboxRow}
    (htx : ∀ x ∈ views tx, Backed db x) :
    { db with outbox := db.outbox ++ tx }.Funded ∧ db.Grows { db with outbox := db.outbox ++ tx } :=
  ⟨⟨h.charged, h.refunded,
      fun x hx => (List.mem_append.mp (views_append _ _ ▸ hx)).elim (h.stored x) (htx x)⟩,
    .of_ledger rfl (List.Subset.refl _)⟩

/-- `Create` of a payment whose order and amount the gateway charged. -/
theorem PaymentDb.Funded.create {db : PaymentDb} (h : db.Funded) {p row : Payment} {db' : PaymentDb}
    (hcr : create db p = .ok (row, db')) (hc : (p.orderId, p.amount) ∈ db.charges) :
    db'.Funded ∧ db.Grows db' ∧ (row.id, p.orderId, p.amount) ∈ db'.ledger := by
  obtain ⟨-, hrow, hdb'⟩ := create_eq_ok hcr
  have hl : db'.ledger = db.ledger ++ [(row.id, p.orderId, p.amount)] := by
    simp [hdb', hrow, PaymentDb.ledger]
  have hg : db.Grows db' := ⟨hl ▸ List.subset_append_left _ _, hdb' ▸ List.Subset.refl _⟩
  subst hdb'
  refine ⟨⟨fun x hx => ?_, fun id hid => ?_, fun x hx => (h.stored x hx).mono hg⟩, hg, by simp [hl]⟩
  · rcases List.mem_append.mp (hl ▸ hx) with hx | hx
    · exact h.charged x hx
    · exact (List.mem_singleton.mp hx) ▸ hc
  · obtain ⟨x, hx, rfl⟩ := h.refunded id hid
    exact ⟨x, hg.ledger hx, rfl⟩

/-- The gateway's refund of a stored payment. -/
theorem PaymentDb.Funded.refund {db : PaymentDb} (h : db.Funded) {id o : Nat} {a : Int}
    (hp : (id, o, a) ∈ db.ledger) : { db with refunds := db.refunds ++ [id] }.Funded where
  charged := h.charged
  refunded i hi := (List.mem_append.mp hi).elim (h.refunded i) fun hi =>
    ⟨_, hp, (List.mem_singleton.mp hi).symm⟩
  stored := h.stored

/-- A transaction's row that reports money of a payment. -/
theorem Backed.append {db : PaymentDb} {tx : List OutboxRow} (htx : ∀ x ∈ views tx, Backed db x)
    {r : OutboxRow} (hr : Backed db (r.eventType, r.payload)) :
    ∀ x ∈ views (tx ++ [r]), Backed db x := by
  simp only [views_append, views_singleton, List.mem_append, List.mem_singleton]
  rintro x (hx | rfl)
  exacts [htx x hx, hr]

/-! ## What an execution holds -/

/-- An execution of `HandleOrderCreated` on `evt`: the rows of its transaction report money
of a payment, the gateway charged the event once it approved, and the payment it created is
stored. -/
def OrderCreatedRun.Funded (evt : Event) (db : PaymentDb) (m : OrderCreatedRun) : Prop :=
  (∀ x ∈ views m.tx, Backed db x) ∧
    match m.pc with
    | .create => (evt.orderId, evt.amount) ∈ db.charges
    | .insertCompleted p => (p.id, evt.orderId, p.amount) ∈ db.ledger
    | _ => True

/-- An execution of `HandleStockReservationFailed` on `evt`: the payment it read is stored. -/
def RefundRun.Funded (evt : Event) (db : PaymentDb) (m : RefundRun) : Prop :=
  (∀ x ∈ views m.tx, Backed db x) ∧
    match m.pc with
    | .beginTx p | .refundPayment p | .updateStatus p | .insertRefunded p =>
        (p.id, evt.orderId, p.amount) ∈ db.ledger
    | _ => True

theorem OrderCreatedRun.Funded.mono {evt : Event} {db db' : PaymentDb} (hg : db.Grows db')
    {m : OrderCreatedRun} (h : m.Funded evt db) : m.Funded evt db' := by
  obtain ⟨pc, tx⟩ := m
  refine ⟨fun x hx => (h.1 x hx).mono hg, ?_⟩
  cases pc <;> first | exact hg.charges h.2 | exact hg.ledger h.2 | trivial

theorem RefundRun.Funded.mono {evt : Event} {db db' : PaymentDb} (hg : db.Grows db')
    {m : RefundRun} (h : m.Funded evt db) : m.Funded evt db' := by
  obtain ⟨pc, tx⟩ := m
  refine ⟨fun x hx => (h.1 x hx).mono hg, ?_⟩
  cases pc <;> first | exact hg.ledger h.2 | trivial

def PaymentRun.Funded (evt : Event) (db : PaymentDb) : PaymentRun → Prop
  | .orderCreated m => m.Funded evt db
  | .stockReservationFailed m => m.Funded evt db

/-- A consumer execution: the handler it runs holds its part. -/
def PaymentConsumer.Funded (db : PaymentDb) (c : PaymentConsumer) : Prop :=
  ∀ h ∈ c.stage.run?, h.Funded c.event db

theorem PaymentConsumer.Funded.mono {db db' : PaymentDb} (hg : db.Grows db') {c : PaymentConsumer}
    (hc : c.Funded db) : c.Funded db' := fun h hh => by
  have := hc h hh
  cases h
  exacts [OrderCreatedRun.Funded.mono hg this, RefundRun.Funded.mono hg this]

/-- A new execution starts its handler with no transaction. -/
theorem PaymentConsumer.start_funded {src : Nat} {msg : Message} {c : PaymentConsumer}
    (h : c ∈ (PaymentConsumer.start src msg).toList) (db : PaymentDb) : c.Funded db := by
  simp only [PaymentConsumer.start, Option.mem_toList, Option.mem_def, Option.map_eq_some'] at h
  obtain ⟨r, hr, rfl⟩ := h
  unfold runOf at hr
  split at hr <;> cases hr <;>
    simp [PaymentConsumer.Funded, PaymentRun.Funded, OrderCreatedRun.Funded, RefundRun.Funded]

/-! ## One call -/

section Handlers
variable (evt : Event) (ok : Bool) (u : Nat) {db : PaymentDb}

theorem handleOrderCreated_funded (m : OrderCreatedRun) (hdb : db.Funded) (hm : m.Funded evt db) :
    Next.Sat (fun m' _ db' => db'.Funded ∧ db.Grows db' ∧ m'.Funded evt db')
      (fun _ _ db' => db'.Funded ∧ db.Grows db') (handleOrderCreated evt m ok u db) := by
  obtain ⟨pc, tx⟩ := m
  obtain ⟨htx, hpc⟩ := hm
  cases pc <;> cases ok <;>
    simp only [handleOrderCreated, Bool.false_eq_true, false_and, true_and, ↓reduceIte] <;>
    (repeat' split) <;> simp only [Next.Sat]
  case processPayment.true =>
    have hg : db.Grows { db with charges := db.charges ++ [(evt.orderId, evt.amount)] } :=
      .of_ledger rfl (List.subset_append_left _ _)
    exact ⟨hdb.keep rfl hg.charges rfl rfl, hg, fun x hx => (htx x hx).mono hg,
      List.mem_append_right _ (List.mem_singleton_self _)⟩
  case create.true.h_1 h =>
    obtain ⟨hf, hg, hp⟩ := hdb.create h hpc
    obtain ⟨-, rfl, -⟩ := create_eq_ok h
    exact ⟨hf, hg, fun x hx => (htx x hx).mono hg, hp⟩
  case insertCompleted.true =>
    exact ⟨hdb.nextOutboxId _ |>.1, hdb.nextOutboxId _ |>.2, Backed.append htx fun _ => hpc, trivial⟩
  case insertFailed.true =>
    exact ⟨hdb.nextOutboxId _ |>.1, hdb.nextOutboxId _ |>.2,
      Backed.append htx (by rintro (h | h) <;> cases h), trivial⟩
  case commitCompleted.true | commitFailed.true => exact hdb.commit htx
  all_goals first
    | exact ⟨hdb, .refl db⟩
    | exact ⟨hdb, .refl db, htx, trivial⟩

theorem handleStockReservationFailed_funded (m : RefundRun) (hdb : db.Funded)
    (hm : m.Funded evt db) :
    Next.Sat (fun m' _ db' => db'.Funded ∧ db.Grows db' ∧ m'.Funded evt db')
      (fun _ _ db' => db'.Funded ∧ db.Grows db') (handleStockReservationFailed evt m ok u db) := by
  obtain ⟨pc, tx⟩ := m
  obtain ⟨htx, hpc⟩ := hm
  cases pc <;> cases ok <;>
    simp only [handleStockReservationFailed, Bool.false_eq_true, ↓reduceIte] <;>
    (repeat' split) <;> simp only [Next.Sat]
  case findByOrderID.true.h_2.isFalse hp _ => exact ⟨hdb, .refl db, htx, findByOrderID_ledger hp⟩
  case refundPayment.false | refundPayment.true =>
    exact ⟨hdb.refund hpc, .of_ledger rfl (List.Subset.refl _), htx, hpc⟩
  case updateStatus.true p =>
    have hg := PaymentDb.Grows.of_ledger (updateStatus_ledger db p.id .refunded evt.reason)
      (List.Subset.refl _)
    exact ⟨hdb.keep (updateStatus_ledger ..) hg.charges rfl rfl, hg,
      fun x hx => (htx x hx).mono hg, hg.ledger hpc⟩
  case insertRefunded.true =>
    exact ⟨hdb.nextOutboxId _ |>.1, hdb.nextOutboxId _ |>.2, Backed.append htx fun _ => hpc, trivial⟩
  case commit.true => exact hdb.commit htx
  all_goals first
    | exact ⟨hdb, .refl db⟩
    | exact ⟨hdb, .refl db, htx, hpc⟩

theorem PaymentRun.step_funded (h : PaymentRun) (hdb : db.Funded) (hh : h.Funded evt db) :
    Next.Sat (fun h' _ db' => db'.Funded ∧ db.Grows db' ∧ h'.Funded evt db')
      (fun _ _ db' => db'.Funded ∧ db.Grows db') (h.step evt ok u db) := by
  cases h with
  | orderCreated m =>
      have := handleOrderCreated_funded evt ok u m hdb hh
      simp only [PaymentRun.step]
      generalize handleOrderCreated evt m ok u db = r at this
      obtain ⟨_ | _, _, _⟩ := r <;> exact this
  | stockReservationFailed m =>
      have := handleStockReservationFailed_funded evt ok u m hdb hh
      simp only [PaymentRun.step]
      generalize handleStockReservationFailed evt m ok u db = r at this
      obtain ⟨_ | _, _, _⟩ := r <;> exact this

end Handlers

/-- One call of a consumer execution keeps the invariant, grows the payments and charges, and
leaves the execution holding its part. -/
theorem PaymentConsumer.step_funded (c : PaymentConsumer) (ok : Bool) (u : Nat) (gate : List Nat)
    {db : PaymentDb} (hdb : db.Funded) (hc : c.Funded db) :
    (c.step ok u gate db).2.2.2.Funded ∧ db.Grows (c.step ok u gate db).2.2.2 ∧
      ∀ c' ∈ (c.step ok u gate db).1, c'.Funded (c.step ok u gate db).2.2.2 := by
  obtain ⟨src, evt, stage⟩ := c
  have := @Stage.step_sat _ _ (PaymentRun.step evt) evt.eventId
    (fun h' _ db' => db'.Funded ∧ db.Grows db' ∧ h'.Funded evt db')
    (fun _ _ db' => db'.Funded ∧ db.Grows db') stage ok u gate db
    (fun h e => ⟨hdb, .refl db, hc h (by simp [e])⟩) ⟨hdb, .refl db⟩
    (fun h e => PaymentRun.step_funded evt ok u h hdb (hc h (by simp [e])))
  simp only [PaymentConsumer.step]
  generalize Stage.step (PaymentRun.step evt) evt.eventId stage ok u gate db = r at this ⊢
  obtain ⟨(h' | h' | _) | e, u', gate', db'⟩ := r
  · exact this.elim
  · exact ⟨this.1, this.2.1, by simpa [PaymentConsumer.Funded] using this.2.2⟩
  · exact ⟨this.1, this.2, by simp [PaymentConsumer.Funded]⟩
  · exact ⟨this.1, this.2, by simp⟩

/-! ## Every reachable state -/

/-- The service's part: its database and every execution in flight. -/
structure PaymentSvc.Funded (s : PaymentSvc) : Prop where
  db : s.db.Funded
  threads : ∀ c ∈ s.threads, c.Funded s.db

theorem PaymentSvc.Funded.initial : PaymentSvc.Funded {} where
  db := ⟨by simp [PaymentDb.ledger], by simp, by simp⟩
  threads := by simp

theorem PaymentSvc.Funded.call {s : PaymentSvc} (hi : s.Funded) {j : Nat} {ok : Bool} {u : Nat}
    {r : PaymentSvc × Nat × Option Nat} (h : s.call j ok u = some r) : r.1.Funded := by
  obtain ⟨t, ht, rfl⟩ := Option.map_eq_some'.mp h
  obtain ⟨hdb, hg, hnew⟩ := t.step_funded ok u s.gate hi.db (hi.threads t (List.getElem?_mem ht))
  exact ⟨hdb, fun c hc => (mem_advance hc).elim
    (fun hc => (hi.threads c (List.mem_of_mem_eraseIdx hc)).mono hg) (hnew c)⟩

theorem PaymentSvc.Funded.step {s s' : PaymentSvc} (hi : s.Funded) {a : PaymentAction}
    (h : s.step a = some s') : s'.Funded := by
  cases a with
  | deliver src msg =>
      cases h
      exact ⟨hi.db, fun c hc => (List.mem_append.mp hc).elim (hi.threads c)
        fun hc => PaymentConsumer.start_funded hc _⟩
  | call j ok u =>
      obtain ⟨r, hr, rfl⟩ := Option.map_eq_some'.mp h
      exact hi.call hr
  | crash j =>
      cases h
      exact ⟨hi.db, fun c hc => hi.threads c (List.mem_of_mem_eraseIdx hc)⟩
  | expire k => cases h; exact ⟨hi.db, hi.threads⟩
  | markSent id =>
      cases h
      have hg : s.db.Grows { s.db with outbox := markSent id s.db.outbox } :=
        .of_ledger rfl (List.Subset.refl _)
      exact ⟨⟨hi.db.charged, hi.db.refunded, by simpa using hi.db.stored⟩,
        fun c hc => (hi.threads c hc).mono hg⟩

theorem funded_of_reachable {s : PaymentSvc} (h : PaymentSvc.Reachable s) : s.Funded := by
  induction h with
  | init => exact PaymentSvc.Funded.initial
  | step a _ hs ih => exact ih.step hs

end MsaSaga.PaymentService

namespace MsaSaga.System
open Events Schema Executions OrderService PaymentService

/-- Each step of the system is a step of the Payment service or leaves it as it was. -/
theorem Sys.step_payment {s s' : Sys} {a : Action} (ha : s.step a = some s') :
    s'.payment = s.payment ∨ ∃ b, s.payment.step b = some s'.payment := by
  cases a with
  | request cmd => cases ha; exact .inl rfl
  | call svc j ok =>
      cases svc <;> simp only [Sys.step, Sys.call, Option.map_eq_some'] at ha <;>
        obtain ⟨r, hr, rfl⟩ := ha
      case call.payment.intro.intro => exact .inr ⟨.call j ok s.uuid, by simp [PaymentSvc.step, hr]⟩
      all_goals exact .inl rfl
  | crash svc j =>
      simp only [Sys.step, Option.ite_none_right_eq_some, Option.some.injEq] at ha
      obtain ⟨-, rfl⟩ := ha
      cases svc <;> first | exact .inl rfl | exact .inr ⟨.crash j, rfl⟩
  | publish svc id marked =>
      simp only [Sys.step, Option.map_eq_some'] at ha
      obtain ⟨r, -, rfl⟩ := ha
      cases marked <;> cases svc <;> first | exact .inl rfl | exact .inr ⟨.markSent id, rfl⟩
  | deliver g i =>
      simp only [Sys.step, Option.map_eq_some'] at ha
      obtain ⟨m, -, rfl⟩ := ha
      cases g <;> first | exact .inl rfl | exact .inr ⟨.deliver i m, rfl⟩
  | expire svc k => cases ha; cases svc <;> first | exact .inl rfl | exact .inr ⟨.expire k, rfl⟩

/-- The Payment service inside the system is a run of the service on its own. -/
theorem Reachable.payment {inv : List InventoryRow} {s : Sys} (h : Reachable inv s) :
    PaymentSvc.Reachable s.payment :=
  Reach.map Sys.payment (fun _ _ _ => Sys.step_payment) h

/-- In every state the system reaches, every payment was charged by the gateway for its order
and amount, every refund the gateway made is of a payment it charged, and every
`PaymentCompleted` and `PaymentRefunded` on the bus names a payment by id, with its order and
amount, that the gateway charged. -/
theorem gateway_refunds_only_charged_payments {inv : List InventoryRow} {s : Sys}
    (h : Reachable inv s) :
    (∀ p ∈ s.payment.db.payments, (p.orderId, p.amount) ∈ s.payment.db.charges) ∧
      (∀ id ∈ s.payment.db.refunds, ∃ p ∈ s.payment.db.payments,
        p.id = id ∧ (p.orderId, p.amount) ∈ s.payment.db.charges) ∧
      ∀ m ∈ s.bus, m.topic = .paymentCompleted ∨ m.topic = .paymentRefunded →
        ∃ p ∈ s.payment.db.payments, p.id = m.payload.paymentId ∧ p.orderId = m.payload.orderId ∧
          p.amount = m.payload.amount ∧ (p.orderId, p.amount) ∈ s.payment.db.charges := by
  have hf := (funded_of_reachable h.payment).db
  have hcharged : ∀ p ∈ s.payment.db.payments, (p.orderId, p.amount) ∈ s.payment.db.charges :=
    fun p hp => hf.charged _ (PaymentDb.mem_ledger.mpr ⟨p, hp, rfl⟩)
  refine ⟨hcharged, fun id hid => ?_, fun m hm ht => ?_⟩
  · obtain ⟨_, hx, rfl⟩ := hf.refunded id hid
    obtain ⟨p, hp, rfl⟩ := PaymentDb.mem_ledger.mp hx
    exact ⟨p, hp, rfl, hcharged p hp⟩
  · have hs : (m.topic, m.payload) ∈ views s.payment.db.outbox := by
      have := (lineage_of_reachable h).2.published m hm
      rcases ht with ht | ht <;> simpa [Sys.Stored, ht, emitter, Sys.stored] using this
    obtain ⟨p, hp, he⟩ := PaymentDb.mem_ledger.mp (hf.stored _ hs ht)
    simp only [Prod.mk.injEq] at he
    exact ⟨p, hp, he.1, he.2.1, he.2.2, hcharged p hp⟩

/-- Order 1 is paid and finds no stock; the compensation refunds its payment and the relay
publishes the `PaymentRefunded`. -/
theorem compensation_refunds_a_charged_payment :
    let cmd : CreateOrderCommand :=
      { userId := 1001, amount := 50000, quantity := 1, idempotencyKey := "k1" }
    let calls (svc : Service) (js : List Nat) : List Action := js.map (.call svc · true)
    ∃ s, runSteps Sys.step (Sys.init [⟨1, 0, 0, 0⟩])
        (.request cmd :: calls .order (List.replicate 5 0) ++
          [.publish .order 1 true, .deliver .payment 0] ++ calls .payment (List.replicate 8 0) ++
          [.publish .payment 1 true, .deliver .inventory 1] ++
          calls .inventory (List.replicate 6 0) ++ [.publish .inventory 1 true] ++
          .deliver .payment 2 :: calls .payment (List.replicate 8 0) ++
          [.publish .payment 2 true]) = some s ∧
      Reachable [⟨1, 0, 0, 0⟩] s ∧ s.payment.db.refunds = [1] ∧
      s.bus.map (·.topic) = [.orderCreated, .paymentCompleted, .stockReservationFailed,
        .paymentRefunded] ∧
      (∀ p ∈ s.payment.db.payments, (p.orderId, p.amount) ∈ s.payment.db.charges) ∧
      (∀ id ∈ s.payment.db.refunds, ∃ p ∈ s.payment.db.payments,
        p.id = id ∧ (p.orderId, p.amount) ∈ s.payment.db.charges) ∧
      ∀ m ∈ s.bus, m.topic = .paymentCompleted ∨ m.topic = .paymentRefunded →
        ∃ p ∈ s.payment.db.payments, p.id = m.payload.paymentId ∧ p.orderId = m.payload.orderId ∧
          p.amount = m.payload.amount ∧ (p.orderId, p.amount) ∈ s.payment.db.charges := by
  intro cmd calls
  obtain ⟨s, hs, he⟩ := Option.map_eq_some'.mp (show
    (runSteps Sys.step (Sys.init [⟨1, 0, 0, 0⟩])
        (.request cmd :: calls .order (List.replicate 5 0) ++
          [.publish .order 1 true, .deliver .payment 0] ++ calls .payment (List.replicate 8 0) ++
          [.publish .payment 1 true, .deliver .inventory 1] ++
          calls .inventory (List.replicate 6 0) ++ [.publish .inventory 1 true] ++
          .deliver .payment 2 :: calls .payment (List.replicate 8 0) ++
          [.publish .payment 2 true])).map (fun s => (s.payment.db.refunds, s.bus.map (·.topic))) =
      some ([1], [.orderCreated, .paymentCompleted, .stockReservationFailed, .paymentRefunded])
    by decide)
  have hr := Reach.init.run hs
  exact ⟨s, hs, hr, (Prod.mk.inj he).1, (Prod.mk.inj he).2, gateway_refunds_only_charged_payments hr⟩

end MsaSaga.System
