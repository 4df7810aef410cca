import MsaSaga.PaymentLedger
import MsaSaga.Uniqueness

/-!
# The amount the gateway charges

`CreateOrder` refuses an amount that is not positive before it creates the order, and writes
the `OrderCreated` of the order it created with that order's id and amount. No handler of the
Order service changes an amount: `UpdateStatusWithVersion` sets a status and a version. The
Payment service charges the order id and amount of the `OrderCreated` it handles, and only
`HandleOrderCreated` charges. So in every reachable state each charge, and each payment, is
of an order of the Order table, for that order's amount, which is positive.

The later stages rest on the payment: a reservation is made for the order of a stored
`PaymentCompleted`, which names a charged payment, and a delivery for the order of a stored
`StockReserved`, which the Inventory service writes only for an order it holds a reservation
of. So no stock is reserved and nothing is shipped for an order the gateway did not charge.
-/
namespace MsaSaga.OrderService
open Events Schema Executions

/-! ## The amounts a status update keeps -/

/-- Every order by id and amount. -/
def OrderDb.amounts (db : OrderDb) : List (Nat × Int) :=
  db.orders.map fun o => (o.id, o.amount)

@[simp] theorem updateStatusWithVersion_amounts (db : OrderDb) (id : Nat) (status : OrderStatus)
    (v : Nat) : (updateStatusWithVersion db id status v).2.amounts = db.amounts := by
  simp only [OrderDb.amounts, updateStatusWithVersion, List.map_map]
  exact List.map_congr_left fun o _ => by simp only [Function.comp, setStatus]; split <;> rfl

/-- An `OrderCreated` names an order by id, with its amount. -/
def Priced (db : OrderDb) (x : EventType × Event) : Prop := (x.2.orderId, x.2.amount) ∈ db.amounts

/-- Every order's amount is positive, and every row of the outbox names an order with its
amount. -/
structure OrderDb.Amounts (db : OrderDb) : Prop where
  positive : ∀ x ∈ db.amounts, 0 < x.2
  created : ∀ x ∈ views db.outbox, Priced db x

/-- An execution of `CreateOrder`: its amount passed validation, the order it created is
stored, and its transaction's row names it. -/
def CreateOrderThread.Amounts (db : OrderDb) (t : CreateOrderThread) : Prop :=
  (∀ x ∈ views t.tx, Priced db x) ∧
    match t.pc with
    | .beginTx | .create => 0 < t.cmd.amount
    | .insertTx o | .commit o => (o.id, o.amount) ∈ db.amounts
    | .findByIdempotencyKey => True

def OrderThread.Amounts (db : OrderDb) : OrderThread → Prop
  | .createOrder t => t.Amounts db
  | .consumer _ => True

theorem CreateOrderThread.Amounts.mono {db db' : OrderDb} (hg : db.amounts ⊆ db'.amounts)
    {t : CreateOrderThread} (ht : t.Amounts db) : t.Amounts db' := by
  obtain ⟨cmd, pc, tx⟩ := t
  refine ⟨fun x hx => hg (ht.1 x hx), ?_⟩
  cases pc <;> first | exact hg ht.2 | exact ht.2

theorem OrderThread.Amounts.mono {db db' : OrderDb} (hg : db.amounts ⊆ db'.amounts)
    {t : OrderThread} (ht : t.Amounts db) : t.Amounts db' := by
  cases t
  exacts [CreateOrderThread.Amounts.mono hg ht, trivial]

/-- A change that keeps the amounts and what the outbox holds. -/
theorem OrderDb.Amounts.of_eq {db db' : OrderDb} (h : db.Amounts) (ha : db'.amounts = db.amounts)
    (ho : views db'.outbox = views db.outbox) : db'.Amounts :=
  ⟨ha ▸ h.positive, fun x hx => by simpa only [Priced, ha] using h.created x (ho ▸ hx)⟩

/-- An insert into the outbox sequence, or a commit of rows that name orders. -/
theorem OrderDb.Amounts.outbox {db : OrderDb} (h : db.Amounts) {tx : List OutboxRow}
    (htx : ∀ x ∈ views tx, Priced db x) (n : Nat) :
    ({ db with nextOutboxId := n } : OrderDb).Amounts ∧
      ({ db with outbox := db.outbox ++ tx } : OrderDb).Amounts :=
  ⟨⟨h.positive, h.created⟩, ⟨h.positive,
    fun x hx => (List.mem_append.mp (views_append _ _ ▸ hx)).elim (h.created x) (htx x)⟩⟩

/-- `Create` of an order with a positive amount. -/
theorem OrderDb.Amounts.create {db : OrderDb} (h : db.Amounts) {o row : Order} {db' : OrderDb}
    (hcr : create db o = .ok (row, db')) (hp : 0 < o.amount) :
    db'.Amounts ∧ db.amounts ⊆ db'.amounts ∧ (row.id, row.amount) ∈ db'.amounts := by
  obtain ⟨-, hrow, hdb'⟩ := create_eq_ok hcr
  have hl : db'.amounts = db.amounts ++ [(row.id, row.amount)] := by simp [hdb', OrderDb.amounts]
  have hg : db.amounts ⊆ db'.amounts := hl ▸ List.subset_append_left _ _
  subst hdb'
  refine ⟨⟨fun x hx => ?_, fun x hx => hg (h.created x hx)⟩, hg, by simp [hl]⟩
  rcases List.mem_append.mp (hl ▸ hx) with hx | hx
  · exact h.positive x hx
  · exact (List.mem_singleton.mp hx) ▸ (hrow ▸ hp : 0 < row.amount)

/-! ## One call -/

theorem CreateOrderThread.step_amounts (t : CreateOrderThread) (ok : Bool) (u : Nat) {db : OrderDb}
    (hdb : db.Amounts) (ht : t.Amounts db) :
    Next.Sat (fun t' _ db' => db'.Amounts ∧ db.amounts ⊆ db'.amounts ∧ t'.Amounts db')
      (fun _ _ db' => db'.Amounts ∧ db.amounts ⊆ db'.amounts) (t.step ok u db) := by
  obtain ⟨cmd, pc, tx⟩ := t
  obtain ⟨htx, hpc⟩ := ht
  cases pc <;> cases ok <;>
    simp only [CreateOrderThread.step, validate, Bool.false_eq_true, and_false, ↓reduceIte] <;>
    (repeat' split) <;> simp only [Next.Sat]
  case findByIdempotencyKey.false.isFalse.isFalse | findByIdempotencyKey.true.h_2.isFalse.isFalse =>
    exact ⟨hdb, fun _ => id, htx, (by omega : 0 < cmd.amount)⟩
  case create.true.h_1 h =>
    obtain ⟨hdb', hg, hrow⟩ := hdb.create h hpc
    exact ⟨hdb', hg, fun x hx => hg (htx x hx), hrow⟩
  case insertTx.true =>
    exact ⟨(hdb.outbox htx _).1, fun _ => id, fun x hx => by
      simp only [views_append, views_singleton, List.mem_append, List.mem_singleton] at hx
      rcases hx with hx | rfl
      exacts [htx x hx, hpc], hpc⟩
  case commit.true => exact ⟨(hdb.outbox htx 0).2, fun _ => id⟩
  all_goals first
    | exact ⟨hdb, fun _ => id⟩
    | exact ⟨hdb, fun _ => id, htx, hpc⟩

theorem OrderHandler.step_amounts (h : OrderHandler) (evt : Event) (pc : OrderEventPc) (ok : Bool)
    (u : Nat) (db : OrderDb) : (h.step evt pc ok u db).2.2.amounts = db.amounts := by
  unfold OrderHandler.step
  split <;> (repeat' split) <;> simp

theorem OrderThread.step_amounts (t : OrderThread) (ok : Bool) (u : Nat) (gate : List Nat)
    {db : OrderDb} (hdb : db.Amounts) (ht : t.Amounts db) :
    (t.step ok u gate db).2.2.2.Amounts ∧ db.amounts ⊆ (t.step ok u gate db).2.2.2.amounts ∧
      ∀ t' ∈ (t.step ok u gate db).1, t'.Amounts (t.step ok u gate db).2.2.2 := by
  cases t with
  | createOrder t =>
      have := t.step_amounts ok u hdb ht
      simp only [OrderThread.step]
      generalize t.step ok u db = r at this
      obtain ⟨_ | _, _, _⟩ := r
      · exact ⟨this.1, this.2.1, by simpa [OrderThread.Amounts] using this.2.2⟩
      · exact ⟨this.1, this.2, by simp⟩
  | consumer c =>
      have := @Stage.step_sat _ _ (c.handler.step c.event) c.event.eventId
        (fun _ _ db' => db'.amounts = db.amounts ∧ db'.outbox = db.outbox)
        (fun _ _ db' => db'.amounts = db.amounts ∧ db'.outbox = db.outbox) c.stage ok u gate db
        (fun _ _ => ⟨rfl, rfl⟩) ⟨rfl, rfl⟩
        (fun h _ => Next.Sat.of_all
          (fun _ => ⟨c.handler.step_amounts c.event h ok u db, (c.handler.step_tables c.event h ok u db).1⟩)
          (fun _ => ⟨c.handler.step_amounts c.event h ok u db, (c.handler.step_tables c.event h ok u db).1⟩))
      simp only [OrderThread.step]
      generalize Stage.step (c.handler.step c.event) c.event.eventId c.stage ok u gate db = r at this
      obtain ⟨n, u', gate', db'⟩ := r
      have hsame : db'.amounts = db.amounts ∧ db'.outbox = db.outbox := by
        rcases n with (_ | _ | _) | _
        exacts [this.elim, this, this, this]
      refine ⟨hdb.of_eq hsame.1 (by rw [hsame.2]), hsame.1 ▸ fun _ => id, ?_⟩
      rcases n with (_ | _ | _) | _ <;> simp [OrderThread.Amounts]

/-! ## Every reachable state -/

/-- The service's part: its database and every `CreateOrder` in flight. -/
structure OrderSvc.Amounts (s : OrderSvc) : Prop where
  db : s.db.Amounts
  threads : ∀ t ∈ s.threads, t.Amounts s.db

theorem OrderSvc.Amounts.step {s s' : OrderSvc} (hi : s.Amounts) {a : OrderAction}
    (h : s.step a = some s') : s'.Amounts := by
  cases a with
  | request cmd =>
      cases h
      exact ⟨hi.db, fun t ht => (List.mem_append.mp ht).elim (hi.threads t) fun ht => by
        obtain rfl := List.mem_singleton.mp ht
        exact ⟨by simp [CreateOrderThread.start], trivial⟩⟩
  | deliver src msg =>
      cases h
      exact ⟨hi.db, fun t ht => (List.mem_append.mp ht).elim (hi.threads t) fun ht => by
        obtain ⟨c, -, rfl⟩ := List.mem_map.mp ht
        trivial⟩
  | call j ok u =>
      obtain ⟨r, hr, rfl⟩ := Option.map_eq_some'.mp h
      obtain ⟨t, ht, rfl⟩ := Option.map_eq_some'.mp hr
      obtain ⟨hdb, hg, hnew⟩ := t.step_amounts ok u s.gate hi.db (hi.threads t (List.getElem?_mem ht))
      exact ⟨hdb, fun c hc => (mem_advance hc).elim
        (fun hc => (hi.threads c (List.mem_of_mem_eraseIdx hc)).mono hg) (hnew c)⟩
  | crash j =>
      cases h
      exact ⟨hi.db, fun c hc => hi.threads c (List.mem_of_mem_eraseIdx hc)⟩
  | expire k => cases h; exact ⟨hi.db, hi.threads⟩
  | markSent id =>
      cases h
      exact ⟨hi.db.of_eq rfl (views_markSent _ _), hi.threads⟩

theorem amounts_of_reachable {s : OrderSvc} (h : OrderSvc.Reachable s) : s.Amounts := by
  induction h with
  | init => exact ⟨⟨by simp [OrderDb.amounts], by simp⟩, by simp⟩
  | step a _ hs ih => exact ih.step hs

end MsaSaga.OrderService

namespace MsaSaga.PaymentService
open Events Schema

/-! ## What a call charges -/

theorem handleOrderCreated_charges (evt : Event) (m : OrderCreatedRun) (ok : Bool) (u : Nat)
    (db : PaymentDb) :
    (handleOrderCreated evt m ok u db).2.2.charges = db.charges ∨
      (handleOrderCreated evt m ok u db).2.2.charges = db.charges ++ [(evt.orderId, evt.amount)] := by
  obtain ⟨pc, tx⟩ := m
  cases pc <;> cases ok <;>
    simp only [handleOrderCreated, Bool.false_eq_true, ↓reduceIte] <;> (repeat' split) <;> simp
  case create.true.h_1 h => obtain ⟨-, -, rfl⟩ := create_eq_ok h; exact .inl rfl

theorem handleStockReservationFailed_charges (evt : Event) (m : RefundRun) (ok : Bool) (u : Nat)
    (db : PaymentDb) : (handleStockReservationFailed evt m ok u db).2.2.charges = db.charges := by
  obtain ⟨pc, tx⟩ := m
  cases pc <;> cases ok <;> simp only [handleStockReservationFailed] <;> (repeat' split) <;> rfl

/-- One call charges nothing, or the order id and amount of the event of an execution of
`HandleOrderCreated`. -/
theorem PaymentSvc.step_charges {s s' : PaymentSvc} {b : PaymentAction} (h : s.step b = some s') :
    s'.db.charges = s.db.charges ∨ ∃ c ∈ s.threads, (∃ h ∈ c.stage.run?, h.topic = .orderCreated) ∧
      s'.db.charges = s.db.charges ++ [(c.event.orderId, c.event.amount)] := by
  cases b with
  | call j ok u =>
      obtain ⟨r, hr, rfl⟩ := Option.map_eq_some'.mp h
      obtain ⟨⟨src, evt, stage⟩, ht, rfl⟩ := Option.map_eq_some'.mp hr
      refine (?_ : _ ∨ _).imp_right fun hc => ⟨_, List.getElem?_mem ht, hc⟩
      cases stage with
      | isProcessed h' =>
          simp only [PaymentConsumer.step, Stage.step]
          split <;> exact .inl rfl
      | handle h' =>
          simp only [PaymentConsumer.step, Stage.step]
          have : (h'.step evt ok u s.db).2.2.charges = s.db.charges ∨ h'.topic = .orderCreated ∧
              (h'.step evt ok u s.db).2.2.charges = s.db.charges ++ [(evt.orderId, evt.amount)] := by
            cases h' with
            | orderCreated m =>
                exact (handleOrderCreated_charges evt m ok u s.db).imp_right fun h => ⟨rfl, h⟩
            | stockReservationFailed m => exact .inl (handleStockReservationFailed_charges evt m ok u s.db)
          split <;> exact this.imp_right fun ⟨ht, hc⟩ => ⟨⟨h', rfl, ht⟩, hc⟩
      | reserve => exact .inl rfl
  | _ => cases h; exact .inl rfl

end MsaSaga.PaymentService

namespace MsaSaga.System
open Events Schema Executions OrderService PaymentService

/-- Each step of the system is a step of the Order service or leaves it as it was, and the
service is handed only messages of the bus. -/
theorem Sys.step_order_bus {s s' : Sys} {a : Action} (ha : s.step a = some s') :
    s'.order = s.order ∨ ∃ b, s.order.step b = some s'.order ∧
      ∀ src msg, b = .deliver src msg → msg ∈ s.bus := by
  cases a with
  | request cmd => cases ha; exact .inr ⟨.request cmd, rfl, fun _ _ h => nomatch h⟩
  | call svc j ok =>
      cases svc <;> simp only [Sys.step, Sys.call, Option.map_eq_some'] at ha <;>
        obtain ⟨r, hr, rfl⟩ := ha
      case call.order.intro.intro =>
        exact .inr ⟨.call j ok s.uuid, by simp [OrderSvc.step, hr], fun _ _ h => nomatch h⟩
      all_goals exact .inl rfl
  | crash svc j =>
      simp only [Sys.step, Option.ite_none_right_eq_some, Option.some.injEq] at ha
      obtain ⟨-, rfl⟩ := ha
      cases svc <;> first | exact .inl rfl | exact .inr ⟨.crash j, rfl, fun _ _ h => nomatch h⟩
  | publish svc id marked =>
      simp only [Sys.step, Option.map_eq_some'] at ha
      obtain ⟨r, -, rfl⟩ := ha
      cases marked <;> cases svc <;>
        first | exact .inl rfl | exact .inr ⟨.markSent id, rfl, fun _ _ h => nomatch h⟩
  | deliver g i =>
      simp only [Sys.step, Option.map_eq_some', Option.filter_eq_some, Option.mem_def] at ha
      obtain ⟨m, ⟨hm, -⟩, rfl⟩ := ha
      cases g <;> first | exact .inl rfl |
        exact .inr ⟨.deliver i m, rfl, fun _ _ h => by cases h; exact List.getElem?_mem hm⟩
  | expire svc k =>
      cases ha
      cases svc <;> first | exact .inl rfl | exact .inr ⟨.expire k, rfl, fun _ _ h => nomatch h⟩

theorem Sys.step_order {s s' : Sys} {a : Action} (ha : s.step a = some s') :
    s'.order = s.order ∨ ∃ b, s.order.step b = some s'.order :=
  (Sys.step_order_bus ha).imp_right fun ⟨b, hb, _⟩ => ⟨b, hb⟩

/-- The Order service inside the system is a run of the service on its own. -/
theorem Reachable.order {inv : List InventoryRow} {s : Sys} (h : Reachable inv s) :
    OrderSvc.Reachable s.order :=
  Reach.map Sys.order (fun _ _ _ => Sys.step_order) h

/-- Every charge is of the order id and amount of an `OrderCreated` of the Order outbox. -/
def Sys.ChargesCreated (s : Sys) : Prop :=
  ∀ x ∈ s.payment.db.charges, ∃ e, s.Stored .orderCreated e ∧ x = (e.orderId, e.amount)

/-- A charge is made by an execution of `HandleOrderCreated`, which works on an `OrderCreated`
of the Order outbox, and the outbox only grows. -/
theorem Sys.ChargesCreated.step {s s' : Sys} (hc : s.ChargesCreated) (ho : OrderInv s.order)
    (hf : FlowInv s) {a : Action} (h : s.step a = some s') : s'.ChargesCreated := by
  have hg := (hf.step ho h).2
  have hold : ∀ x ∈ s.payment.db.charges, ∃ e, s'.Stored .orderCreated e ∧ x = (e.orderId, e.amount) :=
    fun x hx => (hc x hx).imp fun e ⟨hs, he⟩ => ⟨hs.mono hg, he⟩
  intro x hx
  rcases Sys.step_payment h with he | ⟨b, hb⟩
  · exact hold x (he ▸ hx)
  · rcases PaymentSvc.step_charges hb with hch | ⟨c, hcm, ⟨r, hr, ht⟩, hch⟩
    · exact hold x (hch ▸ hx)
    · rcases List.mem_append.mp (hch ▸ hx) with hx | hx
      · exact hold x hx
      · exact ⟨c.event, (ht ▸ (hf.payment c hcm).2 r hr).mono hg, List.mem_singleton.mp hx⟩

theorem chargesCreated_of_reachable {inv : List InventoryRow} {s : Sys} (h : Reachable inv s) :
    s.ChargesCreated := by
  induction h with
  | init => simp [Sys.ChargesCreated, Sys.init]
  | step a hr hs ih =>
      obtain ⟨ho, hf⟩ := lineage_of_reachable hr
      exact ih.step ho hf hs

/-- In every state the system reaches, the gateway has charged only orders of the Order table,
each for that order's amount, which is positive, and every payment is for its order's amount. -/
theorem gateway_charges_order_amounts {inv : List InventoryRow} {s : Sys} (h : Reachable inv s) :
    (∀ x ∈ s.payment.db.charges, 0 < x.2 ∧ ∃ o ∈ s.order.db.orders, o.id = x.1 ∧ o.amount = x.2) ∧
      ∀ p ∈ s.payment.db.payments,
        0 < p.amount ∧ ∃ o ∈ s.order.db.orders, o.id = p.orderId ∧ o.amount = p.amount := by
  have ha := (amounts_of_reachable h.order).db
  have hcharge : ∀ x ∈ s.payment.db.charges,
      0 < x.2 ∧ ∃ o ∈ s.order.db.orders, o.id = x.1 ∧ o.amount = x.2 := fun x hx => by
    obtain ⟨e, he, rfl⟩ := chargesCreated_of_reachable h x hx
    have hp := ha.created _ he
    obtain ⟨o, ho, hoe⟩ := List.mem_map.mp hp
    simp only [Prod.mk.injEq] at hoe
    exact ⟨ha.positive _ hp, o, ho, hoe.1, hoe.2⟩
  exact ⟨hcharge, fun p hp =>
    hcharge _ ((funded_of_reachable h.payment).db.charged _ (PaymentDb.mem_ledger.mpr ⟨p, hp, rfl⟩))⟩

/-- An order of 50000 is created, its `OrderCreated` published and handled: the gateway charged
order 1 the 50000 of its row. -/
theorem created_order_charged_its_amount :
    let cmd : CreateOrderCommand :=
      { userId := 1001, amount := 50000, quantity := 1, idempotencyKey := "k1" }
    ∃ s, runSteps Sys.step (Sys.init [])
        (.request cmd :: List.replicate 5 (.call .order 0 true) ++
          [.publish .order 1 true, .deliver .payment 0] ++ List.replicate 8 (.call .payment 0 true)) =
        some s ∧
      Reachable [] s ∧ s.payment.db.charges = [(1, 50000)] ∧
      (∀ x ∈ s.payment.db.charges, 0 < x.2 ∧ ∃ o ∈ s.order.db.orders, o.id = x.1 ∧ o.amount = x.2) ∧
      ∀ p ∈ s.payment.db.payments,
        0 < p.amount ∧ ∃ o ∈ s.order.db.orders, o.id = p.orderId ∧ o.amount = p.amount := by
  intro cmd
  obtain ⟨s, hs, he⟩ := Option.map_eq_some'.mp (show
    (runSteps Sys.step (Sys.init [])
        (.request cmd :: List.replicate 5 (.call .order 0 true) ++
          [.publish .order 1 true, .deliver .payment 0] ++
          List.replicate 8 (.call .payment 0 true))).map (·.payment.db.charges) =
      some [(1, 50000)] by decide)
  have hr := Reach.init.run hs
  exact ⟨s, hs, hr, he, gateway_charges_order_amounts hr⟩

/-! ## What the later stages rest on -/

/-- Every stock reservation is of an order with a payment the gateway charged. -/
theorem reservation_charged {inv : List InventoryRow} {s : Sys} (h : Reachable inv s) :
    ∀ r ∈ s.inventory.db.reservations, ∃ p ∈ s.payment.db.payments,
      p.orderId = r.orderId ∧ (p.orderId, p.amount) ∈ s.payment.db.charges := fun r hrm => by
  have hf := (funded_of_reachable h.payment).db
  obtain ⟨e, he, hro, -⟩ := (counts_of_reachable h).2.1.keys r hrm
  obtain ⟨p, hp, hpe⟩ := PaymentDb.mem_ledger.mp (hf.stored _ he (.inl rfl))
  simp only [Prod.mk.injEq] at hpe
  exact ⟨p, hp, hpe.2.1.trans hro.symm, hf.charged _ (PaymentDb.mem_ledger.mpr ⟨p, hp, rfl⟩)⟩

/-- Every delivery is of an order with a stock reservation: its `StockReserved` was committed
with the reservation. -/
theorem delivery_reserved {inv : List InventoryRow} {s : Sys} (h : Reachable inv s) :
    ∀ d ∈ s.delivery.db.deliveries, ∃ r ∈ s.inventory.db.reservations, r.orderId = d.orderId :=
  fun d hdm => by
  obtain ⟨-, hr, hd⟩ := counts_of_reachable h
  obtain ⟨e, he, hde, -⟩ := hd.keys d hdm
  have hpos : 0 < emitted (s.stored .inventory) .stockReserved e.orderId :=
    List.countP_pos_iff.mpr ⟨_, he, by simp⟩
  obtain ⟨r, hrm, hro⟩ := List.countP_pos_iff.mp (lt_of_lt_of_le hpos (hr.announced e.orderId))
  exact ⟨r, hrm, (of_decide_eq_true hro).trans hde.symm⟩

/-- In every state the system reaches, every stock reservation is of an order with a payment
the gateway charged, and every delivery is of an order with a stock reservation and with a
payment the gateway charged. -/
theorem reservations_and_deliveries_follow_charges {inv : List InventoryRow} {s : Sys}
    (h : Reachable inv s) :
    (∀ r ∈ s.inventory.db.reservations, ∃ p ∈ s.payment.db.payments,
        p.orderId = r.orderId ∧ (p.orderId, p.amount) ∈ s.payment.db.charges) ∧
      ∀ d ∈ s.delivery.db.deliveries, (∃ r ∈ s.inventory.db.reservations, r.orderId = d.orderId) ∧
        ∃ p ∈ s.payment.db.payments,
          p.orderId = d.orderId ∧ (p.orderId, p.amount) ∈ s.payment.db.charges := by
  refine ⟨reservation_charged h, fun d hdm => ?_⟩
  obtain ⟨r, hrm, hro⟩ := delivery_reserved h d hdm
  obtain ⟨p, hp, hpo, hpc⟩ := reservation_charged h r hrm
  exact ⟨⟨r, hrm, hro⟩, p, hp, hpo.trans hro, hpc⟩

/-- Order 1 runs the whole SAGA on a stocked product: one reservation and one delivery, both
of an order the gateway charged. -/
theorem shipped_order_was_reserved_and_charged :
    let cmd : CreateOrderCommand :=
      { userId := 1001, amount := 50000, quantity := 1, idempotencyKey := "k1" }
    let calls (svc : Service) (n : Nat) : List Action := List.replicate n (.call svc 0 true)
    let trace : List Action :=
      .request cmd :: calls .order 5 ++ [.publish .order 1 true, .deliver .payment 0] ++
        calls .payment 8 ++ [.publish .payment 1 true, .deliver .inventory 1] ++
        calls .inventory 9 ++ [.publish .inventory 1 true, .deliver .delivery 2] ++ calls .delivery 7
    ∃ s, runSteps Sys.step (Sys.init [⟨1, 100, 0, 0⟩]) trace = some s ∧
      Reachable [⟨1, 100, 0, 0⟩] s ∧
      s.inventory.db.reservations.length = 1 ∧ s.delivery.db.deliveries.length = 1 ∧
      (∀ r ∈ s.inventory.db.reservations, ∃ p ∈ s.payment.db.payments,
        p.orderId = r.orderId ∧ (p.orderId, p.amount) ∈ s.payment.db.charges) ∧
      ∀ d ∈ s.delivery.db.deliveries, (∃ r ∈ s.inventory.db.reservations, r.orderId = d.orderId) ∧
        ∃ p ∈ s.payment.db.payments,
          p.orderId = d.orderId ∧ (p.orderId, p.amount) ∈ s.payment.db.charges := by
  intro cmd calls trace
  obtain ⟨s, hs, he⟩ := Option.map_eq_some'.mp (show
    (runSteps Sys.step (Sys.init [⟨1, 100, 0, 0⟩]) trace).map
      (fun s => (s.inventory.db.reservations.length, s.delivery.db.deliveries.length)) =
        some (1, 1) by decide)
  have hr := Reach.init.run hs
  exact ⟨s, hs, hr, (Prod.mk.inj he).1, (Prod.mk.inj he).2,
    reservations_and_deliveries_follow_charges hr⟩

end MsaSaga.System
