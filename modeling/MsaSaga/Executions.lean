import MsaSaga.OrderService
import MsaSaga.PaymentService
import MsaSaga.InventoryService
import MsaSaga.DeliveryService

/-!
# What one call of an execution commits

For each kind of execution: what its transaction holds at each program point, and what one
call does to the tables that the invariants of the choreography read, namely the outbox, the
rows stored under an idempotency key, and the ids the sequences hand out. The invariants of
the whole system are derived from these lemmas and never unfold a handler again.

A handler builds every event it emits from the event it handles: the order id and the
correlation id are copied, and the event id is fresh. An execution is *emitting* from the
call that stored its row under an idempotency key up to the commit of its success event.
-/
namespace MsaSaga.Executions
open Events Schema

/-- What the relay publishes of each row: the event type, which is the topic, and the
payload. Marking a row `SENT` changes neither. -/
def views (rows : List OutboxRow) : List (EventType × Event) :=
  rows.map fun r => (r.eventType, r.payload)

@[simp] theorem views_nil : views [] = [] := rfl

@[simp] theorem views_append (a b : List OutboxRow) : views (a ++ b) = views a ++ views b :=
  List.map_append _ _ _

@[simp] theorem views_singleton (r : OutboxRow) : views [r] = [(r.eventType, r.payload)] := rfl

@[simp] theorem views_markSent (id : Nat) (rows : List OutboxRow) :
    views (markSent id rows) = views rows := by
  simp only [views, markSent, List.map_map]
  exact List.map_congr_left fun r _ => by simp only [Function.comp]; split <;> rfl

/-- The events of type `t` for order `o` among published views. -/
def emitted (xs : List (EventType × Event)) (t : EventType) (o : Nat) : Nat :=
  xs.countP fun x => x.1 = t ∧ x.2.orderId = o

@[simp] theorem emitted_nil (t : EventType) (o : Nat) : emitted [] t o = 0 := rfl

@[simp] theorem emitted_append (xs ys : List (EventType × Event)) (t : EventType) (o : Nat) :
    emitted (xs ++ ys) t o = emitted xs t o + emitted ys t o :=
  List.countP_append _ _ _

@[simp] theorem emitted_singleton (t t' : EventType) (e : Event) (o : Nat) :
    emitted [(t', e)] t o = if t' = t ∧ e.orderId = o then 1 else 0 := by
  simp [emitted, List.countP_cons]

/-- `e` carries the order and correlation ids of `evt`. -/
def Copies (evt e : Event) : Prop :=
  e.orderId = evt.orderId ∧ e.correlationId = evt.correlationId

/-- A transaction's outbox rows: one row of type `t` whose payload copies the ids of `evt`. -/
def OneRow (evt : Event) (t : EventType) (rows : List OutboxRow) : Prop :=
  ∃ r, rows = [r] ∧ r.eventType = t ∧ Copies evt r.payload

theorem OneRow.views_eq {evt : Event} {t : EventType} {rows : List OutboxRow}
    (h : OneRow evt t rows) : ∃ e, views rows = [(t, e)] ∧ Copies evt e := by
  obtain ⟨r, rfl, rfl, hc⟩ := h
  exact ⟨r.payload, rfl, hc⟩

end MsaSaga.Executions

/-! ## Order service -/

namespace MsaSaga.OrderService
open Events Schema Executions

/-- The transaction of `CreateOrder` holds the `OrderCreated` row of the order it created,
once it is inserted. -/
def CreateOrderThread.Shape (t : CreateOrderThread) : Prop :=
  match t.pc with
  | .commit o => ∃ r, t.tx = [r] ∧ r.eventType = .orderCreated ∧ r.payload.orderId = o.id
  | _ => t.tx = []

/-- The order an execution of `CreateOrder` has created and not yet returned for. -/
def CreateOrderThread.held (t : CreateOrderThread) : Option Nat :=
  match t.pc with
  | .insertTx o | .commit o => some o.id
  | _ => none

theorem CreateOrderThread.step_sat (t : CreateOrderThread) (ok : Bool) (u : Nat) (db : OrderDb)
    (ht : t.Shape) :
    Next.Sat (fun t' _ db' => t'.Shape ∧ db'.outbox = db.outbox ∧
        ((t'.held = t.held ∧ db'.nextOrderId = db.nextOrderId) ∨
          (t.held = none ∧ t'.held = some db.nextOrderId ∧ db'.nextOrderId = db.nextOrderId + 1)))
      (fun _ _ db' => db'.nextOrderId = db.nextOrderId ∧
        (db'.outbox = db.outbox ∨ (db'.outbox = db.outbox ++ t.tx ∧ t.held.isSome)))
      (t.step ok u db) := by
  obtain ⟨cmd, pc, tx⟩ := t
  cases pc <;> cases ok <;> simp only [CreateOrderThread.step, validate] <;> (repeat' split) <;>
    simp_all [Next.Sat, CreateOrderThread.Shape, CreateOrderThread.held, orderCreatedEvent]
  case create.true.h_1 h =>
    obtain ⟨-, rfl, rfl⟩ := create_eq_ok h
    exact ⟨rfl, rfl, rfl⟩

theorem OrderHandler.step_tables (h : OrderHandler) (evt : Event) (pc : OrderEventPc) (ok : Bool)
    (u : Nat) (db : OrderDb) :
    (h.step evt pc ok u db).2.2.outbox = db.outbox ∧
      (h.step evt pc ok u db).2.2.nextOrderId = db.nextOrderId := by
  unfold OrderHandler.step
  split <;> (repeat' split) <;> simp [updateStatusWithVersion]

def OrderThread.Shape : OrderThread → Prop
  | .createOrder t => t.Shape
  | .consumer _ => True

def OrderThread.tx : OrderThread → List OutboxRow
  | .createOrder t => t.tx
  | .consumer _ => []

def OrderThread.held : OrderThread → Option Nat
  | .createOrder t => t.held
  | .consumer _ => none

/-- The rows `CreateOrder` commits: the `OrderCreated` of the order it holds. -/
theorem OrderThread.tx_views {t : OrderThread} (ht : t.Shape) :
    views t.tx = [] ∨ ∃ e i, views t.tx = [(.orderCreated, e)] ∧ t.held = some i ∧ e.orderId = i := by
  rcases t with ⟨cmd, pc, tx⟩ | c
  · cases pc <;> simp only [OrderThread.Shape, CreateOrderThread.Shape] at ht
    case commit o =>
      obtain ⟨r, rfl, hr, hid⟩ := ht
      exact .inr ⟨r.payload, o.id, by simp [OrderThread.tx, hr], rfl, hid⟩
    all_goals simp [OrderThread.tx, ht]
  · simp [OrderThread.tx]

/-- One call of an Order execution: the outbox grows only by the transaction of a
`CreateOrder` that holds its order and returns, and an order id is handed out only to a
`CreateOrder` that holds none. -/
theorem OrderThread.step_effect (t : OrderThread) (ok : Bool) (u : Nat) (gate : List Nat)
    (db : OrderDb) (ht : t.Shape) :
    (∀ t' ∈ (t.step ok u gate db).1, t'.Shape) ∧
    (((t.step ok u gate db).2.2.2.outbox = db.outbox ∧
        (((∀ t' ∈ (t.step ok u gate db).1, t'.held = t.held) ∧
            (t.step ok u gate db).2.2.2.nextOrderId = db.nextOrderId) ∨
          (t.held = none ∧ (∀ t' ∈ (t.step ok u gate db).1, t'.held = some db.nextOrderId) ∧
            (t.step ok u gate db).2.2.2.nextOrderId = db.nextOrderId + 1))) ∨
      ((t.step ok u gate db).2.2.2.outbox = db.outbox ++ t.tx ∧ t.held.isSome ∧
        (t.step ok u gate db).1 = none ∧ (t.step ok u gate db).2.2.2.nextOrderId = db.nextOrderId)) := by
  cases t with
  | createOrder t =>
      have := t.step_sat ok u db ht
      simp only [OrderThread.step]
      generalize t.step ok u db = r at this
      obtain ⟨_ | _, _, _⟩ := r
      · obtain ⟨hs, ho, hn⟩ := this
        exact ⟨by simpa [OrderThread.Shape] using hs, .inl ⟨ho, by simpa [OrderThread.held] using hn⟩⟩
      · obtain ⟨hn, ho | ⟨ho, hh⟩⟩ := this
        · exact ⟨by simp, .inl ⟨ho, .inl ⟨by simp, hn⟩⟩⟩
        · exact ⟨by simp, .inr ⟨ho, hh, rfl, hn⟩⟩
  | consumer c =>
      have := @Stage.step_sat _ _ (c.handler.step c.event) c.event.eventId
        (fun _ _ db' => db'.outbox = db.outbox ∧ db'.nextOrderId = db.nextOrderId)
        (fun _ _ db' => db'.outbox = db.outbox ∧ db'.nextOrderId = db.nextOrderId) c.stage ok u gate db
        (fun _ _ => ⟨rfl, rfl⟩) ⟨rfl, rfl⟩
        (fun h _ => Next.Sat.of_all (fun _ => c.handler.step_tables c.event h ok u db)
          (fun _ => c.handler.step_tables c.event h ok u db))
      simp only [OrderThread.step]
      generalize Stage.step (c.handler.step c.event) c.event.eventId c.stage ok u gate db = r at this
      obtain ⟨_ | _, _, _, _⟩ := r
      · rename_i st _ _ _
        cases st <;> simp_all [Next.Sat, OrderThread.Shape, OrderThread.held]
      · simp_all [Next.Sat]

end MsaSaga.OrderService

/-! ## Payment service -/

namespace MsaSaga.PaymentService
open Events Schema Executions

/-- The transaction of `HandleOrderCreated` on `evt` at each of its points, and the payment
it created. -/
def OrderCreatedRun.Shape (evt : Event) (m : OrderCreatedRun) : Prop :=
  match m.pc with
  | .insertCompleted p => m.tx = [] ∧ p.orderId = evt.orderId
  | .commitCompleted => OneRow evt .paymentCompleted m.tx
  | .commitFailed _ => OneRow evt .paymentFailed m.tx
  | _ => m.tx = []

/-- From the creation of its payment to the commit of its `PaymentCompleted`. -/
def OrderCreatedRun.emitting (m : OrderCreatedRun) : Bool :=
  match m.pc with
  | .insertCompleted _ | .commitCompleted => true
  | _ => false

def RefundRun.Shape (evt : Event) (m : RefundRun) : Prop :=
  match m.pc with
  | .commit => OneRow evt .paymentRefunded m.tx
  | _ => m.tx = []

/-- The order id and idempotency key of every payment, which a status update keeps. -/
def PaymentDb.keys (db : PaymentDb) : List (Nat × IdemKey) :=
  db.payments.map fun p => (p.orderId, p.idempotencyKey)

@[simp] theorem updateStatus_keys (db : PaymentDb) (id : Nat) (status : PaymentStatus)
    (reason : String) : (updateStatus db id status reason).keys = db.keys := by
  simp only [PaymentDb.keys, updateStatus, List.map_map]
  exact List.map_congr_left fun p _ => by simp only [Function.comp]; split <;> rfl

/-- `Create` stored a payment for `evt` under a key no payment had. -/
def Created (evt : Event) (db db' : PaymentDb) : Prop :=
  ∃ p, db'.payments = db.payments ++ [p] ∧ p.orderId = evt.orderId ∧
    p.idempotencyKey = paymentKey evt.orderId evt.eventId ∧
    ∀ q ∈ db.payments, q.idempotencyKey ≠ p.idempotencyKey

/-- One call of `HandleOrderCreated`: only the creation of the payment adds a key, and the
execution is emitting from then on; only a commit adds to the outbox. -/
theorem handleOrderCreated_sat (evt : Event) (m : OrderCreatedRun) (ok : Bool) (u : Nat)
    (db : PaymentDb) (hm : m.Shape evt) :
    Next.Sat
      (fun m' _ db' => m'.Shape evt ∧ db'.outbox = db.outbox ∧
        ((db'.keys = db.keys ∧ m'.emitting = m.emitting) ∨
          (m.emitting = false ∧ m'.emitting = true ∧ Created evt db db')))
      (fun _ _ db' => db'.keys = db.keys ∧ (db'.outbox = db.outbox ∨ db'.outbox = db.outbox ++ m.tx))
      (handleOrderCreated evt m ok u db) := by
  obtain ⟨pc, tx⟩ := m
  cases pc <;> cases ok <;> simp only [handleOrderCreated] <;> (repeat' split)
  case create.true.h_1 h =>
    obtain ⟨hfresh, rfl, rfl⟩ := create_eq_ok h
    exact ⟨⟨hm, rfl⟩, rfl, .inr ⟨rfl, rfl, _, rfl, rfl, rfl, hfresh⟩⟩
  all_goals simp_all [Next.Sat, OrderCreatedRun.Shape, OrderCreatedRun.emitting, PaymentDb.keys,
    OneRow, Copies]

/-- One call of `HandleStockReservationFailed`: a status update keeps every key, and only
the commit adds to the outbox. -/
theorem handleStockReservationFailed_sat (evt : Event) (m : RefundRun) (ok : Bool) (u : Nat)
    (db : PaymentDb) (hm : m.Shape evt) :
    Next.Sat (fun m' _ db' => m'.Shape evt ∧ db'.outbox = db.outbox ∧ db'.keys = db.keys)
      (fun _ _ db' => db'.keys = db.keys ∧ (db'.outbox = db.outbox ∨ db'.outbox = db.outbox ++ m.tx))
      (handleStockReservationFailed evt m ok u db) := by
  obtain ⟨pc, tx⟩ := m
  cases pc <;> cases ok <;> simp only [handleStockReservationFailed] <;> (repeat' split)
  case updateStatus.true.isTrue => exact ⟨hm, rfl, updateStatus_keys ..⟩
  all_goals simp_all [Next.Sat, RefundRun.Shape, PaymentDb.keys, OneRow, Copies]

/-- The topic whose messages start a handler. -/
def PaymentRun.topic : PaymentRun → EventType
  | .orderCreated _ => .orderCreated
  | .stockReservationFailed _ => .stockReservationFailed

def PaymentRun.Shape (evt : Event) : PaymentRun → Prop
  | .orderCreated m => m.Shape evt
  | .stockReservationFailed m => m.Shape evt

def PaymentRun.tx : PaymentRun → List OutboxRow
  | .orderCreated m => m.tx
  | .stockReservationFailed m => m.tx

def PaymentRun.emitting : PaymentRun → Bool
  | .orderCreated m => m.emitting
  | .stockReservationFailed _ => false

/-- The rows a handler commits: one copying the ids of `evt`, a `PaymentCompleted` only while
it is emitting. -/
theorem PaymentRun.tx_views {evt : Event} {h : PaymentRun} (hh : h.Shape evt) :
    views h.tx = [] ∨ ∃ e, Copies evt e ∧
      ((views h.tx = [(.paymentCompleted, e)] ∧ h.emitting) ∨ views h.tx = [(.paymentFailed, e)] ∨
        views h.tx = [(.paymentRefunded, e)]) := by
  rcases h with ⟨pc, tx⟩ | ⟨pc, tx⟩ <;> cases pc <;>
    simp only [PaymentRun.Shape, OrderCreatedRun.Shape, RefundRun.Shape] at hh
  case orderCreated.mk.commitCompleted | orderCreated.mk.commitFailed | stockReservationFailed.mk.commit =>
    obtain ⟨e, he, hc⟩ := hh.views_eq
    simp [PaymentRun.tx, PaymentRun.emitting, OrderCreatedRun.emitting, he, hc]
  case orderCreated.mk.insertCompleted => exact .inl (by simp [PaymentRun.tx, hh.1])
  all_goals exact .inl (by simp [PaymentRun.tx, hh])

theorem PaymentRun.step_sat (evt : Event) (h : PaymentRun) (ok : Bool) (u : Nat) (db : PaymentDb)
    (hh : h.Shape evt) :
    Next.Sat
      (fun h' _ db' => h'.Shape evt ∧ h'.topic = h.topic ∧ db'.outbox = db.outbox ∧
        ((db'.keys = db.keys ∧ h'.emitting = h.emitting) ∨
          (h.topic = .orderCreated ∧ h.emitting = false ∧ h'.emitting = true ∧ Created evt db db')))
      (fun _ _ db' => db'.keys = db.keys ∧ (db'.outbox = db.outbox ∨ db'.outbox = db.outbox ++ h.tx))
      (h.step evt ok u db) := by
  cases h with
  | orderCreated m =>
      have := handleOrderCreated_sat evt m ok u db hh
      simp only [PaymentRun.step]
      generalize handleOrderCreated evt m ok u db = r at this
      obtain ⟨_ | _, _, _⟩ := r <;> simpa [Next.Sat, PaymentRun.Shape, PaymentRun.topic,
        PaymentRun.emitting, PaymentRun.tx] using this
  | stockReservationFailed m =>
      have := handleStockReservationFailed_sat evt m ok u db hh
      simp only [PaymentRun.step]
      generalize handleStockReservationFailed evt m ok u db = r at this
      obtain ⟨_ | _, _, _⟩ := r <;> simpa [Next.Sat, PaymentRun.Shape, PaymentRun.topic,
        PaymentRun.emitting, PaymentRun.tx] using this

/-! ### A Payment consumer execution -/

def PaymentConsumer.Shape (c : PaymentConsumer) : Prop :=
  ∀ h ∈ c.stage.run?, h.Shape c.event

/-- The open transaction's outbox rows. -/
def PaymentConsumer.tx (c : PaymentConsumer) : List OutboxRow :=
  match c.stage.run? with
  | some h => h.tx
  | none => []

/-- One while the execution may still commit a `PaymentCompleted` for order `o`. -/
def PaymentConsumer.token (c : PaymentConsumer) (o : Nat) : Nat :=
  match c.stage.run? with
  | some h => if h.emitting ∧ c.event.orderId = o then 1 else 0
  | none => 0

/-- The tokens of an execution that may have returned. -/
def tokenOf (c : Option PaymentConsumer) (o : Nat) : Nat :=
  (c.map (·.token o)).getD 0

theorem PaymentConsumer.tx_views {c : PaymentConsumer} (hc : c.Shape) :
    ∀ x ∈ views c.tx, Copies c.event x.2 ∧
      (x.1 = .paymentCompleted ∨ x.1 = .paymentFailed ∨ x.1 = .paymentRefunded) := by
  unfold PaymentConsumer.tx
  split
  · rename_i h hh
    rcases PaymentRun.tx_views (hc h hh) with he | ⟨e, hce, ⟨he, -⟩ | he | he⟩
    · simp [he]
    all_goals simp [he, hce]
  · simp

theorem PaymentConsumer.emitted_tx {c : PaymentConsumer} (hc : c.Shape) (o : Nat) :
    emitted (views c.tx) .paymentCompleted o ≤ c.token o := by
  unfold PaymentConsumer.tx PaymentConsumer.token
  split
  · rename_i h hh
    rcases PaymentRun.tx_views (hc h hh) with he | ⟨e, ⟨hid, -⟩, ⟨he, hem⟩ | he | he⟩
    · simp [he]
    · simp [he, hem, hid]
    all_goals simp [he]
  · simp

/-- Committing an execution's rows adds at most its token to the `PaymentCompleted` rows. -/
theorem PaymentConsumer.emitted_commit {c : PaymentConsumer} (hc : c.Shape)
    {out out' : List OutboxRow} (ho : out' = out ∨ out' = out ++ c.tx) (o : Nat) :
    emitted (views out') .paymentCompleted o ≤ emitted (views out) .paymentCompleted o + c.token o := by
  have := PaymentConsumer.emitted_tx hc o
  rcases ho with rfl | rfl
  · omega
  · simp only [views_append, emitted_append]; omega

/-- One call of a Payment consumer execution. It keeps its event and the topic of its handler;
it commits its own rows or nothing; and either it keeps the keys and its `PaymentCompleted`
rows and token together do not grow, or it creates the payment of its `OrderCreated` and
takes a token for that order. -/
theorem PaymentConsumer.step_effect {c : PaymentConsumer} {ok : Bool} {u : Nat}
    {gate : List Nat} {db : PaymentDb} {c' : Option PaymentConsumer} {u' : Nat}
    {gate' : List Nat} {db' : PaymentDb} (hc : c.Shape)
    (hr : c.step ok u gate db = (c', u', gate', db')) :
    (∀ x ∈ c', x.Shape ∧ x.event = c.event ∧ x.src = c.src ∧
      ∀ h' ∈ x.stage.run?, ∃ h ∈ c.stage.run?, h'.topic = h.topic) ∧
    (db'.outbox = db.outbox ∨ db'.outbox = db.outbox ++ c.tx) ∧
    ((db'.keys = db.keys ∧ ∀ o, emitted (views db'.outbox) .paymentCompleted o + tokenOf c' o ≤
        emitted (views db.outbox) .paymentCompleted o + c.token o) ∨
      ((∃ h ∈ c.stage.run?, h.topic = .orderCreated) ∧ db'.outbox = db.outbox ∧
        Created c.event db db' ∧ ∀ o, c.token o = 0 ∧
          tokenOf c' o = if c.event.orderId = o then 1 else 0)) := by
  obtain ⟨src, evt, stage⟩ := c
  simp only [PaymentConsumer.step, Prod.mk.injEq] at hr
  obtain ⟨rfl, -, -, rfl⟩ := hr
  cases hrun : stage.run? with
  | none =>
      obtain rfl : stage = .reserve := by cases stage <;> simp_all [Stage.run?]
      simp [Stage.step, tokenOf, PaymentConsumer.token]
  | some h =>
      have hh : h.Shape evt := hc h hrun
      have htx : PaymentConsumer.tx ⟨src, evt, stage⟩ = h.tx := by simp [PaymentConsumer.tx, hrun]
      have := @Stage.step_sat _ _ (PaymentRun.step evt) evt.eventId
        (fun h' _ db' => h'.Shape evt ∧ h'.topic = h.topic ∧ db'.outbox = db.outbox ∧
          ((db'.keys = db.keys ∧ h'.emitting = h.emitting) ∨
            (h.topic = .orderCreated ∧ h.emitting = false ∧ h'.emitting = true ∧ Created evt db db')))
        (fun _ _ db' => db'.keys = db.keys ∧ (db'.outbox = db.outbox ∨ db'.outbox = db.outbox ++ h.tx))
        stage ok u gate db
        (fun h' e => by
          obtain rfl : h' = h := by simpa [e, Stage.run?] using hrun
          exact ⟨hh, rfl, rfl, .inl ⟨rfl, rfl⟩⟩)
        ⟨rfl, .inl rfl⟩
        (fun h' e => by
          obtain rfl : h' = h := by simpa [e, Stage.run?] using hrun
          exact PaymentRun.step_sat evt h' ok u db hh)
      rw [htx]
      generalize Stage.step (PaymentRun.step evt) evt.eventId stage ok u gate db = r at this ⊢
      obtain ⟨n, u₁, gate₁, db₁⟩ := r
      rcases n with (h' | h' | _) | e <;>
        simp only [Next.cont?_cont, Next.cont?_ret, Option.map_some', Option.map_none'] at this ⊢
      · exact this.elim
      · obtain ⟨hs, ht, ho, hk⟩ := this
        refine ⟨by simpa [PaymentConsumer.Shape, hrun] using ⟨hs, ht⟩, .inl ho, ?_⟩
        rcases hk with ⟨hk, he⟩ | ⟨hto, hem, hem', hcr⟩
        · exact .inl ⟨hk, fun o => by simp [tokenOf, PaymentConsumer.token, hrun, ho, he]⟩
        · exact .inr ⟨⟨h, rfl, hto⟩, ho, hcr, fun o =>
            ⟨by simp [PaymentConsumer.token, hrun, hem], by simp [tokenOf, PaymentConsumer.token, hem']⟩⟩
      all_goals
        obtain ⟨hk, ho⟩ := this
        refine ⟨by simp [PaymentConsumer.Shape], ho, .inl ⟨hk, fun o => ?_⟩⟩
        have := PaymentConsumer.emitted_commit hc (htx ▸ ho) o
        change _ + 0 ≤ _
        omega

/-- A new execution runs the handler of its message's topic from its first call. -/
theorem PaymentConsumer.start_shape {src : Nat} {msg : Message} {c : PaymentConsumer}
    (h : c ∈ (PaymentConsumer.start src msg).toList) :
    c.Shape ∧ c.event = msg.payload ∧ (∀ h ∈ c.stage.run?, h.topic = msg.topic) ∧
      ∀ o, c.token o = 0 := by
  simp only [PaymentConsumer.start, Option.mem_toList, Option.mem_def, Option.map_eq_some'] at h
  obtain ⟨r, hr, rfl⟩ := h
  unfold runOf at hr
  split at hr <;> cases hr <;>
    simp_all [PaymentConsumer.Shape, PaymentRun.Shape, OrderCreatedRun.Shape, RefundRun.Shape,
      PaymentRun.topic, PaymentConsumer.token, PaymentRun.emitting, OrderCreatedRun.emitting]

end MsaSaga.PaymentService

/-! ## Inventory service -/

namespace MsaSaga.InventoryService
open Events Schema Executions

/-- No reservation of `rs` holds `key`. -/
def KeyFree (key : IdemKey) (rs : List StockReservation) : Prop :=
  ∀ r ∈ rs, r.idempotencyKey ≠ key

/-- A transaction's pending reservations: the one for `evt`, under the key built from it,
which fits its column. -/
def OneRes (evt : Event) (rs : List StockReservation) : Prop :=
  ∃ r, rs = [r] ∧ r.orderId = evt.orderId ∧
    r.idempotencyKey = reservationKey evt.orderId evt.eventId ∧ r.idempotencyKey.Fits

/-- The outbox rows and pending reservations of `HandlePaymentCompleted` on `evt`. -/
def ReserveRun.Shape (evt : Event) (m : ReserveRun) : Prop :=
  match m.pc with
  | .insertReserved _ => m.tx.outbox = [] ∧ OneRes evt m.tx.reservations
  | .commit => OneRow evt .stockReserved m.tx.outbox ∧ OneRes evt m.tx.reservations
  | .commitFailed _ => OneRow evt .stockReservationFailed m.tx.outbox ∧ m.tx.reservations = []
  | _ => m.tx.outbox = [] ∧ m.tx.reservations = []

def RestoreRun.Shape (evt : Event) (m : RestoreRun) : Prop :=
  match m.pc with
  | .commit => OneRow evt .stockRestored m.tx.outbox ∧ m.tx.reservations = []
  | _ => m.tx.outbox = [] ∧ m.tx.reservations = []

/-- One call of `HandlePaymentCompleted` that does not wait: it commits its transaction or
nothing, and it adds a pending reservation only under a key that neither the table nor any
open transaction holds. -/
theorem handlePaymentCompleted_sat (evt : Event) (m : ReserveRun) (ok : Bool) (u : Nat)
    (db : InventoryDb) (others : List InvTx) (hm : m.Shape evt)
    (hw : ∀ o ∈ others, InventoryRun.waitsFor evt o (.reserve m) = false) :
    Next.Sat
      (fun m' _ db' => m'.Shape evt ∧ db'.reservations = db.reservations ∧ db'.outbox = db.outbox ∧
        (m'.tx.reservations = m.tx.reservations ∨
          (m.tx.reservations = [] ∧
            KeyFree (reservationKey evt.orderId evt.eventId) db.reservations ∧
            (∀ o ∈ others, KeyFree (reservationKey evt.orderId evt.eventId) o.reservations) ∧
            OneRes evt m'.tx.reservations)))
      (fun _ _ db' => db' = db ∨ db' = db.commit m.tx)
      (handlePaymentCompleted evt m ok u db) := by
  obtain ⟨pc, tx⟩ := m
  cases pc <;> cases ok <;> simp only [handlePaymentCompleted] <;> (repeat' split) <;>
    simp_all [Next.Sat, ReserveRun.Shape, InventoryRun.waitsFor, KeyFree, OneRes, OneRow, Copies]
  case mk.insertReservation.true.isTrue => exact hw

theorem handlePaymentRefunded_sat (evt : Event) (m : RestoreRun) (ok : Bool) (u : Nat)
    (db : InventoryDb) (hm : m.Shape evt) :
    Next.Sat
      (fun m' _ db' => m'.Shape evt ∧ db'.reservations = db.reservations ∧ db'.outbox = db.outbox ∧
        m'.tx.reservations = m.tx.reservations)
      (fun _ _ db' => db' = db ∨ db' = db.commit m.tx)
      (handlePaymentRefunded evt m ok u db) := by
  obtain ⟨pc, tx⟩ := m
  cases pc <;> cases ok <;> simp only [handlePaymentRefunded] <;> (repeat' split) <;>
    simp_all [Next.Sat, RestoreRun.Shape, OneRow, Copies]

def InventoryRun.topic : InventoryRun → EventType
  | .reserve _ => .paymentCompleted
  | .restore _ => .paymentRefunded

def InventoryRun.Shape (evt : Event) : InventoryRun → Prop
  | .reserve m => m.Shape evt
  | .restore m => m.Shape evt

/-- The rows a handler commits, each copying the ids of `evt`: a `StockReserved` only with
the reservation it announces. -/
theorem InventoryRun.tx_views {evt : Event} {h : InventoryRun} (hh : h.Shape evt) :
    views h.tx.outbox = [] ∨ ∃ e, Copies evt e ∧
      ((views h.tx.outbox = [(.stockReserved, e)] ∧ OneRes evt h.tx.reservations) ∨
        views h.tx.outbox = [(.stockReservationFailed, e)] ∨
        views h.tx.outbox = [(.stockRestored, e)]) := by
  rcases h with ⟨pc, tx⟩ | ⟨pc, tx⟩ <;> cases pc <;>
    simp only [InventoryRun.Shape, ReserveRun.Shape, RestoreRun.Shape] at hh
  case reserve.mk.commit | reserve.mk.commitFailed | restore.mk.commit =>
    obtain ⟨e, he, hc⟩ := hh.1.views_eq
    simp [InventoryRun.tx, he, hc, hh.2]
  all_goals exact .inl (by simp [InventoryRun.tx, hh.1])

/-- Only `HandlePaymentCompleted` holds a pending reservation, the one for its event. -/
theorem InventoryRun.pending {evt : Event} {h : InventoryRun} (hh : h.Shape evt) :
    h.tx.reservations = [] ∨ (h.topic = .paymentCompleted ∧ OneRes evt h.tx.reservations) := by
  rcases h with ⟨pc, tx⟩ | ⟨pc, tx⟩ <;> cases pc <;>
    simp_all [InventoryRun.Shape, ReserveRun.Shape, RestoreRun.Shape, InventoryRun.tx,
      InventoryRun.topic]

theorem InventoryRun.step_sat (evt : Event) (h : InventoryRun) (ok : Bool) (u : Nat)
    (db : InventoryDb) (others : List InvTx) (hh : h.Shape evt)
    (hw : ∀ o ∈ others, h.waitsFor evt o = false) :
    Next.Sat
      (fun h' _ db' => h'.Shape evt ∧ h'.topic = h.topic ∧ db'.reservations = db.reservations ∧
        db'.outbox = db.outbox ∧
        (h'.tx.reservations = h.tx.reservations ∨
          (h.topic = .paymentCompleted ∧ h.tx.reservations = [] ∧
            KeyFree (reservationKey evt.orderId evt.eventId) db.reservations ∧
            (∀ o ∈ others, KeyFree (reservationKey evt.orderId evt.eventId) o.reservations) ∧
            OneRes evt h'.tx.reservations)))
      (fun _ _ db' => db' = db ∨ db' = db.commit h.tx)
      (h.step evt ok u db) := by
  cases h with
  | reserve m =>
      have := handlePaymentCompleted_sat evt m ok u db others hh hw
      simp only [InventoryRun.step]
      generalize handlePaymentCompleted evt m ok u db = r at this
      obtain ⟨_ | _, _, _⟩ := r <;> simpa [Next.Sat, InventoryRun.Shape, InventoryRun.topic,
        InventoryRun.tx] using this
  | restore m =>
      have := handlePaymentRefunded_sat evt m ok u db hh
      simp only [InventoryRun.step]
      generalize handlePaymentRefunded evt m ok u db = r at this
      obtain ⟨_ | _, _, _⟩ := r <;> simpa [Next.Sat, InventoryRun.Shape, InventoryRun.topic,
        InventoryRun.tx] using this

/-! ### An Inventory consumer execution -/

/-- An execution at its gate check has an empty transaction. -/
def InventoryConsumer.Shape (c : InventoryConsumer) : Prop :=
  match c.stage with
  | .isProcessed h => h.tx = {} ∧ h.Shape c.event
  | .handle h => h.Shape c.event
  | .reserve => True

/-- The pending reservations of an execution for order `o`. -/
def InventoryConsumer.pendingFor (c : InventoryConsumer) (o : Nat) : Nat :=
  c.tx.reservations.countP (·.orderId = o)

theorem InventoryConsumer.tx_views {c : InventoryConsumer} (hc : c.Shape) :
    ∀ x ∈ views c.tx.outbox, Copies c.event x.2 ∧
      (x.1 = .stockReserved ∨ x.1 = .stockReservationFailed ∨ x.1 = .stockRestored) ∧
      ∃ h, h ∈ c.stage.run? := by
  obtain ⟨src, evt, stage⟩ := c
  cases stage with
  | handle h =>
      rcases @InventoryRun.tx_views evt h hc with he | ⟨e, hce, ⟨he, -⟩ | he | he⟩
      · simp [InventoryConsumer.tx, he]
      all_goals simp [InventoryConsumer.tx, he, hce]
  | _ => simp [InventoryConsumer.tx]

/-- A `StockReserved` row of a transaction comes with its pending reservation. -/
theorem InventoryConsumer.emitted_tx {c : InventoryConsumer} (hc : c.Shape) (o : Nat) :
    emitted (views c.tx.outbox) .stockReserved o ≤ c.pendingFor o := by
  obtain ⟨src, evt, stage⟩ := c
  cases stage with
  | handle h =>
      simp only [InventoryConsumer.pendingFor, InventoryConsumer.tx]
      rcases @InventoryRun.tx_views evt h hc with he | ⟨e, ⟨hid, -⟩, hv⟩
      · simp [he]
      · rcases hv with ⟨he, r, hr, hro, -⟩ | he | he
        · simp [he, hr, hid, hro, List.countP_cons]
        all_goals simp [he]
  | _ => simp [InventoryConsumer.tx]

theorem InventoryConsumer.pending {c : InventoryConsumer} (hc : c.Shape) :
    ∀ r ∈ c.tx.reservations, r.orderId = c.event.orderId ∧
      r.idempotencyKey = reservationKey c.event.orderId c.event.eventId ∧
      ∃ h ∈ c.stage.run?, h.topic = .paymentCompleted := by
  obtain ⟨src, evt, stage⟩ := c
  cases stage with
  | handle h =>
      rcases @InventoryRun.pending evt h hc with he | ⟨ht, r, hr, hro, hrk⟩
      · simp [InventoryConsumer.tx, he]
      · simp [InventoryConsumer.tx, hr, hro, hrk, ht]
  | _ => simp [InventoryConsumer.tx]

/-- Every pending reservation fits its column. -/
theorem InventoryConsumer.pending_fits {c : InventoryConsumer} (hc : c.Shape) :
    ∀ r ∈ c.tx.reservations, r.idempotencyKey.Fits := by
  obtain ⟨src, evt, stage⟩ := c
  cases stage with
  | handle h =>
      rcases @InventoryRun.pending evt h hc with he | ⟨-, r, hr, -, -, hfit⟩
      · simp [InventoryConsumer.tx, he]
      · simpa [InventoryConsumer.tx, hr] using hfit
  | _ => simp [InventoryConsumer.tx]

/-- One call of an Inventory consumer execution that does not wait. It keeps its event and
the topic of its handler. Either it commits nothing and keeps or drops its pending
reservation; or it commits its transaction and ends it; or it adds the pending reservation of
its event under a key that no committed row and no other transaction holds. -/
theorem InventoryConsumer.step_effect {c : InventoryConsumer} {ok : Bool} {u : Nat}
    {gate : List Nat} {db : InventoryDb} {others : List InventoryConsumer}
    {c' : Option InventoryConsumer} {u' : Nat} {gate' : List Nat} {db' : InventoryDb}
    (hc : c.Shape) (hb : c.blocked others = false)
    (hr : c.step ok u gate db = (c', u', gate', db')) :
    (∀ x ∈ c', x.Shape ∧ x.event = c.event ∧ x.src = c.src ∧
      ∀ h' ∈ x.stage.run?, ∃ h ∈ c.stage.run?, h'.topic = h.topic) ∧
    ((db'.reservations = db.reservations ∧ db'.outbox = db.outbox ∧
        ∀ x ∈ c', x.tx.reservations = c.tx.reservations ∨ x.tx.reservations = []) ∨
      (db' = db.commit c.tx ∧ ∀ x ∈ c', x.tx = {}) ∨
      (db'.reservations = db.reservations ∧ db'.outbox = db.outbox ∧
        (∃ h ∈ c.stage.run?, h.topic = .paymentCompleted) ∧ c.tx.reservations = [] ∧
        KeyFree (reservationKey c.event.orderId c.event.eventId) db.reservations ∧
        (∀ o ∈ others, KeyFree (reservationKey c.event.orderId c.event.eventId) o.tx.reservations) ∧
        ∀ x ∈ c', OneRes c.event x.tx.reservations)) := by
  obtain ⟨src, evt, stage⟩ := c
  simp only [InventoryConsumer.step, Prod.mk.injEq] at hr
  obtain ⟨rfl, -, -, rfl⟩ := hr
  cases stage with
  | reserve => simp [Stage.step]
  | isProcessed h =>
      obtain ⟨htx, hh⟩ := hc
      simp only [Stage.step]
      split <;> simp [InventoryConsumer.Shape, InventoryConsumer.tx, htx, hh]
  | handle h =>
      have hw : ∀ o ∈ others.map (·.tx), h.waitsFor evt o = false := by
        simpa [InventoryConsumer.blocked] using hb
      have := InventoryRun.step_sat evt h ok u db (others.map (·.tx)) hc hw
      simp only [Stage.step]
      generalize h.step evt ok u db = r at this
      obtain ⟨n, u₁, db₁⟩ := r
      rcases n with h' | (e | _) <;>
        simp only [Next.Sat, Next.cont?_cont, Next.cont?_ret, Option.map_some', Option.map_none']
          at this ⊢
      · obtain ⟨hs, ht, hres, hout, hk | ⟨hto, h0, hfree, hothers, hone⟩⟩ := this
        · exact ⟨by simpa [InventoryConsumer.Shape] using ⟨hs, ht⟩,
            .inl ⟨hres, hout, by simp [InventoryConsumer.tx, hk]⟩⟩
        · exact ⟨by simpa [InventoryConsumer.Shape] using ⟨hs, ht⟩,
            .inr (.inr ⟨hres, hout, ⟨h, rfl, hto⟩, h0, hfree, by simpa using hothers,
              by simpa [InventoryConsumer.tx] using hone⟩)⟩
      all_goals
        refine ⟨by simp [InventoryConsumer.Shape], ?_⟩
        rcases this with rfl | rfl
        · exact .inl ⟨rfl, rfl, by simp [InventoryConsumer.tx]⟩
        · exact .inr (.inl ⟨rfl, by simp [InventoryConsumer.tx]⟩)

theorem InventoryConsumer.start_shape {src : Nat} {msg : Message} {c : InventoryConsumer}
    (h : c ∈ (InventoryConsumer.start src msg).toList) :
    c.Shape ∧ c.event = msg.payload ∧ (∀ h ∈ c.stage.run?, h.topic = msg.topic) ∧
      ∀ o, c.pendingFor o = 0 := by
  simp only [InventoryConsumer.start, Option.mem_toList, Option.mem_def, Option.map_eq_some'] at h
  obtain ⟨r, hr, rfl⟩ := h
  unfold runOf at hr
  split at hr <;> cases hr <;>
    simp_all [InventoryConsumer.Shape, InventoryRun.Shape, ReserveRun.Shape, RestoreRun.Shape,
      InventoryRun.topic, InventoryConsumer.pendingFor, InventoryConsumer.tx, InventoryRun.tx]

end MsaSaga.InventoryService

/-! ## Delivery service -/

namespace MsaSaga.DeliveryService
open Events Schema Executions

/-- No delivery of `ds` holds `key`. -/
def KeyFree (key : IdemKey) (ds : List Delivery) : Prop :=
  ∀ d ∈ ds, d.idempotencyKey ≠ key

/-- A transaction's pending deliveries: the one for `evt`, under the key built from it, which
fits its column. -/
def OneDelivery (evt : Event) (ds : List Delivery) : Prop :=
  ∃ d, ds = [d] ∧ d.orderId = evt.orderId ∧
    d.idempotencyKey = deliveryKey evt.orderId evt.eventId ∧ d.idempotencyKey.Fits

def DeliveryRun.Shape (evt : Event) (m : DeliveryRun) : Prop :=
  match m.pc with
  | .insertStarted _ => m.tx.outbox = [] ∧ OneDelivery evt m.tx.deliveries
  | .commit => OneRow evt .deliveryStarted m.tx.outbox ∧ OneDelivery evt m.tx.deliveries
  | _ => m.tx.outbox = [] ∧ m.tx.deliveries = []

/-- One call of `HandleStockReserved` that does not wait: it commits its transaction or
nothing, and it adds a pending delivery only under a key that neither the table nor any open
transaction holds. -/
theorem handleStockReserved_sat (evt : Event) (m : DeliveryRun) (ok : Bool) (u : Nat)
    (db : DeliveryDb) (others : List DeliveryTx) (hm : m.Shape evt)
    (hw : ∀ o ∈ others, m.waitsFor evt o = false) :
    Next.Sat
      (fun m' _ db' => m'.Shape evt ∧ db'.deliveries = db.deliveries ∧ db'.outbox = db.outbox ∧
        (m'.tx.deliveries = m.tx.deliveries ∨
          (m.tx.deliveries = [] ∧ KeyFree (deliveryKey evt.orderId evt.eventId) db.deliveries ∧
            (∀ o ∈ others, KeyFree (deliveryKey evt.orderId evt.eventId) o.deliveries) ∧
            OneDelivery evt m'.tx.deliveries)))
      (fun _ _ db' => db' = db ∨ db' = db.commit m.tx)
      (handleStockReserved evt m ok u db) := by
  obtain ⟨pc, tx⟩ := m
  cases pc <;> cases ok <;> simp only [handleStockReserved] <;> (repeat' split) <;>
    simp_all [Next.Sat, DeliveryRun.Shape, DeliveryRun.waitsFor, KeyFree, OneDelivery, OneRow,
      Copies]
  case mk.insertDelivery.true.isTrue => exact hw

/-! ### A Delivery consumer execution -/

def DeliveryConsumer.Shape (c : DeliveryConsumer) : Prop :=
  match c.stage with
  | .isProcessed m => m.tx = {} ∧ m.Shape c.event
  | .handle m => m.Shape c.event
  | .reserve => True

/-- The pending deliveries of an execution for order `o`. -/
def DeliveryConsumer.pendingFor (c : DeliveryConsumer) (o : Nat) : Nat :=
  c.tx.deliveries.countP (·.orderId = o)

theorem DeliveryConsumer.tx_views {c : DeliveryConsumer} (hc : c.Shape) :
    ∀ x ∈ views c.tx.outbox, Copies c.event x.2 ∧ x.1 = .deliveryStarted ∧
      ∃ m, m ∈ c.stage.run? := by
  obtain ⟨src, evt, ⟨pc, tx⟩ | ⟨pc, tx⟩ | _⟩ := c
  case mk.handle.mk =>
    cases pc <;> simp only [DeliveryConsumer.Shape, DeliveryRun.Shape] at hc
    case commit =>
      obtain ⟨e, he, hce⟩ := hc.1.views_eq
      simp [DeliveryConsumer.tx, he, hce]
    all_goals simp [DeliveryConsumer.tx, hc.1]
  all_goals simp [DeliveryConsumer.tx]

/-- A `DeliveryStarted` row of a transaction comes with its pending delivery. -/
theorem DeliveryConsumer.emitted_tx {c : DeliveryConsumer} (hc : c.Shape) (o : Nat) :
    emitted (views c.tx.outbox) .deliveryStarted o ≤ c.pendingFor o := by
  obtain ⟨src, evt, ⟨pc, tx⟩ | ⟨pc, tx⟩ | _⟩ := c
  case mk.handle.mk =>
    cases pc <;> simp only [DeliveryConsumer.Shape, DeliveryRun.Shape] at hc
    case commit =>
      obtain ⟨⟨r, hr, hrt, hid, -⟩, d, hd, hdo, -⟩ := hc
      simp [DeliveryConsumer.pendingFor, DeliveryConsumer.tx, hr, hrt, hid, hd, hdo,
        List.countP_cons]
    all_goals simp [DeliveryConsumer.tx, hc.1]
  all_goals simp [DeliveryConsumer.tx]

theorem DeliveryConsumer.pending {c : DeliveryConsumer} (hc : c.Shape) :
    ∀ d ∈ c.tx.deliveries, d.orderId = c.event.orderId ∧
      d.idempotencyKey = deliveryKey c.event.orderId c.event.eventId ∧ ∃ m, m ∈ c.stage.run? := by
  obtain ⟨src, evt, ⟨pc, tx⟩ | ⟨pc, tx⟩ | _⟩ := c
  case mk.handle.mk =>
    cases pc <;> simp only [DeliveryConsumer.Shape, DeliveryRun.Shape] at hc
    case insertStarted | commit =>
      obtain ⟨-, d, hd, hdo, hdk⟩ := hc
      simp [DeliveryConsumer.tx, hd, hdo, hdk]
    all_goals simp [DeliveryConsumer.tx, hc.2]
  all_goals simp [DeliveryConsumer.tx]

/-- Every pending delivery fits its column. -/
theorem DeliveryConsumer.pending_fits {c : DeliveryConsumer} (hc : c.Shape) :
    ∀ d ∈ c.tx.deliveries, d.idempotencyKey.Fits := by
  obtain ⟨src, evt, ⟨pc, tx⟩ | ⟨pc, tx⟩ | _⟩ := c
  case mk.handle.mk =>
    cases pc <;> simp only [DeliveryConsumer.Shape, DeliveryRun.Shape] at hc
    case insertStarted | commit =>
      obtain ⟨-, d, hd, -, -, hfit⟩ := hc
      simpa [DeliveryConsumer.tx, hd] using hfit
    all_goals simp [DeliveryConsumer.tx, hc.2]
  all_goals simp [DeliveryConsumer.tx]

/-- One call of a Delivery consumer execution that does not wait, as for Inventory: it commits
nothing, or commits its transaction and ends it, or adds the pending delivery of its event
under a key that no committed row and no other transaction holds. -/
theorem DeliveryConsumer.step_effect {c : DeliveryConsumer} {ok : Bool} {u : Nat}
    {gate : List Nat} {db : DeliveryDb} {others : List DeliveryConsumer}
    {c' : Option DeliveryConsumer} {u' : Nat} {gate' : List Nat} {db' : DeliveryDb}
    (hc : c.Shape) (hb : c.blocked others = false)
    (hr : c.step ok u gate db = (c', u', gate', db')) :
    (∀ x ∈ c', x.Shape ∧ x.event = c.event ∧ x.src = c.src ∧
      ∀ m' ∈ x.stage.run?, ∃ m, m ∈ c.stage.run?) ∧
    ((db'.deliveries = db.deliveries ∧ db'.outbox = db.outbox ∧
        ∀ x ∈ c', x.tx.deliveries = c.tx.deliveries ∨ x.tx.deliveries = []) ∨
      (db' = db.commit c.tx ∧ ∀ x ∈ c', x.tx = {}) ∨
      (db'.deliveries = db.deliveries ∧ db'.outbox = db.outbox ∧ (∃ m, m ∈ c.stage.run?) ∧
        c.tx.deliveries = [] ∧ KeyFree (deliveryKey c.event.orderId c.event.eventId) db.deliveries ∧
        (∀ o ∈ others, KeyFree (deliveryKey c.event.orderId c.event.eventId) o.tx.deliveries) ∧
        ∀ x ∈ c', OneDelivery c.event x.tx.deliveries)) := by
  obtain ⟨src, evt, stage⟩ := c
  simp only [DeliveryConsumer.step, Prod.mk.injEq] at hr
  obtain ⟨rfl, -, -, rfl⟩ := hr
  cases stage with
  | reserve => simp [Stage.step]
  | isProcessed m =>
      obtain ⟨htx, hm⟩ := hc
      simp only [Stage.step]
      split <;> simp [DeliveryConsumer.Shape, DeliveryConsumer.tx, htx, hm]
  | handle m =>
      have hw : ∀ o ∈ others.map (·.tx), m.waitsFor evt o = false := by
        simpa [DeliveryConsumer.blocked] using hb
      have := handleStockReserved_sat evt m ok u db (others.map (·.tx)) hc hw
      simp only [Stage.step]
      generalize handleStockReserved evt m ok u db = r at this
      obtain ⟨n, u₁, db₁⟩ := r
      rcases n with m' | (e | _) <;>
        simp only [Next.Sat, Next.cont?_cont, Next.cont?_ret, Option.map_some', Option.map_none']
          at this ⊢
      · obtain ⟨hs, hdel, hout, hk | ⟨h0, hfree, hothers, hone⟩⟩ := this
        · exact ⟨by simpa [DeliveryConsumer.Shape] using hs,
            .inl ⟨hdel, hout, by simp [DeliveryConsumer.tx, hk]⟩⟩
        · exact ⟨by simpa [DeliveryConsumer.Shape] using hs,
            .inr (.inr ⟨hdel, hout, ⟨m, rfl⟩, h0, hfree, by simpa using hothers,
              by simpa [DeliveryConsumer.tx] using hone⟩)⟩
      all_goals
        refine ⟨by simp [DeliveryConsumer.Shape], ?_⟩
        rcases this with rfl | rfl
        · exact .inl ⟨rfl, rfl, by simp [DeliveryConsumer.tx]⟩
        · exact .inr (.inl ⟨rfl, by simp [DeliveryConsumer.tx]⟩)

theorem DeliveryConsumer.start_shape {src : Nat} {msg : Message} {c : DeliveryConsumer}
    (h : c ∈ (DeliveryConsumer.start src msg).toList) :
    c.Shape ∧ c.event = msg.payload ∧ msg.topic = .stockReserved ∧ ∀ o, c.pendingFor o = 0 := by
  simp only [DeliveryConsumer.start, Option.mem_toList, Option.mem_def, Option.map_eq_some'] at h
  obtain ⟨r, hr, rfl⟩ := h
  unfold runOf at hr
  split at hr <;> cases hr
  simp_all [DeliveryConsumer.Shape, DeliveryRun.Shape, DeliveryConsumer.pendingFor,
    DeliveryConsumer.tx]

end MsaSaga.DeliveryService
