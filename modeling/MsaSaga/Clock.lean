import MsaSaga.Relay

/-!
# Clock readings and `created_at`

Every outbox row's `created_at` is a reading of the clock taken before its transaction commits:
the `time.Now()` of `CreateOrder` after `BeginTx`, the `time.Now()` of the Payment handlers once
the gateway answered or the status update returned, and the transaction's `NOW()` in the
Inventory and Delivery SQL. An execution holds its reading from then until it returns
(`createdAt?`), and its open transaction holds at most one outbox row, which carries that
reading. Each reading is a fresh value of the clock, later than every `created_at` already in an
outbox and every reading already held.

One step of the system does one of four things to a service's outbox and to what its
executions hold (`HeldStep`): it marks rows `SENT`, drops an execution, starts executions that
hold nothing, or makes one call of one execution. From that one lemma follow the invariants
the relay's latency rests on: every `created_at` and every reading is below the clock's next
value, every transaction's row carries its execution's reading, and no two rows of one service
share an id.
-/
namespace MsaSaga.Executions
open Events Schema

/-- What an execution holds: the clock reading its row will carry, and its open transaction's
outbox rows. -/
structure Held where
  reading : Option Nat
  rows : List OutboxRow
  deriving DecidableEq, Repr

/-- An execution that has read no clock and written no row. -/
def Held.idle : Held := ⟨none, []⟩

/-- The transaction holds no row, or one row whose `created_at` is the reading. -/
def Held.Carries (h : Held) : Prop := h.rows = [] ∨ ∃ r, h.rows = [r] ∧ h.reading = some r.createdAt

@[simp] theorem Held.carries_nil (reading : Option Nat) : Held.Carries ⟨reading, []⟩ := .inl rfl

/-- A call keeps the reading, or reads the clock: the fresh value `u`, before the value `u'` it
hands on. -/
def Reads (at? at?' : Option Nat) (u u' : Nat) : Prop := at?' = at? ∨ (at?' = some u ∧ u < u')

/-- What one call does to an execution that goes on: its transaction carries its reading, and
either it holds no reading, or the outbox stayed and it kept its reading or read the clock. -/
def HeldMove (out out' : List OutboxRow) (x y : Held) (u u' : Nat) : Prop :=
  y.Carries ∧ (y.reading = none ∨ out' = out ∧ Reads x.reading y.reading u u')

@[simp] theorem HeldMove.idle (out out' : List OutboxRow) (x : Held) (u u' : Nat) :
    HeldMove out out' x ⟨none, []⟩ u u' :=
  ⟨.inl rfl, .inl rfl⟩

/-- A call of a handler as `HeldMove` needs it: the outbox stays, and the handler's new reading
is carried. -/
theorem HeldMove.of_call {out out' : List OutboxRow} {x y : Held} {u u' : Nat}
    (ho : out' = out) (hr : Reads x.reading y.reading u u') (hc : y.Carries) :
    HeldMove out out' x y u u' :=
  ⟨hc, .inr ⟨ho, hr⟩⟩

end MsaSaga.Executions

namespace MsaSaga.OrderService
open Events Schema Executions

/-- The `time.Now()` an execution of `CreateOrder` read after `BeginTx`, held until it returns. -/
def CreateOrderThread.createdAt? (t : CreateOrderThread) : Option Nat :=
  match t.pc with
  | .create | .insertTx _ | .commit _ => some t.now
  | _ => none

theorem CreateOrderThread.step_reading (t : CreateOrderThread) (ok : Bool) (u : Nat) (db : OrderDb)
    (ht : t.Shape) :
    Next.Sat (fun t' u' db' => db'.outbox = db.outbox ∧ Reads t.createdAt? t'.createdAt? u u' ∧
        Held.Carries ⟨t'.createdAt?, t'.tx⟩) (fun _ _ _ => True) (t.step ok u db) := by
  obtain ⟨cmd, pc, tx, now⟩ := t
  cases pc <;> cases ok <;> simp only [CreateOrderThread.step, validate] <;> (repeat' split) <;>
    simp_all [Next.Sat, Reads, Held.Carries, CreateOrderThread.createdAt?, CreateOrderThread.Shape,
      orderCreatedEvent]
  case create.true.h_1 h => rw [(create_eq_ok h).2.2]

def OrderThread.clock : OrderThread → Held
  | .createOrder t => ⟨t.createdAt?, t.tx⟩
  | .consumer _ => Held.idle

@[simp] theorem OrderThread.clock_rows (t : OrderThread) : t.clock.rows = t.tx := by
  cases t <;> rfl

theorem OrderThread.step_clock (t : OrderThread) (ok : Bool) (u : Nat) (gate : List Nat)
    (db : OrderDb) (ht : t.Shape) : ∀ y ∈ (t.step ok u gate db).1,
      HeldMove db.outbox (t.step ok u gate db).2.2.2.outbox t.clock y.clock u (t.step ok u gate db).2.1 := by
  cases t with
  | createOrder t =>
      have := t.step_reading ok u db ht
      simp only [OrderThread.step]
      generalize t.step ok u db = r at this
      obtain ⟨_ | _, _, _⟩ := r
      · obtain ⟨ho, hr, hc⟩ := this
        simpa [OrderThread.clock] using HeldMove.of_call ho hr hc
      · simp
  | consumer c =>
      simp only [OrderThread.step, Option.mem_def, Option.map_eq_some']
      rintro _ ⟨st, -, rfl⟩
      exact HeldMove.idle _ _ _ _ _

end MsaSaga.OrderService

namespace MsaSaga.PaymentService
open Events Schema Executions

/-- The `time.Now()` an execution of `HandleOrderCreated` read once the gateway answered. -/
def OrderCreatedRun.createdAt? (m : OrderCreatedRun) : Option Nat :=
  match m.pc with
  | .create | .insertCompleted _ | .commitCompleted | .insertFailed _ | .commitFailed _ => some m.now
  | _ => none

/-- The `time.Now()` an execution of `HandleStockReservationFailed` read after `UpdateStatus`. -/
def RefundRun.createdAt? (m : RefundRun) : Option Nat :=
  match m.pc with
  | .insertRefunded _ | .commit => some m.now
  | _ => none

def PaymentRun.createdAt? : PaymentRun → Option Nat
  | .orderCreated m => m.createdAt?
  | .stockReservationFailed m => m.createdAt?

theorem handleOrderCreated_reading (evt : Event) (m : OrderCreatedRun) (ok : Bool) (u : Nat)
    (db : PaymentDb) (hm : m.Shape evt) :
    Next.Sat (fun m' u' db' => db'.outbox = db.outbox ∧ Reads m.createdAt? m'.createdAt? u u' ∧
        Held.Carries ⟨m'.createdAt?, m'.tx⟩) (fun _ _ _ => True) (handleOrderCreated evt m ok u db) := by
  obtain ⟨pc, tx, now⟩ := m
  cases pc <;> cases ok <;> simp only [handleOrderCreated] <;> (repeat' split) <;>
    simp_all [Next.Sat, Reads, Held.Carries, OrderCreatedRun.createdAt?, OrderCreatedRun.Shape,
      PaymentDb.outboxRow]
  case create.true.h_1 h => rw [(create_eq_ok h).2.2]

theorem handleStockReservationFailed_reading (evt : Event) (m : RefundRun) (ok : Bool) (u : Nat)
    (db : PaymentDb) (hm : m.Shape evt) :
    Next.Sat (fun m' u' db' => db'.outbox = db.outbox ∧ Reads m.createdAt? m'.createdAt? u u' ∧
        Held.Carries ⟨m'.createdAt?, m'.tx⟩) (fun _ _ _ => True)
      (handleStockReservationFailed evt m ok u db) := by
  obtain ⟨pc, tx, now⟩ := m
  cases pc <;> cases ok <;> simp only [handleStockReservationFailed] <;> (repeat' split) <;>
    simp_all [Next.Sat, Reads, Held.Carries, RefundRun.createdAt?, RefundRun.Shape,
      PaymentDb.outboxRow, updateStatus]

theorem PaymentRun.step_reading (evt : Event) (h : PaymentRun) (ok : Bool) (u : Nat)
    (db : PaymentDb) (hh : h.Shape evt) :
    Next.Sat (fun h' u' db' => db'.outbox = db.outbox ∧ Reads h.createdAt? h'.createdAt? u u' ∧
        Held.Carries ⟨h'.createdAt?, h'.tx⟩) (fun _ _ _ => True) (h.step evt ok u db) := by
  cases h with
  | orderCreated m =>
      have := handleOrderCreated_reading evt m ok u db hh
      simp only [PaymentRun.step]
      generalize handleOrderCreated evt m ok u db = r at this
      obtain ⟨_ | _, _, _⟩ := r
      exacts [by simpa [Next.Sat, PaymentRun.tx, PaymentRun.createdAt?] using this, trivial]
  | stockReservationFailed m =>
      have := handleStockReservationFailed_reading evt m ok u db hh
      simp only [PaymentRun.step]
      generalize handleStockReservationFailed evt m ok u db = r at this
      obtain ⟨_ | _, _, _⟩ := r
      exacts [by simpa [Next.Sat, PaymentRun.tx, PaymentRun.createdAt?] using this, trivial]

def PaymentConsumer.clock (c : PaymentConsumer) : Held := ⟨c.stage.run?.bind PaymentRun.createdAt?, c.tx⟩

@[simp] theorem PaymentConsumer.clock_rows (c : PaymentConsumer) : c.clock.rows = c.tx := rfl

/-- A consumer execution starts holding nothing. -/
theorem PaymentConsumer.start_clock (src : Nat) (msg : Message) :
    ∀ z ∈ (PaymentConsumer.start src msg).toList.map PaymentConsumer.clock, z = ⟨none, []⟩ := by
  cases h : msg.topic <;> simp [PaymentConsumer.start, runOf, h, PaymentConsumer.clock,
    PaymentConsumer.tx, PaymentRun.createdAt?, PaymentRun.tx, OrderCreatedRun.createdAt?,
    RefundRun.createdAt?]

theorem PaymentConsumer.step_clock (c : PaymentConsumer) (ok : Bool) (u : Nat) (gate : List Nat)
    (db : PaymentDb) (hc : c.Shape) (hcar : c.clock.Carries) : ∀ y ∈ (c.step ok u gate db).1,
      HeldMove db.outbox (c.step ok u gate db).2.2.2.outbox c.clock y.clock u (c.step ok u gate db).2.1 := by
  obtain ⟨src, evt, stage⟩ := c
  have := @Stage.step_sat _ _ (PaymentRun.step evt) evt.eventId
    (fun h' u' db' => HeldMove db.outbox db'.outbox (PaymentConsumer.clock ⟨src, evt, stage⟩)
      ⟨h'.createdAt?, h'.tx⟩ u u') (fun _ _ _ => True) stage ok u gate db
    (fun h e => by subst e; exact HeldMove.of_call rfl (.inl rfl) hcar) trivial
    (fun h e => by
      subst e
      have := PaymentRun.step_reading evt h ok u db (hc h rfl)
      generalize h.step evt ok u db = r at this
      obtain ⟨_ | _, _, _⟩ := r
      · exact HeldMove.of_call this.1 this.2.1 this.2.2
      · trivial)
  simp only [PaymentConsumer.step]
  generalize Stage.step (PaymentRun.step evt) evt.eventId stage ok u gate db = r at this ⊢
  obtain ⟨(h' | h' | _) | e, u₁, gate₁, db₁⟩ := r <;>
    simp_all [Next.Sat, PaymentConsumer.clock, PaymentConsumer.tx, Next.cont?, HeldMove.idle]

end MsaSaga.PaymentService

namespace MsaSaga.InventoryService
open Events Schema Executions

/-- The `NOW()` of the transaction `HandlePaymentCompleted` began, which its row carries. -/
def ReserveRun.createdAt? (m : ReserveRun) : Option Nat :=
  match m.pc with
  | .selectKey | .beginTx => none
  | _ => some m.tx.startedAt

/-- The `NOW()` of the transaction `HandlePaymentRefunded` began, which its row carries. -/
def RestoreRun.createdAt? (m : RestoreRun) : Option Nat :=
  match m.pc with
  | .selectReservation | .beginTx _ => none
  | _ => some m.tx.startedAt

def InventoryRun.createdAt? : InventoryRun → Option Nat
  | .reserve m => m.createdAt?
  | .restore m => m.createdAt?

theorem handlePaymentCompleted_reading (evt : Event) (m : ReserveRun) (ok : Bool) (u : Nat)
    (db : InventoryDb) (hm : m.Shape evt) :
    Next.Sat (fun m' u' db' => db'.outbox = db.outbox ∧ Reads m.createdAt? m'.createdAt? u u' ∧
        Held.Carries ⟨m'.createdAt?, m'.tx.outbox⟩) (fun _ _ _ => True)
      (handlePaymentCompleted evt m ok u db) := by
  obtain ⟨pc, tx⟩ := m
  cases pc <;> cases ok <;> simp only [handlePaymentCompleted] <;> (repeat' split) <;>
    simp_all [Next.Sat, Reads, Held.Carries, ReserveRun.createdAt?, ReserveRun.Shape,
      InventoryDb.outboxRow]

theorem handlePaymentRefunded_reading (evt : Event) (m : RestoreRun) (ok : Bool) (u : Nat)
    (db : InventoryDb) (hm : m.Shape evt) :
    Next.Sat (fun m' u' db' => db'.outbox = db.outbox ∧ Reads m.createdAt? m'.createdAt? u u' ∧
        Held.Carries ⟨m'.createdAt?, m'.tx.outbox⟩) (fun _ _ _ => True)
      (handlePaymentRefunded evt m ok u db) := by
  obtain ⟨pc, tx⟩ := m
  cases pc <;> cases ok <;> simp only [handlePaymentRefunded] <;> (repeat' split) <;>
    simp_all [Next.Sat, Reads, Held.Carries, RestoreRun.createdAt?, RestoreRun.Shape,
      InventoryDb.outboxRow]

theorem InventoryRun.step_reading (evt : Event) (h : InventoryRun) (ok : Bool) (u : Nat)
    (db : InventoryDb) (hh : h.Shape evt) :
    Next.Sat (fun h' u' db' => db'.outbox = db.outbox ∧ Reads h.createdAt? h'.createdAt? u u' ∧
        Held.Carries ⟨h'.createdAt?, h'.tx.outbox⟩) (fun _ _ _ => True) (h.step evt ok u db) := by
  cases h with
  | reserve m =>
      have := handlePaymentCompleted_reading evt m ok u db hh
      simp only [InventoryRun.step]
      generalize handlePaymentCompleted evt m ok u db = r at this
      obtain ⟨_ | _, _, _⟩ := r
      exacts [by simpa [Next.Sat, InventoryRun.tx, InventoryRun.createdAt?] using this, trivial]
  | restore m =>
      have := handlePaymentRefunded_reading evt m ok u db hh
      simp only [InventoryRun.step]
      generalize handlePaymentRefunded evt m ok u db = r at this
      obtain ⟨_ | _, _, _⟩ := r
      exacts [by simpa [Next.Sat, InventoryRun.tx, InventoryRun.createdAt?] using this, trivial]

def InventoryConsumer.clock (c : InventoryConsumer) : Held :=
  ⟨c.stage.run?.bind InventoryRun.createdAt?, c.tx.outbox⟩

@[simp] theorem InventoryConsumer.clock_rows (c : InventoryConsumer) : c.clock.rows = c.tx.outbox :=
  rfl

theorem InventoryConsumer.start_clock (src : Nat) (msg : Message) :
    ∀ z ∈ (InventoryConsumer.start src msg).toList.map InventoryConsumer.clock, z = ⟨none, []⟩ := by
  cases h : msg.topic <;> simp [InventoryConsumer.start, runOf, h, InventoryConsumer.clock,
    InventoryConsumer.tx, InventoryRun.createdAt?, ReserveRun.createdAt?, RestoreRun.createdAt?]

theorem InventoryConsumer.step_clock (c : InventoryConsumer) (ok : Bool) (u : Nat)
    (gate : List Nat) (db : InventoryDb) (hc : c.Shape) : ∀ y ∈ (c.step ok u gate db).1,
      HeldMove db.outbox (c.step ok u gate db).2.2.2.outbox c.clock y.clock u (c.step ok u gate db).2.1 := by
  obtain ⟨src, evt, stage⟩ := c
  have := @Stage.step_sat _ _ (InventoryRun.step evt) evt.eventId
    (fun h' u' db' => HeldMove db.outbox db'.outbox (InventoryConsumer.clock ⟨src, evt, stage⟩)
      ⟨h'.createdAt?, h'.tx.outbox⟩ u u') (fun _ _ _ => True) stage ok u gate db
    (fun h e => by
      subst e
      obtain ⟨htx, -⟩ := hc
      exact HeldMove.of_call rfl (.inl rfl) (by simp [htx]))
    trivial
    (fun h e => by
      subst e
      have := InventoryRun.step_reading evt h ok u db hc
      generalize h.step evt ok u db = r at this
      obtain ⟨_ | _, _, _⟩ := r
      · exact HeldMove.of_call this.1 this.2.1 this.2.2
      · trivial)
  simp only [InventoryConsumer.step]
  generalize Stage.step (InventoryRun.step evt) evt.eventId stage ok u gate db = r at this ⊢
  obtain ⟨(h' | h' | _) | e, u₁, gate₁, db₁⟩ := r <;>
    simp_all [Next.Sat, InventoryConsumer.clock, InventoryConsumer.tx, Next.cont?]

end MsaSaga.InventoryService

namespace MsaSaga.DeliveryService
open Events Schema Executions

/-- The `NOW()` of the transaction `HandleStockReserved` began, which its row carries. -/
def DeliveryRun.createdAt? (m : DeliveryRun) : Option Nat :=
  match m.pc with
  | .selectKey | .beginTx => none
  | _ => some m.tx.startedAt

theorem handleStockReserved_reading (evt : Event) (m : DeliveryRun) (ok : Bool) (u : Nat)
    (db : DeliveryDb) (hm : m.Shape evt) :
    Next.Sat (fun m' u' db' => db'.outbox = db.outbox ∧ Reads m.createdAt? m'.createdAt? u u' ∧
        Held.Carries ⟨m'.createdAt?, m'.tx.outbox⟩) (fun _ _ _ => True)
      (handleStockReserved evt m ok u db) := by
  obtain ⟨pc, tx⟩ := m
  cases pc <;> cases ok <;> simp only [handleStockReserved] <;> (repeat' split) <;>
    simp_all [Next.Sat, Reads, Held.Carries, DeliveryRun.createdAt?, DeliveryRun.Shape]

def DeliveryConsumer.clock (c : DeliveryConsumer) : Held :=
  ⟨c.stage.run?.bind DeliveryRun.createdAt?, c.tx.outbox⟩

@[simp] theorem DeliveryConsumer.clock_rows (c : DeliveryConsumer) : c.clock.rows = c.tx.outbox :=
  rfl

theorem DeliveryConsumer.start_clock (src : Nat) (msg : Message) :
    ∀ z ∈ (DeliveryConsumer.start src msg).toList.map DeliveryConsumer.clock, z = ⟨none, []⟩ := by
  cases h : msg.topic <;> simp [DeliveryConsumer.start, runOf, h, DeliveryConsumer.clock,
    DeliveryConsumer.tx, DeliveryRun.createdAt?]

theorem DeliveryConsumer.step_clock (c : DeliveryConsumer) (ok : Bool) (u : Nat)
    (gate : List Nat) (db : DeliveryDb) (hc : c.Shape) : ∀ y ∈ (c.step ok u gate db).1,
      HeldMove db.outbox (c.step ok u gate db).2.2.2.outbox c.clock y.clock u (c.step ok u gate db).2.1 := by
  obtain ⟨src, evt, stage⟩ := c
  have := @Stage.step_sat _ _ (handleStockReserved evt) evt.eventId
    (fun m' u' db' => HeldMove db.outbox db'.outbox (DeliveryConsumer.clock ⟨src, evt, stage⟩)
      ⟨m'.createdAt?, m'.tx.outbox⟩ u u') (fun _ _ _ => True) stage ok u gate db
    (fun m e => by
      subst e
      obtain ⟨htx, -⟩ := hc
      exact HeldMove.of_call rfl (.inl rfl) (by simp [htx]))
    trivial
    (fun m e => by
      subst e
      have := handleStockReserved_reading evt m ok u db hc
      generalize handleStockReserved evt m ok u db = r at this
      obtain ⟨_ | _, _, _⟩ := r
      · exact HeldMove.of_call this.1 this.2.1 this.2.2
      · trivial)
  simp only [DeliveryConsumer.step]
  generalize Stage.step (handleStockReserved evt) evt.eventId stage ok u gate db = r at this ⊢
  obtain ⟨(m' | m' | _) | e, u₁, gate₁, db₁⟩ := r <;>
    simp_all [Next.Sat, DeliveryConsumer.clock, DeliveryConsumer.tx, Next.cont?]

end MsaSaga.DeliveryService

namespace MsaSaga.System
open Events Schema Executions OrderService PaymentService InventoryService DeliveryService

/-! ## What the executions of a service hold -/

theorem map_eraseIdx {τ υ : Type} (f : τ → υ) : ∀ (ts : List τ) (j : Nat),
    (ts.eraseIdx j).map f = (ts.map f).eraseIdx j
  | [], _ => rfl
  | _ :: _, 0 => rfl
  | t :: ts, j + 1 => by simp [map_eraseIdx f ts j]

theorem map_advance {τ υ : Type} (f : τ → υ) (ts : List τ) (j : Nat) (t' : Option τ) :
    (advance ts j t').map f = advance (ts.map f) j (t'.map f) := by
  cases t' <;> simp [advance, map_eraseIdx]

/-- What each execution of a service holds. -/
def Sys.clocks (s : Sys) : Service → List Held
  | .order => s.order.threads.map OrderThread.clock
  | .payment => s.payment.threads.map PaymentConsumer.clock
  | .inventory => s.inventory.threads.map InventoryConsumer.clock
  | .delivery => s.delivery.threads.map DeliveryConsumer.clock

theorem Sys.txRows_eq_clocks (s : Sys) (svc : Service) :
    s.txRows svc = (s.clocks svc).flatMap Held.rows := by
  cases svc <;> simp only [Sys.txRows, Sys.clocks, List.flatMap_def, List.map_map] <;> congr 2
  funext t
  cases t <;> rfl

/-! ## One step -/

/-- A row as a later state holds it: as it was, or marked `SENT`. -/
def Settles (r r' : OutboxRow) : Prop := r' = r ∨ r' = { r with status := .sent }

theorem Settles.trans {r r' r'' : OutboxRow} (h : Settles r r') (h' : Settles r' r'') :
    Settles r r'' := by
  rcases h with rfl | rfl <;> rcases h' with rfl | rfl
  exacts [.inl rfl, .inr rfl, .inr rfl, .inr rfl]

theorem Settles.createdAt {r r' : OutboxRow} (h : Settles r r') : r'.createdAt = r.createdAt := by
  rcases h with rfl | rfl <;> rfl

theorem Settles.id {r r' : OutboxRow} (h : Settles r r') : r'.id = r.id := by
  rcases h with rfl | rfl <;> rfl

/-- A row that is still `PENDING` is the row it was. -/
theorem Settles.eq_of_pending {r r' : OutboxRow} (h : Settles r r') (hp : r'.status = .pending) :
    r' = r := by
  rcases h with rfl | rfl
  · rfl
  · cases hp

/-- An outbox whose rows each stay or are marked `SENT`, in place. -/
def Settled (out out' : List OutboxRow) : Prop := List.Forall₂ Settles out out'

theorem Settled.refl (out : List OutboxRow) : Settled out out :=
  List.forall₂_same.2 fun _ _ => .inl rfl

theorem Settled.trans : ∀ {out out' out'' : List OutboxRow}, Settled out out' →
    Settled out' out'' → Settled out out''
  | _, _, _, .nil, .nil => .nil
  | _, _, _, .cons h hs, .cons h' hs' => .cons (h.trans h') (Settled.trans hs hs')

theorem Settled.markSent (id : Nat) (out : List OutboxRow) : Settled out (markSent id out) :=
  List.forall₂_map_right_iff.2 <| List.forall₂_same.2 fun r _ => by
    split
    exacts [.inr rfl, .inl rfl]

theorem Settled.getElem? : ∀ {out out' : List OutboxRow}, Settled out out' → ∀ {i : Nat}
    {r : OutboxRow}, out[i]? = some r → ∃ r', out'[i]? = some r' ∧ Settles r r'
  | _, _, .nil, _, _, h => by simp at h
  | _, _, .cons hr _, 0, _, h => by
      simp only [List.getElem?_cons_zero, Option.some.injEq] at h
      exact ⟨_, List.getElem?_cons_zero, h ▸ hr⟩
  | _, _, .cons _ hs, i + 1, _, h => by simpa using Settled.getElem? hs (by simpa using h)

/-- A count of rows that a row keeps only if the row it settles from had it never grows. -/
theorem Settled.countP_le {p q : OutboxRow → Bool} (hpq : ∀ r r', Settles r r' → q r' → p r)
    {out out' : List OutboxRow} (h : Settled out out') : out'.countP q ≤ out.countP p := by
  induction h with
  | nil => exact le_rfl
  | @cons r r' _ _ hr _ ih =>
      have := hpq r r' hr
      simp only [List.countP_cons]
      split <;> split <;> simp_all; omega

theorem Settled.mem : ∀ {out out' : List OutboxRow}, Settled out out' → ∀ r' ∈ out',
    ∃ r ∈ out, Settles r r'
  | _, _, .nil, _, h => by simp at h
  | _, _, .cons hr hs, _, h => by
      rcases List.mem_cons.mp h with rfl | h
      · exact ⟨_, List.mem_cons_self _ _, hr⟩
      · obtain ⟨r, hm, hr'⟩ := Settled.mem hs _ h
        exact ⟨r, List.mem_cons_of_mem _ hm, hr'⟩

/-- What one step of the system does to a service's outbox and to what its executions hold,
with the clock going from `u` to `u'` and the outbox sequence from `n` to `n'`: it marks rows
`SENT`, drops an execution, starts executions that hold nothing, or makes one call of one
execution. -/
inductive HeldStep (u u' n n' : Nat) : List OutboxRow → List Held → List OutboxRow → List Held → Prop
  | settle {out out' : List OutboxRow} {vs : List Held} (h : Settled out out') :
      HeldStep u u' n n' out vs out' vs
  | crash (out : List OutboxRow) (vs : List Held) (j : Nat) :
      HeldStep u u' n n' out vs out (vs.eraseIdx j)
  | start (out : List OutboxRow) (vs fresh : List Held) (h : ∀ z ∈ fresh, z = ⟨none, []⟩) :
      HeldStep u u' n n' out vs out (vs ++ fresh)
  | call {out out' : List OutboxRow} {vs : List Held} {j : Nat} {x : Held} {y : Option Held}
      (hj : vs[j]? = some x) (hr : RowStep out x.rows out' ((y.map Held.rows).getD []) n n' u u')
      (hy : ∀ z ∈ y, HeldMove out out' x z u u') :
      HeldStep u u' n n' out vs out' (advance vs j y)

theorem HeldStep.refl (u u' n n' : Nat) (out : List OutboxRow) (vs : List Held) :
    HeldStep u u' n n' out vs out vs :=
  .settle (Settled.refl out)

/-- One call of execution `j` of a pool, seen through what each execution holds. -/
theorem HeldStep.pool {τ : Type} (clock : τ → Held) {u u' n n' j : Nat} {out out' : List OutboxRow}
    {ts : List τ} {t : τ} {t' : Option τ} (hj : ts[j]? = some t)
    (hr : RowStep out (clock t).rows out' ((t'.map fun x => (clock x).rows).getD []) n n' u u')
    (hm : ∀ y ∈ t', HeldMove out out' (clock t) (clock y) u u') :
    HeldStep u u' n n' out (ts.map clock) out' ((advance ts j t').map clock) := by
  rw [map_advance]
  exact .call (x := clock t) (by simp [hj]) (by simpa [Option.map_map, Function.comp_def] using hr)
    (by simpa using hm)

/-- One call of execution `j` of a service: its step on what the service's executions hold;
the other services stay. -/
theorem Sys.call_held {s s' : Sys} (h : s.Sound) (hc : ∀ z ∈ s.clocks .payment, z.Carries)
    {svc : Service} {j : Nat} {ok : Bool} (hs : s.call svc j ok = some s') :
    s.uuid ≤ s'.uuid ∧ (∀ svc', svc' ≠ svc → s'.outbox svc' = s.outbox svc' ∧ s'.clocks svc' = s.clocks svc') ∧
      HeldStep s.uuid s'.uuid (s.nextOutboxId svc) (s'.nextOutboxId svc) (s.outbox svc)
        (s.clocks svc) (s'.outbox svc) (s'.clocks svc) := by
  cases svc <;> simp only [Sys.call, Option.map_eq_some'] at hs <;> obtain ⟨r, hr, rfl⟩ := hs
  case order =>
    simp only [OrderSvc.call, Option.map_eq_some'] at hr
    obtain ⟨t, hj, rfl⟩ := hr
    have hr := t.step_rows ok s.uuid s.order.gate s.order.db
    refine ⟨hr.2.1, fun svc' hne => by cases svc' <;> first | exact absurd rfl hne | exact ⟨rfl, rfl⟩,
      HeldStep.pool OrderThread.clock hj (by simpa using hr) ?_⟩
    exact t.step_clock ok s.uuid s.order.gate s.order.db (h.1.creating t (List.getElem?_mem hj)).1
  case payment =>
    simp only [PaymentSvc.call, Option.map_eq_some'] at hr
    obtain ⟨t, hj, rfl⟩ := hr
    have hr := t.step_rows ok s.uuid s.payment.gate s.payment.db
    refine ⟨hr.2.1, fun svc' hne => by cases svc' <;> first | exact absurd rfl hne | exact ⟨rfl, rfl⟩,
      HeldStep.pool PaymentConsumer.clock hj (by simpa using hr) ?_⟩
    exact t.step_clock ok s.uuid s.payment.gate s.payment.db (h.2.1.payment t (List.getElem?_mem hj)).1
      (hc _ (List.mem_map_of_mem _ (List.getElem?_mem hj)))
  case inventory =>
    simp only [InventorySvc.call, Option.map_eq_some', Option.filter_eq_some, Option.mem_def] at hr
    obtain ⟨t, ⟨hj, -⟩, rfl⟩ := hr
    have hts := (h.2.1.inventory t (List.getElem?_mem hj)).1
    have hr := t.step_rows ok s.uuid s.inventory.gate s.inventory.db hts
    refine ⟨hr.2.1, fun svc' hne => by cases svc' <;> first | exact absurd rfl hne | exact ⟨rfl, rfl⟩,
      HeldStep.pool InventoryConsumer.clock hj (by simpa using hr) ?_⟩
    exact t.step_clock ok s.uuid s.inventory.gate s.inventory.db hts
  case delivery =>
    simp only [DeliverySvc.call, Option.map_eq_some', Option.filter_eq_some, Option.mem_def] at hr
    obtain ⟨t, ⟨hj, -⟩, rfl⟩ := hr
    have hts := (h.2.1.delivery t (List.getElem?_mem hj)).1
    have hr := t.step_rows ok s.uuid s.delivery.gate s.delivery.db hts
    refine ⟨hr.2.1, fun svc' hne => by cases svc' <;> first | exact absurd rfl hne | exact ⟨rfl, rfl⟩,
      HeldStep.pool DeliveryConsumer.clock hj (by simpa using hr) ?_⟩
    exact t.step_clock ok s.uuid s.delivery.gate s.delivery.db hts

/-- The relay's loop body marks at most one row `SENT` and touches nothing an execution holds. -/
theorem Sys.publishRow_held (s : Sys) (svc : Service) (r : OutboxRow) (marked : Bool)
    (svc' : Service) : (s.publishRow svc r marked).uuid = s.uuid ∧
      (s.publishRow svc r marked).nextOutboxId svc' = s.nextOutboxId svc' ∧
      (s.publishRow svc r marked).clocks svc' = s.clocks svc' ∧
      Settled (s.outbox svc') ((s.publishRow svc r marked).outbox svc') := by
  cases marked
  · cases svc' <;> exact ⟨rfl, rfl, rfl, Settled.refl _⟩
  · cases svc <;> cases svc' <;>
      exact ⟨rfl, rfl, rfl, by first | exact Settled.markSent _ _ | exact Settled.refl _⟩

theorem Sys.relayRows_held (svc : Service) (key : Event → String) :
    ∀ (rows : List (OutboxRow × Bool × Bool)) (s : Sys), (s.relayRows svc key rows).1.uuid = s.uuid ∧
      ∀ svc', (s.relayRows svc key rows).1.nextOutboxId svc' = s.nextOutboxId svc' ∧
        (s.relayRows svc key rows).1.clocks svc' = s.clocks svc' ∧
        Settled (s.outbox svc') ((s.relayRows svc key rows).1.outbox svc')
  | [], s => ⟨rfl, fun _ => ⟨rfl, rfl, Settled.refl _⟩⟩
  | (r, published, marked) :: rows, s => by
      simp only [Sys.relayRows]
      split
      · obtain ⟨hu, hrest⟩ := Sys.relayRows_held svc key rows (s.publishRow svc r marked)
        refine ⟨hu.trans (s.publishRow_held svc r marked svc).1, fun svc' => ?_⟩
        obtain ⟨-, hn, hc, hs⟩ := s.publishRow_held svc r marked svc'
        obtain ⟨hn', hc', hs'⟩ := hrest svc'
        exact ⟨hn'.trans hn, hc'.trans hc, hs.trans hs'⟩
      · exact Sys.relayRows_held svc key rows s

/-- Every step of the system, on every service. -/
theorem Sys.step_held {s s' : Sys} (h : s.Sound) (hc : ∀ z ∈ s.clocks .payment, z.Carries)
    {a : Action} (hs : s.step a = some s') :
    s.uuid ≤ s'.uuid ∧ ∀ svc, HeldStep s.uuid s'.uuid (s.nextOutboxId svc) (s'.nextOutboxId svc)
      (s.outbox svc) (s.clocks svc) (s'.outbox svc) (s'.clocks svc) := by
  cases a with
  | call svc₀ j ok =>
      obtain ⟨hu, hother, hcall⟩ := Sys.call_held h hc hs
      refine ⟨hu, fun svc => ?_⟩
      by_cases he : svc = svc₀
      · exact he ▸ hcall
      · obtain ⟨ho, hcl⟩ := hother svc he
        rw [ho, hcl]
        exact .refl _ _ _ _ _ _
  | publish svc₀ id marked =>
      obtain ⟨r, -, rfl⟩ := Sys.step_publish.mp hs
      refine ⟨(s.publishRow_held svc₀ r marked svc₀).1.ge, fun svc => ?_⟩
      obtain ⟨hu, hn, hcl, hst⟩ := s.publishRow_held svc₀ r marked svc
      rw [hu, hn, hcl]
      exact .settle hst
  | request cmd =>
      cases hs
      refine ⟨le_rfl, fun svc => ?_⟩
      cases svc
      case order =>
        show HeldStep _ _ _ _ _ _ _ ((s.order.threads ++ _).map OrderThread.clock)
        rw [List.map_append]
        exact .start _ _ _ (by simp [OrderThread.clock, CreateOrderThread.createdAt?,
          CreateOrderThread.start])
      all_goals exact .refl _ _ _ _ _ _
  | crash svc₀ j =>
      simp only [Sys.step, Option.ite_none_right_eq_some, Option.some.injEq] at hs
      obtain ⟨-, rfl⟩ := hs
      refine ⟨by cases svc₀ <;> exact le_rfl, fun svc => ?_⟩
      cases svc₀ <;> cases svc <;> simp only [Sys.crash, Sys.clocks, OrderSvc.crash, PaymentSvc.crash,
        InventorySvc.crash, DeliverySvc.crash, map_eraseIdx] <;>
        first | exact .crash _ _ _ | exact .refl _ _ _ _ _ _
  | deliver g i =>
      simp only [Sys.step, Option.map_eq_some'] at hs
      obtain ⟨m, -, rfl⟩ := hs
      refine ⟨by cases g <;> exact le_rfl, fun svc => ?_⟩
      cases g <;> cases svc <;> simp only [Sys.deliver, Sys.clocks, OrderSvc.deliver, PaymentSvc.deliver,
        InventorySvc.deliver, DeliverySvc.deliver, List.map_append] <;>
        first | exact .refl _ _ _ _ _ _ | exact .start _ _ _ (PaymentConsumer.start_clock i m) |
          exact .start _ _ _ (InventoryConsumer.start_clock i m) |
          exact .start _ _ _ (DeliveryConsumer.start_clock i m) |
          exact .start _ _ _ (by simp [OrderThread.clock, Held.idle])
  | expire svc₀ k =>
      cases hs
      exact ⟨by cases svc₀ <;> exact le_rfl, fun svc => by cases svc₀ <;> cases svc <;> exact .refl _ _ _ _ _ _⟩

/-- A relay tick marks rows `SENT` and touches nothing an execution holds. -/
theorem Sys.relayTick_held {s : Sys} {svc : Service} {scanned : Bool} {outcomes : List (Bool × Bool)}
    {r : Sys × List Publication} (h : s.relayTick svc scanned outcomes = some r) :
    r.1.uuid = s.uuid ∧ ∀ svc', r.1.nextOutboxId svc' = s.nextOutboxId svc' ∧
      r.1.clocks svc' = s.clocks svc' ∧ Settled (s.outbox svc') (r.1.outbox svc') := by
  rcases Sys.relayLoop_eq_some (Sys.relayTick_loop h).2 with ⟨-, -, rfl⟩ | ⟨-, -, rfl⟩
  · exact Sys.relayRows_held svc (relayKey svc) _ s
  · exact ⟨rfl, fun _ => ⟨rfl, rfl, Settled.refl _⟩⟩

theorem Sys.relayStep_held {s s' : Sys} (h : s.Sound) (hc : ∀ z ∈ s.clocks .payment, z.Carries)
    {a : RelayAction} (hs : s.relayStep a = some s') :
    s.uuid ≤ s'.uuid ∧ ∀ svc, HeldStep s.uuid s'.uuid (s.nextOutboxId svc) (s'.nextOutboxId svc)
      (s.outbox svc) (s.clocks svc) (s'.outbox svc) (s'.clocks svc) := by
  cases a with
  | act a =>
      simp only [Sys.relayStep, Option.ite_none_left_eq_some] at hs
      exact Sys.step_held h hc hs.2
  | tick svc₀ scanned outcomes =>
      simp only [Sys.relayStep, Option.ite_none_right_eq_some, Option.map_eq_some'] at hs
      obtain ⟨-, r, hr, rfl⟩ := hs
      obtain ⟨hu, hrest⟩ := Sys.relayTick_held hr
      refine ⟨hu.ge, fun svc => ?_⟩
      obtain ⟨hn, hcl, hst⟩ := hrest svc
      rw [hu, hn, hcl]
      exact .settle hst

/-! ## Readings are below the clock -/

/-- Every `created_at` of the outbox and every reading held is below `u`, and every
transaction's row carries its execution's reading. -/
def Clocked (u : Nat) (out : List OutboxRow) (vs : List Held) : Prop :=
  (∀ r ∈ out, r.createdAt < u) ∧ ∀ z ∈ vs, z.Carries ∧ ∀ v ∈ z.reading, v < u

theorem Clocked.mono {u u' : Nat} {out : List OutboxRow} {vs : List Held} (h : Clocked u out vs)
    (hu : u ≤ u') : Clocked u' out vs :=
  ⟨fun r hr => (h.1 r hr).trans_le hu,
    fun z hz => ⟨(h.2 z hz).1, fun v hv => ((h.2 z hz).2 v hv).trans_le hu⟩⟩

theorem HeldStep.clocked {u u' n n' : Nat} {out out' : List OutboxRow} {vs vs' : List Held}
    (h : HeldStep u u' n n' out vs out' vs') (hu : u ≤ u') (hc : Clocked u out vs) :
    Clocked u' out' vs' := by
  have hc' := hc.mono hu
  cases h with
  | settle hs =>
      refine ⟨fun r' h' => ?_, hc'.2⟩
      obtain ⟨r, hm, hsr⟩ := hs.mem r' h'
      exact hsr.createdAt ▸ hc'.1 r hm
  | crash => exact ⟨hc'.1, fun z hz => hc'.2 z (List.mem_of_mem_eraseIdx hz)⟩
  | start _ fresh hf =>
      refine ⟨hc'.1, fun z hz => ?_⟩
      rcases List.mem_append.mp hz with hz | hz
      · exact hc'.2 z hz
      · obtain rfl := hf z hz
        exact ⟨.inl rfl, by simp⟩
  | @call _ _ _ x y hj hr hy =>
      have hx := hc.2 x (List.getElem?_mem hj)
      refine ⟨fun r hr' => ?_, fun z hz => ?_⟩
      · rcases hr.2.2.1 with rfl | ⟨rfl, -⟩
        · exact hc'.1 r hr'
        · rcases List.mem_append.mp hr' with h' | h'
          · exact hc'.1 r h'
          · rcases hx.1 with he | ⟨r₀, he, hrd⟩
            · simp [he] at h'
            · rw [he, List.mem_singleton] at h'
              subst h'
              exact (hx.2 _ hrd).trans_le hu
      · rcases mem_advance hz with hz | hz
        · exact hc'.2 z (List.mem_of_mem_eraseIdx hz)
        · obtain ⟨hcar, hrd⟩ := hy z hz
          refine ⟨hcar, fun v hv => ?_⟩
          rcases hrd with hn | ⟨-, hrd | ⟨hv', hlt⟩⟩
          · simp [hn] at hv
          · rw [hrd] at hv
            exact (hx.2 v hv).trans_le hu
          · rw [hv', Option.mem_some_iff] at hv
            exact hv ▸ hlt

/-! ## Outbox ids are never repeated -/

/-- No id is held by two rows. -/
def IdsOnce (rows : List OutboxRow) : Prop := ∀ k, rows.countP (·.id = k) ≤ 1

/-- Rows whose ids are never repeated are never repeated. -/
theorem IdsOnce.nodup {rows : List OutboxRow} (h : IdsOnce rows) : rows.Nodup :=
  List.nodup_iff_count_le_one.2 fun r =>
    (List.countP_mono_left fun x _ hx => by simp [beq_iff_eq.mp hx]).trans (h r.id)

theorem IdsOnce.append_left {rows rows' : List OutboxRow} (h : IdsOnce (rows ++ rows')) :
    IdsOnce rows := fun k => (List.countP_append _ _ _ ▸ h k : _ + _ ≤ 1).trans' (Nat.le_add_right _ _)

theorem countP_flatMap {τ : Type} (p : OutboxRow → Bool) (f : τ → List OutboxRow) (ts : List τ) :
    (ts.flatMap f).countP p = (ts.map fun t => (f t).countP p).sum := by
  simp [List.flatMap_def, Function.comp_def]

theorem HeldStep.idsOnce {u u' n n' : Nat} {out out' : List OutboxRow} {vs vs' : List Held}
    (h : HeldStep u u' n n' out vs out' vs') (hlt : ∀ r ∈ out ++ vs.flatMap Held.rows, r.id < n)
    (hk : IdsOnce (out ++ vs.flatMap Held.rows)) : IdsOnce (out' ++ vs'.flatMap Held.rows) := by
  intro k
  have hsum := countP_flatMap (·.id = k) Held.rows
  have hk := hk k
  rw [List.countP_append, hsum] at hk ⊢
  cases h with
  | settle hs =>
      have := hs.countP_le (p := (·.id = k)) (q := (·.id = k)) fun r r' hr hq => by
        simpa [hr.id] using hq
      omega
  | crash _ j =>
      have := sum_eraseIdx_le (fun t => t.rows.countP (·.id = k)) vs j
      omega
  | start _ fresh hf =>
      have : (fresh.map fun t => t.rows.countP (·.id = k)).sum = 0 := by
        simp only [List.sum_eq_zero_iff, List.mem_map]
        rintro _ ⟨z, hz, rfl⟩
        simp [hf z hz]
      simpa [this] using hk
  | @call _ _ j x y hj hr _ =>
      refine count_advance_le_one (fun t => t.rows.countP (·.id = k)) hj y hk ?_
      have hy : (y.map fun t => t.rows.countP (·.id = k)).getD 0 =
          ((y.map Held.rows).getD []).countP (·.id = k) := by cases y <;> rfl
      rw [hy]
      obtain ⟨-, -, ho, htx⟩ := hr
      rcases ho with ho | ⟨ho, htx'⟩ <;> rw [ho]
      · rcases htx with htx | htx | ⟨r, htx, hid, -⟩
        · exact .inl (by rw [htx])
        · exact .inl (by rw [htx]; simp)
        · by_cases hrk : r.id = k
          · have h0 : ∀ r' ∈ out ++ vs.flatMap Held.rows, ¬ r'.id = k := fun r' hr' => by
              have := hlt r' hr'
              omega
            have hall : (vs.map fun t => t.rows.countP (·.id = k)).sum = 0 := by
              rw [← hsum]
              exact List.countP_eq_zero.2 fun r' hr' => by simpa using h0 r' (List.mem_append_right _ hr')
            have hx : x.rows.countP (·.id = k) = 0 := List.countP_eq_zero.2 fun r' hr' => by
              simpa using h0 r' (List.mem_append_right _ (List.mem_flatMap.2 ⟨x, List.getElem?_mem hj, hr'⟩))
            refine .inr ⟨List.countP_eq_zero.2 fun r' hr' => by simpa using h0 r' (List.mem_append_left _ hr'),
              Nat.eq_zero_of_le_zero ((sum_eraseIdx_le _ _ _).trans hall.le), ?_⟩
            rw [htx, List.countP_append]
            simp [hx, hrk]
          · exact .inl (by rw [htx, List.countP_append]; simp [hrk])
      · exact .inl (by rw [htx', List.countP_append]; simp)

/-! ## The invariant of the system with the relay loops -/

/-- What the relay's latency rests on: the invariants of the system, readings below the clock,
and outbox ids never repeated. -/
structure RelayInv (s : Sys) : Prop where
  sound : s.Sound
  clocked : ∀ svc, Clocked s.uuid (s.outbox svc) (s.clocks svc)
  ids : ∀ svc, IdsOnce (s.rows svc)

theorem RelayInv.initial (inv : List InventoryRow) : RelayInv (Sys.init inv) where
  sound := ⟨OrderInv.initial, FlowInv.initial inv, RowInv.initial inv⟩
  clocked svc := by cases svc <;> simp [Clocked, Sys.outbox, Sys.clocks, Sys.init]
  ids svc := by cases svc <;> simp [IdsOnce, Sys.rows, Sys.outbox, Sys.txRows, Sys.init]

theorem RelayInv.relayStep {s s' : Sys} (hi : RelayInv s) {a : RelayAction}
    (hs : s.relayStep a = some s') : RelayInv s' := by
  obtain ⟨hu, hh⟩ := Sys.relayStep_held hi.sound (fun z hz => ((hi.clocked .payment).2 z hz).1) hs
  refine ⟨(hi.sound.relayStep hs).1, fun svc => (hh svc).clocked hu (hi.clocked svc), fun svc => ?_⟩
  have hlt := (hi.sound.2.2.ids svc).1
  have hk := hi.ids svc
  simp only [Sys.rows, Sys.txRows_eq_clocks] at hlt hk ⊢
  exact (hh svc).idsOnce hlt hk

theorem relayInv_of_relayReachable {inv : List InventoryRow} {s : Sys} (h : RelayReachable inv s) :
    RelayInv s := by
  induction h with
  | init => exact RelayInv.initial inv
  | step a _ hs ih => exact ih.relayStep hs

end MsaSaga.System
