import MsaSaga.Events

/-!
# Rows of the four service databases

The tables of `scripts/init-*-db.sql` as the handlers see them, the outbox row every service
shares, the idempotency keys the consumers derive, and the errors the handlers return.
The `created_at` of outbox rows and payments is kept, since the relays and `FindByOrderID`
sort on it. It is a reading of the clock taken before the insert: `time.Now()` in the Order and
Payment code, and the transaction's start, `NOW()`, in the Inventory and Delivery SQL. The
other timestamps, tracking numbers and gateway transaction ids are clock readings that no
handler or query branches on, and they are left out. An idempotency key longer than its
`VARCHAR(64)` column fails its insert. A row's id is drawn from its table's
`BIGSERIAL` sequence when the row is inserted, and a rolled-back insert does not give its id
back.
-/
namespace MsaSaga.Schema
open Events

inductive OrderStatus where
  | pending | paymentProcessing | stockReserving | deliveryPreparing
  | completed | canceled | failed
  deriving DecidableEq, Repr

inductive PaymentStatus where
  | pending | completed | failed | refunded
  deriving DecidableEq, Repr

inductive ReservationStatus where
  | reserved | confirmed | canceled | expired
  deriving DecidableEq, Repr

inductive DeliveryStatus where
  | pending | preparing | inTransit | delivered | failed | canceled
  deriving DecidableEq, Repr

inductive OutboxStatus where
  | pending | sent
  deriving DecidableEq, Repr

/-- A row of `orders`. The idempotency key is stored as given, so the empty key is a value
the unique index also sees. -/
structure Order where
  id : Nat
  userId : Int
  amount : Int
  quantity : Int
  status : OrderStatus
  version : Nat
  idempotencyKey : String
  deriving DecidableEq, Repr

/-- The three formats `"<kind>-%d-%s"` of the consumers' durable idempotency keys. -/
inductive KeyKind where
  | payment | stockReservation | delivery
  deriving DecidableEq, Repr

/-- `fmt.Sprintf("<kind>-%d-%s", orderID, eventID)`. The event id is a UUID string of fixed
shape, so the string determines the triple and the key is kept as the triple. -/
structure IdemKey where
  kind : KeyKind
  orderId : Nat
  eventId : Nat
  deriving DecidableEq, Repr

/-- `payment-<orderId>-<eventId>`, built by `HandleOrderCreated`. -/
def paymentKey (orderId eventId : Nat) : IdemKey := ⟨.payment, orderId, eventId⟩

/-- `stock-reservation-<orderId>-<eventId>`, built by `HandlePaymentCompleted`. -/
def reservationKey (orderId eventId : Nat) : IdemKey := ⟨.stockReservation, orderId, eventId⟩

/-- `delivery-<orderId>-<eventId>`, built by `HandleStockReserved`. -/
def deliveryKey (orderId eventId : Nat) : IdemKey := ⟨.delivery, orderId, eventId⟩

/-- What each key format puts before the order id. -/
def keyStem : KeyKind → String
  | .payment => "payment-"
  | .stockReservation => "stock-reservation-"
  | .delivery => "delivery-"

/-- The number of characters of the key's string: the stem, the order id in decimal, a dash
and the 36 characters of the event's UUID. -/
def IdemKey.length (k : IdemKey) : Nat := (keyStem k.kind).length + (toString k.orderId).length + 1 + 36

/-- The width of the `idempotency_key` columns, `VARCHAR(64)` in `orders`, `payments`,
`stock_reservations` and `deliveries`. -/
def keyColumnWidth : Nat := 64

/-- The key's string fits its column; an insert of a longer one fails. -/
def IdemKey.Fits (k : IdemKey) : Prop := k.length ≤ keyColumnWidth

instance : DecidablePred IdemKey.Fits := fun k => Nat.decLe k.length keyColumnWidth

/-- A row of `payments`; `payment_type` is always `CARD`. -/
structure Payment where
  id : Nat
  orderId : Nat
  amount : Int
  status : PaymentStatus
  idempotencyKey : IdemKey
  reason : String := ""
  createdAt : Nat
  deriving DecidableEq, Repr

/-- A row of `inventory`; the two quantities are SQL `INT` columns with no check. -/
structure InventoryRow where
  productId : Nat
  available : Int
  reserved : Int
  version : Nat
  deriving DecidableEq, Repr

/-- A row of `stock_reservations`. -/
structure StockReservation where
  id : Nat
  orderId : Nat
  productId : Nat
  quantity : Int
  status : ReservationStatus
  idempotencyKey : IdemKey
  deriving DecidableEq, Repr

/-- A row of `deliveries`. -/
structure Delivery where
  id : Nat
  orderId : Nat
  status : DeliveryStatus
  idempotencyKey : IdemKey
  deriving DecidableEq, Repr

/-- A row of `outbox_events`; the payload is the serialized envelope. -/
structure OutboxRow where
  id : Nat
  aggregateType : String
  aggregateId : Nat
  eventType : EventType
  payload : Event
  status : OutboxStatus := .pending
  createdAt : Nat
  deriving DecidableEq, Repr

/-- `errors.ErrorCode`. -/
inductive ErrorCode where
  | paymentDeclined | outOfStock | insufficientBalance | invalidOrder | orderNotFound
  | duplicateRequest | databaseError | networkError | timeoutError | serializationError
  | unknownError
  deriving DecidableEq, Repr

/-- A non-nil Go `error`: a `DomainError` from `errors.New` or `errors.Wrap` carries its code,
an error from `fmt.Errorf` carries none. The message is the one the handler writes. -/
structure Err where
  code : Option ErrorCode
  message : String
  deriving DecidableEq, Repr

/-- `errors.Wrap(ErrCodeDatabaseError, message, cause)`. -/
def dbErr (message : String) : Err := ⟨some .databaseError, message⟩

/-- `fmt.Errorf(message)`. -/
def plainErr (message : String) : Err := ⟨none, message⟩

/-- The value a handler returns: `nil` or an error. -/
abbrev HandlerResult := Except Err Unit

/-- Mark an outbox row `SENT` (`MarkSent`). -/
def markSent (id : Nat) (rows : List OutboxRow) : List OutboxRow :=
  rows.map fun r => if r.id = id then { r with status := .sent } else r

/-- What one call of a handler leaves behind: the point it continues from, or its return
value. -/
inductive Next (σ ρ : Type) where
  | cont (s : σ)
  | ret (r : ρ)
  deriving DecidableEq, Repr

/-- The continuation, if the handler has not returned. -/
def Next.cont? {σ ρ : Type} : Next σ ρ → Option σ
  | .cont s => some s
  | .ret _ => none

@[simp] theorem Next.cont?_cont {σ ρ : Type} (s : σ) : (Next.cont s : Next σ ρ).cont? = some s := rfl
@[simp] theorem Next.cont?_ret {σ ρ : Type} (r : ρ) : (Next.ret r : Next σ ρ).cont? = none := rfl

/-- Run a handler machine on a list of call outcomes, one outcome a call. The run stops when
the handler returns or the outcomes run out; the second is a process that stopped there. -/
def runCalls {σ ρ δ : Type} (step : σ → Bool → Nat → δ → Next σ ρ × Nat × δ) :
    Next σ ρ → List Bool → Nat → δ → Next σ ρ × Nat × δ
  | .ret r, _, u, db => (.ret r, u, db)
  | .cont s, [], u, db => (.cont s, u, db)
  | .cont s, ok :: oks, u, db =>
      let r := step s ok u db
      runCalls step r.1 oks r.2.1 r.2.2

@[simp] theorem runCalls_ret {σ ρ δ : Type} (step : σ → Bool → Nat → δ → Next σ ρ × Nat × δ)
    (r : ρ) (oks : List Bool) (u : Nat) (db : δ) : runCalls step (.ret r) oks u db = (.ret r, u, db) := by
  cases oks <;> rfl

@[simp] theorem runCalls_nil {σ ρ δ : Type} (step : σ → Bool → Nat → δ → Next σ ρ × Nat × δ)
    (n : Next σ ρ) (u : Nat) (db : δ) : runCalls step n [] u db = (n, u, db) := by
  cases n <;> rfl

@[simp] theorem runCalls_cons {σ ρ δ : Type} (step : σ → Bool → Nat → δ → Next σ ρ × Nat × δ)
    (s : σ) (ok : Bool) (oks : List Bool) (u : Nat) (db : δ) :
    runCalls step (.cont s) (ok :: oks) u db =
      runCalls step (step s ok u db).1 oks (step s ok u db).2.1 (step s ok u db).2.2 := rfl

/-- A property of running points (`P`) and of return values (`Q`), each with the next UUID
and the database. -/
def Next.Sat {σ ρ δ : Type} (P : σ → Nat → δ → Prop) (Q : ρ → Nat → δ → Prop) :
    Next σ ρ × Nat × δ → Prop
  | (.cont s, u, db) => P s u db
  | (.ret r, u, db) => Q r u db

theorem Next.Sat.of_ret {σ ρ δ : Type} {P : σ → Nat → δ → Prop} {Q : ρ → Nat → δ → Prop}
    {n : Next σ ρ × Nat × δ} {r : ρ} {u : Nat} {db : δ} (h : Next.Sat P Q n)
    (hn : n = (.ret r, u, db)) : Q r u db := by
  subst hn; exact h

theorem Next.Sat.of_all {σ ρ δ : Type} {P : σ → Nat → δ → Prop} {Q : ρ → Nat → δ → Prop}
    {n : Next σ ρ × Nat × δ} (hP : ∀ s, P s n.2.1 n.2.2) (hQ : ∀ r, Q r n.2.1 n.2.2) :
    Next.Sat P Q n := by
  obtain ⟨_ | _, _, _⟩ := n
  exacts [hP _, hQ _]

/-- The run lemma: a property every call carries from running points to running points or
return values holds wherever a run stops. -/
theorem runCalls_sat {σ ρ δ : Type} {step : σ → Bool → Nat → δ → Next σ ρ × Nat × δ}
    {P : σ → Nat → δ → Prop} {Q : ρ → Nat → δ → Prop}
    (hstep : ∀ s ok u db, P s u db → Next.Sat P Q (step s ok u db)) :
    ∀ (oks : List Bool) (n : Next σ ρ) (u : Nat) (db : δ), Next.Sat P Q (n, u, db) →
      Next.Sat P Q (runCalls step n oks u db)
  | _, .ret r, u, db, h => by simpa using h
  | [], .cont s, u, db, h => by simpa using h
  | ok :: oks, .cont s, u, db, h => runCalls_sat hstep oks _ _ _ (hstep s ok u db h)

/-- Where a consumer execution stands: the gate check (with the handler it will start), the
handler at one of its program points, or the gate reservation after the handler returned
`nil`. -/
inductive Stage (σ : Type) where
  | isProcessed (first : σ)
  | handle (h : σ)
  | reserve
  deriving DecidableEq, Repr

/-- `IsProcessed` on the Redis gate. Its error is discarded (`processed, _ :=`), so a failed
call reads as "not processed". -/
def isProcessed (gate : List Nat) (ok : Bool) (eventId : Nat) : Bool :=
  ok && gate.contains eventId

/-- `Reserve` (`SETNX`) after a handler returned `nil`; its error is discarded. -/
def reserveKey (gate : List Nat) (ok : Bool) (eventId : Nat) : List Nat :=
  if ok then gate.insert eventId else gate

/-- The handler an execution runs, from its gate check until the handler returns. -/
def Stage.run? {σ : Type} : Stage σ → Option σ
  | .isProcessed h | .handle h => some h
  | .reserve => none

@[simp] theorem Stage.run?_isProcessed {σ : Type} (h : σ) : (Stage.isProcessed h).run? = some h := rfl
@[simp] theorem Stage.run?_handle {σ : Type} (h : σ) : (Stage.handle h).run? = some h := rfl
@[simp] theorem Stage.run?_reserve {σ : Type} : (Stage.reserve : Stage σ).run? = none := rfl

/-- One call of a consumer execution, the wrapper every service puts around its handlers
(`EventHandler.handle*` and the Inventory closure): an error of the handler is returned
at once, `nil` goes on to `Reserve`. -/
def Stage.step {σ δ : Type} (handle : σ → Bool → Nat → δ → Next σ HandlerResult × Nat × δ)
    (eventId : Nat) : Stage σ → Bool → Nat → List Nat → δ →
      Next (Stage σ) HandlerResult × Nat × List Nat × δ
  | .isProcessed h, ok, u, gate, db =>
      if Schema.isProcessed gate ok eventId then (.ret (.ok ()), u, gate, db)
      else (.cont (.handle h), u, gate, db)
  | .handle h, ok, u, gate, db =>
      let r := handle h ok u db
      match r.1 with
      | .cont h' => (.cont (.handle h'), r.2.1, gate, r.2.2)
      | .ret (.ok ()) => (.cont .reserve, r.2.1, gate, r.2.2)
      | .ret (.error e) => (.ret (.error e), r.2.1, gate, r.2.2)
  | .reserve, ok, u, gate, db => (.ret (.ok ()), u, reserveKey gate ok eventId, db)

/-- One call of a consumer execution does what one call of its handler does, and nothing to
the tables at the gate check or the reservation: the execution continues at the handler's
next point, at the reservation where the handler returned `nil`, or returns. -/
theorem Stage.step_sat {σ δ : Type} {handle : σ → Bool → Nat → δ → Next σ HandlerResult × Nat × δ}
    {eventId : Nat} {P : σ → Nat → δ → Prop} {Q : HandlerResult → Nat → δ → Prop}
    {st : Stage σ} {ok : Bool} {u : Nat} {gate : List Nat} {db : δ}
    (hstart : ∀ h, st = .isProcessed h → P h u db) (hidle : Q (.ok ()) u db)
    (hh : ∀ h, st = .handle h → Next.Sat P Q (handle h ok u db)) :
    Next.Sat (fun st' u' db' => match st' with
        | .handle h' => P h' u' db'
        | .reserve => Q (.ok ()) u' db'
        | .isProcessed _ => False) Q
      ((Stage.step handle eventId st ok u gate db).1, (Stage.step handle eventId st ok u gate db).2.1,
        (Stage.step handle eventId st ok u gate db).2.2.2) := by
  cases st with
  | isProcessed h =>
      simp only [Stage.step]
      split
      · exact hidle
      · exact hstart h rfl
  | handle h =>
      have := hh h rfl
      simp only [Stage.step]
      generalize handle h ok u db = r at this
      obtain ⟨_ | (_ | _), _, _⟩ := r <;> exact this
  | reserve => exact hidle

/-- One call of thread `j` of a pool: the thread moves on, or leaves the pool when its
handler returns. -/
def advance {τ : Type} (ts : List τ) (j : Nat) : Option τ → List τ
  | some t => ts.set j t
  | none => ts.eraseIdx j

/-- A thread of the pool after a call is the thread that moved or one of the others. -/
theorem mem_advance {τ : Type} {ts : List τ} {j : Nat} {t' : Option τ} {x : τ}
    (h : x ∈ advance ts j t') : x ∈ ts.eraseIdx j ∨ t' = some x := by
  cases t' with
  | none => exact .inl h
  | some t =>
      simp only [advance] at h
      simp only [Option.some.injEq]
      induction ts generalizing j with
      | nil => simp at h
      | cons a ts ih =>
          cases j with
          | zero =>
              rcases List.mem_cons.mp h with rfl | h
              · exact .inr rfl
              · exact .inl (by simpa using h)
          | succ j =>
              rcases List.mem_cons.mp h with rfl | h
              · exact .inl (by simp)
              · exact (ih h).imp_left fun h => by simp [h]

/-- Two threads at different places of a pool are related one way or the other. -/
theorem Pairwise.of_eraseIdx {τ : Type} {R : τ → τ → Prop} {ts : List τ} {j : Nat} {t o : τ}
    (h : ts.Pairwise R) (ht : ts[j]? = some t) (ho : o ∈ ts.eraseIdx j) : R t o ∨ R o t := by
  induction ts generalizing j with
  | nil => simp at ht
  | cons a ts ih =>
      rw [List.pairwise_cons] at h
      cases j with
      | zero =>
          obtain rfl : a = t := by simpa using ht
          exact .inl (h.1 o (by simpa using ho))
      | succ j =>
          simp only [List.eraseIdx_cons_succ, List.mem_cons] at ho
          simp only [List.getElem?_cons_succ] at ht
          rcases ho with rfl | ho
          · exact .inr (h.1 t (List.getElem?_mem ht))
          · exact ih h.2 ht ho

/-- A pool keeps a symmetric relation between its threads when the thread that moved is
related to every other one. -/
theorem pairwise_advance {τ : Type} {R : τ → τ → Prop} {ts : List τ} {j : Nat} {t' : Option τ}
    (h : ts.Pairwise R) (ht : ∀ t, t' = some t → ∀ o ∈ ts.eraseIdx j, R t o ∧ R o t) :
    (advance ts j t').Pairwise R := by
  cases t' with
  | none => exact h.sublist (List.eraseIdx_sublist ts j)
  | some t =>
      replace ht := ht t rfl
      induction ts generalizing j with
      | nil => simp [advance]
      | cons a ts ih =>
          rw [List.pairwise_cons] at h
          cases j with
          | zero =>
              simp only [advance, List.set_cons_zero, List.pairwise_cons]
              exact ⟨fun o ho => (ht o (by simpa using ho)).1, h.2⟩
          | succ j =>
              simp only [advance, List.set_cons_succ, List.pairwise_cons]
              refine ⟨fun o ho => ?_, ih h.2 fun o ho => ht o (by simp [ho])⟩
              rcases List.mem_or_eq_of_mem_set ho with ho | rfl
              · exact h.1 o ho
              · exact (ht a (by simp)).2

theorem mem_markSent {id : Nat} {rows : List OutboxRow} {r : OutboxRow}
    (h : r ∈ markSent id rows) : ∃ r₀ ∈ rows, r.payload = r₀.payload ∧ r.id = r₀.id ∧
      r.eventType = r₀.eventType := by
  obtain ⟨r₀, hr₀, rfl⟩ := List.mem_map.mp h
  exact ⟨r₀, hr₀, by split <;> simp⟩

/-! ## Transition systems -/

/-- The states an executable transition function reaches from `init`. -/
inductive Reach {σ α : Type} (step : σ → α → Option σ) (init : σ) : σ → Prop where
  | init : Reach step init init
  | step {s s' : σ} (a : α) : Reach step init s → step s a = some s' → Reach step init s'

/-- Take a list of actions, each of which must be enabled. -/
def runSteps {σ α : Type} (step : σ → α → Option σ) (s : σ) : List α → Option σ
  | [] => some s
  | a :: as => (step s a).bind fun s' => runSteps step s' as

theorem Reach.run {σ α : Type} {step : σ → α → Option σ} {init s s' : σ}
    (h : Reach step init s) : ∀ {as : List α}, runSteps step s as = some s' → Reach step init s'
  | [], hr => by cases hr; exact h
  | a :: as, hr => by
      simp only [runSteps, Option.bind_eq_some] at hr
      obtain ⟨s₁, h₁, h₂⟩ := hr
      exact (Reach.step a h h₁).run h₂

/-- A simulation: every step of one system is a step of the other on the projected states,
or leaves the projection where it was. -/
theorem Reach.map {σ α τ β : Type} {step : σ → α → Option σ} {step' : τ → β → Option τ}
    {init : σ} (f : σ → τ)
    (hstep : ∀ s a s', step s a = some s' → f s' = f s ∨ ∃ b, step' (f s) b = some (f s'))
    {s : σ} (h : Reach step init s) : Reach step' (f init) (f s) := by
  induction h with
  | init => exact .init
  | step a _ ha ih =>
      rcases hstep _ a _ ha with he | ⟨b, hb⟩
      · exact he ▸ ih
      · exact .step b ih hb

end MsaSaga.Schema
