import MsaSaga.FreshIds
import MsaSaga.Uniqueness

/-!
# Runs without failures, in causal order at the Order service

The runs in which no database call fails (the gateway may still decline), no process stops,
and the Order group handles one message at a time, an order's `StockReserved` only after its
`PaymentCompleted` and its `DeliveryStarted` only after its `StockReserved`. Messages may
still be published and delivered any number of times, to the other groups in any order and
with overlapping executions, and Redis keys may expire.

On such a run every handler that returns has acted on its message: the Payment service has
charged or declined the order, the Inventory service has reserved stock or reported the
failure, the Delivery service has started the delivery, and the Order service has moved the
order at least as far as the message takes it. This module states that for one call of each
handler; `MsaSaga.Progress` carries it through whole runs.
-/
namespace MsaSaga.Executions
open Events Schema

/-- The outbox holds an event of one of the types `ts` for order `o`. -/
def Announces (rows : List OutboxRow) (ts : List EventType) (o : Nat) : Prop :=
  ∃ x ∈ views rows, x.1 ∈ ts ∧ x.2.orderId = o

theorem Announces.mono {rows rows' : List OutboxRow} {ts : List EventType} {o : Nat}
    (h : Announces rows ts o) (hs : views rows ⊆ views rows') : Announces rows' ts o :=
  let ⟨x, hx, ht, ho⟩ := h
  ⟨x, hs hx, ht, ho⟩

theorem Announces.append {rows : List OutboxRow} {ts : List EventType} {o : Nat}
    (h : Announces rows ts o) (tx : List OutboxRow) : Announces (rows ++ tx) ts o :=
  h.mono (by simp)

theorem Announces.split {rows : List OutboxRow} {t : EventType} {ts : List EventType} {o : Nat}
    (h : Announces rows (t :: ts) o) : Announces rows [t] o ∨ Announces rows ts o := by
  obtain ⟨x, hx, ht, ho⟩ := h
  rcases List.mem_cons.mp ht with ht | ht
  exacts [.inl ⟨x, hx, List.mem_singleton.mpr ht, ho⟩, .inr ⟨x, hx, ht, ho⟩]

theorem Announces.of_oneRow {evt : Event} {t : EventType} {tx : List OutboxRow}
    (h : OneRow evt t tx) (out : List OutboxRow) {ts : List EventType} (ht : t ∈ ts) :
    Announces (out ++ tx) ts evt.orderId := by
  obtain ⟨r, rfl, rfl, ho, -⟩ := h
  exact ⟨(r.eventType, r.payload), by simp [views], ht, ho⟩

end MsaSaga.Executions

namespace MsaSaga.PaymentService
open Events Schema Executions

/-- The Payment service has answered order `o`: its outbox holds the order's
`PaymentCompleted` or `PaymentFailed`, or a payment of the order is stored. -/
def PaymentDb.Answered (db : PaymentDb) (o : Nat) : Prop :=
  Announces db.outbox [.paymentCompleted, .paymentFailed] o ∨ ∃ p ∈ db.payments, p.orderId = o

theorem create_eq_error {db : PaymentDb} {p : Payment} {e : Err} (h : create db p = .error e) :
    ∃ q ∈ db.payments, q.idempotencyKey = p.idempotencyKey := by
  unfold create at h
  split at h
  · rename_i hany
    simpa using hany
  · cases h

/-- An answer stays while the outbox grows and no order loses its payments. -/
theorem PaymentDb.Answered.mono {db db' : PaymentDb} {o : Nat} (h : db.Answered o)
    (ho : views db.outbox ⊆ views db'.outbox)
    (hp : ∀ p ∈ db.payments, ∃ p' ∈ db'.payments, p'.orderId = p.orderId) : db'.Answered o := by
  rcases h with h | ⟨p, hp₀, rfl⟩
  · exact .inl (h.mono ho)
  · exact .inr (hp p hp₀)

/-- A payment stored under the key of order `o` answers `o`. -/
theorem PaymentDb.answered_of_key {db : PaymentDb}
    (hkeys : ∀ p ∈ db.payments, p.idempotencyKey.orderId = p.orderId) {q : Payment}
    (hq : q ∈ db.payments) {o e : Nat} (hk : q.idempotencyKey = paymentKey o e) : db.Answered o :=
  .inr ⟨q, hq, by rw [← hkeys q hq, hk]; rfl⟩

/-- The message of an execution waiting at `Reserve`. -/
def PaymentConsumer.waits (c : PaymentConsumer) : Option Nat :=
  match c.stage with
  | .reserve => some c.src
  | _ => none

@[simp] theorem PaymentConsumer.waits_isSome (c : PaymentConsumer) :
    c.waits.isSome ↔ c.stage = .reserve := by
  unfold PaymentConsumer.waits; split <;> simp_all

theorem PaymentConsumer.waits_src {c : PaymentConsumer} {k : Nat} (h : k ∈ c.waits) :
    k = c.src := by
  unfold PaymentConsumer.waits at h; split at h <;> simp_all

/-- An execution of `HandleOrderCreated` about to ask the gateway. -/
def PaymentConsumer.atGateway (c : PaymentConsumer) : Bool :=
  match c.stage with
  | .handle (.orderCreated { pc := .processPayment, .. }) => true
  | _ => false

/-- One call of `HandleOrderCreated` whose database calls succeed: an execution that returns
has answered its order, and one that created the payment keeps on to the commit of the
`PaymentCompleted`, which it commits when it returns. -/
theorem handleOrderCreated_answers (evt : Event) (m : OrderCreatedRun) (ok : Bool) (u : Nat)
    (db : PaymentDb) (hm : m.Shape evt) (hok : ok = true ∨ m.pc = .processPayment)
    (hkeys : ∀ p ∈ db.payments, p.idempotencyKey.orderId = p.orderId) :
    Next.Sat (fun m' _ _ => m.emitting → m'.emitting)
      (fun _ _ db' => db'.Answered evt.orderId ∧
        (m.emitting → Announces db'.outbox [.paymentCompleted] evt.orderId))
      (handleOrderCreated evt m ok u db) := by
  obtain ⟨pc, tx⟩ := m
  cases pc <;> cases ok <;> simp only [handleOrderCreated] <;> (repeat' split) <;>
    simp_all [Next.Sat, OrderCreatedRun.emitting]
  case findByIdempotencyKey.true.isTrue h =>
    obtain ⟨q, hq⟩ := Option.isSome_iff_exists.mp h
    exact db.answered_of_key hkeys (List.mem_of_find?_eq_some hq) (by simpa using List.find?_some hq)
  case create.true.h_2 h =>
    obtain ⟨q, hq, hk⟩ := create_eq_error h
    exact db.answered_of_key hkeys hq hk
  case commitCompleted.true.isTrue =>
    exact ⟨.inl (Announces.of_oneRow hm _ (by simp)), Announces.of_oneRow hm _ (by simp)⟩
  case commitFailed.true.isTrue => exact .inl (Announces.of_oneRow hm _ (by simp))

/-- One call of a Payment consumer execution whose database calls succeed. It skips an event
whose key the gate holds, or returns from the reservation and adds its key; otherwise the gate
stays, and an execution that returns or reaches the reservation has answered the order of its
`OrderCreated`. An execution that created its payment keeps its token, or has committed the
order's `PaymentCompleted`; and no execution goes back to its gate check. -/
theorem PaymentConsumer.step_acts {c : PaymentConsumer} {ok : Bool} {u : Nat} {gate : List Nat}
    {db : PaymentDb} {c' : Option PaymentConsumer} {u' : Nat} {gate' : List Nat} {db' : PaymentDb}
    (hc : c.Shape) (hstart : ∀ h, c.stage = .isProcessed h → h.emitting = false)
    (hok : ok = true ∨ c.atGateway = true)
    (hkeys : ∀ p ∈ db.payments, p.idempotencyKey.orderId = p.orderId)
    (hr : c.step ok u gate db = (c', u', gate', db')) :
    ((c.event.eventId ∈ gate ∧ c' = none ∧ db' = db ∧ gate' = gate) ∨
      (c.stage = .reserve ∧ c' = none ∧ db' = db ∧ gate' = reserveKey gate ok c.event.eventId) ∨
      (gate' = gate ∧ ∃ h ∈ c.stage.run?, (c' = none ∨ ∃ x ∈ c', x.stage = .reserve) →
        h.topic = .orderCreated → db'.Answered c.event.orderId)) ∧
    (∀ o, c.token o = 1 → tokenOf c' o = 1 ∨ Announces db'.outbox [.paymentCompleted] o) ∧
    ∀ x ∈ c', ∀ h, x.stage ≠ .isProcessed h := by
  obtain ⟨src, evt, stage⟩ := c
  simp only [PaymentConsumer.step, Prod.mk.injEq] at hr
  obtain ⟨rfl, -, rfl, rfl⟩ := hr
  cases stage with
  | reserve => simp [Stage.step, PaymentConsumer.token]
  | isProcessed h =>
      have he := hstart h rfl
      simp only [Stage.step]
      split
      · rename_i hp
        simp only [Schema.isProcessed, Bool.and_eq_true, List.elem_iff] at hp
        simp [hp.2, PaymentConsumer.token, he]
      · simp [tokenOf, PaymentConsumer.token, he]
  | handle h =>
      cases h with
      | stockReservationFailed m =>
          simp only [Stage.step, PaymentRun.step]
          generalize handleStockReservationFailed evt m ok u db = r
          obtain ⟨m' | (_ | _), u₁, db₁⟩ := r <;>
            simp [PaymentRun.topic, PaymentConsumer.token, PaymentRun.emitting]
      | orderCreated m =>
          have hok' : ok = true ∨ m.pc = .processPayment := by
            refine hok.imp_right fun h => ?_
            obtain ⟨pc, tx⟩ := m
            cases pc <;> simp_all [PaymentConsumer.atGateway]
          have := handleOrderCreated_answers evt m ok u db (hc _ rfl) hok' hkeys
          simp only [Stage.step, PaymentRun.step]
          generalize handleOrderCreated evt m ok u db = r at this
          obtain ⟨m' | (_ | _), u₁, db₁⟩ := r <;>
            simp_all [Next.Sat, tokenOf, PaymentConsumer.token, PaymentRun.emitting, PaymentRun.topic]

end MsaSaga.PaymentService

namespace MsaSaga.InventoryService
open Events Schema Executions

/-- The message of an execution waiting at `Reserve`. -/
def InventoryConsumer.waits (c : InventoryConsumer) : Option Nat :=
  match c.stage with
  | .reserve => some c.src
  | _ => none

@[simp] theorem InventoryConsumer.waits_isSome (c : InventoryConsumer) :
    c.waits.isSome ↔ c.stage = .reserve := by
  unfold InventoryConsumer.waits; split <;> simp_all

theorem InventoryConsumer.waits_src {c : InventoryConsumer} {k : Nat} (h : k ∈ c.waits) :
    k = c.src := by
  unfold InventoryConsumer.waits at h; split at h <;> simp_all

/-- The next call of an execution is the reservation insert under a key longer than its
column, which the database rejects whatever else it answers. -/
def InventoryConsumer.oversized (c : InventoryConsumer) : Bool :=
  match c.stage with
  | .handle (.reserve { pc := .insertReservation, .. }) =>
      !decide (reservationKey c.event.orderId c.event.eventId).Fits
  | _ => false

/-- The Inventory service has answered order `o`: its outbox holds the order's
`StockReserved` or `StockReservationFailed`, or a reservation of the order is stored. -/
def InventoryDb.Answered (db : InventoryDb) (o : Nat) : Prop :=
  Announces db.outbox [.stockReserved, .stockReservationFailed] o ∨
    ∃ r ∈ db.reservations, r.orderId = o

/-- Every stored reservation comes with its order's `StockReserved` in the outbox. -/
def InventoryDb.Announced (db : InventoryDb) : Prop :=
  ∀ r ∈ db.reservations, Announces db.outbox [.stockReserved] r.orderId

theorem InventoryDb.answered_of_key {db : InventoryDb}
    (hkeys : ∀ r ∈ db.reservations, r.idempotencyKey.orderId = r.orderId) {q : StockReservation}
    (hq : q ∈ db.reservations) {o e : Nat} (hk : q.idempotencyKey = reservationKey o e) :
    db.Answered o :=
  .inr ⟨q, hq, by rw [← hkeys q hq, hk]; rfl⟩

theorem InventoryDb.mem_commit_reservations {db : InventoryDb} {tx : InvTx} {r : StockReservation}
    (hr : r ∈ (db.commit tx).reservations) :
    ∃ r₀ ∈ db.reservations ++ tx.reservations, r₀.orderId = r.orderId := by
  obtain ⟨r₀, h₀, rfl⟩ := List.mem_map.mp hr
  exact ⟨r₀, h₀, by simp⟩

/-- A commit keeps every answer. -/
theorem InventoryDb.Answered.commit {db : InventoryDb} {o : Nat} (h : db.Answered o)
    (tx : InvTx) : (db.commit tx).Answered o := by
  rcases h with h | ⟨r, hr, rfl⟩
  · exact .inl (h.append _)
  · exact .inr ⟨tx.commitReservation r, List.mem_map_of_mem _ (List.mem_append_left _ hr), by simp⟩

/-- A commit keeps every reservation announced when it adds none, or the one of an event
together with that event's `StockReserved`. -/
theorem InventoryDb.Announced.commit {db : InventoryDb} {tx : InvTx} (h : db.Announced)
    (ht : tx.reservations = [] ∨
      ∃ evt, OneRes evt tx.reservations ∧ OneRow evt .stockReserved tx.outbox) :
    (db.commit tx).Announced := by
  intro r hr
  obtain ⟨r₀, h₀, ho⟩ := InventoryDb.mem_commit_reservations hr
  rw [← ho]
  rcases List.mem_append.mp h₀ with h₀ | h₀
  · exact (h r₀ h₀).append _
  · rcases ht with ht | ⟨evt, ⟨r₁, hr₁, hro, -⟩, hrow⟩
    · simp [ht] at h₀
    · obtain rfl : r₀ = r₁ := by simpa [hr₁] using h₀
      exact hro ▸ Announces.of_oneRow hrow _ (by simp)

theorem InventoryDb.Answered.of_eq {db db' : InventoryDb} {o : Nat} (h : db.Answered o)
    (hr : db'.reservations = db.reservations) (ho : db'.outbox = db.outbox) : db'.Answered o := by
  rw [InventoryDb.Answered, hr, ho]
  exact h

theorem InventoryDb.Announced.of_eq {db db' : InventoryDb} (h : db.Announced)
    (hr : db'.reservations = db.reservations) (ho : db'.outbox = db.outbox) : db'.Announced := by
  rw [InventoryDb.Announced, hr, ho]
  exact h

theorem RestoreRun.Shape.reservations {evt : Event} {m : RestoreRun} (hm : m.Shape evt) :
    m.tx.reservations = [] := by
  unfold RestoreRun.Shape at hm
  split at hm <;> exact hm.2

/-- One call of `HandlePaymentCompleted` whose database call succeeds: an execution that
returns has answered its order, and a commit keeps every reservation announced. -/
theorem handlePaymentCompleted_answers (evt : Event) (m : ReserveRun) (u : Nat)
    (db : InventoryDb) (hm : m.Shape evt)
    (hkeys : ∀ r ∈ db.reservations, r.idempotencyKey.orderId = r.orderId)
    (hfit : m.pc = .insertReservation → (reservationKey evt.orderId evt.eventId).Fits) :
    Next.Sat (fun _ _ db' => db'.reservations = db.reservations ∧ db'.outbox = db.outbox)
      (fun _ _ db' => db'.Answered evt.orderId ∧ (db.Announced → db'.Announced))
      (handlePaymentCompleted evt m true u db) := by
  obtain ⟨pc, tx⟩ := m
  cases pc <;> simp only [handlePaymentCompleted] <;> (repeat' split) <;>
    simp_all [Next.Sat, ReserveRun.Shape]
  case mk.selectKey.isTrue h =>
    obtain ⟨q, hq⟩ := Option.isSome_iff_exists.mp h
    exact db.answered_of_key hkeys (List.mem_of_find?_eq_some hq)
      (by simpa using List.find?_some hq)
  case mk.insertReservation.isFalse h =>
    obtain ⟨q, hq, hk⟩ := h
    exact db.answered_of_key hkeys hq hk
  case mk.commit.isTrue =>
    exact ⟨.inl ((Announces.of_oneRow hm.1 _ (by simp))), fun h => h.commit (.inr ⟨evt, hm.2, hm.1⟩)⟩
  case mk.commitFailed.isTrue =>
    exact ⟨.inl ((Announces.of_oneRow hm.1 _ (by simp))), fun h => h.commit (.inl hm.2)⟩

/-- One call of an Inventory consumer execution whose database call succeeds. It skips an
event whose key the gate holds, or returns from the reservation and adds its key; otherwise
the gate stays, and an execution on a `PaymentCompleted` that returns or reaches the
reservation has answered its order. Every reservation stays announced. -/
theorem InventoryConsumer.step_acts {c : InventoryConsumer} {u : Nat} {gate : List Nat}
    {db : InventoryDb} {c' : Option InventoryConsumer} {u' : Nat} {gate' : List Nat}
    {db' : InventoryDb} (hc : c.Shape)
    (hkeys : ∀ r ∈ db.reservations, r.idempotencyKey.orderId = r.orderId)
    (hov : c.oversized = false) (hr : c.step true u gate db = (c', u', gate', db')) :
    ((c.event.eventId ∈ gate ∧ c' = none ∧ db' = db ∧ gate' = gate) ∨
      (c.stage = .reserve ∧ c' = none ∧ db' = db ∧ gate' = reserveKey gate true c.event.eventId) ∨
      (gate' = gate ∧ ∃ h ∈ c.stage.run?, (c' = none ∨ ∃ x ∈ c', x.stage = .reserve) →
        h.topic = .paymentCompleted → db'.Answered c.event.orderId)) ∧
    (db.Announced → db'.Announced) := by
  obtain ⟨src, evt, stage⟩ := c
  simp only [InventoryConsumer.step, Prod.mk.injEq] at hr
  obtain ⟨rfl, -, rfl, rfl⟩ := hr
  cases stage with
  | reserve => simp [Stage.step]
  | isProcessed h =>
      simp only [Stage.step]
      split
      · rename_i hp
        simp only [Schema.isProcessed, Bool.true_and, List.elem_iff] at hp
        simp [hp]
      · simp
  | handle h =>
      cases h with
      | restore m =>
          have := handlePaymentRefunded_sat evt m true u db hc
          simp only [Stage.step, InventoryRun.step]
          generalize handlePaymentRefunded evt m true u db = r at this
          obtain ⟨m' | (_ | _), u₁, db₁⟩ := r <;> simp_all [Next.Sat, InventoryRun.topic]
          · exact fun h => h.of_eq this.2.1 this.2.2.1
          all_goals
            rcases this with rfl | rfl
            exacts [id, fun h => h.commit (.inl (RestoreRun.Shape.reservations hc))]
      | reserve m =>
          have := handlePaymentCompleted_answers evt m u db hc hkeys fun hpc => by
            obtain ⟨pc, tx⟩ := m
            subst hpc
            simpa [InventoryConsumer.oversized] using hov
          simp only [Stage.step, InventoryRun.step]
          generalize handlePaymentCompleted evt m true u db = r at this
          obtain ⟨m' | (_ | _), u₁, db₁⟩ := r <;> simp_all [Next.Sat, InventoryRun.topic]
          exact fun h => h.of_eq this.1 this.2

end MsaSaga.InventoryService

namespace MsaSaga.DeliveryService
open Events Schema Executions

/-- The message of an execution waiting at `Reserve`. -/
def DeliveryConsumer.waits (c : DeliveryConsumer) : Option Nat :=
  match c.stage with
  | .reserve => some c.src
  | _ => none

@[simp] theorem DeliveryConsumer.waits_isSome (c : DeliveryConsumer) :
    c.waits.isSome ↔ c.stage = .reserve := by
  unfold DeliveryConsumer.waits; split <;> simp_all

theorem DeliveryConsumer.waits_src {c : DeliveryConsumer} {k : Nat} (h : k ∈ c.waits) :
    k = c.src := by
  unfold DeliveryConsumer.waits at h; split at h <;> simp_all

/-- The next call of an execution is the delivery insert under a key longer than its column. -/
def DeliveryConsumer.oversized (c : DeliveryConsumer) : Bool :=
  match c.stage with
  | .handle { pc := .insertDelivery, .. } =>
      !decide (deliveryKey c.event.orderId c.event.eventId).Fits
  | _ => false

/-- The Delivery service has answered order `o`: its outbox holds the order's
`DeliveryStarted`, or a delivery of the order is stored. -/
def DeliveryDb.Answered (db : DeliveryDb) (o : Nat) : Prop :=
  Announces db.outbox [.deliveryStarted] o ∨ ∃ d ∈ db.deliveries, d.orderId = o

/-- Every stored delivery comes with its order's `DeliveryStarted` in the outbox. -/
def DeliveryDb.Announced (db : DeliveryDb) : Prop :=
  ∀ d ∈ db.deliveries, Announces db.outbox [.deliveryStarted] d.orderId

theorem DeliveryDb.answered_of_key {db : DeliveryDb}
    (hkeys : ∀ d ∈ db.deliveries, d.idempotencyKey.orderId = d.orderId) {q : Delivery}
    (hq : q ∈ db.deliveries) {o e : Nat} (hk : q.idempotencyKey = deliveryKey o e) :
    db.Answered o :=
  .inr ⟨q, hq, by rw [← hkeys q hq, hk]; rfl⟩

theorem DeliveryDb.Answered.commit {db : DeliveryDb} {o : Nat} (h : db.Answered o)
    (tx : DeliveryTx) : (db.commit tx).Answered o := by
  rcases h with h | ⟨d, hd, rfl⟩
  · exact .inl (h.append _)
  · exact .inr ⟨d, List.mem_append_left _ hd, rfl⟩

theorem DeliveryDb.Announced.commit {db : DeliveryDb} {tx : DeliveryTx} (h : db.Announced)
    (ht : ∃ evt, OneDelivery evt tx.deliveries ∧ OneRow evt .deliveryStarted tx.outbox) :
    (db.commit tx).Announced := by
  obtain ⟨evt, ⟨d₁, hd₁, hdo, -⟩, hrow⟩ := ht
  intro d hd
  rcases List.mem_append.mp hd with hd | hd
  · exact (h d hd).append _
  · obtain rfl : d = d₁ := by simpa [hd₁] using hd
    exact hdo ▸ Announces.of_oneRow hrow _ (by simp)

theorem DeliveryDb.Answered.of_eq {db db' : DeliveryDb} {o : Nat} (h : db.Answered o)
    (hd : db'.deliveries = db.deliveries) (ho : db'.outbox = db.outbox) : db'.Answered o := by
  rw [DeliveryDb.Answered, hd, ho]
  exact h

theorem DeliveryDb.Announced.of_eq {db db' : DeliveryDb} (h : db.Announced)
    (hd : db'.deliveries = db.deliveries) (ho : db'.outbox = db.outbox) : db'.Announced := by
  rw [DeliveryDb.Announced, hd, ho]
  exact h

/-- One call of `HandleStockReserved` whose database call succeeds: an execution that returns
has answered its order, and its commit keeps every delivery announced. -/
theorem handleStockReserved_answers (evt : Event) (m : DeliveryRun) (u : Nat) (db : DeliveryDb)
    (hm : m.Shape evt) (hkeys : ∀ d ∈ db.deliveries, d.idempotencyKey.orderId = d.orderId)
    (hfit : m.pc = .insertDelivery → (deliveryKey evt.orderId evt.eventId).Fits) :
    Next.Sat (fun _ _ db' => db'.deliveries = db.deliveries ∧ db'.outbox = db.outbox)
      (fun _ _ db' => db'.Answered evt.orderId ∧ (db.Announced → db'.Announced))
      (handleStockReserved evt m true u db) := by
  obtain ⟨pc, tx⟩ := m
  cases pc <;> simp only [handleStockReserved] <;> (repeat' split) <;>
    simp_all [Next.Sat, DeliveryRun.Shape]
  case mk.selectKey.isTrue h =>
    obtain ⟨q, hq⟩ := Option.isSome_iff_exists.mp h
    exact db.answered_of_key hkeys (List.mem_of_find?_eq_some hq)
      (by simpa using List.find?_some hq)
  case mk.insertDelivery.isFalse h =>
    obtain ⟨q, hq, hk⟩ := h
    exact db.answered_of_key hkeys hq hk
  case mk.commit.isTrue =>
    exact ⟨.inl (Announces.of_oneRow hm.1 _ (by simp)), fun h => h.commit ⟨evt, hm.2, hm.1⟩⟩

/-- One call of a Delivery consumer execution whose database call succeeds, as for the
Inventory service. -/
theorem DeliveryConsumer.step_acts {c : DeliveryConsumer} {u : Nat} {gate : List Nat}
    {db : DeliveryDb} {c' : Option DeliveryConsumer} {u' : Nat} {gate' : List Nat}
    {db' : DeliveryDb} (hc : c.Shape)
    (hkeys : ∀ d ∈ db.deliveries, d.idempotencyKey.orderId = d.orderId)
    (hov : c.oversized = false) (hr : c.step true u gate db = (c', u', gate', db')) :
    ((c.event.eventId ∈ gate ∧ c' = none ∧ db' = db ∧ gate' = gate) ∨
      (c.stage = .reserve ∧ c' = none ∧ db' = db ∧ gate' = reserveKey gate true c.event.eventId) ∨
      (gate' = gate ∧ ((c' = none ∨ ∃ x ∈ c', x.stage = .reserve) →
        db'.Answered c.event.orderId))) ∧
    (db.Announced → db'.Announced) := by
  obtain ⟨src, evt, stage⟩ := c
  simp only [DeliveryConsumer.step, Prod.mk.injEq] at hr
  obtain ⟨rfl, -, rfl, rfl⟩ := hr
  cases stage with
  | reserve => simp [Stage.step]
  | isProcessed h =>
      simp only [Stage.step]
      split
      · rename_i hp
        simp only [Schema.isProcessed, Bool.true_and, List.elem_iff] at hp
        simp [hp]
      · simp
  | handle m =>
      have := handleStockReserved_answers evt m u db hc hkeys fun hpc => by
        obtain ⟨pc, tx⟩ := m
        subst hpc
        simpa [DeliveryConsumer.oversized] using hov
      simp only [Stage.step]
      generalize handleStockReserved evt m true u db = r at this
      obtain ⟨m' | (_ | _), u₁, db₁⟩ := r <;> simp_all [Next.Sat]
      exact fun h => h.of_eq this.1 this.2

end MsaSaga.DeliveryService

namespace MsaSaga.Schema

/-- How far the saga has taken an order: not yet paid, stock being reserved, delivery being
prepared, finished. -/
def OrderStatus.rank : OrderStatus → Nat
  | .pending | .paymentProcessing => 0
  | .stockReserving => 1
  | .deliveryPreparing => 2
  | .completed | .canceled | .failed => 3

end MsaSaga.Schema

namespace MsaSaga.OrderService
open Events Schema Executions

/-- The message of a consumer execution waiting at `Reserve`. -/
def OrderThread.waits : OrderThread → Option Nat
  | .consumer c => match c.stage with
    | .reserve => some c.src
    | _ => none
  | .createOrder _ => none

theorem OrderThread.waits_eq_some {t : OrderThread} {k : Nat} (h : k ∈ t.waits) :
    ∃ c, t = .consumer c ∧ c.stage = .reserve ∧ k = c.src := by
  unfold OrderThread.waits at h
  split at h
  · split at h <;> simp_all
  · simp at h

/-- The order a consumer execution works on; none for `CreateOrder`. -/
def OrderThread.orderId? : OrderThread → Option Nat
  | .createOrder _ => none
  | .consumer c => some c.event.orderId

/-- The rank an order has once the handler has run on it. -/
def OrderHandler.rank : OrderHandler → Nat
  | .paymentCompleted => 1
  | .stockReserved => 2
  | _ => 3

/-- The rank the handler needs to take an order to its own: `StockReserved` needs the
payment handled, `DeliveryStarted` the reservation. -/
def OrderHandler.cause : OrderHandler → Nat
  | .stockReserved => 1
  | .deliveryStarted => 2
  | _ => 0

/-- A handler's update takes an order to the handler's rank, never back, and never to
`PAYMENT_PROCESSING`. -/
theorem OrderHandler.transition_rank (h : OrderHandler) {x y : OrderStatus}
    (hy : h.transition x = some y) :
    x.rank ≤ y.rank ∧ h.rank ≤ y.rank ∧ y ≠ .paymentProcessing := by
  cases h <;> cases x <;> cases hy <;> decide

/-- A guarded handler that writes nothing found the order at its own rank, when the order
had the handler's cause. -/
theorem OrderHandler.rank_of_transition_none (h : OrderHandler) {x : OrderStatus}
    (hx : x ≠ .paymentProcessing) (hc : h.cause ≤ x.rank) (hn : h.transition x = none) :
    h.rank ≤ x.rank := by
  cases h <;> cases x <;> cases hn <;> revert hx hc <;> decide

/-- The rank of order `o` as `FindByID` reads it; 0 when there is no such row. -/
def OrderDb.rank (db : OrderDb) (o : Nat) : Nat :=
  ((findByID db o).map (·.status.rank)).getD 0

@[simp] theorem setStatus_id (id : Nat) (status : OrderStatus) (v : Nat) (o : Order) :
    (setStatus id status v o).id = o.id := by
  unfold setStatus; split <;> rfl

theorem findByID_updateStatus (db : OrderDb) (id : Nat) (status : OrderStatus) (v i : Nat) :
    findByID (updateStatusWithVersion db id status v).2 i =
      (findByID db i).map (setStatus id status v) := by
  simp only [findByID, updateStatusWithVersion, List.find?_map]
  congr 2
  funext o
  simp

theorem findByID_id {db : OrderDb} {i : Nat} {o : Order} (h : findByID db i = some o) :
    o.id = i := by
  simpa using List.find?_some h

theorem findByID_append {db db' : OrderDb} {qs : List Order} (h : db'.orders = db.orders ++ qs)
    {i : Nat} {o : Order} (hf : findByID db i = some o) : findByID db' i = some o := by
  simp only [findByID, h, List.find?_append] at hf ⊢
  rw [hf]
  rfl

/-- Adding orders moves no order back. -/
theorem OrderDb.rank_append {db db' : OrderDb} {qs : List Order}
    (h : db'.orders = db.orders ++ qs) (i : Nat) : db.rank i ≤ db'.rank i := by
  unfold OrderDb.rank
  cases hf : findByID db i with
  | none => simp
  | some o => simp [findByID_append h hf]

/-- `db'` is `db` with at most the status and version of order `o` moved on: the ids, the
outbox and the sequence stay, no order goes back, and no order becomes `PAYMENT_PROCESSING`. -/
structure OrderDb.Moves (db db' : OrderDb) (o : Nat) : Prop where
  outbox : db'.outbox = db.outbox
  nextOrderId : db'.nextOrderId = db.nextOrderId
  ids : db'.orders.map (·.id) = db.orders.map (·.id)
  rank : ∀ i, db.rank i ≤ db'.rank i
  others : ∀ i ≠ o, findByID db' i = findByID db i
  statuses : (∀ q ∈ db.orders, q.status ≠ .paymentProcessing) →
    ∀ q ∈ db'.orders, q.status ≠ .paymentProcessing

theorem OrderDb.Moves.refl (db : OrderDb) (o : Nat) : db.Moves db o :=
  ⟨rfl, rfl, rfl, fun _ => le_rfl, fun _ _ => rfl, fun h => h⟩

/-- The update of a handler on the row `FindByID` read moves only that order. -/
theorem OrderDb.Moves.update {db : OrderDb} {h : OrderHandler} {o : Order} {y : OrderStatus}
    (hf : findByID db o.id = some o) (hy : h.transition o.status = some y) :
    db.Moves (updateStatusWithVersion db o.id y o.version).2 o.id := by
  have hdb : ∀ i, findByID (updateStatusWithVersion db o.id y o.version).2 i =
      if i = o.id then some { o with status := y, version := o.version + 1 }
      else findByID db i := by
    intro i
    rw [findByID_updateStatus]
    split
    · subst_vars
      simp [hf, setStatus]
    · rename_i hne
      cases hi : findByID db i with
      | none => rfl
      | some q => simp [setStatus, findByID_id hi, hne]
  obtain ⟨hle, -, hpp⟩ := h.transition_rank hy
  refine ⟨rfl, rfl, by simp [updateStatusWithVersion, Function.comp_def], fun i => ?_,
    fun i hi => by rw [hdb, if_neg hi], fun hs q hq => ?_⟩
  · rw [OrderDb.rank, OrderDb.rank, hdb]
    split
    · subst_vars
      simpa [hf] using hle
    · exact le_rfl
  · obtain ⟨q₀, h₀, rfl⟩ := List.mem_map.mp hq
    unfold setStatus
    split
    · exact hpp
    · exact hs q₀ h₀

/-- One call of `CreateOrder` whose database call succeeds: an execution keeps the order it
holds until it commits that order's `OrderCreated`, and the only order it adds is a `PENDING`
one under the next id, which it holds from then on. -/
theorem CreateOrderThread.step_orderly (t : CreateOrderThread) (u : Nat) (db : OrderDb)
    (ht : t.Shape) :
    Next.Sat
      (fun t' _ db' => (db'.orders = db.orders ∧ t'.held = t.held) ∨
        (t.held = none ∧ ∃ q, db'.orders = db.orders ++ [q] ∧ q.id = db.nextOrderId ∧
          q.status = .pending ∧ t'.held = some q.id))
      (fun _ _ db' => db'.orders = db.orders ∧ ∀ i ∈ t.held, Announces db'.outbox [.orderCreated] i)
      (t.step true u db) := by
  obtain ⟨cmd, pc, tx⟩ := t
  cases pc <;> simp only [CreateOrderThread.step, validate] <;> (repeat' split) <;>
    simp_all [Next.Sat, CreateOrderThread.held]
  case mk.create.h_1 h =>
    obtain ⟨-, rfl, rfl⟩ := create_eq_ok h
    exact ⟨_, rfl, rfl, rfl, rfl⟩
  case mk.commit.isTrue o =>
    obtain ⟨r, rfl, hr, ho⟩ := ht
    exact ⟨(r.eventType, r.payload), by simp [views], by simp [hr], ho⟩

/-- An update an execution is about to make reads the row `FindByID` reads now. -/
def OrderConsumer.Current (c : OrderConsumer) (db : OrderDb) : Prop :=
  ∀ o y, c.stage.run? = some (.update o y) →
    findByID db o.id = some o ∧ o.id = c.event.orderId ∧ c.handler.transition o.status = some y

/-- One call of an Order handler whose database call succeeds, on an order that exists, has
the handler's cause and is not `PAYMENT_PROCESSING`: it reads the row and returns with the
order at the handler's rank, or goes on to update the row it read, which takes the order
there. -/
theorem OrderHandler.step_acts (h : OrderHandler) (evt : Event) (pc : OrderEventPc) (u : Nat)
    (db : OrderDb) (hfound : (findByID db evt.orderId).isSome)
    (hcause : h.cause ≤ db.rank evt.orderId)
    (hpp : ∀ q ∈ db.orders, q.status ≠ .paymentProcessing)
    (hcur : ∀ o y, pc = .update o y →
      findByID db o.id = some o ∧ o.id = evt.orderId ∧ h.transition o.status = some y) :
    Next.Sat (fun pc' _ db' => db' = db ∧ ∀ o y, pc' = .update o y →
        findByID db o.id = some o ∧ o.id = evt.orderId ∧ h.transition o.status = some y)
      (fun r _ db' => r = .ok () ∧ h.rank ≤ db'.rank evt.orderId ∧ db.Moves db' evt.orderId)
      (h.step evt pc true u db) := by
  cases pc with
  | findByID =>
      obtain ⟨q, hq⟩ := Option.isSome_iff_exists.mp hfound
      have hid := findByID_id hq
      simp only [OrderHandler.step, if_true, hq]
      cases ht : h.transition q.status with
      | some y => exact ⟨rfl, fun o y' he => by cases he; exact ⟨by rw [hid]; exact hq, hid, ht⟩⟩
      | none =>
          have hr : db.rank evt.orderId = q.status.rank := by simp [OrderDb.rank, hq]
          exact ⟨rfl, hr ▸ h.rank_of_transition_none (hpp q (List.mem_of_find?_eq_some hq))
            (hr ▸ hcause) ht, OrderDb.Moves.refl db _⟩
  | update o y =>
      obtain ⟨hf, hid, hy⟩ := hcur o y rfl
      refine ⟨rfl, ?_, hid ▸ OrderDb.Moves.update hf hy⟩
      rw [OrderDb.rank, findByID_updateStatus, ← hid, hf]
      simpa [setStatus] using (h.transition_rank hy).2.1

/-- One call of an Order consumer execution whose database call succeeds, under the same
conditions: it skips, or returns from the reservation, as every consumer does; otherwise the
gate stays, an execution that returns or reaches the reservation has taken its order to the
handler's rank, and an update it is about to make stays current. -/
theorem OrderConsumer.step_acts {c : OrderConsumer} {u : Nat} {gate : List Nat} {db : OrderDb}
    {t' : Option OrderThread} {u' : Nat} {gate' : List Nat} {db' : OrderDb}
    (hfound : (findByID db c.event.orderId).isSome)
    (hcause : c.handler.cause ≤ db.rank c.event.orderId)
    (hpp : ∀ q ∈ db.orders, q.status ≠ .paymentProcessing) (hcur : c.Current db)
    (hr : OrderThread.step (.consumer c) true u gate db = (t', u', gate', db')) :
    ((c.event.eventId ∈ gate ∧ t' = none ∧ db' = db ∧ gate' = gate) ∨
      (c.stage = .reserve ∧ t' = none ∧ db' = db ∧ gate' = reserveKey gate true c.event.eventId) ∨
      (gate' = gate ∧ ((t' = none ∨ ∃ c', t' = some (.consumer c') ∧ c'.stage = .reserve) →
        c.handler.rank ≤ db'.rank c.event.orderId))) ∧
    db.Moves db' c.event.orderId ∧
    ∀ x ∈ t', ∃ c', x = .consumer c' ∧ c'.src = c.src ∧ c'.event = c.event ∧
      c'.handler = c.handler ∧ c'.Current db' := by
  obtain ⟨src, evt, handler, stage⟩ := c
  simp only [OrderThread.step, Prod.mk.injEq] at hr
  obtain ⟨rfl, -, rfl, rfl⟩ := hr
  cases stage with
  | reserve => simp [Stage.step, OrderDb.Moves.refl]
  | isProcessed pc =>
      simp only [Stage.step]
      split
      · rename_i hp
        simp only [Schema.isProcessed, Bool.true_and, List.elem_iff] at hp
        simp [hp, OrderDb.Moves.refl]
      · simpa [OrderDb.Moves.refl, OrderConsumer.Current] using hcur
  | handle pc =>
      have := handler.step_acts evt pc u db hfound hcause hpp (fun o y he => hcur o y (by simp [he]))
      simp only [Stage.step]
      generalize handler.step evt pc true u db = r at this
      obtain ⟨pc' | (_ | _), u₁, db₁⟩ := r <;>
        simp_all [Next.Sat, OrderConsumer.Current, OrderDb.Moves.refl]
      intro o y h
      obtain ⟨h₁, h₂, -⟩ := this.2 o y h
      rwa [← h₂]

end MsaSaga.OrderService
