import MsaSaga.Lineage

/-!
# Outbox ids and event ids are fresh

Each service's outbox rows take their ids from the table's `BIGSERIAL` sequence at insert
time, and every event id is a new `uuid.New()`. So two rows of one service with the same id,
and two rows anywhere with the same event id, are one event: `MarkSent` of an id marks only
the row the relay has just published, and an event id names one event wherever it is seen.
The proof follows one call of each handler: its transaction keeps its rows, hands them to the
outbox at the commit, or drops them, and gains at most one row, with the next id of the
sequence and a fresh event id.
-/
namespace MsaSaga.Executions
open Events Schema

/-- What one call does to the rows of a service: the outbox stays, or takes the transaction's
rows, which then leave the transaction; and the transaction keeps its rows, loses them, or
gains one pending row with the id `n` the sequence hands out and an event id drawn after `u`. -/
def RowStep (out tx out' tx' : List OutboxRow) (n n' u u' : Nat) : Prop :=
  n ≤ n' ∧ u ≤ u' ∧ (out' = out ∨ out' = out ++ tx ∧ tx' = []) ∧
    (tx' = tx ∨ tx' = [] ∨ ∃ r, tx' = tx ++ [r] ∧ r.id = n ∧ n < n' ∧
      u ≤ r.payload.eventId ∧ r.payload.eventId < u' ∧ r.status = .pending)

theorem RowStep.refl (out tx : List OutboxRow) (n u : Nat) : RowStep out tx out tx n n u u :=
  ⟨le_rfl, le_rfl, .inl rfl, .inl rfl⟩

/-- A call that returns without touching the tables. -/
theorem RowStep.drop (out tx : List OutboxRow) (n : Nat) {u u' : Nat} (hu : u ≤ u') :
    RowStep out tx out [] n n u u' :=
  ⟨le_rfl, hu, .inl rfl, .inr (.inl rfl)⟩

/-- The call that commits the transaction. -/
theorem RowStep.commit (out tx : List OutboxRow) (n u : Nat) :
    RowStep out tx (out ++ tx) [] n n u u :=
  ⟨le_rfl, le_rfl, .inr ⟨rfl, rfl⟩, .inr (.inl rfl)⟩

end MsaSaga.Executions

namespace MsaSaga.OrderService
open Events Schema Executions

theorem CreateOrderThread.step_rows (t : CreateOrderThread) (ok : Bool) (u : Nat) (db : OrderDb) :
    Next.Sat (fun t' u' db' => RowStep db.outbox t.tx db'.outbox t'.tx db.nextOutboxId
        db'.nextOutboxId u u')
      (fun _ u' db' => RowStep db.outbox t.tx db'.outbox [] db.nextOutboxId db'.nextOutboxId u u')
      (t.step ok u db) := by
  obtain ⟨cmd, pc, tx⟩ := t
  cases pc <;> cases ok <;> simp only [CreateOrderThread.step, validate] <;> (repeat' split) <;>
    simp_all [Next.Sat, RowStep, orderCreatedEvent]
  case create.true.h_1 h => rw [(create_eq_ok h).2.2]; simp

/-- An Order event handler writes only the orders table. -/
theorem OrderHandler.step_frame (h : OrderHandler) (evt : Event) (pc : OrderEventPc) (ok : Bool)
    (u : Nat) (db : OrderDb) :
    (h.step evt pc ok u db).2.1 = u ∧ (h.step evt pc ok u db).2.2.outbox = db.outbox ∧
      (h.step evt pc ok u db).2.2.nextOutboxId = db.nextOutboxId := by
  unfold OrderHandler.step
  split <;> (repeat' split) <;> simp [updateStatusWithVersion]

theorem OrderThread.step_rows (t : OrderThread) (ok : Bool) (u : Nat) (gate : List Nat)
    (db : OrderDb) :
    RowStep db.outbox t.tx (t.step ok u gate db).2.2.2.outbox
      (((t.step ok u gate db).1.map OrderThread.tx).getD []) db.nextOutboxId
      (t.step ok u gate db).2.2.2.nextOutboxId u (t.step ok u gate db).2.1 := by
  cases t with
  | createOrder t =>
      have := t.step_rows ok u db
      simp only [OrderThread.step]
      generalize t.step ok u db = r at this
      obtain ⟨_ | _, _, _⟩ := r <;> simpa [Next.Sat, OrderThread.tx] using this
  | consumer c =>
      obtain ⟨src, evt, h, st⟩ := c
      cases st with
      | handle pc =>
          obtain ⟨hu, ho, hn⟩ := h.step_frame evt pc ok u db
          simp only [OrderThread.step, Stage.step]
          generalize h.step evt pc ok u db = r at hu ho hn
          obtain ⟨(_ | (_ | _)), _, _⟩ := r <;> simp_all [OrderThread.tx, RowStep]
      | _ => simp only [OrderThread.step, Stage.step]; (repeat' split) <;> simp [OrderThread.tx, RowStep]

end MsaSaga.OrderService

namespace MsaSaga.PaymentService
open Events Schema Executions

theorem handleOrderCreated_rows (evt : Event) (m : OrderCreatedRun) (ok : Bool) (u : Nat)
    (db : PaymentDb) :
    Next.Sat (fun m' u' db' => RowStep db.outbox m.tx db'.outbox m'.tx db.nextOutboxId
        db'.nextOutboxId u u')
      (fun _ u' db' => RowStep db.outbox m.tx db'.outbox [] db.nextOutboxId db'.nextOutboxId u u')
      (handleOrderCreated evt m ok u db) := by
  obtain ⟨pc, tx⟩ := m
  cases pc <;> cases ok <;> simp only [handleOrderCreated] <;> (repeat' split) <;>
    simp_all [Next.Sat, RowStep, PaymentDb.outboxRow]
  case create.true.h_1 h => rw [(create_eq_ok h).2.2]; simp

theorem handleStockReservationFailed_rows (evt : Event) (m : RefundRun) (ok : Bool) (u : Nat)
    (db : PaymentDb) :
    Next.Sat (fun m' u' db' => RowStep db.outbox m.tx db'.outbox m'.tx db.nextOutboxId
        db'.nextOutboxId u u')
      (fun _ u' db' => RowStep db.outbox m.tx db'.outbox [] db.nextOutboxId db'.nextOutboxId u u')
      (handleStockReservationFailed evt m ok u db) := by
  obtain ⟨pc, tx⟩ := m
  cases pc <;> cases ok <;> simp only [handleStockReservationFailed] <;> (repeat' split) <;>
    simp_all [Next.Sat, RowStep, PaymentDb.outboxRow, updateStatus]

theorem PaymentRun.step_rows (evt : Event) (h : PaymentRun) (ok : Bool) (u : Nat) (db : PaymentDb) :
    Next.Sat (fun h' u' db' => RowStep db.outbox h.tx db'.outbox h'.tx db.nextOutboxId
        db'.nextOutboxId u u')
      (fun _ u' db' => RowStep db.outbox h.tx db'.outbox [] db.nextOutboxId db'.nextOutboxId u u')
      (h.step evt ok u db) := by
  cases h with
  | orderCreated m =>
      have := handleOrderCreated_rows evt m ok u db
      simp only [PaymentRun.step]
      generalize handleOrderCreated evt m ok u db = r at this
      obtain ⟨_ | _, _, _⟩ := r <;> simpa [Next.Sat, PaymentRun.tx] using this
  | stockReservationFailed m =>
      have := handleStockReservationFailed_rows evt m ok u db
      simp only [PaymentRun.step]
      generalize handleStockReservationFailed evt m ok u db = r at this
      obtain ⟨_ | _, _, _⟩ := r <;> simpa [Next.Sat, PaymentRun.tx] using this

theorem PaymentConsumer.step_rows (c : PaymentConsumer) (ok : Bool) (u : Nat) (gate : List Nat)
    (db : PaymentDb) :
    RowStep db.outbox c.tx (c.step ok u gate db).2.2.2.outbox
      (((c.step ok u gate db).1.map PaymentConsumer.tx).getD []) db.nextOutboxId
      (c.step ok u gate db).2.2.2.nextOutboxId u (c.step ok u gate db).2.1 := by
  obtain ⟨src, evt, stage⟩ := c
  cases hrun : stage.run? with
  | none =>
      obtain rfl : stage = .reserve := by cases stage <;> simp_all [Stage.run?]
      simp [PaymentConsumer.step, Stage.step, PaymentConsumer.tx, RowStep]
  | some h =>
      have htx : PaymentConsumer.tx ⟨src, evt, stage⟩ = h.tx := by simp [PaymentConsumer.tx, hrun]
      have := @Stage.step_sat _ _ (PaymentRun.step evt) evt.eventId
        (fun h' u' db' => RowStep db.outbox h.tx db'.outbox h'.tx db.nextOutboxId db'.nextOutboxId u u')
        (fun _ u' db' => RowStep db.outbox h.tx db'.outbox [] db.nextOutboxId db'.nextOutboxId u u')
        stage ok u gate db
        (fun h' e => by
          obtain rfl : h' = h := by simpa [e, Stage.run?] using hrun
          exact RowStep.refl ..)
        (RowStep.drop _ _ _ le_rfl)
        (fun h' e => by
          obtain rfl : h' = h := by simpa [e, Stage.run?] using hrun
          exact PaymentRun.step_rows evt h' ok u db)
      rw [htx]
      simp only [PaymentConsumer.step]
      generalize Stage.step (PaymentRun.step evt) evt.eventId stage ok u gate db = r at this ⊢
      obtain ⟨(h' | h' | _) | e, u₁, gate₁, db₁⟩ := r <;>
        simp_all [Next.Sat, PaymentConsumer.tx]

end MsaSaga.PaymentService

namespace MsaSaga.InventoryService
open Events Schema Executions

theorem handlePaymentCompleted_rows (evt : Event) (m : ReserveRun) (ok : Bool) (u : Nat)
    (db : InventoryDb) :
    Next.Sat (fun m' u' db' => RowStep db.outbox m.tx.outbox db'.outbox m'.tx.outbox
        db.nextOutboxId db'.nextOutboxId u u')
      (fun _ u' db' => RowStep db.outbox m.tx.outbox db'.outbox [] db.nextOutboxId
        db'.nextOutboxId u u')
      (handlePaymentCompleted evt m ok u db) := by
  obtain ⟨pc, tx⟩ := m
  cases pc <;> cases ok <;> simp only [handlePaymentCompleted] <;> (repeat' split) <;>
    simp_all [Next.Sat, RowStep, InventoryDb.outboxRow, InventoryDb.commit]

theorem handlePaymentRefunded_rows (evt : Event) (m : RestoreRun) (ok : Bool) (u : Nat)
    (db : InventoryDb) :
    Next.Sat (fun m' u' db' => RowStep db.outbox m.tx.outbox db'.outbox m'.tx.outbox
        db.nextOutboxId db'.nextOutboxId u u')
      (fun _ u' db' => RowStep db.outbox m.tx.outbox db'.outbox [] db.nextOutboxId
        db'.nextOutboxId u u')
      (handlePaymentRefunded evt m ok u db) := by
  obtain ⟨pc, tx⟩ := m
  cases pc <;> cases ok <;> simp only [handlePaymentRefunded] <;> (repeat' split) <;>
    simp_all [Next.Sat, RowStep, InventoryDb.outboxRow, InventoryDb.commit]

theorem InventoryRun.step_rows (evt : Event) (h : InventoryRun) (ok : Bool) (u : Nat)
    (db : InventoryDb) :
    Next.Sat (fun h' u' db' => RowStep db.outbox h.tx.outbox db'.outbox h'.tx.outbox
        db.nextOutboxId db'.nextOutboxId u u')
      (fun _ u' db' => RowStep db.outbox h.tx.outbox db'.outbox [] db.nextOutboxId
        db'.nextOutboxId u u')
      (h.step evt ok u db) := by
  cases h with
  | reserve m =>
      have := handlePaymentCompleted_rows evt m ok u db
      simp only [InventoryRun.step]
      generalize handlePaymentCompleted evt m ok u db = r at this
      obtain ⟨_ | _, _, _⟩ := r <;> simpa [Next.Sat, InventoryRun.tx] using this
  | restore m =>
      have := handlePaymentRefunded_rows evt m ok u db
      simp only [InventoryRun.step]
      generalize handlePaymentRefunded evt m ok u db = r at this
      obtain ⟨_ | _, _, _⟩ := r <;> simpa [Next.Sat, InventoryRun.tx] using this

theorem InventoryConsumer.step_rows (c : InventoryConsumer) (ok : Bool) (u : Nat)
    (gate : List Nat) (db : InventoryDb) (hc : c.Shape) :
    RowStep db.outbox c.tx.outbox (c.step ok u gate db).2.2.2.outbox
      (((c.step ok u gate db).1.map (·.tx.outbox)).getD []) db.nextOutboxId
      (c.step ok u gate db).2.2.2.nextOutboxId u (c.step ok u gate db).2.1 := by
  obtain ⟨src, evt, stage⟩ := c
  cases stage with
  | reserve => simp [InventoryConsumer.step, Stage.step, InventoryConsumer.tx, RowStep]
  | isProcessed h =>
      obtain ⟨htx, -⟩ := hc
      simp only [InventoryConsumer.step, Stage.step]
      split <;> simp [InventoryConsumer.tx, RowStep, htx]
  | handle h =>
      have := h.step_rows evt ok u db
      simp only [InventoryConsumer.step, Stage.step]
      generalize h.step evt ok u db = r at this
      obtain ⟨h' | (e | _), u₁, db₁⟩ := r <;> simp_all [Next.Sat, InventoryConsumer.tx]

end MsaSaga.InventoryService

namespace MsaSaga.DeliveryService
open Events Schema Executions

theorem handleStockReserved_rows (evt : Event) (m : DeliveryRun) (ok : Bool) (u : Nat)
    (db : DeliveryDb) :
    Next.Sat (fun m' u' db' => RowStep db.outbox m.tx.outbox db'.outbox m'.tx.outbox
        db.nextOutboxId db'.nextOutboxId u u')
      (fun _ u' db' => RowStep db.outbox m.tx.outbox db'.outbox [] db.nextOutboxId
        db'.nextOutboxId u u')
      (handleStockReserved evt m ok u db) := by
  obtain ⟨pc, tx⟩ := m
  cases pc <;> cases ok <;> simp only [handleStockReserved] <;> (repeat' split) <;>
    simp_all [Next.Sat, RowStep, DeliveryDb.commit]

theorem DeliveryConsumer.step_rows (c : DeliveryConsumer) (ok : Bool) (u : Nat)
    (gate : List Nat) (db : DeliveryDb) (hc : c.Shape) :
    RowStep db.outbox c.tx.outbox (c.step ok u gate db).2.2.2.outbox
      (((c.step ok u gate db).1.map (·.tx.outbox)).getD []) db.nextOutboxId
      (c.step ok u gate db).2.2.2.nextOutboxId u (c.step ok u gate db).2.1 := by
  obtain ⟨src, evt, stage⟩ := c
  cases stage with
  | reserve => simp [DeliveryConsumer.step, Stage.step, DeliveryConsumer.tx, RowStep]
  | isProcessed m =>
      obtain ⟨htx, -⟩ := hc
      simp only [DeliveryConsumer.step, Stage.step]
      split <;> simp [DeliveryConsumer.tx, RowStep, htx]
  | handle m =>
      have := handleStockReserved_rows evt m ok u db
      simp only [DeliveryConsumer.step, Stage.step]
      generalize handleStockReserved evt m ok u db = r at this
      obtain ⟨m' | (e | _), u₁, db₁⟩ := r <;> simp_all [Next.Sat, DeliveryConsumer.tx]

end MsaSaga.DeliveryService

namespace MsaSaga.System
open Events Schema Executions OrderService PaymentService InventoryService DeliveryService

/-- The outbox rows of the open transactions of a service. -/
def Sys.txRows (s : Sys) : Service → List OutboxRow
  | .order => s.order.threads.flatMap OrderThread.tx
  | .payment => s.payment.threads.flatMap PaymentConsumer.tx
  | .inventory => s.inventory.threads.flatMap (·.tx.outbox)
  | .delivery => s.delivery.threads.flatMap (·.tx.outbox)

/-- Every row a service has written: its outbox and its open transactions. -/
def Sys.rows (s : Sys) (svc : Service) : List OutboxRow := s.outbox svc ++ s.txRows svc

/-- The next value of a service's outbox sequence. -/
def Sys.nextOutboxId (s : Sys) : Service → Nat
  | .order => s.order.db.nextOutboxId
  | .payment => s.payment.db.nextOutboxId
  | .inventory => s.inventory.db.nextOutboxId
  | .delivery => s.delivery.db.nextOutboxId

/-- The rows of every service. -/
def Sys.allRows (s : Sys) : List OutboxRow := Service.all.flatMap s.rows

theorem Sys.mem_allRows {s : Sys} {r : OutboxRow} : r ∈ s.allRows ↔ ∃ svc, r ∈ s.rows svc := by
  simp only [Sys.allRows, List.mem_flatMap]
  exact ⟨fun ⟨svc, _, h⟩ => ⟨svc, h⟩, fun ⟨svc, h⟩ => ⟨svc, by cases svc <;> simp [Service.all], h⟩⟩

/-- Every key is below `bound`, and rows with one key are one event. -/
def Fresh (key : OutboxRow → Nat) (bound : Nat) (rows : List OutboxRow) : Prop :=
  (∀ r ∈ rows, key r < bound) ∧ ∀ r₁ ∈ rows, ∀ r₂ ∈ rows, key r₁ = key r₂ →
    (r₁.eventType, r₁.payload) = (r₂.eventType, r₂.payload)

/-- Rows that keep the key and the event of a row they come from, and at most one new row
whose key is drawn from `[b, b')`, keep keys fresh. -/
theorem Fresh.grow {key : OutboxRow → Nat} {b b' : Nat} {rows rows' : List OutboxRow}
    {n : Option OutboxRow} (h : Fresh key b rows) (hb : b ≤ b')
    (hsub : ∀ r ∈ rows', (∃ r₀ ∈ rows, key r = key r₀ ∧
      (r.eventType, r.payload) = (r₀.eventType, r₀.payload)) ∨ n = some r)
    (hnew : ∀ r ∈ n, b ≤ key r ∧ key r < b') : Fresh key b' rows' := by
  refine ⟨fun r hr => ?_, fun r₁ h₁ r₂ h₂ he => ?_⟩
  · rcases hsub r hr with ⟨r₀, h₀, hk, -⟩ | hn
    · exact hk ▸ lt_of_lt_of_le (h.1 r₀ h₀) hb
    · exact (hnew r hn).2
  · rcases hsub r₁ h₁ with ⟨q₁, hq₁, hk₁, hv₁⟩ | hn₁ <;> rcases hsub r₂ h₂ with ⟨q₂, hq₂, hk₂, hv₂⟩ | hn₂
    · rw [hv₁, hv₂]
      exact h.2 q₁ hq₁ q₂ hq₂ (hk₁ ▸ hk₂ ▸ he)
    · have := h.1 q₁ hq₁
      have := (hnew r₂ hn₂).1
      omega
    · have := h.1 q₂ hq₂
      have := (hnew r₁ hn₁).1
      omega
    · rw [hn₂] at hn₁
      rw [Option.some.inj hn₁]

/-- The rows of every service, their ids and their event ids. -/
structure RowInv (s : Sys) : Prop where
  ids : ∀ svc, Fresh (·.id) (s.nextOutboxId svc) (s.rows svc)
  events : Fresh (·.payload.eventId) s.uuid s.allRows
  pending : ∀ svc, ∀ r ∈ s.txRows svc, r.status = .pending
  sent : ∀ svc, ∀ r ∈ s.outbox svc, r.status = .sent → (⟨r.eventType, r.payload⟩ : Message) ∈ s.bus

theorem RowInv.initial (inv : List InventoryRow) : RowInv (Sys.init inv) := by
  have hr : ∀ svc, (Sys.init inv).rows svc = [] := by
    intro svc; cases svc <;> rfl
  refine ⟨fun svc => ?_, ?_, fun svc => ?_, fun svc => ?_⟩
  · simp [Fresh, hr]
  · simp [Fresh, Sys.mem_allRows, hr]
  · cases svc <;> simp [Sys.txRows, Sys.init]
  · cases svc <;> simp [Sys.outbox, Sys.init]

/-- A step that leaves the bus as it was keeps the invariant when each outbox stays or takes
rows of its service's transactions, and each service's transactions keep rows they had, with at
most one new row in one service, with that service's next id and an event id drawn after
`s.uuid`. -/
theorem RowInv.extend {s s' : Sys} (hi : RowInv s) (svc : Service) (new : Option OutboxRow)
    (hnew : ∀ r ∈ new, s.nextOutboxId svc ≤ r.id ∧ r.id < s'.nextOutboxId svc ∧
      s.uuid ≤ r.payload.eventId ∧ r.payload.eventId < s'.uuid ∧ r.status = .pending)
    (hn : ∀ svc', s.nextOutboxId svc' ≤ s'.nextOutboxId svc') (hu : s.uuid ≤ s'.uuid)
    (hout : ∀ svc', s'.outbox svc' = s.outbox svc' ∨
      ∃ tx ⊆ s.txRows svc', s'.outbox svc' = s.outbox svc' ++ tx)
    (htx : ∀ svc', ∀ r ∈ s'.txRows svc', r ∈ s.txRows svc' ∨ (svc' = svc ∧ new = some r))
    (hbus : s'.bus = s.bus) : RowInv s' := by
  have hrows : ∀ svc', ∀ r ∈ s'.rows svc', r ∈ s.rows svc' ∨ (svc' = svc ∧ new = some r) := by
    intro svc' r hr
    rcases List.mem_append.mp hr with hr | hr
    · rcases hout svc' with ho | ⟨tx, htx', ho⟩ <;> rw [ho] at hr
      · exact .inl (List.mem_append_left _ hr)
      · rcases List.mem_append.mp hr with hr | hr
        · exact .inl (List.mem_append_left _ hr)
        · exact .inl (List.mem_append_right _ (htx' hr))
    · rcases htx svc' r hr with hr | hr
      · exact .inl (List.mem_append_right _ hr)
      · exact .inr hr
  refine ⟨fun svc' => ?_, ?_, fun svc' r hr => ?_, fun svc' r hr hs => ?_⟩
  · refine (hi.ids svc').grow (n := if svc' = svc then new else none) (hn svc')
      (fun r hr => (hrows svc' r hr).imp (fun h => ⟨r, h, rfl, rfl⟩) (fun ⟨he, hr⟩ => by simp [he, hr]))
      (fun r hr => ?_)
    split at hr
    · subst svc'
      exact ⟨(hnew r hr).1, (hnew r hr).2.1⟩
    · simp at hr
  · refine hi.events.grow hu (n := new) (fun r hr => ?_) (fun r hr => ⟨(hnew r hr).2.2.1, (hnew r hr).2.2.2.1⟩)
    obtain ⟨svc', hr⟩ := Sys.mem_allRows.mp hr
    exact (hrows svc' r hr).imp (fun h => ⟨r, Sys.mem_allRows.mpr ⟨svc', h⟩, rfl, rfl⟩) (·.2)
  · rcases htx svc' r hr with hr | ⟨-, hr⟩
    · exact hi.pending svc' r hr
    · exact (hnew r hr).2.2.2.2
  · rw [hbus]
    rcases hout svc' with ho | ⟨tx, htx', ho⟩ <;> rw [ho] at hr
    · exact hi.sent svc' r hr hs
    · rcases List.mem_append.mp hr with hr | hr
      · exact hi.sent svc' r hr hs
      · rw [hi.pending svc' r (htx' hr)] at hs
        cases hs

/-- One call of thread `j` of a pool whose transactions' rows `f` reads: the outbox stays or
takes rows of the pool, and the pool keeps rows it had and gains at most one new row. -/
theorem RowStep.pool {τ : Type} (f : τ → List OutboxRow) {out out' : List OutboxRow} {ts : List τ}
    {j : Nat} {t : τ} {t' : Option τ} {n n' u u' : Nat} (hj : ts[j]? = some t)
    (h : RowStep out (f t) out' ((t'.map f).getD []) n n' u u') :
    n ≤ n' ∧ u ≤ u' ∧ (out' = out ∨ ∃ tx ⊆ ts.flatMap f, out' = out ++ tx) ∧
    ∃ new : Option OutboxRow, (∀ r ∈ new, n ≤ r.id ∧ r.id < n' ∧ u ≤ r.payload.eventId ∧
        r.payload.eventId < u' ∧ r.status = .pending) ∧
      ∀ r ∈ (advance ts j t').flatMap f, r ∈ ts.flatMap f ∨ new = some r := by
  obtain ⟨hn, hu, ho, htx⟩ := h
  have hsub : f t ⊆ ts.flatMap f := fun r hr => List.mem_flatMap.mpr ⟨t, List.getElem?_mem hj, hr⟩
  have hrest : ∀ r ∈ (advance ts j t').flatMap f, r ∈ ts.flatMap f ∨ r ∈ (t'.map f).getD [] := by
    intro r hr
    obtain ⟨x, hx, hrx⟩ := List.mem_flatMap.mp hr
    rcases mem_advance hx with hx | hx
    · exact .inl (List.mem_flatMap.mpr ⟨x, List.mem_of_mem_eraseIdx hx, hrx⟩)
    · exact .inr (by simpa [hx] using hrx)
  refine ⟨hn, hu, ho.imp_right fun h => ⟨f t, hsub, h.1⟩, ?_⟩
  rcases htx with htx | htx | ⟨r₀, htx, hid, hlt, hle, hlt', hst⟩
  · refine ⟨none, by simp, fun r hr => .inl ?_⟩
    rcases hrest r hr with h | h
    exacts [h, hsub (htx ▸ h)]
  · refine ⟨none, by simp, fun r hr => .inl ?_⟩
    rcases hrest r hr with h | h
    exacts [h, by simp [htx] at h]
  · refine ⟨some r₀, by simp [hid, hlt, hle, hlt', hst], fun r hr => ?_⟩
    rcases hrest r hr with h | h
    · exact .inl h
    · rw [htx] at h
      rcases List.mem_append.mp h with h | h
      · exact .inl (hsub h)
      · exact .inr (by simp_all)

theorem RowInv.call {s s' : Sys} (hi : RowInv s) (hf : FlowInv s) {svc : Service} {j : Nat}
    {ok : Bool} (h : s.call svc j ok = some s') : RowInv s' := by
  cases svc <;> simp only [Sys.call, Option.map_eq_some'] at h <;> obtain ⟨r, hr, rfl⟩ := h
  case order =>
    simp only [OrderSvc.call, Option.map_eq_some'] at hr
    obtain ⟨t, hj, rfl⟩ := hr
    obtain ⟨hn, hu, ho, new, hnew, htx⟩ :=
      RowStep.pool OrderThread.tx hj (t.step_rows ok s.uuid s.order.gate s.order.db)
    refine hi.extend .order new hnew (fun svc => ?_) hu (fun svc => ?_) (fun svc r hr => ?_) rfl
    · cases svc <;> first | exact hn | exact le_rfl
    · cases svc <;> first | exact ho | exact .inl rfl
    · cases svc <;> first | exact (htx r hr).imp_right fun h => ⟨rfl, h⟩ | exact .inl hr
  case payment =>
    simp only [PaymentSvc.call, Option.map_eq_some'] at hr
    obtain ⟨t, hj, rfl⟩ := hr
    obtain ⟨hn, hu, ho, new, hnew, htx⟩ :=
      RowStep.pool PaymentConsumer.tx hj (t.step_rows ok s.uuid s.payment.gate s.payment.db)
    refine hi.extend .payment new hnew (fun svc => ?_) hu (fun svc => ?_) (fun svc r hr => ?_) rfl
    · cases svc <;> first | exact hn | exact le_rfl
    · cases svc <;> first | exact ho | exact .inl rfl
    · cases svc <;> first | exact (htx r hr).imp_right fun h => ⟨rfl, h⟩ | exact .inl hr
  case inventory =>
    simp only [InventorySvc.call, Option.map_eq_some', Option.filter_eq_some, Option.mem_def] at hr
    obtain ⟨t, ⟨hj, -⟩, rfl⟩ := hr
    obtain ⟨hn, hu, ho, new, hnew, htx⟩ := RowStep.pool (·.tx.outbox) hj
      (t.step_rows ok s.uuid s.inventory.gate s.inventory.db (hf.inventory t (List.getElem?_mem hj)).1)
    refine hi.extend .inventory new hnew (fun svc => ?_) hu (fun svc => ?_) (fun svc r hr => ?_) rfl
    · cases svc <;> first | exact hn | exact le_rfl
    · cases svc <;> first | exact ho | exact .inl rfl
    · cases svc <;> first | exact (htx r hr).imp_right fun h => ⟨rfl, h⟩ | exact .inl hr
  case delivery =>
    simp only [DeliverySvc.call, Option.map_eq_some', Option.filter_eq_some, Option.mem_def] at hr
    obtain ⟨t, ⟨hj, -⟩, rfl⟩ := hr
    obtain ⟨hn, hu, ho, new, hnew, htx⟩ := RowStep.pool (·.tx.outbox) hj
      (t.step_rows ok s.uuid s.delivery.gate s.delivery.db (hf.delivery t (List.getElem?_mem hj)).1)
    refine hi.extend .delivery new hnew (fun svc => ?_) hu (fun svc => ?_) (fun svc r hr => ?_) rfl
    · cases svc <;> first | exact hn | exact le_rfl
    · cases svc <;> first | exact ho | exact .inl rfl
    · cases svc <;> first | exact (htx r hr).imp_right fun h => ⟨rfl, h⟩ | exact .inl hr

/-- A call leaves each outbox as it was or appends to it rows of the service's open
transactions: those of the transaction it commits. -/
theorem Sys.call_appends_txRows {s s' : Sys} (hf : FlowInv s) {svc : Service} {j : Nat}
    {ok : Bool} (h : s.call svc j ok = some s') (svc' : Service) :
    s'.outbox svc' = s.outbox svc' ∨ ∃ tx ⊆ s.txRows svc', s'.outbox svc' = s.outbox svc' ++ tx := by
  cases svc <;> simp only [Sys.call, Option.map_eq_some'] at h <;> obtain ⟨r, hr, rfl⟩ := h
  case order =>
    simp only [OrderSvc.call, Option.map_eq_some'] at hr
    obtain ⟨t, hj, rfl⟩ := hr
    obtain ⟨-, -, ho, -⟩ :=
      RowStep.pool OrderThread.tx hj (t.step_rows ok s.uuid s.order.gate s.order.db)
    cases svc' <;> first | exact ho | exact .inl rfl
  case payment =>
    simp only [PaymentSvc.call, Option.map_eq_some'] at hr
    obtain ⟨t, hj, rfl⟩ := hr
    obtain ⟨-, -, ho, -⟩ :=
      RowStep.pool PaymentConsumer.tx hj (t.step_rows ok s.uuid s.payment.gate s.payment.db)
    cases svc' <;> first | exact ho | exact .inl rfl
  case inventory =>
    simp only [InventorySvc.call, Option.map_eq_some', Option.filter_eq_some, Option.mem_def] at hr
    obtain ⟨t, ⟨hj, -⟩, rfl⟩ := hr
    obtain ⟨-, -, ho, -⟩ := RowStep.pool (·.tx.outbox) hj
      (t.step_rows ok s.uuid s.inventory.gate s.inventory.db (hf.inventory t (List.getElem?_mem hj)).1)
    cases svc' <;> first | exact ho | exact .inl rfl
  case delivery =>
    simp only [DeliverySvc.call, Option.map_eq_some', Option.filter_eq_some, Option.mem_def] at hr
    obtain ⟨t, ⟨hj, -⟩, rfl⟩ := hr
    obtain ⟨-, -, ho, -⟩ := RowStep.pool (·.tx.outbox) hj
      (t.step_rows ok s.uuid s.delivery.gate s.delivery.db (hf.delivery t (List.getElem?_mem hj)).1)
    cases svc' <;> first | exact ho | exact .inl rfl

/-- The relay's loop body keeps the outboxes' events: it only marks a row sent. -/
theorem Sys.publishRow_stored (s : Sys) (svc : Service) (r : OutboxRow) (marked : Bool)
    (svc' : Service) : (s.publishRow svc r marked).stored svc' = s.stored svc' := by
  cases marked
  · cases svc' <;> rfl
  · rw [← Sys.stored_setOutbox_markSent s svc r.id svc']
    cases svc' <;> rfl

/-- A step adds to an outbox only rows of the service's open transactions. -/
theorem Sys.step_stored {s s' : Sys} (hf : FlowInv s) {a : Action} (h : s.step a = some s')
    (svc : Service) : ∀ x ∈ s'.stored svc, x ∈ s.stored svc ∨ x ∈ views (s.txRows svc) := by
  intro x hx
  cases a with
  | call svc' j ok =>
      rcases Sys.call_appends_txRows hf h svc with he | ⟨tx, htx, he⟩ <;>
        simp only [Sys.stored, he, views, List.map_append, List.mem_append] at hx
      · exact .inl hx
      · exact hx.imp id fun hx => List.map_subset _ htx hx
  | publish svc' id marked =>
      obtain ⟨r, -, rfl⟩ := Sys.step_publish.mp h
      exact .inl (s.publishRow_stored svc' r marked svc ▸ hx)
  | request cmd => cases h; exact .inl (by cases svc <;> exact hx)
  | crash svc' j =>
      simp only [Sys.step, Option.ite_none_right_eq_some, Option.some.injEq] at h
      obtain ⟨-, rfl⟩ := h
      exact .inl (by cases svc' <;> cases svc <;> exact hx)
  | deliver g i =>
      simp only [Sys.step, Option.map_eq_some'] at h
      obtain ⟨m, -, rfl⟩ := h
      exact .inl (by cases g <;> cases svc <;> exact hx)
  | expire svc' k => cases h; exact .inl (by cases svc' <;> cases svc <;> exact hx)

/-- A step that touches no outbox, no sequence and no event id, and only drops rows of open
transactions or starts executions with none. -/
theorem RowInv.frame {s s' : Sys} (hi : RowInv s) (hn : ∀ svc, s'.nextOutboxId svc = s.nextOutboxId svc)
    (hu : s'.uuid = s.uuid) (hout : ∀ svc, s'.outbox svc = s.outbox svc)
    (htx : ∀ svc, s'.txRows svc ⊆ s.txRows svc) (hbus : s'.bus = s.bus) : RowInv s' :=
  hi.extend .order none (by simp) (fun svc => (hn svc).ge) hu.ge (fun svc => .inl (hout svc))
    (fun svc _ hr => .inl (htx svc hr)) hbus

theorem mem_markSent_status {id : Nat} {rows : List OutboxRow} {r : OutboxRow}
    (h : r ∈ markSent id rows) :
    ∃ r₀ ∈ rows, r.id = r₀.id ∧ (r.eventType, r.payload) = (r₀.eventType, r₀.payload) ∧
      (r.status = .sent → r₀.id = id ∨ r₀.status = .sent) := by
  obtain ⟨r₀, hr₀, rfl⟩ := List.mem_map.mp h
  refine ⟨r₀, hr₀, ?_⟩
  split <;> simp_all

theorem Sys.outbox_setOutbox (s : Sys) (svc : Service) (o : List OutboxRow) (svc' : Service) :
    (s.setOutbox svc o).outbox svc' = if svc' = svc then o else s.outbox svc' := by
  cases svc <;> cases svc' <;> rfl

@[simp] theorem Sys.txRows_setOutbox (s : Sys) (svc : Service) (o : List OutboxRow) (svc' : Service) :
    (s.setOutbox svc o).txRows svc' = s.txRows svc' := by
  cases svc <;> cases svc' <;> rfl

@[simp] theorem Sys.nextOutboxId_setOutbox (s : Sys) (svc : Service) (o : List OutboxRow)
    (svc' : Service) : (s.setOutbox svc o).nextOutboxId svc' = s.nextOutboxId svc' := by
  cases svc <;> cases svc' <;> rfl

@[simp] theorem Sys.uuid_setOutbox (s : Sys) (svc : Service) (o : List OutboxRow) :
    (s.setOutbox svc o).uuid = s.uuid := by
  cases svc <;> rfl

@[simp] theorem Sys.bus_setOutbox (s : Sys) (svc : Service) (o : List OutboxRow) :
    (s.setOutbox svc o).bus = s.bus := by
  cases svc <;> rfl

@[simp] theorem Sys.rows_setOutbox (s : Sys) (svc : Service) (o : List OutboxRow) (svc' : Service) :
    (s.setOutbox svc o).rows svc' = (if svc' = svc then o else s.outbox svc') ++ s.txRows svc' := by
  simp [Sys.rows, Sys.outbox_setOutbox]

theorem Sys.setOutbox_bus (s : Sys) (svc : Service) (o : List OutboxRow) (b : List Message) :
    ({ s.setOutbox svc o with bus := b } : Sys) = ({ s with bus := b } : Sys).setOutbox svc o := by
  cases svc <;> rfl

/-- The relay publishes: the bus only grows. -/
theorem RowInv.appendBus {s : Sys} (hi : RowInv s) (ms : List Message) :
    RowInv { s with bus := s.bus ++ ms } :=
  ⟨hi.ids, hi.events, hi.pending, fun svc r h hs => List.mem_append_left _ (hi.sent svc r h hs)⟩

/-- `MarkSent` of an id whose rows are on the bus. -/
theorem RowInv.mark {s : Sys} (hi : RowInv s) (svc : Service) (id : Nat)
    (hpub : ∀ r ∈ s.outbox svc, r.id = id → (⟨r.eventType, r.payload⟩ : Message) ∈ s.bus) :
    RowInv (s.setOutbox svc (markSent id (s.outbox svc))) := by
  have hrows : ∀ svc', ∀ r' ∈ (s.setOutbox svc (markSent id (s.outbox svc))).rows svc',
      ∃ r₀ ∈ s.rows svc', r'.id = r₀.id ∧ (r'.eventType, r'.payload) = (r₀.eventType, r₀.payload) := by
    intro svc' r' h'
    simp only [Sys.rows_setOutbox] at h'
    obtain h₁ | h₁ := List.mem_append.mp h'
    · split at h₁
      · subst svc'
        obtain ⟨r₀, h₀, hid, hv, -⟩ := mem_markSent_status h₁
        exact ⟨r₀, List.mem_append_left _ h₀, hid, hv⟩
      · exact ⟨r', List.mem_append_left _ h₁, rfl, rfl⟩
    · exact ⟨r', List.mem_append_right _ h₁, rfl, rfl⟩
  refine ⟨fun svc' => (hi.ids svc').grow (n := none) (by simp) (fun r' h' => .inl (hrows svc' r' h'))
      (by simp), hi.events.grow (n := none) (by cases svc <;> rfl) (fun r' h' => .inl ?_) (by simp),
    fun svc' r' h' => hi.pending svc' r' (by simpa using h'), fun svc' r' h' hs => ?_⟩
  · obtain ⟨svc', h'⟩ := Sys.mem_allRows.mp h'
    obtain ⟨r₀, h₀, -, hv⟩ := hrows svc' r' h'
    exact ⟨r₀, Sys.mem_allRows.mpr ⟨svc', h₀⟩, by rw [(Prod.mk.inj hv).2], hv⟩
  · rw [Sys.outbox_setOutbox] at h'
    rw [Sys.bus_setOutbox]
    split at h'
    · subst svc'
      obtain ⟨r₀, h₀, -, hv, hs₀⟩ := mem_markSent_status h'
      obtain ⟨ht, hp⟩ := Prod.mk.inj hv
      rw [ht, hp]
      rcases hs₀ hs with hid | hs₀
      exacts [hpub r₀ h₀ hid, hi.sent svc r₀ h₀ hs₀]
    · exact hi.sent svc' r' h' hs

/-- The relay's loop body on a row with the id and the event of an outbox row: every row with
its id is that event, so every `SENT` row is on the bus. -/
theorem RowInv.publishRow {s : Sys} (hi : RowInv s) {svc : Service} {r : OutboxRow}
    (hr : ∃ r₀ ∈ s.outbox svc, r₀.id = r.id ∧ r₀.eventType = r.eventType ∧ r₀.payload = r.payload)
    (marked : Bool) : RowInv (s.publishRow svc r marked) := by
  obtain ⟨r₀, hrm, hid, ht, hp⟩ := hr
  have hb := hi.appendBus [⟨r.eventType, r.payload⟩]
  cases marked
  · exact hb
  · rw [Sys.publishRow, if_pos rfl, Sys.setOutbox_bus]
    refine hb.mark svc r.id fun r₁ h₁ hid₁ => ?_
    have hv := (hi.ids svc).2 r₁ (List.mem_append_left _ h₁) r₀ (List.mem_append_left _ hrm)
      (hid₁.trans hid.symm)
    simp only [Prod.mk.injEq] at hv
    simp [hv, ht, hp]

/-- The relay publishes a `PENDING` row and may mark it `SENT`. -/
theorem RowInv.publish {s s' : Sys} (hi : RowInv s) {svc : Service} {id : Nat} {marked : Bool}
    (h : s.step (.publish svc id marked) = some s') : RowInv s' := by
  obtain ⟨r, hr, rfl⟩ := Sys.step_publish.mp h
  exact hi.publishRow ⟨r, List.mem_of_find?_eq_some hr, rfl, rfl, rfl⟩ marked

theorem flatMap_subset {τ : Type} (f : τ → List OutboxRow) {xs ys : List τ} (h : xs ⊆ ys) :
    xs.flatMap f ⊆ ys.flatMap f := fun _ hr =>
  let ⟨x, hx, hr⟩ := List.mem_flatMap.mp hr
  List.mem_flatMap.mpr ⟨x, h hx, hr⟩

/-- Threads added with no rows add none. -/
theorem flatMap_append_subset {τ : Type} (f : τ → List OutboxRow) (xs ys : List τ)
    (h : ∀ y ∈ ys, f y = []) : (xs ++ ys).flatMap f ⊆ xs.flatMap f := fun r hr => by
  rcases List.mem_append.mp (List.flatMap_append xs ys f ▸ hr) with hr | hr
  · exact hr
  · obtain ⟨y, hy, hr⟩ := List.mem_flatMap.mp hr
    simp [h y hy] at hr

theorem RowInv.step {s s' : Sys} (hi : RowInv s) (hf : FlowInv s) {a : Action}
    (h : s.step a = some s') : RowInv s' := by
  cases a with
  | request cmd =>
      cases h
      refine hi.frame (fun svc => by cases svc <;> rfl) rfl (fun svc => by cases svc <;> rfl)
        (fun svc => ?_) rfl
      cases svc
      case order => exact flatMap_append_subset _ _ _ (by simp [OrderThread.tx, CreateOrderThread.start])
      all_goals exact List.Subset.refl _
  | call svc j ok => exact hi.call hf h
  | crash svc j =>
      simp only [Sys.step, Option.ite_none_right_eq_some, Option.some.injEq] at h
      obtain ⟨-, rfl⟩ := h
      refine hi.frame (fun svc' => by cases svc <;> cases svc' <;> rfl) (by cases svc <;> rfl)
        (fun svc' => by cases svc <;> cases svc' <;> rfl) (fun svc' => ?_) (by cases svc <;> rfl)
      cases svc <;> cases svc' <;>
        first
          | exact List.Subset.refl _
          | exact flatMap_subset _ fun _ h => List.mem_of_mem_eraseIdx h
  | publish svc id marked => exact hi.publish h
  | deliver g i =>
      simp only [Sys.step, Option.map_eq_some'] at h
      obtain ⟨m, -, rfl⟩ := h
      refine hi.frame (fun svc => by cases g <;> cases svc <;> rfl) (by cases g <;> rfl)
        (fun svc => by cases g <;> cases svc <;> rfl) (fun svc => ?_) (by cases g <;> rfl)
      cases g <;> cases svc <;> first
        | exact List.Subset.refl _
        | refine flatMap_append_subset _ _ _ fun c hc => ?_
      case order.order =>
        obtain ⟨c', -, rfl⟩ := List.mem_map.mp hc
        rfl
      case payment.payment =>
        simp only [PaymentConsumer.start, Option.mem_toList, Option.mem_def, Option.map_eq_some'] at hc
        obtain ⟨r, hr, rfl⟩ := hc
        unfold PaymentService.runOf at hr
        split at hr <;> cases hr <;> rfl
      case inventory.inventory =>
        simp only [InventoryConsumer.start, Option.mem_toList, Option.mem_def, Option.map_eq_some'] at hc
        obtain ⟨r, -, rfl⟩ := hc
        rfl
      case delivery.delivery =>
        simp only [DeliveryConsumer.start, Option.mem_toList, Option.mem_def, Option.map_eq_some'] at hc
        obtain ⟨r, -, rfl⟩ := hc
        rfl
  | expire svc k =>
      cases h
      exact hi.frame (fun svc' => by cases svc <;> cases svc' <;> rfl) (by cases svc <;> rfl)
        (fun svc' => by cases svc <;> cases svc' <;> rfl)
        (fun svc' => by cases svc <;> cases svc' <;> exact List.Subset.refl _) (by cases svc <;> rfl)

end MsaSaga.System
