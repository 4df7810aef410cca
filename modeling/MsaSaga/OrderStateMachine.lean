import MsaSaga.OrderService

/-!
# The Order SAGA state machine

The design's transition table is the abstract model: six edges, one per handler, and every
other pair of a status and an event is a no-op. The code's handlers decide with
`OrderHandler.transition`. Run on a stored order with every call succeeding, a handler
writes exactly that decision, so a sequence of events moves the order along the fold of the
decisions.

The three success handlers are guarded by the status their edge starts from. The three
failure handlers are not: they write CANCELED or FAILED from every status, the terminal ones
included.
-/
namespace MsaSaga.OrderStateMachine
open Events Schema OrderService

/-- The transition table of the SAGA design. -/
inductive TableEdge : OrderStatus → OrderHandler → OrderStatus → Prop
  | paymentCompleted : TableEdge .pending .paymentCompleted .stockReserving
  | paymentFailed : TableEdge .pending .paymentFailed .canceled
  | stockReserved : TableEdge .stockReserving .stockReserved .deliveryPreparing
  | stockReservationFailed : TableEdge .stockReserving .stockReservationFailed .failed
  | deliveryStarted : TableEdge .deliveryPreparing .deliveryStarted .completed
  | deliveryFailed : TableEdge .deliveryPreparing .deliveryFailed .failed

/-- The status an order holds after a handler decided on it. -/
def statusAfter (h : OrderHandler) (st : OrderStatus) : OrderStatus :=
  (h.transition st).getD st

/-- The failure handlers write their target whatever the status was. -/
theorem unguarded_writes_target (st : OrderStatus) :
    handlePaymentFailed st = some .canceled ∧ handleStockReservationFailed st = some .failed ∧
      handleDeliveryFailed st = some .failed := ⟨rfl, rfl, rfl⟩

/-! ## A handler run on the stored order -/

@[simp] theorem setStatus_id (id : Nat) (s : OrderStatus) (v : Nat) (o : Order) :
    (setStatus id s v o).id = o.id := by
  unfold setStatus; split <;> rfl

theorem find?_map_setStatus {l : List Order} {id : Nat} {o : Order}
    (h : l.find? (·.id = id) = some o) (s : OrderStatus) (v : Nat) :
    (l.map (setStatus id s v)).find? (·.id = id) = some (setStatus id s v o) := by
  induction l with
  | nil => simp at h
  | cons a l ih =>
      by_cases ha : a.id = id
      · simp only [List.find?_cons, ha, decide_True, Option.some.injEq] at h
        subst h
        simp [ha]
      · simp only [List.find?_cons, ha, decide_False] at h
        simp [ha, ih h, setStatus]

theorem setStatus_self {o : Order} (s : OrderStatus) :
    setStatus o.id s o.version o = { o with status := s, version := o.version + 1 } := by
  simp [setStatus]

/-- The database after `h` handled `evt`, every call succeeding. -/
def handleOne (db : OrderDb) (h : OrderHandler) (evt : Event) : OrderDb :=
  (runCalls (h.step evt) (.cont .findByID) [true, true] 0 db).2.2

/-- One handler run writes its decision on the order it read, and bumps the version when it
writes. -/
theorem handleOne_findByID {db : OrderDb} {o : Order} (h : OrderHandler) {evt : Event}
    (hf : findByID db evt.orderId = some o) :
    ∃ o', findByID (handleOne db h evt) evt.orderId = some o' ∧ o'.status = statusAfter h o.status := by
  have hid : o.id = evt.orderId := by
    simpa using List.find?_some hf
  unfold handleOne
  cases ht : h.transition o.status with
  | none => exact ⟨o, by simp [runCalls, OrderHandler.step, hf, ht], by simp [statusAfter, ht]⟩
  | some s =>
      refine ⟨{ o with status := s, version := o.version + 1 }, ?_, by simp [statusAfter, ht]⟩
      simp only [runCalls_cons, OrderHandler.step, if_true, hf, ht, runCalls_ret]
      simp only [updateStatusWithVersion, findByID, ← hid]
      rw [find?_map_setStatus (hid ▸ hf), setStatus_self]

/-- Events handled one after another, every call succeeding. -/
def handleAll (db : OrderDb) : List (OrderHandler × Event) → OrderDb
  | [] => db
  | (h, evt) :: rest => handleAll (handleOne db h evt) rest

/-- Over any sequence of events for one order, with any duplicates, the stored status is
the fold of the handlers' decisions. -/
theorem handleAll_status {db : OrderDb} {o : Order} (evs : List (OrderHandler × Event))
    (hev : ∀ e ∈ evs, e.2.orderId = o.id) (hf : findByID db o.id = some o) :
    ∃ o', findByID (handleAll db evs) o.id = some o' ∧
      o'.status = evs.foldl (fun st e => statusAfter e.1 st) o.status := by
  induction evs generalizing db o with
  | nil => exact ⟨o, hf, rfl⟩
  | cons e rest ih =>
      obtain ⟨o₁, h₁, hs₁⟩ := handleOne_findByID e.1 ((hev e (.head _)) ▸ hf)
      rw [hev e (.head _)] at h₁
      have hid : o₁.id = o.id := by simpa using List.find?_some h₁
      obtain ⟨o', h', hs'⟩ := ih (fun e' he' => (hev e' (.tail _ he')).trans hid.symm) (hid ▸ h₁)
      exact ⟨o', hid ▸ h', by simp [handleAll, List.foldl, hs', hs₁]⟩

/-- The events of a completed SAGA followed by a `StockReservationFailed` for the same order:
the order passes COMPLETED and ends FAILED, a change that is no edge of the table, out of a
terminal status. -/
theorem completed_order_fails_on_stockReservationFailed :
    let o : Order := { id := 1, userId := 1001, amount := 50000, quantity := 1,
                       status := .pending, version := 0, idempotencyKey := "k1" }
    let ev (e : EventType) (i : Nat) : Event :=
      { eventId := i, eventType := e, correlationId := 0, orderId := 1 }
    let evs := [(.paymentCompleted, ev .paymentCompleted 2), (.stockReserved, ev .stockReserved 3),
                (.deliveryStarted, ev .deliveryStarted 4)]
    (findByID (handleAll { orders := [o] } evs) 1).map (·.status) = some .completed ∧
      (findByID (handleAll { orders := [o] } (evs ++ [(.stockReservationFailed,
        ev .stockReservationFailed 5)])) 1).map (·.status) = some .failed ∧
      ¬ TableEdge .completed .stockReservationFailed .failed := by
  intro o ev evs
  have hev : ∀ e ∈ evs ++ [(.stockReservationFailed, ev .stockReservationFailed 5)],
      e.2.orderId = o.id := by decide
  have hf : findByID { orders := [o] } o.id = some o := rfl
  -- the handlers' decisions take the order to `COMPLETED`, and the unguarded one to `FAILED`
  have hc : evs.foldl (fun st e => statusAfter e.1 st) o.status = .completed := rfl
  have hfail : statusAfter .stockReservationFailed .completed = .failed := by
    simp [statusAfter, OrderHandler.transition, (unguarded_writes_target .completed).2.1]
  obtain ⟨o₁, h₁, hs₁⟩ := handleAll_status evs (fun e he => hev e (List.mem_append_left _ he)) hf
  obtain ⟨o₂, h₂, hs₂⟩ := handleAll_status _ hev hf
  refine ⟨by simp [h₁, hs₁, hc], ?_, nofun⟩
  simp [h₂, hs₂, List.foldl_append, hc, hfail]

end MsaSaga.OrderStateMachine
