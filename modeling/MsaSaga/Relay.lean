import MsaSaga.Keys
import MsaSaga.FreshIds

/-!
# The outbox relays

`OutboxWorker.process` of the Order service and `startOutboxWorker` of the Payment and
Inventory services, on every tick: one query for the `PENDING` rows `ORDER BY created_at LIMIT
100`, then a loop over them. The three are one loop, each with its own key. A row's
`created_at` is fixed before its transaction commits, so a row committed later can sort ahead
of one already in the table. Each row is published to the topic of its event type with the
relay's key; a
failed `Publish` goes on to the next row (`continue`), and a successful one is followed by
`MarkSent`, whose error is only logged. A failed query, or a failed `rows.Scan`, skips the tick
or the row the way a failed `Publish` does. The Delivery service's relay is not part of the
sources and keeps the system's one-row step.

The loop body on a row is the system's publish step, so a relay only appends to the bus and
marks rows `SENT`: no row is dropped or reset, and every `SENT` row has been published. The
loop does not stop at a failed row, so a later row of the same order can be published while an
earlier one is still `PENDING`.
-/
namespace MsaSaga.System
open Events Schema Executions OrderService Keys

/-! ## The relay loop -/

/-- The key each relay hands to `Publish`: the Order relay's `publishEvent` key, and the empty
key of `publisher.Publish(ctx, eventType, "", payload)` in the Payment and Inventory relays. -/
def relayKey : Service → Event → String
  | .order => publishEventKey
  | _ => fun _ => ""

/-- A message as `Publish` sends it. -/
structure Publication where
  topic : EventType
  key : String
  payload : Event
  deriving DecidableEq, Repr

/-- The order of `ORDER BY created_at`. -/
def createdBefore (a b : OutboxRow) : Prop := a.createdAt ≤ b.createdAt

instance : DecidableRel createdBefore := fun a b => Nat.decLe a.createdAt b.createdAt

instance : IsTotal OutboxRow createdBefore := ⟨fun a b => le_total a.createdAt b.createdAt⟩

instance : IsTrans OutboxRow createdBefore := ⟨fun _ _ _ => le_trans⟩

/-- `SELECT ... WHERE status = 'PENDING' ORDER BY created_at LIMIT 100`: the `PENDING` rows by
`created_at`, with the order of equal timestamps, which SQL leaves open, taken as the table's. -/
def findPending (rows : List OutboxRow) (limit : Nat) : List OutboxRow :=
  ((rows.filter (·.status = .pending)).insertionSort createdBefore).take limit

/-- The query returns `PENDING` rows of the table. -/
theorem mem_of_mem_findPending {rows : List OutboxRow} {limit : Nat} {r : OutboxRow}
    (h : r ∈ findPending rows limit) : r ∈ rows ∧ r.status = .pending := by
  have hr := (List.perm_insertionSort _ _).subset (List.mem_of_mem_take h)
  exact ⟨List.mem_of_mem_filter hr, of_decide_eq_true (List.mem_filter.mp hr).2⟩

/-- The query returns the earliest `PENDING` rows: a `PENDING` row it leaves out is created no
earlier than every row it returns, and it leaves one out only when it returns `limit` rows. -/
theorem findPending_first {rows : List OutboxRow} {limit : Nat} {x : OutboxRow} (hx : x ∈ rows)
    (hp : x.status = .pending) (hxn : x ∉ findPending rows limit) :
    (findPending rows limit).length = limit ∧
      ∀ y ∈ findPending rows limit, y.createdAt ≤ x.createdAt := by
  unfold findPending at *
  set L := (rows.filter (·.status = .pending)).insertionSort createdBefore
  have hxL : x ∈ L.drop limit := by
    have : x ∈ L := (List.perm_insertionSort _ _).mem_iff.2 (List.mem_filter.2 ⟨hx, by simpa using hp⟩)
    rw [← List.take_append_drop limit L] at this
    exact (List.mem_append.mp this).resolve_left hxn
  refine ⟨?_, fun y hy => ?_⟩
  · have := List.length_pos_of_mem hxL
    simp only [List.length_take, List.length_drop] at this ⊢
    omega
  · have hs : L.Sorted createdBefore := List.sorted_insertionSort _ _
    rw [← List.take_append_drop limit L] at hs
    exact (List.pairwise_append.mp hs).2.2 y hy x hxL

/-- `ORDER BY created_at` on the rows the table holds in an order keeps that order between rows
created at the same time: a row returned after another row is not earlier in the table. -/
theorem findPending_stable {rows : List OutboxRow} {limit : Nat} {r x : OutboxRow}
    (hn : rows.Nodup) (hrx : List.Sublist [r, x] rows) (hp : r.status = .pending) (hxp : x.status = .pending)
    (hc : r.createdAt ≤ x.createdAt) (hr : r ∉ findPending rows limit) :
    x ∉ findPending rows limit := by
  unfold findPending at *
  set L := (rows.filter (·.status = .pending)).insertionSort createdBefore
  have hL : List.Sublist [r, x] L := List.sublist_insertionSort (List.pairwise_pair.2 hc)
    (by simpa [hp, hxp] using hrx.filter (·.status = .pending))
  have hnd : (L.take limit ++ L.drop limit).Nodup := by
    rw [List.take_append_drop]
    exact (List.perm_insertionSort _ _).nodup_iff.2 (hn.filter _)
  rw [← List.take_append_drop limit L, List.sublist_append_iff] at hL
  obtain ⟨l₁, l₂, he, h₁, h₂⟩ := hL
  match l₁, he with
  | [], he =>
      intro hx
      rw [List.nil_append] at he
      have hx' : x ∈ L.drop limit := h₂.subset (by simp [← he])
      exact List.disjoint_of_nodup_append hnd hx hx'
  | [_], he | [_, _], he =>
      simp only [List.cons_append, List.nil_append, List.cons.injEq] at he
      exact absurd (h₁.subset (by simp [he.1])) hr
  | _ :: _ :: _ :: _, he => simp at he

/-- The loop over the rows the query returned, each with whether `Publish` and `MarkSent`
returned `nil`, publishing each row with `key` of its payload; with the publications made. -/
def Sys.relayRows (s : Sys) (svc : Service) (key : Event → String) :
    List (OutboxRow × Bool × Bool) → Sys × List Publication
  | [] => (s, [])
  | (r, published, marked) :: rows =>
      if published then
        let x := (s.publishRow svc r marked).relayRows svc key rows
        (x.1, ⟨r.eventType, key r.payload, r.payload⟩ :: x.2)
      else s.relayRows svc key rows

/-- One tick of a relay loop over the outbox of `svc` that publishes with `key`: the query,
with `scanned` whether it returned, then the loop with one outcome for each row. -/
def Sys.relayLoop (s : Sys) (svc : Service) (key : Event → String) (scanned : Bool)
    (outcomes : List (Bool × Bool)) : Option (Sys × List Publication) :=
  if scanned then
    let rows := findPending (s.outbox svc) 100
    if outcomes.length = rows.length then some (s.relayRows svc key (rows.zip outcomes))
    else none
  else if outcomes = [] then some (s, []) else none

/-- `OutboxWorker.process` of the Order service, whose `publishEvent` keys each row by the order
id of its payload. -/
def OutboxWorker.process (s : Sys) (scanned : Bool) (outcomes : List (Bool × Bool)) :
    Option (Sys × List Publication) :=
  s.relayLoop .order publishEventKey scanned outcomes

/-- A tick of `startOutboxWorker` of the Payment service, which publishes with the empty key. -/
def PaymentMain.startOutboxWorker (s : Sys) (scanned : Bool) (outcomes : List (Bool × Bool)) :
    Option (Sys × List Publication) :=
  s.relayLoop .payment (fun _ => "") scanned outcomes

/-- A tick of `startOutboxWorker` of the Inventory service, which publishes with the empty key. -/
def InventoryMain.startOutboxWorker (s : Sys) (scanned : Bool) (outcomes : List (Bool × Bool)) :
    Option (Sys × List Publication) :=
  s.relayLoop .inventory (fun _ => "") scanned outcomes

/-- One tick of the relay of a service. The Delivery service's relay is not part of the
sources and has none. -/
def Sys.relayTick (s : Sys) : Service → Bool → List (Bool × Bool) → Option (Sys × List Publication)
  | .order => OutboxWorker.process s
  | .payment => PaymentMain.startOutboxWorker s
  | .inventory => InventoryMain.startOutboxWorker s
  | .delivery => fun _ _ => none

/-- The services whose relay loop the sources hold. -/
def Service.relays : Service → Bool
  | .delivery => false
  | _ => true

/-- A loop tick runs the loop over the rows the query returned, or, when the query fails, does
nothing. -/
theorem Sys.relayLoop_eq_some {s : Sys} {svc : Service} {key : Event → String} {scanned : Bool}
    {outcomes : List (Bool × Bool)} {r : Sys × List Publication}
    (h : s.relayLoop svc key scanned outcomes = some r) :
    (scanned = true ∧ outcomes.length = (findPending (s.outbox svc) 100).length ∧
      r = s.relayRows svc key ((findPending (s.outbox svc) 100).zip outcomes)) ∨
    (scanned = false ∧ outcomes = [] ∧ r = (s, [])) := by
  unfold Sys.relayLoop at h
  cases scanned <;> simp only [if_true, if_false, Bool.false_eq_true] at h <;> split at h <;>
    cases h
  · exact .inr ⟨rfl, ‹_›, rfl⟩
  · exact .inl ⟨rfl, ‹_›, rfl⟩

/-- A tick is a tick of a relay loop of the sources, with that relay's key. -/
theorem Sys.relayTick_loop {s : Sys} {svc : Service} {scanned : Bool}
    {outcomes : List (Bool × Bool)} {r : Sys × List Publication}
    (h : s.relayTick svc scanned outcomes = some r) :
    svc.relays = true ∧ s.relayLoop svc (relayKey svc) scanned outcomes = some r := by
  cases svc <;> first | exact ⟨rfl, h⟩ | cases h

/-- A one-row publish of a service whose relay is a loop of the sources. -/
def Action.relayed : Action → Bool
  | .publish svc _ _ => svc.relays
  | _ => false

inductive RelayAction where
  | act (a : Action)
  | tick (svc : Service) (scanned : Bool) (outcomes : List (Bool × Bool))
  deriving DecidableEq, Repr

/-- The system with the relay loops in place of the one-row publish of their services. -/
def Sys.relayStep (s : Sys) : RelayAction → Option Sys
  | .act a => if a.relayed then none else s.step a
  | .tick svc scanned outcomes =>
      if svc.relays then (s.relayTick svc scanned outcomes).map (·.1) else none

/-- The states the system with the relay loops reaches from an initial inventory. -/
def RelayReachable (inventory : List InventoryRow) : Sys → Prop :=
  Reach Sys.relayStep (Sys.init inventory)

theorem Reach.trans {σ α : Type} {step : σ → α → Option σ} {init s s' : σ}
    (h : Reach step init s) (h' : Reach step s s') : Reach step init s' := by
  induction h' with
  | init => exact h
  | step a _ ha ih => exact .step a ih ha

theorem Sys.relayRows_keys (svc : Service) (key : Event → String) :
    ∀ (rows : List (OutboxRow × Bool × Bool)) (s : Sys),
      ∀ p ∈ (s.relayRows svc key rows).2, p.key = key p.payload
  | [], _, p, hp => by simp [Sys.relayRows] at hp
  | (r, published, marked) :: rows, s, p, hp => by
      simp only [Sys.relayRows] at hp
      split at hp
      · rcases List.mem_cons.mp hp with rfl | hp
        · rfl
        · exact Sys.relayRows_keys svc key rows _ p hp
      · exact Sys.relayRows_keys svc key rows s p hp

/-- Every publication of a relay tick carries its relay's key, and that key is never the
decimal string of the payload's order id: the Order relay's is one character, the others'
empty. -/
theorem relay_keys_never_decimal {s : Sys} {svc : Service} {scanned : Bool}
    {outcomes : List (Bool × Bool)} {r : Sys × List Publication}
    (h : s.relayTick svc scanned outcomes = some r) :
    ∀ p ∈ r.2, p.key = relayKey svc p.payload ∧ p.key ≠ formatInt p.payload.orderId := by
  have hne : ∀ e : Event, relayKey svc e ≠ formatInt e.orderId := by
    intro e
    cases svc
    case order => exact publishEventKey_ne_formatInt e
    all_goals
      intro h
      have hl := congrArg String.length h
      rw [formatInt_length] at hl
      exact absurd hl (by simp [relayKey])
  have hkeys : ∀ p ∈ r.2, p.key = relayKey svc p.payload := by
    rcases Sys.relayLoop_eq_some (Sys.relayTick_loop h).2 with ⟨-, -, rfl⟩ | ⟨-, -, rfl⟩
    · exact Sys.relayRows_keys svc _ _ s
    · simp
  exact fun p hp => ⟨hkeys p hp, hkeys p hp ▸ hne p.payload⟩

/-- The Order relay publishes the `OrderCreated` of order 1 with the key U+0001, where
`PublishWithOrderID` would pass "1". -/
theorem order_relay_keys_first_order_by_code_point :
    let cmd : CreateOrderCommand :=
      { userId := 1001, amount := 50000, quantity := 1, idempotencyKey := "k1" }
    ∃ s r, runSteps Sys.relayStep (Sys.init [])
        (.act (.request cmd) :: (List.replicate 5 true).map fun ok => .act (.call .order 0 ok)) =
          some s ∧ s.relayTick .order true [(true, true)] = some r ∧
      r.2.map (fun p => (p.key, p.payload.orderId)) = [(String.singleton (Char.ofNat 1), 1)] ∧
      ∀ p ∈ r.2, p.key ≠ formatInt p.payload.orderId := by
  intro cmd
  obtain ⟨s, hs, he⟩ := Option.bind_eq_some.mp (show
    (runSteps Sys.relayStep (Sys.init [])
        (.act (.request cmd) :: (List.replicate 5 true).map fun ok => .act (.call .order 0 ok))
      ).bind (fun s => (s.relayTick .order true [(true, true)]).map
        fun r => r.2.map fun p => (p.key, p.payload.orderId)) =
      some [(String.singleton (Char.ofNat 1), 1)] by decide)
  obtain ⟨r, hr, hk⟩ := Option.map_eq_some'.mp he
  exact ⟨s, r, hs, hr, hk, fun p hp => (relay_keys_never_decimal hr p hp).2⟩

/-! ## Rows are kept -/

/-- Each row of `rows` is in `rows'`, with its id and event, and still `SENT` if it was. -/
def RowsKept (rows rows' : List OutboxRow) : Prop :=
  ∀ r ∈ rows, ∃ r' ∈ rows', r'.id = r.id ∧ r'.eventType = r.eventType ∧ r'.payload = r.payload ∧
    (r.status = .sent → r'.status = .sent)

theorem RowsKept.refl (rows : List OutboxRow) : RowsKept rows rows :=
  fun r hr => ⟨r, hr, rfl, rfl, rfl, id⟩

theorem RowsKept.trans {rows rows' rows'' : List OutboxRow} (h : RowsKept rows rows')
    (h' : RowsKept rows' rows'') : RowsKept rows rows'' := fun r hr => by
  obtain ⟨r', hr', hi, ht, hp, hs⟩ := h r hr
  obtain ⟨r'', hr'', hi', ht', hp', hs'⟩ := h' r' hr'
  exact ⟨r'', hr'', hi'.trans hi, ht'.trans ht, hp'.trans hp, hs' ∘ hs⟩

theorem RowsKept.append (rows xs : List OutboxRow) : RowsKept rows (rows ++ xs) :=
  fun r hr => ⟨r, List.mem_append_left _ hr, rfl, rfl, rfl, id⟩

theorem RowsKept.markSent (id : Nat) (rows : List OutboxRow) : RowsKept rows (markSent id rows) :=
  fun r hr => by
    refine ⟨if r.id = id then { r with status := .sent } else r, List.mem_map_of_mem _ hr, ?_⟩
    split <;> simp

/-- Every outbox keeps its rows from `s` to `s'`. -/
def Sys.Keeps (s s' : Sys) : Prop := ∀ svc, RowsKept (s.outbox svc) (s'.outbox svc)

theorem Sys.Keeps.refl (s : Sys) : s.Keeps s := fun _ => RowsKept.refl _

theorem Sys.Keeps.trans {s s' s'' : Sys} (h : s.Keeps s') (h' : s'.Keeps s'') : s.Keeps s'' :=
  fun svc => (h svc).trans (h' svc)

/-- The rows of the outbox of `svc` with the id and the event of `r`. -/
def Sys.HasRow (s : Sys) (svc : Service) (r : OutboxRow) : Prop :=
  ∃ r₀ ∈ s.outbox svc, r₀.id = r.id ∧ r₀.eventType = r.eventType ∧ r₀.payload = r.payload

theorem Sys.HasRow.keep {s s' : Sys} {svc : Service} {r : OutboxRow} (h : s.HasRow svc r)
    (hk : s.Keeps s') : s'.HasRow svc r := by
  obtain ⟨r₀, h₀, hi, ht, hp⟩ := h
  obtain ⟨r₁, h₁, hi', ht', hp', -⟩ := hk svc r₀ h₀
  exact ⟨r₁, h₁, hi'.trans hi, ht'.trans ht, hp'.trans hp⟩

theorem Sys.keeps_publishRow (s : Sys) (svc : Service) (r : OutboxRow) (marked : Bool) :
    s.Keeps (s.publishRow svc r marked) := fun svc' => by
  cases marked
  · exact RowsKept.refl _
  · show RowsKept _ ((s.setOutbox svc (markSent r.id (s.outbox svc))).outbox svc')
    rw [Sys.outbox_setOutbox]
    split
    · subst svc'
      exact RowsKept.markSent _ _
    · exact RowsKept.refl _

/-- A call leaves each outbox as it was or appends to it the rows of a transaction it
commits. -/
theorem Sys.call_appends {s s' : Sys} (hf : FlowInv s) {svc : Service} {j : Nat} {ok : Bool}
    (h : s.call svc j ok = some s') (svc' : Service) :
    s'.outbox svc' = s.outbox svc' ∨ ∃ tx, s'.outbox svc' = s.outbox svc' ++ tx :=
  (Sys.call_appends_txRows hf h svc').imp_right fun ⟨tx, _, h⟩ => ⟨tx, h⟩

/-- A call only appends to an outbox: the rows of a transaction it commits. -/
theorem Sys.call_outbox {s s' : Sys} (hf : FlowInv s) {svc : Service} {j : Nat} {ok : Bool}
    (h : s.call svc j ok = some s') : s.Keeps s' := fun svc' => by
  rcases Sys.call_appends hf h svc' with he | ⟨tx, he⟩
  · exact he ▸ RowsKept.refl _
  · exact he ▸ RowsKept.append _ _

/-- Every step of the system keeps the rows of every outbox. -/
theorem Sys.keeps_step {s s' : Sys} (hf : FlowInv s) {a : Action} (h : s.step a = some s') :
    s.Keeps s' := by
  cases a with
  | call svc j ok => exact Sys.call_outbox hf h
  | publish svc id marked =>
      obtain ⟨r, -, rfl⟩ := Sys.step_publish.mp h
      exact s.keeps_publishRow svc r marked
  | crash svc j =>
      simp only [Sys.step, Option.ite_none_right_eq_some, Option.some.injEq] at h
      obtain ⟨-, rfl⟩ := h
      intro svc'; cases svc <;> cases svc' <;> exact RowsKept.refl _
  | deliver g i =>
      simp only [Sys.step, Option.map_eq_some'] at h
      obtain ⟨m, -, rfl⟩ := h
      intro svc'; cases g <;> cases svc' <;> exact RowsKept.refl _
  | request cmd => cases h; intro svc'; cases svc' <;> exact RowsKept.refl _
  | expire svc k => cases h; intro svc'; cases svc <;> cases svc' <;> exact RowsKept.refl _

/-! ## What the relays keep -/

/-- The invariants of the Order service, of the flow of events and of the outbox rows. -/
def Sys.Sound (s : Sys) : Prop := OrderInv s.order ∧ FlowInv s ∧ RowInv s

theorem Sys.Sound.publishRow {s : Sys} (h : s.Sound) {svc : Service} {r : OutboxRow}
    (hr : s.HasRow svc r) (marked : Bool) : (s.publishRow svc r marked).Sound := by
  obtain ⟨ho, hf, hrow⟩ := h
  obtain ⟨r₀, h₀, hid, ht, hp⟩ := hr
  have hx : (r.eventType, r.payload) ∈ s.stored svc := by
    rw [← ht, ← hp]
    exact List.mem_map_of_mem _ h₀
  exact ⟨ho.publishRow svc r marked, (hf.publishRow hx marked).1,
    hrow.publishRow ⟨r₀, h₀, hid, ht, hp⟩ marked⟩

/-- The loop over rows of the outbox keeps the invariants and the rows. -/
theorem Sys.Sound.relayRows {svc : Service} {key : Event → String} :
    ∀ (rows : List (OutboxRow × Bool × Bool)) {s : Sys}, s.Sound → (∀ x ∈ rows, s.HasRow svc x.1) →
      (s.relayRows svc key rows).1.Sound ∧ s.Keeps (s.relayRows svc key rows).1
  | [], s, h, _ => ⟨h, Sys.Keeps.refl s⟩
  | (r, published, marked) :: rows, s, h, hr => by
      have hrest : ∀ x ∈ rows, s.HasRow svc x.1 := fun x hx => hr x (List.mem_cons_of_mem _ hx)
      simp only [Sys.relayRows]
      split
      · have hk := s.keeps_publishRow svc r marked
        obtain ⟨h', hk'⟩ := Sys.Sound.relayRows rows
          (h.publishRow (hr _ (List.mem_cons_self _ _)) marked) fun x hx => (hrest x hx).keep hk
        exact ⟨h', hk.trans hk'⟩
      · exact Sys.Sound.relayRows rows h hrest

theorem Sys.Sound.relayTick {s : Sys} (h : s.Sound) {svc : Service} {scanned : Bool}
    {outcomes : List (Bool × Bool)} {r : Sys × List Publication}
    (ht : s.relayTick svc scanned outcomes = some r) : r.1.Sound ∧ s.Keeps r.1 := by
  rcases Sys.relayLoop_eq_some (Sys.relayTick_loop ht).2 with ⟨-, -, rfl⟩ | ⟨-, -, rfl⟩
  · exact h.relayRows _ fun x hx =>
      ⟨x.1, (mem_of_mem_findPending (List.of_mem_zip hx).1).1, rfl, rfl, rfl⟩
  · exact ⟨h, Sys.Keeps.refl s⟩

/-- Every step of the system with the relay loops keeps the invariants and the rows. -/
theorem Sys.Sound.relayStep {s s' : Sys} (h : s.Sound) {a : RelayAction}
    (hs : s.relayStep a = some s') : s'.Sound ∧ s.Keeps s' := by
  cases a with
  | act a =>
      simp only [Sys.relayStep, Option.ite_none_left_eq_some] at hs
      obtain ⟨-, hs⟩ := hs
      obtain ⟨ho, hf, hr⟩ := h
      exact ⟨⟨ho.step hs, (hf.step ho hs).1, hr.step hf hs⟩, Sys.keeps_step hf hs⟩
  | tick svc scanned outcomes =>
      simp only [Sys.relayStep, Option.ite_none_right_eq_some, Option.map_eq_some'] at hs
      obtain ⟨-, r, hr, rfl⟩ := hs
      exact h.relayTick hr

theorem sound_of_relayReachable {inv : List InventoryRow} {s : Sys} (h : RelayReachable inv s) :
    s.Sound := by
  induction h with
  | init => exact ⟨OrderInv.initial, FlowInv.initial inv, RowInv.initial inv⟩
  | step a _ hs ih => exact (ih.relayStep hs).1

/-- Every run of the relay loops, from any state they reach: no outbox row is dropped, none
goes back from `SENT` to `PENDING`, and every `SENT` row's event is on the bus, where only a
`Publish` that returned `nil` puts it. -/
theorem relay_marks_sent_only_after_publish {inv : List InventoryRow} {s s' : Sys}
    (h : RelayReachable inv s) (h' : Reach Sys.relayStep s s') :
    s.Keeps s' ∧ ∀ svc, ∀ r ∈ s'.outbox svc, r.status = .sent →
      (⟨r.eventType, r.payload⟩ : Message) ∈ s'.bus := by
  refine ⟨?_, (sound_of_relayReachable (Reach.trans h h')).2.2.sent⟩
  induction h' with
  | init => exact Sys.Keeps.refl s
  | step a hr hs ih => exact ih.trans ((sound_of_relayReachable (Reach.trans h hr)).relayStep hs).2

/-- The `OrderCreated` of order 1 stays `PENDING` through a tick whose `Publish` fails, is
published by a tick whose `MarkSent` fails, and is marked by the next. -/
theorem relay_marks_first_order_after_its_publish :
    let cmd : CreateOrderCommand :=
      { userId := 1001, amount := 50000, quantity := 1, idempotencyKey := "k1" }
    let created : List RelayAction :=
      .act (.request cmd) :: (List.replicate 5 true).map fun ok => .act (.call .order 0 ok)
    let ticks : List RelayAction :=
      [.tick .order true [(false, true)], .tick .order true [(true, false)],
        .tick .order true [(true, true)]]
    ∃ s s', runSteps Sys.relayStep (Sys.init []) created = some s ∧
      runSteps Sys.relayStep s ticks = some s' ∧ s'.order.db.outbox.map (·.status) = [.sent] ∧
      s.Keeps s' ∧ ∀ svc, ∀ r ∈ s'.outbox svc, r.status = .sent →
        (⟨r.eventType, r.payload⟩ : Message) ∈ s'.bus := by
  intro cmd created ticks
  obtain ⟨s, hs, he⟩ := Option.bind_eq_some.mp (show
    (runSteps Sys.relayStep (Sys.init []) created).bind
      (fun s => (runSteps Sys.relayStep s ticks).map fun s' => s'.order.db.outbox.map (·.status)) =
      some [.sent] by decide)
  obtain ⟨s', hs', hst⟩ := Option.map_eq_some'.mp he
  exact ⟨s, s', hs, hs', hst,
    relay_marks_sent_only_after_publish (Reach.init.run hs) (Reach.init.run hs')⟩

/-! ## Publication order -/

/-- The Payment outbox of order 1 holds its `PaymentFailed`, from an execution the gateway
declined, and then its `PaymentCompleted`, from a redelivery of `OrderCreated`. A tick of the
Payment relay whose `Publish` of the first row fails goes on to the second, publishes it and
marks it `SENT`: the order's `PaymentCompleted` is on the bus while its earlier
`PaymentFailed` is `PENDING` and has never been published. -/
theorem relay_publishes_past_a_failed_row :
    let cmd : CreateOrderCommand :=
      { userId := 1001, amount := 50000, quantity := 1, idempotencyKey := "k1" }
    let calls (svc : Service) (oks : List Bool) : List RelayAction :=
      oks.map fun ok => .act (.call svc 0 ok)
    let trace : List RelayAction :=
      .act (.request cmd) :: calls .order (List.replicate 5 true) ++
        [.tick .order true [(true, false)], .tick .order true [(true, true)],
          .act (.deliver .payment 0)] ++
        calls .payment [true, true, true, false, true, true] ++
        .act (.deliver .payment 1) :: calls .payment (List.replicate 8 true) ++
        [.tick .payment true [(false, false), (true, true)]]
    ∃ s, runSteps Sys.relayStep (Sys.init []) trace = some s ∧ RelayReachable [] s ∧
      s.payment.db.outbox.map (fun r => (r.id, r.eventType, r.payload.orderId, r.status)) =
        [(1, .paymentFailed, 1, .pending), (2, .paymentCompleted, 1, .sent)] ∧
      s.bus.map (·.topic) = [.orderCreated, .orderCreated, .paymentCompleted] := by
  intro cmd calls trace
  obtain ⟨s, hs, he⟩ := Option.map_eq_some'.mp (show
    (runSteps Sys.relayStep (Sys.init []) trace).map
      (fun s => (s.payment.db.outbox.map fun r => (r.id, r.eventType, r.payload.orderId, r.status),
        s.bus.map (·.topic))) =
      some ([(1, .paymentFailed, 1, .pending), (2, .paymentCompleted, 1, .sent)],
        [.orderCreated, .orderCreated, .paymentCompleted]) by decide)
  exact ⟨s, hs, Reach.init.run hs, (Prod.mk.inj he).1, (Prod.mk.inj he).2⟩

end MsaSaga.System
