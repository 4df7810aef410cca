import MsaSaga.System
import MsaSaga.Executions
import Mathlib.Data.List.Nodup

/-!
# Where every event comes from

Every event in an outbox or on the bus carries the order id and the correlation id of the
`OrderCreated` that `CreateOrder` committed for its order, and the Order outbox holds one
`OrderCreated` per order. `CreateOrder` takes its order id from the sequence and commits one
row for it; every handler builds the events it emits from the event it handles; and a relay
publishes what its outbox holds, so a message on the bus is a row of the outbox of the
service that emits its type, and a consumer execution works on such a row.
-/
namespace MsaSaga.System
open Events Schema Executions OrderService PaymentService InventoryService DeliveryService

/-- The service whose handlers write events of a type to their outbox. No handler of the
sources emits `OrderCompleted`, `OrderCanceled`, `OrderFailed` or `DeliveryFailed`; they go
with the service they are named after. -/
def emitter : EventType → Service
  | .orderCreated | .orderCompleted | .orderCanceled | .orderFailed => .order
  | .paymentCompleted | .paymentFailed | .paymentRefunded => .payment
  | .stockReserved | .stockReservationFailed | .stockRestored => .inventory
  | .deliveryStarted | .deliveryFailed => .delivery

/-- What the relay of a service can publish: the type and payload of each outbox row. -/
def Sys.stored (s : Sys) (svc : Service) : List (EventType × Event) := views (s.outbox svc)

theorem Sys.stored_order (s : Sys) : s.stored .order = views s.order.db.outbox := rfl
theorem Sys.stored_payment (s : Sys) : s.stored .payment = views s.payment.db.outbox := rfl
theorem Sys.stored_inventory (s : Sys) : s.stored .inventory = views s.inventory.db.outbox := rfl
theorem Sys.stored_delivery (s : Sys) : s.stored .delivery = views s.delivery.db.outbox := rfl

/-- An event of type `t` in the outbox of the service that emits that type. -/
def Sys.Stored (s : Sys) (t : EventType) (e : Event) : Prop := (t, e) ∈ s.stored (emitter t)

/-- `e` carries the order id and the correlation id of an `OrderCreated` of the Order outbox. -/
def Sys.Rooted (s : Sys) (e : Event) : Prop :=
  ∃ e₀, (.orderCreated, e₀) ∈ s.stored .order ∧ Copies e₀ e

/-- Every outbox of `s'` holds what the one of `s` held. -/
def Sys.Grows (s s' : Sys) : Prop := ∀ svc, s.stored svc ⊆ s'.stored svc

theorem Sys.Stored.mono {s s' : Sys} (hg : s.Grows s') {t : EventType} {e : Event}
    (h : s.Stored t e) : s'.Stored t e :=
  hg _ h

/-- Roots are `OrderCreated` rows, which stay in the Order outbox. -/
theorem Sys.Rooted.mono {s s' : Sys} (hg : s.stored .order ⊆ s'.stored .order) {e : Event}
    (h : s.Rooted e) : s'.Rooted e :=
  let ⟨e₀, h₀, hc⟩ := h
  ⟨e₀, hg h₀, hc⟩

/-- An event that copies the ids of a rooted event is rooted. -/
theorem Sys.Rooted.copies {s : Sys} {evt e : Event} (h : s.Rooted evt) (hc : Copies evt e) :
    s.Rooted e :=
  let ⟨e₀, h₀, ho, hco⟩ := h
  ⟨e₀, h₀, hc.1.trans ho, hc.2.trans hco⟩

/-! ## The invariants -/

/-- The Order service's side: its outbox holds `OrderCreated` rows only, one per order id and
below the sequence, and each `CreateOrder` in flight holds an order id that no row and no
other execution has. -/
structure OrderInv (o : OrderSvc) : Prop where
  created : ∀ x ∈ views o.db.outbox, x.1 = .orderCreated
  unique : ((views o.db.outbox).map (·.2.orderId)).Nodup
  below : ∀ x ∈ views o.db.outbox, x.2.orderId < o.db.nextOrderId
  creating : ∀ t ∈ o.threads, t.Shape ∧
    ∀ i ∈ t.held, i < o.db.nextOrderId ∧ i ∉ (views o.db.outbox).map (·.2.orderId)
  distinct : o.threads.Pairwise fun a b => ∀ i ∈ a.held, i ∉ b.held

/-- The flow of events: a published message is a row of its emitter's outbox, an outbox holds
only the types its service emits, every row is rooted, and every consumer execution works on
a row of the topic its handler serves. -/
structure FlowInv (s : Sys) : Prop where
  published : ∀ m ∈ s.bus, s.Stored m.topic m.payload
  emitters : ∀ svc, ∀ x ∈ s.stored svc, emitter x.1 = svc
  rooted : ∀ svc, ∀ x ∈ s.stored svc, s.Rooted x.2
  payment : ∀ c ∈ s.payment.threads, c.Shape ∧ ∀ h ∈ c.stage.run?, s.Stored h.topic c.event
  inventory : ∀ c ∈ s.inventory.threads, c.Shape ∧ ∀ h ∈ c.stage.run?, s.Stored h.topic c.event
  delivery : ∀ c ∈ s.delivery.threads, c.Shape ∧ ∀ _ ∈ c.stage.run?, s.Stored .stockReserved c.event

@[simp] theorem Sys.stored_init (inv : List InventoryRow) (svc : Service) :
    (Sys.init inv).stored svc = [] := by
  cases svc <;> rfl

theorem OrderInv.initial : OrderInv {} where
  created := by simp
  unique := by simp
  below := by simp
  creating := by simp
  distinct := by simp

/-! ## The Order service -/

/-- Steps that keep the Order outbox and the sequence, and start at most a thread that
holds no order. -/
theorem OrderInv.frame {o o' : OrderSvc} (hi : OrderInv o)
    (hv : views o'.db.outbox = views o.db.outbox) (hn : o'.db.nextOrderId = o.db.nextOrderId)
    (ht : o'.threads.Sublist o.threads ∨
      ∃ t, o'.threads = o.threads ++ [t] ∧ t.Shape ∧ t.held = none) : OrderInv o' := by
  refine ⟨hv ▸ hi.created, hv ▸ hi.unique, by rw [hv, hn]; exact hi.below, ?_, ?_⟩
  · rw [hv, hn]
    rcases ht with ht | ⟨t, ht, hs, hh⟩
    · exact fun t' h' => hi.creating t' (ht.subset h')
    · rw [ht]
      intro t' h'
      rcases List.mem_append.mp h' with h' | h'
      · exact hi.creating t' h'
      · obtain rfl := List.mem_singleton.mp h'
        exact ⟨hs, by simp [hh]⟩
  · rcases ht with ht | ⟨t, ht, -, hh⟩
    · exact hi.distinct.sublist ht
    · rw [ht]
      exact List.pairwise_append.mpr ⟨hi.distinct, List.pairwise_singleton _ _,
        fun a _ b hb => by simp_all⟩

theorem OrderInv.request {o : OrderSvc} (hi : OrderInv o) (cmd : CreateOrderCommand) :
    OrderInv (o.request cmd) :=
  hi.frame rfl rfl (.inr ⟨_, rfl, rfl, rfl⟩)

theorem OrderInv.deliver {o : OrderSvc} (hi : OrderInv o) (i : Nat) (m : Message) :
    OrderInv (o.deliver i m) := by
  refine hi.frame rfl rfl ?_
  cases hc : OrderConsumer.start i m with
  | none => exact .inl (by simp [OrderSvc.deliver, hc])
  | some c => exact .inr ⟨.consumer c, by simp [OrderSvc.deliver, hc], trivial, rfl⟩

theorem OrderInv.crash {o : OrderSvc} (hi : OrderInv o) (j : Nat) : OrderInv (o.crash j) :=
  hi.frame rfl rfl (.inl (List.eraseIdx_sublist _ _))

theorem OrderInv.expire {o : OrderSvc} (hi : OrderInv o) (k : Nat) : OrderInv (o.expire k) :=
  hi.frame rfl rfl (.inl (List.Sublist.refl _))

theorem OrderInv.markSent {o : OrderSvc} (hi : OrderInv o) (id : Nat) :
    OrderInv { o with db := { o.db with outbox := markSent id o.db.outbox } } :=
  hi.frame (views_markSent _ _) rfl (.inl (List.Sublist.refl _))

/-- One call of an Order execution keeps the invariant, and adds to the outbox only
`OrderCreated` rows. -/
theorem OrderInv.call {o : OrderSvc} (hi : OrderInv o) {j : Nat} {ok : Bool} {u : Nat}
    {r : OrderSvc × Nat × Option Nat} (h : o.call j ok u = some r) :
    OrderInv r.1 ∧ ∃ xs, views r.1.db.outbox = views o.db.outbox ++ xs ∧
      ∀ x ∈ xs, x.1 = .orderCreated := by
  simp only [OrderSvc.call, Option.map_eq_some'] at h
  obtain ⟨t, hj, rfl⟩ := h
  obtain ⟨hs, hheld⟩ := hi.creating t (List.getElem?_mem hj)
  have hothers : ∀ t₂ ∈ o.threads.eraseIdx j,
      (∀ i ∈ t.held, i ∉ t₂.held) ∧ ∀ i ∈ t₂.held, i ∉ t.held := fun t₂ h₂ =>
    (Pairwise.of_eraseIdx hi.distinct hj h₂).elim
      (fun h => ⟨h, fun i hi hi' => h i hi' hi⟩) (fun h => ⟨fun i hi hi' => h i hi' hi, h⟩)
  have hold : ∀ t₂ ∈ o.threads.eraseIdx j, t₂.Shape ∧
      ∀ i ∈ t₂.held, i < o.db.nextOrderId ∧ i ∉ (views o.db.outbox).map (·.2.orderId) :=
    fun t₂ h₂ => hi.creating t₂ (List.mem_of_mem_eraseIdx h₂)
  have hlt : ∀ i ∈ (views o.db.outbox).map (·.2.orderId), i < o.db.nextOrderId := fun i hi' => by
    obtain ⟨x, hx, rfl⟩ := List.mem_map.mp hi'
    exact hi.below x hx
  obtain ⟨hnew, heff⟩ := OrderThread.step_effect t ok u o.gate o.db hs
  generalize t.step ok u o.gate o.db = st at hnew heff
  obtain ⟨t', u', gate', db'⟩ := st
  dsimp only at hnew heff ⊢
  rcases heff with ⟨hout, ⟨hkeep, hn⟩ | ⟨hnone, hget, hn⟩⟩ | ⟨hout, hsome, rfl, hn⟩
  · -- a call that neither creates the order nor commits
    have hcre : ∀ x ∈ advance o.threads j t', x.Shape ∧
        ∀ i ∈ x.held, i < db'.nextOrderId ∧ i ∉ (views db'.outbox).map (·.2.orderId) := by
      rw [hout, hn]
      intro x hx
      rcases mem_advance hx with hx | hx
      · exact hold x hx
      · exact ⟨hnew x hx, hkeep x hx ▸ hheld⟩
    have hdis := pairwise_advance hi.distinct fun x hx t₂ h₂ => by
      rw [hkeep x hx]
      exact hothers t₂ h₂
    have hbelow : ∀ x ∈ views db'.outbox, x.2.orderId < db'.nextOrderId := by
      rw [hout, hn]
      exact hi.below
    exact ⟨⟨hout ▸ hi.created, hout ▸ hi.unique, hbelow, hcre, hdis⟩, [], by simp [hout], by simp⟩
  · -- `Create` hands the execution the next order id
    have hcre : ∀ x ∈ advance o.threads j t', x.Shape ∧
        ∀ i ∈ x.held, i < db'.nextOrderId ∧ i ∉ (views db'.outbox).map (·.2.orderId) := by
      rw [hout, hn]
      intro x hx
      rcases mem_advance hx with hx | hx
      · obtain ⟨hs₂, hh₂⟩ := hold x hx
        exact ⟨hs₂, fun i hi => ⟨Nat.lt_succ_of_lt (hh₂ i hi).1, (hh₂ i hi).2⟩⟩
      · refine ⟨hnew x hx, fun i hi => ?_⟩
        obtain rfl : o.db.nextOrderId = i := by simpa [hget x hx] using hi
        exact ⟨Nat.lt_succ_self _, fun hm => Nat.lt_irrefl _ (hlt _ hm)⟩
    have hdis := pairwise_advance hi.distinct fun x hx t₂ h₂ => by
      -- the new id is above every id another execution holds
      have hne : o.db.nextOrderId ∉ t₂.held := fun h => Nat.lt_irrefl _ ((hold t₂ h₂).2 _ h).1
      rw [hget x hx]
      exact ⟨fun i hi => Option.mem_some_iff.mp hi ▸ hne,
        fun i hi₂ hi => hne (Option.mem_some_iff.mp hi ▸ hi₂)⟩
    have hbelow : ∀ x ∈ views db'.outbox, x.2.orderId < db'.nextOrderId := by
      rw [hout, hn]
      exact fun x hx => Nat.lt_succ_of_lt (hi.below x hx)
    exact ⟨⟨hout ▸ hi.created, hout ▸ hi.unique, hbelow, hcre, hdis⟩, [], by simp [hout], by simp⟩
  · -- the commit of the `OrderCreated` row
    have hdis : (advance o.threads j none).Pairwise fun a b => ∀ i ∈ a.held, i ∉ b.held :=
      hi.distinct.sublist (List.eraseIdx_sublist _ _)
    rcases OrderThread.tx_views hs with hx | ⟨e, i, hx, hti, hei⟩
    · have hv : views db'.outbox = views o.db.outbox := by simp [hout, hx]
      have hcre : ∀ x ∈ advance o.threads j none, x.Shape ∧
          ∀ i ∈ x.held, i < db'.nextOrderId ∧ i ∉ (views db'.outbox).map (·.2.orderId) := by
        rw [hv, hn]
        exact hold
      exact ⟨⟨hv ▸ hi.created, hv ▸ hi.unique, by rw [hv, hn]; exact hi.below, hcre, hdis⟩,
        [], by simp [hv], by simp⟩
    · obtain ⟨hlti, hnot⟩ := hheld i hti
      have hv : views db'.outbox = views o.db.outbox ++ [(.orderCreated, e)] := by simp [hout, hx]
      have hids : (views db'.outbox).map (·.2.orderId) =
          (views o.db.outbox).map (·.2.orderId) ++ [i] := by simp [hv, hei]
      have hcre : ∀ x ∈ advance o.threads j none, x.Shape ∧
          ∀ i ∈ x.held, i < db'.nextOrderId ∧ i ∉ (views db'.outbox).map (·.2.orderId) := by
        rw [hids, hn]
        intro x hx'
        obtain ⟨hs₂, hh₂⟩ := hold x hx'
        refine ⟨hs₂, fun i₂ hi₂ => ⟨(hh₂ i₂ hi₂).1, ?_⟩⟩
        have hne : i₂ ≠ i := fun he => (hothers x hx').2 i₂ hi₂ (he ▸ hti)
        simpa [hne] using (hh₂ i₂ hi₂).2
      have hcreated : ∀ x ∈ views db'.outbox, x.1 = .orderCreated := by
        rw [hv]
        intro x hx'
        rcases List.mem_append.mp hx' with hx' | hx'
        · exact hi.created x hx'
        · simp_all
      have hunique : ((views db'.outbox).map (·.2.orderId)).Nodup := by
        rw [hids]
        exact List.nodup_append.mpr ⟨hi.unique, List.nodup_singleton i,
          fun a ha hb => hnot (List.mem_singleton.mp hb ▸ ha)⟩
      have hbelow : ∀ x ∈ views db'.outbox, x.2.orderId < db'.nextOrderId := by
        rw [hv, hn]
        intro x hx'
        rcases List.mem_append.mp hx' with hx' | hx'
        · exact hi.below x hx'
        · simp_all
      exact ⟨⟨hcreated, hunique, hbelow, hcre, hdis⟩, [(.orderCreated, e)], hv, by simp⟩

theorem FlowInv.initial (inv : List InventoryRow) : FlowInv (Sys.init inv) where
  published := by simp [Sys.init]
  emitters := by simp
  rooted := by simp
  payment := by simp [Sys.init]
  inventory := by simp [Sys.init]
  delivery := by simp [Sys.init]

/-! ## The flow of events -/

theorem FlowInv.rooted_of_stored {s : Sys} (hi : FlowInv s) {t : EventType} {e : Event}
    (h : s.Stored t e) : s.Rooted e :=
  hi.rooted _ (t, e) h

/-- A step keeps the flow when each outbox only grows, by rows of types its service emits that
are rooted; the bus only gains published rows; and every execution works on a published row
of its handler's topic. -/
theorem FlowInv.extend {s s' : Sys} (hi : FlowInv s)
    (hst : ∀ svc, ∃ xs, s'.stored svc = s.stored svc ++ xs ∧
      ∀ x ∈ xs, emitter x.1 = svc ∧ s'.Rooted x.2)
    (hbus : ∀ m ∈ s'.bus, s.Stored m.topic m.payload)
    (hp : ∀ c ∈ s'.payment.threads, c.Shape ∧ ∀ h ∈ c.stage.run?, s.Stored h.topic c.event)
    (hv : ∀ c ∈ s'.inventory.threads, c.Shape ∧ ∀ h ∈ c.stage.run?, s.Stored h.topic c.event)
    (hd : ∀ c ∈ s'.delivery.threads, c.Shape ∧ ∀ _ ∈ c.stage.run?, s.Stored .stockReserved c.event) :
    FlowInv s' ∧ s.Grows s' := by
  have hg : s.Grows s' := fun svc => by
    obtain ⟨xs, h, -⟩ := hst svc
    rw [h]
    exact List.subset_append_left _ _
  refine ⟨⟨fun m hm => (hbus m hm).mono hg, fun svc x hx => ?_, fun svc x hx => ?_,
    fun c hc => ⟨(hp c hc).1, fun h hh => ((hp c hc).2 h hh).mono hg⟩,
    fun c hc => ⟨(hv c hc).1, fun h hh => ((hv c hc).2 h hh).mono hg⟩,
    fun c hc => ⟨(hd c hc).1, fun h hh => ((hd c hc).2 h hh).mono hg⟩⟩, hg⟩ <;>
  · obtain ⟨xs, h, hxs⟩ := hst svc
    rw [h] at hx
    rcases List.mem_append.mp hx with hx | hx
    · first | exact hi.emitters svc x hx | exact (hi.rooted svc x hx).mono (hg .order)
    · first | exact (hxs x hx).1 | exact (hxs x hx).2

/-- The same, for a step that leaves every outbox as it was. -/
theorem FlowInv.keep {s s' : Sys} (hi : FlowInv s) (hst : ∀ svc, s'.stored svc = s.stored svc)
    (hbus : ∀ m ∈ s'.bus, s.Stored m.topic m.payload)
    (hp : ∀ c ∈ s'.payment.threads, c.Shape ∧ ∀ h ∈ c.stage.run?, s.Stored h.topic c.event)
    (hv : ∀ c ∈ s'.inventory.threads, c.Shape ∧ ∀ h ∈ c.stage.run?, s.Stored h.topic c.event)
    (hd : ∀ c ∈ s'.delivery.threads, c.Shape ∧ ∀ _ ∈ c.stage.run?, s.Stored .stockReserved c.event) :
    FlowInv s' ∧ s.Grows s' :=
  hi.extend (fun svc => ⟨[], by simp [hst], by simp⟩) hbus hp hv hd

theorem FlowInv.call_payment {s : Sys} (hi : FlowInv s) {j : Nat} {ok : Bool}
    {r : PaymentSvc × Nat × Option Nat} (h : s.payment.call j ok s.uuid = some r) :
    FlowInv { s with payment := r.1, uuid := r.2.1, consumed := s.consumed ++ marks .payment r.2.2 } ∧
      s.Grows { s with payment := r.1, uuid := r.2.1,
                       consumed := s.consumed ++ marks .payment r.2.2 } := by
  simp only [PaymentSvc.call, Option.map_eq_some'] at h
  obtain ⟨t, hj, rfl⟩ := h
  obtain ⟨hts, htopic⟩ := hi.payment t (List.getElem?_mem hj)
  generalize hst : t.step ok s.uuid s.payment.gate s.payment.db = st
  obtain ⟨c', u', gate', db'⟩ := st
  obtain ⟨hnew, hout, -⟩ := PaymentConsumer.step_effect hts hst
  refine hi.extend (fun svc => ?_) hi.published (fun c hc => ?_) hi.inventory hi.delivery
  · cases svc
    case payment =>
      rcases hout with hout | hout
      · exact ⟨[], by simp [Sys.stored, Sys.outbox, hout], by simp⟩
      · refine ⟨views t.tx, by simp [Sys.stored, Sys.outbox, hout], fun x hx => ?_⟩
        obtain ⟨hc, ht⟩ := PaymentConsumer.tx_views hts x hx
        refine ⟨by rcases ht with ht | ht | ht <;> simp [ht, emitter], ?_⟩
        cases hrun : t.stage.run? with
        | none => simp [PaymentConsumer.tx, hrun] at hx
        | some h₀ =>
            exact ((hi.rooted_of_stored (htopic h₀ hrun)).copies hc).mono (fun _ h => h)
    all_goals exact ⟨[], by simp [Sys.stored, Sys.outbox], by simp⟩
  · rcases mem_advance hc with hc | hc
    · exact hi.payment c (List.mem_of_mem_eraseIdx hc)
    · obtain ⟨hs, he, -, htop⟩ := hnew c hc
      refine ⟨hs, fun h hh => ?_⟩
      obtain ⟨h₀, h₀m, heq⟩ := htop h hh
      rw [heq, he]
      exact htopic h₀ h₀m

theorem FlowInv.call_inventory {s : Sys} (hi : FlowInv s) {j : Nat} {ok : Bool}
    {r : InventorySvc × Nat × Option Nat} (h : s.inventory.call j ok s.uuid = some r) :
    FlowInv { s with inventory := r.1, uuid := r.2.1,
                     consumed := s.consumed ++ marks .inventory r.2.2 } ∧
      s.Grows { s with inventory := r.1, uuid := r.2.1,
                       consumed := s.consumed ++ marks .inventory r.2.2 } := by
  simp only [InventorySvc.call, Option.map_eq_some', Option.filter_eq_some, Option.mem_def,
    Bool.not_eq_true'] at h
  obtain ⟨t, ⟨hj, hb⟩, rfl⟩ := h
  obtain ⟨hts, htopic⟩ := hi.inventory t (List.getElem?_mem hj)
  generalize hst : t.step ok s.uuid s.inventory.gate s.inventory.db = st
  obtain ⟨c', u', gate', db'⟩ := st
  obtain ⟨hnew, heff⟩ := InventoryConsumer.step_effect hts hb hst
  have hout : db'.outbox = s.inventory.db.outbox ∨
      db'.outbox = s.inventory.db.outbox ++ t.tx.outbox := by
    rcases heff with ⟨-, h, -⟩ | ⟨rfl, -⟩ | ⟨-, h, -⟩
    exacts [.inl h, .inr rfl, .inl h]
  refine hi.extend (fun svc => ?_) hi.published hi.payment (fun c hc => ?_) hi.delivery
  · cases svc
    case inventory =>
      rcases hout with hout | hout
      · exact ⟨[], by simp [Sys.stored, Sys.outbox, hout], by simp⟩
      · refine ⟨views t.tx.outbox, by simp [Sys.stored, Sys.outbox, hout], fun x hx => ?_⟩
        obtain ⟨hc, ht, h₀, hrun⟩ := InventoryConsumer.tx_views hts x hx
        refine ⟨by rcases ht with ht | ht | ht <;> simp [ht, emitter], ?_⟩
        exact ((hi.rooted_of_stored (htopic h₀ hrun)).copies hc).mono (fun _ h => h)
    all_goals exact ⟨[], by simp [Sys.stored, Sys.outbox], by simp⟩
  · rcases mem_advance hc with hc | hc
    · exact hi.inventory c (List.mem_of_mem_eraseIdx hc)
    · obtain ⟨hs, he, -, htop⟩ := hnew c hc
      refine ⟨hs, fun h hh => ?_⟩
      obtain ⟨h₀, h₀m, heq⟩ := htop h hh
      rw [heq, he]
      exact htopic h₀ h₀m

theorem FlowInv.call_delivery {s : Sys} (hi : FlowInv s) {j : Nat} {ok : Bool}
    {r : DeliverySvc × Nat × Option Nat} (h : s.delivery.call j ok s.uuid = some r) :
    FlowInv { s with delivery := r.1, uuid := r.2.1,
                     consumed := s.consumed ++ marks .delivery r.2.2 } ∧
      s.Grows { s with delivery := r.1, uuid := r.2.1,
                       consumed := s.consumed ++ marks .delivery r.2.2 } := by
  simp only [DeliverySvc.call, Option.map_eq_some', Option.filter_eq_some, Option.mem_def,
    Bool.not_eq_true'] at h
  obtain ⟨t, ⟨hj, hb⟩, rfl⟩ := h
  obtain ⟨hts, htopic⟩ := hi.delivery t (List.getElem?_mem hj)
  generalize hst : t.step ok s.uuid s.delivery.gate s.delivery.db = st
  obtain ⟨c', u', gate', db'⟩ := st
  obtain ⟨hnew, heff⟩ := DeliveryConsumer.step_effect hts hb hst
  have hout : db'.outbox = s.delivery.db.outbox ∨
      db'.outbox = s.delivery.db.outbox ++ t.tx.outbox := by
    rcases heff with ⟨-, h, -⟩ | ⟨rfl, -⟩ | ⟨-, h, -⟩
    exacts [.inl h, .inr rfl, .inl h]
  refine hi.extend (fun svc => ?_) hi.published hi.payment hi.inventory (fun c hc => ?_)
  · cases svc
    case delivery =>
      rcases hout with hout | hout
      · exact ⟨[], by simp [Sys.stored, Sys.outbox, hout], by simp⟩
      · refine ⟨views t.tx.outbox, by simp [Sys.stored, Sys.outbox, hout], fun x hx => ?_⟩
        obtain ⟨hc, ht, m, hrun⟩ := DeliveryConsumer.tx_views hts x hx
        refine ⟨by simp [ht, emitter], ?_⟩
        exact ((hi.rooted_of_stored (htopic m hrun)).copies hc).mono (fun _ h => h)
    all_goals exact ⟨[], by simp [Sys.stored, Sys.outbox], by simp⟩
  · rcases mem_advance hc with hc | hc
    · exact hi.delivery c (List.mem_of_mem_eraseIdx hc)
    · obtain ⟨hs, he, -, htop⟩ := hnew c hc
      refine ⟨hs, fun m hm => ?_⟩
      obtain ⟨m₀, hm₀⟩ := htop m hm
      rw [he]
      exact htopic m₀ hm₀

theorem Sys.stored_setOutbox_markSent (s : Sys) (svc : Service) (id : Nat) (svc' : Service) :
    (s.setOutbox svc (markSent id (s.outbox svc))).stored svc' = s.stored svc' := by
  cases svc <;> cases svc' <;> simp [Sys.stored, Sys.outbox, Sys.setOutbox]

/-- The relay's loop body on a row whose event is in the outbox. -/
theorem FlowInv.publishRow {s : Sys} (hi : FlowInv s) {svc : Service} {r : OutboxRow}
    (hx : (r.eventType, r.payload) ∈ s.stored svc) (marked : Bool) :
    FlowInv (s.publishRow svc r marked) ∧ s.Grows (s.publishRow svc r marked) := by
  have hbus : ∀ m ∈ s.bus ++ [⟨r.eventType, r.payload⟩], s.Stored m.topic m.payload := by
    intro m hm
    rcases List.mem_append.mp hm with hm | hm
    · exact hi.published m hm
    · obtain rfl := List.mem_singleton.mp hm
      show (r.eventType, r.payload) ∈ s.stored (emitter r.eventType)
      rwa [hi.emitters svc _ hx]
  cases marked
  · exact hi.keep (fun _ => rfl) hbus hi.payment hi.inventory hi.delivery
  · refine hi.keep (fun svc' => Sys.stored_setOutbox_markSent s svc r.id svc') hbus ?_ ?_ ?_ <;>
      cases svc <;> first | exact hi.payment | exact hi.inventory | exact hi.delivery

/-- Every step keeps the flow of events, given the Order service's invariant, and only adds
to the outboxes. -/
theorem FlowInv.step {s s' : Sys} (hi : FlowInv s) (ho : OrderInv s.order) {a : Action}
    (h : s.step a = some s') : FlowInv s' ∧ s.Grows s' := by
  cases a with
  | request cmd =>
      cases h
      exact hi.keep (fun svc => by cases svc <;> rfl) hi.published hi.payment hi.inventory
        hi.delivery
  | call svc j ok =>
      cases svc <;> simp only [Sys.step, Sys.call, Option.map_eq_some'] at h <;>
        obtain ⟨r, hr, rfl⟩ := h
      case call.order.intro.intro =>
        obtain ⟨-, xs, hxs, hoc⟩ := ho.call hr
        refine hi.extend (fun svc => ?_) hi.published hi.payment hi.inventory hi.delivery
        cases svc
        case order =>
          refine ⟨xs, hxs, fun x hx => ⟨by simp [hoc x hx, emitter], x.2, ?_, rfl, rfl⟩⟩
          have : x ∈ views r.1.db.outbox := hxs ▸ List.mem_append_right _ hx
          rwa [← hoc x hx]
        all_goals exact ⟨[], by simp [Sys.stored, Sys.outbox], by simp⟩
      case call.payment.intro.intro => exact hi.call_payment hr
      case call.inventory.intro.intro => exact hi.call_inventory hr
      case call.delivery.intro.intro => exact hi.call_delivery hr
  | crash svc j =>
      simp only [Sys.step, Option.ite_none_right_eq_some, Option.some.injEq] at h
      obtain ⟨-, rfl⟩ := h
      cases svc <;> refine hi.keep (fun svc => by cases svc <;> rfl) hi.published ?_ ?_ ?_ <;>
        first
          | exact fun c hc => hi.payment c (List.mem_of_mem_eraseIdx hc)
          | exact fun c hc => hi.inventory c (List.mem_of_mem_eraseIdx hc)
          | exact fun c hc => hi.delivery c (List.mem_of_mem_eraseIdx hc)
          | exact hi.payment
          | exact hi.inventory
          | exact hi.delivery
  | publish svc id marked =>
      obtain ⟨r, hr, rfl⟩ := Sys.step_publish.mp h
      exact hi.publishRow (List.mem_map_of_mem _ (List.mem_of_find?_eq_some hr)) marked
  | deliver g i =>
      simp only [Sys.step, Option.map_eq_some', Option.filter_eq_some, Option.mem_def] at h
      obtain ⟨m, ⟨hm, -⟩, rfl⟩ := h
      have hpub := hi.published m (List.getElem?_mem hm)
      cases g
      case order =>
        exact hi.keep (fun svc => by cases svc <;> rfl) hi.published hi.payment hi.inventory
          hi.delivery
      case payment =>
        refine hi.keep (fun svc => by cases svc <;> rfl) hi.published (fun c hc => ?_) hi.inventory
          hi.delivery
        rcases List.mem_append.mp hc with hc | hc
        · exact hi.payment c hc
        · obtain ⟨hs, he, ht, -⟩ := PaymentConsumer.start_shape hc
          exact ⟨hs, fun h hh => by rw [ht h hh, he]; exact hpub⟩
      case inventory =>
        refine hi.keep (fun svc => by cases svc <;> rfl) hi.published hi.payment (fun c hc => ?_)
          hi.delivery
        rcases List.mem_append.mp hc with hc | hc
        · exact hi.inventory c hc
        · obtain ⟨hs, he, ht, -⟩ := InventoryConsumer.start_shape hc
          exact ⟨hs, fun h hh => by rw [ht h hh, he]; exact hpub⟩
      case delivery =>
        refine hi.keep (fun svc => by cases svc <;> rfl) hi.published hi.payment hi.inventory
          (fun c hc => ?_)
        rcases List.mem_append.mp hc with hc | hc
        · exact hi.delivery c hc
        · obtain ⟨hs, he, ht, -⟩ := DeliveryConsumer.start_shape hc
          exact ⟨hs, fun _ _ => by rw [← ht, he]; exact hpub⟩
  | expire svc k =>
      cases h
      cases svc <;> exact hi.keep (fun svc => by cases svc <;> rfl) hi.published hi.payment
        hi.inventory hi.delivery

theorem OrderInv.publishRow {s : Sys} (ho : OrderInv s.order) (svc : Service) (r : OutboxRow)
    (marked : Bool) : OrderInv (s.publishRow svc r marked).order := by
  cases marked
  · exact ho
  · cases svc
    case order => exact ho.markSent r.id
    all_goals exact ho

theorem OrderInv.step {s s' : Sys} (ho : OrderInv s.order) {a : Action}
    (h : s.step a = some s') : OrderInv s'.order := by
  cases a with
  | request cmd => cases h; exact ho.request cmd
  | call svc j ok =>
      cases svc <;> simp only [Sys.step, Sys.call, Option.map_eq_some'] at h <;>
        obtain ⟨r, hr, rfl⟩ := h
      case call.order.intro.intro => exact (ho.call hr).1
      all_goals exact ho
  | crash svc j =>
      simp only [Sys.step, Option.ite_none_right_eq_some, Option.some.injEq] at h
      obtain ⟨-, rfl⟩ := h
      cases svc
      case order => exact ho.crash j
      all_goals exact ho
  | publish svc id marked =>
      obtain ⟨r, -, rfl⟩ := Sys.step_publish.mp h
      exact ho.publishRow svc r marked
  | deliver g i =>
      simp only [Sys.step, Option.map_eq_some'] at h
      obtain ⟨m, -, rfl⟩ := h
      cases g
      case order => exact ho.deliver i m
      all_goals exact ho
  | expire svc k =>
      cases h
      cases svc
      case order => exact ho.expire k
      all_goals exact ho

/-- The lineage of events in every reachable state. -/
theorem lineage_of_reachable {inv : List InventoryRow} {s : Sys} (h : Reachable inv s) :
    OrderInv s.order ∧ FlowInv s := by
  induction h with
  | init => exact ⟨OrderInv.initial, FlowInv.initial inv⟩
  | step a _ hs ih => exact ⟨ih.1.step hs, (ih.2.step ih.1 hs).1⟩

/-! ## Correlation and order ids -/

/-- Every event in an outbox or on the bus, with its type. -/
def Sys.events (s : Sys) : List (EventType × Event) :=
  Service.all.flatMap s.stored ++ s.bus.map fun m => (m.topic, m.payload)

theorem FlowInv.rooted_of_events {s : Sys} (hi : FlowInv s) {x : EventType × Event}
    (hx : x ∈ s.events) : s.Rooted x.2 := by
  rcases List.mem_append.mp hx with hx | hx
  · obtain ⟨svc, -, hx⟩ := List.mem_flatMap.mp hx
    exact hi.rooted svc x hx
  · obtain ⟨m, hm, rfl⟩ := List.mem_map.mp hx
    exact hi.rooted_of_stored (hi.published m hm)

/-- In every reachable state the Order outbox holds `OrderCreated` rows only, one per order;
every event in an outbox or on the bus carries the order id and the correlation id of the
`OrderCreated` of its order; and every row a consumer execution has yet to commit carries
those of the event it handles. -/
theorem events_carry_order_correlation {inv : List InventoryRow} {s : Sys}
    (h : Reachable inv s) :
    (∀ r ∈ s.order.db.outbox, r.eventType = .orderCreated) ∧
    (s.order.db.outbox.map (·.payload.orderId)).Nodup ∧
    (∀ x ∈ s.events, ∃ r ∈ s.order.db.outbox,
      r.payload.orderId = x.2.orderId ∧ r.payload.correlationId = x.2.correlationId) ∧
    (∀ c ∈ s.payment.threads, ∀ r ∈ c.tx, Copies c.event r.payload) ∧
    (∀ c ∈ s.inventory.threads, ∀ r ∈ c.tx.outbox, Copies c.event r.payload) ∧
    (∀ c ∈ s.delivery.threads, ∀ r ∈ c.tx.outbox, Copies c.event r.payload) := by
  obtain ⟨ho, hf⟩ := lineage_of_reachable h
  refine ⟨fun r hr => ho.created _ (List.mem_map_of_mem _ hr), by simpa [views] using ho.unique,
    fun x hx => ?_, fun c hc r hr => ?_, fun c hc r hr => ?_, fun c hc r hr => ?_⟩
  · obtain ⟨e₀, he₀, ho', hco⟩ := hf.rooted_of_events hx
    obtain ⟨r, hr, hre⟩ := List.mem_map.mp he₀
    exact ⟨r, hr, by simp_all⟩
  · exact (PaymentConsumer.tx_views (hf.payment c hc).1 _ (List.mem_map_of_mem _ hr)).1
  · exact (InventoryConsumer.tx_views (hf.inventory c hc).1 _ (List.mem_map_of_mem _ hr)).1
  · exact (DeliveryConsumer.tx_views (hf.delivery c hc).1 _ (List.mem_map_of_mem _ hr)).1

/-- An order taken, its `OrderCreated` published and paid for, and the `PaymentCompleted`
published: four events, each carrying the ids of the order's `OrderCreated`. -/
theorem events_carry_order_correlation_after_payment :
    let cmd : CreateOrderCommand :=
      { userId := 1001, amount := 50000, quantity := 1, idempotencyKey := "k1" }
    let trace : List Action :=
      .request cmd :: (List.replicate 5 true).map (.call .order 0) ++
        [.publish .order 1 true, .deliver .payment 0] ++
        (List.replicate 8 true).map (.call .payment 0) ++ [.publish .payment 1 true]
    ∃ s, runSteps Sys.step (Sys.init []) trace = some s ∧ Reachable [] s ∧
      s.events.map (·.1) = [.orderCreated, .paymentCompleted, .orderCreated, .paymentCompleted] ∧
      (∀ r ∈ s.order.db.outbox, r.eventType = .orderCreated) ∧
      (s.order.db.outbox.map (·.payload.orderId)).Nodup ∧
      (∀ x ∈ s.events, ∃ r ∈ s.order.db.outbox,
        r.payload.orderId = x.2.orderId ∧ r.payload.correlationId = x.2.correlationId) ∧
      (∀ c ∈ s.payment.threads, ∀ r ∈ c.tx, Copies c.event r.payload) ∧
      (∀ c ∈ s.inventory.threads, ∀ r ∈ c.tx.outbox, Copies c.event r.payload) ∧
      (∀ c ∈ s.delivery.threads, ∀ r ∈ c.tx.outbox, Copies c.event r.payload) := by
  intro cmd trace
  obtain ⟨s, hs, he⟩ := Option.map_eq_some'.mp (show
    (runSteps Sys.step (Sys.init []) trace).map (fun s => s.events.map (·.1)) =
      some [.orderCreated, .paymentCompleted, .orderCreated, .paymentCompleted] by decide)
  have hr := Reach.init.run hs
  exact ⟨s, hs, hr, he, events_carry_order_correlation hr⟩

end MsaSaga.System
