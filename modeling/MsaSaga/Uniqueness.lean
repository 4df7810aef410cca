import MsaSaga.Lineage
import Mathlib

/-!
# One payment, one reservation and one delivery per order

The Order outbox holds one `OrderCreated` per order, so the idempotency key `payment-<o>-<e>`
of a payment of order `o` is determined by `o`, and the unique index lets one payment of the
order in. Only the execution that created it can commit a `PaymentCompleted` for the order,
and at most once; so every `PaymentCompleted` of `o` is one row, and the key
`stock-reservation-<o>-<e>` of a reservation of `o` is again determined by `o`. A pending
reservation under a key makes the others inserting it wait, so one reservation of the order
is ever committed or pending, and it comes with at most one `StockReserved`. The same
argument, one stage further, gives one delivery and one `DeliveryStarted` per order.
-/
namespace MsaSaga.System
open Events Schema Executions OrderService PaymentService InventoryService DeliveryService

/-- The total of a quantity over a pool after one thread moved: the moved thread's share is
replaced by its successor's, none if it returned. -/
theorem sum_advance {τ : Type} (f : τ → Nat) {ts : List τ} {j : Nat} {t : τ} (ht : ts[j]? = some t)
    (t' : Option τ) : ((advance ts j t').map f).sum + f t = (ts.map f).sum + (t'.map f).getD 0 := by
  induction ts generalizing j with
  | nil => simp at ht
  | cons a ts ih =>
      cases j with
      | zero =>
          obtain rfl : a = t := by simpa using ht
          cases t' <;> simp [advance] <;> omega
      | succ j =>
          have := ih (j := j) (by simpa using ht)
          cases t' <;> simp only [advance, List.eraseIdx_cons_succ, List.set_cons_succ, List.map_cons,
            List.sum_cons] at this ⊢ <;> omega

theorem sum_eraseIdx_le {τ : Type} (f : τ → Nat) (ts : List τ) (j : Nat) :
    ((ts.eraseIdx j).map f).sum ≤ (ts.map f).sum := by
  induction ts generalizing j with
  | nil => simp
  | cons a ts ih =>
      cases j with
      | zero => simp
      | succ j => simpa using ih j

/-- A count of rows and pending work that is at most one stays so when one thread moves and
either the rows grow by at most what the thread gives up, or no row and no other thread counts
and the successor counts at most one. -/
theorem count_advance_le_one {τ : Type} (f : τ → Nat) {ts : List τ} {j : Nat} {t : τ}
    (ht : ts[j]? = some t) (t' : Option τ) {rows rows' : Nat} (h : rows + (ts.map f).sum ≤ 1)
    (hmove : rows' + (t'.map f).getD 0 ≤ rows + f t ∨
      rows' = 0 ∧ ((ts.eraseIdx j).map f).sum = 0 ∧ (t'.map f).getD 0 ≤ 1) :
    rows' + ((advance ts j t').map f).sum ≤ 1 := by
  have h₁ := sum_advance f ht t'
  rcases hmove with hle | ⟨rfl, h0, h1⟩
  · omega
  · have h₂ := sum_advance f ht none
    simp only [advance, Option.map_none', Option.getD_none] at h₂
    omega

/-- When all the elements of `l` that satisfy `p` have one key, and keys are not repeated,
at most one element satisfies `p`. -/
theorem countP_le_one_of_nodup_map {α β : Type} {f : α → β} {l : List α} (hn : (l.map f).Nodup)
    {p : α → Bool} (h : ∀ a ∈ l, ∀ b ∈ l, p a → p b → f a = f b) : l.countP p ≤ 1 := by
  induction l with
  | nil => simp
  | cons x l ih =>
      simp only [List.map_cons, List.nodup_cons, List.mem_map] at hn
      rw [List.countP_cons]
      have hl := ih hn.2 fun a ha b hb => h a (.tail _ ha) b (.tail _ hb)
      by_cases hx : p x
      · have h0 : l.countP p = 0 := List.countP_eq_zero.mpr fun a ha hpa =>
          hn.1 ⟨a, ha, h a (.tail _ ha) x (.head _) hpa hx⟩
        simp [hx, h0]
      · simpa [hx] using hl

/-- Two elements that satisfy `p` are equal when at most one element does. -/
theorem eq_of_countP_le_one {α : Type} {p : α → Bool} {l : List α} (h : l.countP p ≤ 1) {a b : α}
    (ha : a ∈ l) (hb : b ∈ l) (hpa : p a) (hpb : p b) : a = b := by
  induction l with
  | nil => simp at ha
  | cons x l ih =>
      rw [List.countP_cons] at h
      have hpos : ∀ c ∈ l, p c → l.countP p ≥ 1 := fun c hc hpc =>
        List.countP_pos_iff.mpr ⟨c, hc, hpc⟩
      rcases List.mem_cons.mp ha with rfl | ha'
      · rcases List.mem_cons.mp hb with rfl | hb'
        · rfl
        · rw [if_pos hpa] at h
          have := hpos b hb' hpb
          omega
      · rcases List.mem_cons.mp hb with rfl | hb'
        · rw [if_pos hpb] at h
          have := hpos a ha' hpa
          omega
        · exact ih (by split at h <;> omega) ha' hb'

/-! ## The counting invariants -/

/-- The Payment side: a payment's key is built from the `OrderCreated` of its order, no key
is repeated, and the `PaymentCompleted` rows of an order together with the executions that
may still commit one are no more than the order's payments. -/
structure PayCount (s : Sys) : Prop where
  keys : ∀ p ∈ s.payment.db.payments, ∃ e, s.Stored .orderCreated e ∧ p.orderId = e.orderId ∧
    p.idempotencyKey = paymentKey e.orderId e.eventId
  nodup : (s.payment.db.payments.map (·.idempotencyKey)).Nodup
  tokens : ∀ o, emitted (s.stored .payment) .paymentCompleted o +
    (s.payment.threads.map (·.token o)).sum ≤ s.payment.db.payments.countP (·.orderId = o)

/-- The Inventory side: a reservation's key is built from a `PaymentCompleted` of its order
and fits its column, an order has at most one reservation committed or pending, and no more
`StockReserved` rows than committed reservations. -/
structure ResCount (s : Sys) : Prop where
  keys : ∀ r ∈ s.inventory.db.reservations, ∃ e, s.Stored .paymentCompleted e ∧
    r.orderId = e.orderId ∧ r.idempotencyKey = reservationKey e.orderId e.eventId
  fits : ∀ r ∈ s.inventory.db.reservations, r.idempotencyKey.Fits
  rows : ∀ o, s.inventory.db.reservations.countP (·.orderId = o) +
    (s.inventory.threads.map (·.pendingFor o)).sum ≤ 1
  announced : ∀ o, emitted (s.stored .inventory) .stockReserved o ≤
    s.inventory.db.reservations.countP (·.orderId = o)

/-- The Delivery side, as the Inventory side one stage further. -/
structure DelCount (s : Sys) : Prop where
  keys : ∀ d ∈ s.delivery.db.deliveries, ∃ e, s.Stored .stockReserved e ∧
    d.orderId = e.orderId ∧ d.idempotencyKey = deliveryKey e.orderId e.eventId
  fits : ∀ d ∈ s.delivery.db.deliveries, d.idempotencyKey.Fits
  rows : ∀ o, s.delivery.db.deliveries.countP (·.orderId = o) +
    (s.delivery.threads.map (·.pendingFor o)).sum ≤ 1
  announced : ∀ o, emitted (s.stored .delivery) .deliveryStarted o ≤
    s.delivery.db.deliveries.countP (·.orderId = o)

theorem PayCount.initial (inv : List InventoryRow) : PayCount (Sys.init inv) where
  keys := by simp [Sys.init]
  nodup := by simp [Sys.init]
  tokens o := by rw [Sys.stored_init]; simp [Sys.init]

theorem ResCount.initial (inv : List InventoryRow) : ResCount (Sys.init inv) where
  keys := by simp [Sys.init]
  fits := by simp [Sys.init]
  rows := by simp [Sys.init]
  announced o := by rw [Sys.stored_init]; simp [Sys.init]

theorem DelCount.initial (inv : List InventoryRow) : DelCount (Sys.init inv) where
  keys := by simp [Sys.init]
  fits := by simp [Sys.init]
  rows := by simp [Sys.init]
  announced o := by rw [Sys.stored_init]; simp [Sys.init]

/-! ## One event per order and stage -/

/-- Two `OrderCreated` events of one order are the same event. -/
theorem OrderInv.created_unique {s : Sys} (ho : OrderInv s.order) {e e' : Event}
    (he : s.Stored .orderCreated e) (he' : s.Stored .orderCreated e')
    (h : e.orderId = e'.orderId) : e = e' :=
  congrArg Prod.snd (List.inj_on_of_nodup_map ho.unique he he' h)

theorem PayCount.rows_le_one {s : Sys} (hp : PayCount s) (ho : OrderInv s.order) (o : Nat) :
    s.payment.db.payments.countP (·.orderId = o) ≤ 1 := by
  refine countP_le_one_of_nodup_map hp.nodup fun a ha b hb hao hbo => ?_
  obtain ⟨e, he, hae, hak⟩ := hp.keys a ha
  obtain ⟨e', he', hbe, hbk⟩ := hp.keys b hb
  have : e = e' := ho.created_unique he he' (by simp_all)
  rw [hak, hbk, this]

/-- Two `PaymentCompleted` events of one order are the same event. -/
theorem PayCount.completed_unique {s : Sys} (hp : PayCount s) (ho : OrderInv s.order)
    {e e' : Event} (he : s.Stored .paymentCompleted e) (he' : s.Stored .paymentCompleted e')
    (h : e.orderId = e'.orderId) : e = e' := by
  have hle : emitted (s.stored .payment) .paymentCompleted e.orderId ≤ 1 := by
    have := hp.tokens e.orderId
    have := hp.rows_le_one ho e.orderId
    omega
  exact congrArg Prod.snd (eq_of_countP_le_one hle he he' (by simp) (by simp [h]))

/-- Two `StockReserved` events of one order are the same event. -/
theorem ResCount.reserved_unique {s : Sys} (hr : ResCount s) {e e' : Event}
    (he : s.Stored .stockReserved e) (he' : s.Stored .stockReserved e')
    (h : e.orderId = e'.orderId) : e = e' := by
  have hle : emitted (s.stored .inventory) .stockReserved e.orderId ≤ 1 := by
    have := hr.announced e.orderId
    have := hr.rows e.orderId
    omega
  exact congrArg Prod.snd (eq_of_countP_le_one hle he he' (by simp) (by simp [h]))

/-- Two `DeliveryStarted` events of one order are the same event. -/
theorem DelCount.started_unique {s : Sys} (hd : DelCount s) {e e' : Event}
    (he : s.Stored .deliveryStarted e) (he' : s.Stored .deliveryStarted e')
    (h : e.orderId = e'.orderId) : e = e' := by
  have hle : emitted (s.stored .delivery) .deliveryStarted e.orderId ≤ 1 := by
    have := hd.announced e.orderId
    have := hd.rows e.orderId
    omega
  exact congrArg Prod.snd (eq_of_countP_le_one hle he he' (by simp) (by simp [h]))

/-! ## Steps that leave a side's tables alone -/

theorem PayCount.frame {s s' : Sys} (hi : PayCount s) (hg : s.Grows s')
    (hst : s'.stored .payment = s.stored .payment)
    (hp : s'.payment.db.payments = s.payment.db.payments)
    (ht : ∀ o, (s'.payment.threads.map (·.token o)).sum ≤ (s.payment.threads.map (·.token o)).sum) :
    PayCount s' where
  keys p hp' := by
    obtain ⟨e, he, h⟩ := hi.keys p (hp ▸ hp')
    exact ⟨e, he.mono hg, h⟩
  nodup := hp ▸ hi.nodup
  tokens o := by
    have := hi.tokens o
    have := ht o
    rw [hst, hp]
    omega

theorem ResCount.frame {s s' : Sys} (hi : ResCount s) (hg : s.Grows s')
    (hst : s'.stored .inventory = s.stored .inventory)
    (hr : s'.inventory.db.reservations = s.inventory.db.reservations)
    (ht : ∀ o, (s'.inventory.threads.map (·.pendingFor o)).sum ≤
      (s.inventory.threads.map (·.pendingFor o)).sum) :
    ResCount s' where
  keys r hr' := by
    obtain ⟨e, he, h⟩ := hi.keys r (hr ▸ hr')
    exact ⟨e, he.mono hg, h⟩
  fits r hr' := hi.fits r (hr ▸ hr')
  rows o := by
    have := hi.rows o
    have := ht o
    rw [hr]
    omega
  announced o := by
    rw [hst, hr]
    exact hi.announced o

theorem DelCount.frame {s s' : Sys} (hi : DelCount s) (hg : s.Grows s')
    (hst : s'.stored .delivery = s.stored .delivery)
    (hd : s'.delivery.db.deliveries = s.delivery.db.deliveries)
    (ht : ∀ o, (s'.delivery.threads.map (·.pendingFor o)).sum ≤
      (s.delivery.threads.map (·.pendingFor o)).sum) :
    DelCount s' where
  keys d hd' := by
    obtain ⟨e, he, h⟩ := hi.keys d (hd ▸ hd')
    exact ⟨e, he.mono hg, h⟩
  fits d hd' := hi.fits d (hd ▸ hd')
  rows o := by
    have := hi.rows o
    have := ht o
    rw [hd]
    omega
  announced o := by
    rw [hst, hd]
    exact hi.announced o

/-! ## A call of a Payment execution -/

theorem PaymentDb.countP_orderId (db : PaymentDb) (o : Nat) :
    db.payments.countP (·.orderId = o) = db.keys.countP (·.1 = o) := by
  simp [PaymentDb.keys, List.countP_map, Function.comp_def]

theorem PaymentDb.map_idempotencyKey (db : PaymentDb) :
    db.payments.map (·.idempotencyKey) = db.keys.map (·.2) := by
  simp [PaymentDb.keys]

theorem PayCount.call {s : Sys} (hi : PayCount s) (hf : FlowInv s) {j : Nat} {ok : Bool}
    {r : PaymentSvc × Nat × Option Nat} (h : s.payment.call j ok s.uuid = some r) :
    PayCount { s with payment := r.1, uuid := r.2.1, consumed := s.consumed ++ marks .payment r.2.2 } := by
  have hg := (hf.call_payment h).2
  simp only [PaymentSvc.call, Option.map_eq_some'] at h
  obtain ⟨t, hj, rfl⟩ := h
  obtain ⟨hts, htopic⟩ := hf.payment t (List.getElem?_mem hj)
  generalize hst : t.step ok s.uuid s.payment.gate s.payment.db = st at hg
  obtain ⟨c', u', gate', db'⟩ := st
  obtain ⟨-, -, heff⟩ := PaymentConsumer.step_effect hts hst
  have hsum : ∀ o, ((advance s.payment.threads j c').map (·.token o)).sum + t.token o =
      (s.payment.threads.map (·.token o)).sum + tokenOf c' o := fun o => sum_advance _ hj c'
  rcases heff with ⟨hk, hle⟩ | ⟨⟨h₀, hrun, htop⟩, hout, ⟨p, hpay, hpo, hpk, hfresh⟩, htok⟩
  · -- the keys stay; the `PaymentCompleted` rows and tokens do not grow
    have hkeys : ∀ p ∈ db'.payments, ∃ e, s.Stored .orderCreated e ∧ p.orderId = e.orderId ∧
        p.idempotencyKey = paymentKey e.orderId e.eventId := by
      intro p hp
      have : (p.orderId, p.idempotencyKey) ∈ s.payment.db.keys := hk ▸ List.mem_map_of_mem _ hp
      obtain ⟨q, hq, hqo, hqk⟩ : ∃ q ∈ s.payment.db.payments,
          q.orderId = p.orderId ∧ q.idempotencyKey = p.idempotencyKey := by
        simpa [PaymentDb.keys] using this
      obtain ⟨e, he, heo, hek⟩ := hi.keys q hq
      exact ⟨e, he, hqo ▸ heo, hqk ▸ hek⟩
    have hnodup : (db'.payments.map (·.idempotencyKey)).Nodup := by
      rw [PaymentDb.map_idempotencyKey, hk, ← PaymentDb.map_idempotencyKey]
      exact hi.nodup
    have htokens : ∀ o, emitted (views db'.outbox) .paymentCompleted o +
        ((advance s.payment.threads j c').map (·.token o)).sum ≤ db'.payments.countP (·.orderId = o) := by
      intro o
      have := hi.tokens o
      have := hle o
      have := hsum o
      rw [Sys.stored_payment] at *
      rw [PaymentDb.countP_orderId, hk, ← PaymentDb.countP_orderId]
      omega
    exact ⟨fun p hp => (hkeys p hp).imp fun e ⟨he, h⟩ => ⟨he.mono hg, h⟩, hnodup, htokens⟩
  · -- `Create` stored the payment of the execution's `OrderCreated`
    have he : s.Stored .orderCreated t.event := htop ▸ htopic h₀ hrun
    have hkeys : ∀ q ∈ db'.payments, ∃ e, s.Stored .orderCreated e ∧ q.orderId = e.orderId ∧
        q.idempotencyKey = paymentKey e.orderId e.eventId := by
      rw [hpay]
      intro q hq
      rcases List.mem_append.mp hq with hq | hq
      · exact hi.keys q hq
      · obtain rfl := List.mem_singleton.mp hq
        exact ⟨t.event, he, hpo, hpk⟩
    have hnodup : (db'.payments.map (·.idempotencyKey)).Nodup := by
      rw [hpay, List.map_append]
      exact List.nodup_append.mpr ⟨hi.nodup, List.nodup_singleton _, fun k hk hk' => by
        obtain ⟨q, hq, rfl⟩ := List.mem_map.mp hk
        exact hfresh q hq (List.mem_singleton.mp hk')⟩
    have htokens : ∀ o, emitted (views db'.outbox) .paymentCompleted o +
        ((advance s.payment.threads j c').map (·.token o)).sum ≤ db'.payments.countP (·.orderId = o) := by
      intro o
      have h1 : emitted (views s.payment.db.outbox) .paymentCompleted o +
          (s.payment.threads.map (·.token o)).sum ≤ s.payment.db.payments.countP (·.orderId = o) :=
        hi.tokens o
      have h2 := hsum o
      rw [(htok o).1, (htok o).2] at h2
      rw [hout, hpay, List.countP_append]
      by_cases ho : t.event.orderId = o <;> simp [ho, hpo, List.countP_cons] at h2 ⊢ <;> omega
    exact ⟨fun p hp => (hkeys p hp).imp fun e ⟨he, h⟩ => ⟨he.mono hg, h⟩, hnodup, htokens⟩

/-! ## A call of an Inventory execution -/

theorem countP_commitReservation (tx : InvTx) (l : List StockReservation) (o : Nat) :
    (l.map tx.commitReservation).countP (·.orderId = o) = l.countP (·.orderId = o) := by
  simp [List.countP_map, Function.comp_def]

theorem ResCount.call {s : Sys} (hi : ResCount s) (hp : PayCount s) (ho : OrderInv s.order)
    (hf : FlowInv s) {j : Nat} {ok : Bool} {r : InventorySvc × Nat × Option Nat}
    (h : s.inventory.call j ok s.uuid = some r) :
    ResCount { s with inventory := r.1, uuid := r.2.1,
                      consumed := s.consumed ++ marks .inventory r.2.2 } := by
  have hg := (hf.call_inventory h).2
  simp only [InventorySvc.call, Option.map_eq_some', Option.filter_eq_some, Option.mem_def,
    Bool.not_eq_true'] at h
  obtain ⟨t, ⟨hj, hb⟩, rfl⟩ := h
  obtain ⟨hts, htopic⟩ := hf.inventory t (List.getElem?_mem hj)
  generalize hst : t.step ok s.uuid s.inventory.gate s.inventory.db = st at hg
  obtain ⟨c', u', gate', db'⟩ := st
  obtain ⟨-, heff⟩ := InventoryConsumer.step_effect hts hb hst
  have hann : ∀ o, emitted (views s.inventory.db.outbox) .stockReserved o ≤
      s.inventory.db.reservations.countP (·.orderId = o) := hi.announced
  suffices (∀ r ∈ db'.reservations, ∃ e, s.Stored .paymentCompleted e ∧ r.orderId = e.orderId ∧
        r.idempotencyKey = reservationKey e.orderId e.eventId) ∧
      (∀ r ∈ db'.reservations, r.idempotencyKey.Fits) ∧
      (∀ o, db'.reservations.countP (·.orderId = o) +
        ((advance s.inventory.threads j c').map (·.pendingFor o)).sum ≤ 1) ∧
      ∀ o, emitted (views db'.outbox) .stockReserved o ≤ db'.reservations.countP (·.orderId = o) from
    ⟨fun r hr => (this.1 r hr).imp fun e ⟨he, h⟩ => ⟨he.mono hg, h⟩, this.2.1, this.2.2.1,
      this.2.2.2⟩
  rcases heff with ⟨hres, hout, hx⟩ | ⟨rfl, hx⟩ |
    ⟨hres, hout, ⟨h₀, hrun, htop⟩, -, hfree, hothers, hone⟩
  · -- nothing is committed, and the pending reservation is kept or dropped
    have hle : ∀ o, (c'.map (·.pendingFor o)).getD 0 ≤ t.pendingFor o := by
      intro o
      cases c' with
      | none => simp
      | some x => rcases hx x rfl with h | h <;> simp [InventoryConsumer.pendingFor, h]
    refine ⟨hres ▸ hi.keys, hres ▸ hi.fits, fun o => ?_, fun o => ?_⟩
    · rw [hres]
      exact count_advance_le_one _ hj c' (hi.rows o) (.inl (by have := hle o; omega))
    · rw [hout, hres]
      exact hann o
  · -- the commit of the transaction
    have hle : ∀ o, (c'.map (·.pendingFor o)).getD 0 = 0 := by
      intro o
      cases c' with
      | none => rfl
      | some x => simp [InventoryConsumer.pendingFor, hx x rfl]
    have hrows : ∀ o, (s.inventory.db.commit t.tx).reservations.countP (·.orderId = o) =
        s.inventory.db.reservations.countP (·.orderId = o) + t.pendingFor o := by
      intro o
      simp only [InventoryDb.commit, countP_commitReservation, List.countP_append]
      rfl
    refine ⟨fun r hr => ?_, fun r hr => ?_, fun o => ?_, fun o => ?_⟩
    · obtain ⟨r₀, hr₀, rfl⟩ := List.mem_map.mp hr
      simp only [InvTx.commitReservation_orderId, InvTx.commitReservation_idempotencyKey]
      rcases List.mem_append.mp hr₀ with hr₀ | hr₀
      · exact hi.keys r₀ hr₀
      · obtain ⟨heo, hek, h₀, hrun, htop⟩ := InventoryConsumer.pending hts r₀ hr₀
        exact ⟨t.event, htop ▸ htopic h₀ hrun, heo, hek⟩
    · obtain ⟨r₀, hr₀, rfl⟩ := List.mem_map.mp hr
      rw [InvTx.commitReservation_idempotencyKey]
      exact (List.mem_append.mp hr₀).elim (hi.fits r₀) (InventoryConsumer.pending_fits hts r₀)
    · exact count_advance_le_one _ hj c' (hi.rows o) (.inl (by rw [hrows, hle]; omega))
    · have := hann o
      have := InventoryConsumer.emitted_tx hts o
      rw [hrows]
      simp only [InventoryDb.commit, views_append, emitted_append]
      omega
  · -- a pending reservation under a key no row and no other transaction holds
    have he : s.Stored .paymentCompleted t.event := htop ▸ htopic h₀ hrun
    have hK : ∀ e, s.Stored .paymentCompleted e → e.orderId = t.event.orderId →
        reservationKey e.orderId e.eventId = reservationKey t.event.orderId t.event.eventId :=
      fun e he' heo => by rw [hp.completed_unique ho he' he heo]
    have hdb : s.inventory.db.reservations.countP (·.orderId = t.event.orderId) = 0 :=
      List.countP_eq_zero.mpr fun r hr hro => by
        obtain ⟨e, he', heo, hek⟩ := hi.keys r hr
        exact hfree r hr (hek.trans (hK e he' (heo.symm.trans (by simpa using hro))))
    have hothers0 : ((s.inventory.threads.eraseIdx j).map (·.pendingFor t.event.orderId)).sum = 0 :=
      List.sum_eq_zero fun n hn => by
        obtain ⟨c₂, hc₂, rfl⟩ := List.mem_map.mp hn
        obtain ⟨hs₂, htop₂⟩ := hf.inventory c₂ (List.mem_of_mem_eraseIdx hc₂)
        refine List.countP_eq_zero.mpr fun r hr hro => ?_
        obtain ⟨heo, hek, h₂, hrun₂, ht₂⟩ := InventoryConsumer.pending hs₂ r hr
        have heo' : c₂.event.orderId = t.event.orderId := heo.symm.trans (by simpa using hro)
        exact hothers c₂ hc₂ r hr (hek.trans (hK _ (ht₂ ▸ htop₂ h₂ hrun₂) heo'))
    have hpend : ∀ o, (c'.map (·.pendingFor o)).getD 0 ≤ if t.event.orderId = o then 1 else 0 := by
      intro o
      cases c' with
      | none => simp
      | some x =>
          obtain ⟨r, hr, hro, -⟩ := hone x rfl
          by_cases ho' : t.event.orderId = o <;>
            simp [InventoryConsumer.pendingFor, hr, hro, ho', List.countP_cons]
    refine ⟨hres ▸ hi.keys, hres ▸ hi.fits, fun o => ?_, fun o => ?_⟩
    · rw [hres]
      refine count_advance_le_one _ hj c' (hi.rows o) ?_
      have := hpend o
      by_cases ho' : t.event.orderId = o
      · subst ho'
        rw [if_pos rfl] at this
        exact .inr ⟨hdb, hothers0, this⟩
      · rw [if_neg ho'] at this
        exact .inl (by omega)
    · rw [hout, hres]
      exact hann o

/-! ## A call of a Delivery execution -/

theorem DelCount.call {s : Sys} (hi : DelCount s) (hr : ResCount s) (hf : FlowInv s) {j : Nat}
    {ok : Bool} {r : DeliverySvc × Nat × Option Nat} (h : s.delivery.call j ok s.uuid = some r) :
    DelCount { s with delivery := r.1, uuid := r.2.1,
                      consumed := s.consumed ++ marks .delivery r.2.2 } := by
  have hg := (hf.call_delivery h).2
  simp only [DeliverySvc.call, Option.map_eq_some', Option.filter_eq_some, Option.mem_def,
    Bool.not_eq_true'] at h
  obtain ⟨t, ⟨hj, hb⟩, rfl⟩ := h
  obtain ⟨hts, htopic⟩ := hf.delivery t (List.getElem?_mem hj)
  generalize hst : t.step ok s.uuid s.delivery.gate s.delivery.db = st at hg
  obtain ⟨c', u', gate', db'⟩ := st
  obtain ⟨-, heff⟩ := DeliveryConsumer.step_effect hts hb hst
  have hann : ∀ o, emitted (views s.delivery.db.outbox) .deliveryStarted o ≤
      s.delivery.db.deliveries.countP (·.orderId = o) := hi.announced
  suffices (∀ d ∈ db'.deliveries, ∃ e, s.Stored .stockReserved e ∧ d.orderId = e.orderId ∧
        d.idempotencyKey = deliveryKey e.orderId e.eventId) ∧
      (∀ d ∈ db'.deliveries, d.idempotencyKey.Fits) ∧
      (∀ o, db'.deliveries.countP (·.orderId = o) +
        ((advance s.delivery.threads j c').map (·.pendingFor o)).sum ≤ 1) ∧
      ∀ o, emitted (views db'.outbox) .deliveryStarted o ≤ db'.deliveries.countP (·.orderId = o) from
    ⟨fun d hd => (this.1 d hd).imp fun e ⟨he, h⟩ => ⟨he.mono hg, h⟩, this.2.1, this.2.2.1,
      this.2.2.2⟩
  rcases heff with ⟨hdel, hout, hx⟩ | ⟨rfl, hx⟩ | ⟨hdel, hout, ⟨m₀, hrun⟩, -, hfree, hothers, hone⟩
  · -- nothing is committed, and the pending delivery is kept or dropped
    have hle : ∀ o, (c'.map (·.pendingFor o)).getD 0 ≤ t.pendingFor o := by
      intro o
      cases c' with
      | none => simp
      | some x => rcases hx x rfl with h | h <;> simp [DeliveryConsumer.pendingFor, h]
    refine ⟨hdel ▸ hi.keys, hdel ▸ hi.fits, fun o => ?_, fun o => ?_⟩
    · rw [hdel]
      exact count_advance_le_one _ hj c' (hi.rows o) (.inl (by have := hle o; omega))
    · rw [hout, hdel]
      exact hann o
  · -- the commit of the transaction
    have hle : ∀ o, (c'.map (·.pendingFor o)).getD 0 = 0 := by
      intro o
      cases c' with
      | none => rfl
      | some x => simp [DeliveryConsumer.pendingFor, hx x rfl]
    have hrows : ∀ o, (s.delivery.db.commit t.tx).deliveries.countP (·.orderId = o) =
        s.delivery.db.deliveries.countP (·.orderId = o) + t.pendingFor o := by
      intro o
      simp only [DeliveryDb.commit, List.countP_append]
      rfl
    refine ⟨fun d hd => ?_, fun d hd => ?_, fun o => ?_, fun o => ?_⟩
    · rcases List.mem_append.mp hd with hd | hd
      · exact hi.keys d hd
      · obtain ⟨heo, hek, m₀, hrun⟩ := DeliveryConsumer.pending hts d hd
        exact ⟨t.event, htopic m₀ hrun, heo, hek⟩
    · exact (List.mem_append.mp hd).elim (hi.fits d) (DeliveryConsumer.pending_fits hts d)
    · exact count_advance_le_one _ hj c' (hi.rows o) (.inl (by rw [hrows, hle]; omega))
    · have := hann o
      have := DeliveryConsumer.emitted_tx hts o
      rw [hrows]
      simp only [DeliveryDb.commit, views_append, emitted_append]
      omega
  · -- a pending delivery under a key no row and no other transaction holds
    have he : s.Stored .stockReserved t.event := htopic m₀ hrun
    have hK : ∀ e, s.Stored .stockReserved e → e.orderId = t.event.orderId →
        deliveryKey e.orderId e.eventId = deliveryKey t.event.orderId t.event.eventId :=
      fun e he' heo => by rw [hr.reserved_unique he' he heo]
    have hdb : s.delivery.db.deliveries.countP (·.orderId = t.event.orderId) = 0 :=
      List.countP_eq_zero.mpr fun d hd hdo => by
        obtain ⟨e, he', heo, hek⟩ := hi.keys d hd
        exact hfree d hd (hek.trans (hK e he' (heo.symm.trans (by simpa using hdo))))
    have hothers0 : ((s.delivery.threads.eraseIdx j).map (·.pendingFor t.event.orderId)).sum = 0 :=
      List.sum_eq_zero fun n hn => by
        obtain ⟨c₂, hc₂, rfl⟩ := List.mem_map.mp hn
        obtain ⟨hs₂, htop₂⟩ := hf.delivery c₂ (List.mem_of_mem_eraseIdx hc₂)
        refine List.countP_eq_zero.mpr fun d hd hdo => ?_
        obtain ⟨heo, hek, m₂, hrun₂⟩ := DeliveryConsumer.pending hs₂ d hd
        have heo' : c₂.event.orderId = t.event.orderId := heo.symm.trans (by simpa using hdo)
        exact hothers c₂ hc₂ d hd (hek.trans (hK _ (htop₂ m₂ hrun₂) heo'))
    have hpend : ∀ o, (c'.map (·.pendingFor o)).getD 0 ≤ if t.event.orderId = o then 1 else 0 := by
      intro o
      cases c' with
      | none => simp
      | some x =>
          obtain ⟨d, hd, hdo, -⟩ := hone x rfl
          by_cases ho' : t.event.orderId = o <;>
            simp [DeliveryConsumer.pendingFor, hd, hdo, ho', List.countP_cons]
    refine ⟨hdel ▸ hi.keys, hdel ▸ hi.fits, fun o => ?_, fun o => ?_⟩
    · rw [hdel]
      refine count_advance_le_one _ hj c' (hi.rows o) ?_
      have := hpend o
      by_cases ho' : t.event.orderId = o
      · subst ho'
        rw [if_pos rfl] at this
        exact .inr ⟨hdb, hothers0, this⟩
      · rw [if_neg ho'] at this
        exact .inl (by omega)
    · rw [hout, hdel]
      exact hann o

/-! ## Every reachable state -/

theorem PaymentConsumer.start_token (src : Nat) (msg : Message) (o : Nat) :
    ((PaymentConsumer.start src msg).toList.map (·.token o)).sum = 0 := by
  cases h : PaymentConsumer.start src msg with
  | none => rfl
  | some c => simp [(@PaymentConsumer.start_shape src msg c (by simp [h])).2.2.2 o]

theorem InventoryConsumer.start_pending (src : Nat) (msg : Message) (o : Nat) :
    ((InventoryConsumer.start src msg).toList.map (·.pendingFor o)).sum = 0 := by
  cases h : InventoryConsumer.start src msg with
  | none => rfl
  | some c => simp [(@InventoryConsumer.start_shape src msg c (by simp [h])).2.2.2 o]

theorem DeliveryConsumer.start_pending (src : Nat) (msg : Message) (o : Nat) :
    ((DeliveryConsumer.start src msg).toList.map (·.pendingFor o)).sum = 0 := by
  cases h : DeliveryConsumer.start src msg with
  | none => rfl
  | some c => simp [(@DeliveryConsumer.start_shape src msg c (by simp [h])).2.2.2 o]

/-- A step that calls no execution changes no table of rows and nothing an outbox publishes,
and the executions of a service are those it had, fewer, or new ones that hold nothing. -/
theorem Sys.step_quiet {s s' : Sys} {a : Action} (h : s.step a = some s')
    (ha : ∀ svc j ok, a ≠ .call svc j ok) :
    (∀ svc, s'.stored svc = s.stored svc) ∧
    s'.payment.db.payments = s.payment.db.payments ∧
    s'.inventory.db.reservations = s.inventory.db.reservations ∧
    s'.delivery.db.deliveries = s.delivery.db.deliveries ∧
    (∀ o, (s'.payment.threads.map (·.token o)).sum ≤ (s.payment.threads.map (·.token o)).sum) ∧
    (∀ o, (s'.inventory.threads.map (·.pendingFor o)).sum ≤
      (s.inventory.threads.map (·.pendingFor o)).sum) ∧
    (∀ o, (s'.delivery.threads.map (·.pendingFor o)).sum ≤
      (s.delivery.threads.map (·.pendingFor o)).sum) := by
  cases a with
  | request cmd =>
      cases h
      exact ⟨fun svc => by cases svc <;> rfl, rfl, rfl, rfl, fun _ => le_rfl, fun _ => le_rfl,
        fun _ => le_rfl⟩
  | call svc j ok => exact absurd rfl (ha svc j ok)
  | crash svc j =>
      simp only [Sys.step, Option.ite_none_right_eq_some, Option.some.injEq] at h
      obtain ⟨-, rfl⟩ := h
      cases svc <;>
        exact ⟨fun svc => by cases svc <;> rfl, rfl, rfl, rfl,
          fun _ => by first | exact sum_eraseIdx_le _ _ _ | exact le_rfl,
          fun _ => by first | exact sum_eraseIdx_le _ _ _ | exact le_rfl,
          fun _ => by first | exact sum_eraseIdx_le _ _ _ | exact le_rfl⟩
  | publish svc id marked =>
      simp only [Sys.step, Option.map_eq_some'] at h
      obtain ⟨r, -, rfl⟩ := h
      cases marked
      · exact ⟨fun _ => rfl, rfl, rfl, rfl, fun _ => le_rfl, fun _ => le_rfl, fun _ => le_rfl⟩
      · refine ⟨fun svc' => Sys.stored_setOutbox_markSent s svc id svc', ?_⟩
        cases svc <;>
          exact ⟨rfl, rfl, rfl, fun _ => le_rfl, fun _ => le_rfl, fun _ => le_rfl⟩
  | deliver g i =>
      simp only [Sys.step, Option.map_eq_some'] at h
      obtain ⟨m, -, rfl⟩ := h
      cases g <;>
        exact ⟨fun svc => by cases svc <;> rfl, rfl, rfl, rfl,
          fun o => by simp [Sys.deliver, PaymentSvc.deliver, PaymentConsumer.start_token],
          fun o => by simp [Sys.deliver, InventorySvc.deliver, InventoryConsumer.start_pending],
          fun o => by simp [Sys.deliver, DeliverySvc.deliver, DeliveryConsumer.start_pending]⟩
  | expire svc k =>
      cases h
      cases svc <;>
        exact ⟨fun svc => by cases svc <;> rfl, rfl, rfl, rfl, fun _ => le_rfl, fun _ => le_rfl,
          fun _ => le_rfl⟩

theorem counts_step {s s' : Sys} (ho : OrderInv s.order) (hf : FlowInv s)
    (hc : PayCount s ∧ ResCount s ∧ DelCount s) {a : Action} (h : s.step a = some s') :
    PayCount s' ∧ ResCount s' ∧ DelCount s' := by
  obtain ⟨hp, hr, hd⟩ := hc
  have hg := (hf.step ho h).2
  cases a
  case call svc j ok =>
    cases svc <;> simp only [Sys.step, Sys.call, Option.map_eq_some'] at h <;>
      obtain ⟨r, hr', rfl⟩ := h
    case order.intro.intro =>
      exact ⟨hp.frame hg rfl rfl fun _ => le_rfl, hr.frame hg rfl rfl fun _ => le_rfl,
        hd.frame hg rfl rfl fun _ => le_rfl⟩
    case payment.intro.intro =>
      exact ⟨hp.call hf hr', hr.frame hg rfl rfl fun _ => le_rfl,
        hd.frame hg rfl rfl fun _ => le_rfl⟩
    case inventory.intro.intro =>
      exact ⟨hp.frame hg rfl rfl fun _ => le_rfl, hr.call hp ho hf hr',
        hd.frame hg rfl rfl fun _ => le_rfl⟩
    case delivery.intro.intro =>
      exact ⟨hp.frame hg rfl rfl fun _ => le_rfl, hr.frame hg rfl rfl fun _ => le_rfl,
        hd.call hr hf hr'⟩
  all_goals
    obtain ⟨hst, hpay, hres, hdel, htok, hpi, hpd⟩ := Sys.step_quiet h (by simp)
    exact ⟨hp.frame hg (hst _) hpay htok, hr.frame hg (hst _) hres hpi, hd.frame hg (hst _) hdel hpd⟩

theorem counts_of_reachable {inv : List InventoryRow} {s : Sys} (h : Reachable inv s) :
    PayCount s ∧ ResCount s ∧ DelCount s := by
  induction h with
  | init => exact ⟨PayCount.initial inv, ResCount.initial inv, DelCount.initial inv⟩
  | step a hr hs ih =>
      obtain ⟨ho, hf⟩ := lineage_of_reachable hr
      exact counts_step ho hf ih hs

/-! ## Per-order uniqueness -/

/-- An event in an outbox or on the bus is a row of the outbox of the service that emits its
type. -/
theorem FlowInv.stored_of_events {s : Sys} (hf : FlowInv s) {x : EventType × Event}
    (hx : x ∈ s.events) : s.Stored x.1 x.2 := by
  rcases List.mem_append.mp hx with hx | hx
  · obtain ⟨svc, -, hx⟩ := List.mem_flatMap.mp hx
    show x ∈ s.stored (emitter x.1)
    rwa [hf.emitters svc x hx]
  · obtain ⟨m, hm, rfl⟩ := List.mem_map.mp hx
    exact hf.published m hm

/-- In every reachable state, under any delivery order, redelivery, overlapping executions
and answers of the gateway and the databases, an order has at most one payment, one
reservation and one delivery, and all its `PaymentCompleted` events, in the outboxes and on
the bus, carry one event id, as do its `StockReserved` and its `DeliveryStarted` events. -/
theorem saga_artefacts_unique_per_order {inv : List InventoryRow} {s : Sys} (h : Reachable inv s)
    (o : Nat) :
    (s.payment.db.payments.filter (·.orderId = o)).length ≤ 1 ∧
    (s.inventory.db.reservations.filter (·.orderId = o)).length ≤ 1 ∧
    (s.delivery.db.deliveries.filter (·.orderId = o)).length ≤ 1 ∧
    ∀ t ∈ [EventType.paymentCompleted, .stockReserved, .deliveryStarted],
      ∀ x ∈ s.events, ∀ y ∈ s.events, x.1 = t → y.1 = t → x.2.orderId = o → y.2.orderId = o →
        x.2.eventId = y.2.eventId := by
  obtain ⟨ho, hf⟩ := lineage_of_reachable h
  obtain ⟨hp, hr, hd⟩ := counts_of_reachable h
  refine ⟨?_, ?_, ?_, fun t ht x hx y hy hxt hyt hxo hyo => ?_⟩
  · rw [← List.countP_eq_length_filter]
    exact hp.rows_le_one ho o
  · rw [← List.countP_eq_length_filter]
    have := hr.rows o
    omega
  · rw [← List.countP_eq_length_filter]
    have := hd.rows o
    omega
  · have hsx := hf.stored_of_events hx
    have hsy := hf.stored_of_events hy
    rw [hxt] at hsx
    rw [hyt] at hsy
    have hxy : x.2.orderId = y.2.orderId := hxo.trans hyo.symm
    simp only [List.mem_cons, List.mem_singleton, List.not_mem_nil, or_false] at ht
    rcases ht with rfl | rfl | rfl
    · rw [hp.completed_unique ho hsx hsy hxy]
    · rw [hr.reserved_unique hsx hsy hxy]
    · rw [hd.started_unique hsx hsy hxy]

/-- The run in which the relay publishes the `OrderCreated` twice and the gateway declines the
first delivery and approves the second: order 1 has a `PaymentFailed` and a
`PaymentCompleted`, and still one payment, one reservation and one delivery. -/
theorem saga_artefacts_unique_after_redelivery :
    let cmd : CreateOrderCommand :=
      { userId := 1001, amount := 50000, quantity := 1, idempotencyKey := "k1" }
    let calls (svc : Service) (n : Nat) : List Action := (List.replicate n true).map (.call svc 0)
    let trace : List Action :=
      .request cmd :: calls .order 5 ++
        [.publish .order 1 false, .publish .order 1 true, .deliver .payment 0] ++
        [true, true, true, false, true, true].map (.call .payment 0) ++
        .deliver .payment 1 :: calls .payment 8 ++
        [.publish .payment 1 true, .publish .payment 2 true] ++
        .deliver .inventory 3 :: calls .inventory 9 ++
        .publish .inventory 1 true :: .deliver .delivery 4 :: calls .delivery 7
    ∃ s, runSteps Sys.step (Sys.init [⟨1, 100, 0, 0⟩]) trace = some s ∧
      Reachable [⟨1, 100, 0, 0⟩] s ∧
      s.payment.db.outbox.map (·.eventType) = [.paymentFailed, .paymentCompleted] ∧
      (s.payment.db.payments.filter (·.orderId = 1)).length ≤ 1 ∧
      (s.inventory.db.reservations.filter (·.orderId = 1)).length ≤ 1 ∧
      (s.delivery.db.deliveries.filter (·.orderId = 1)).length ≤ 1 ∧
      ∀ t ∈ [EventType.paymentCompleted, .stockReserved, .deliveryStarted],
        ∀ x ∈ s.events, ∀ y ∈ s.events, x.1 = t → y.1 = t → x.2.orderId = 1 → y.2.orderId = 1 →
          x.2.eventId = y.2.eventId := by
  intro cmd calls trace
  obtain ⟨s, hs, he⟩ := Option.map_eq_some'.mp (show
    (runSteps Sys.step (Sys.init [⟨1, 100, 0, 0⟩]) trace).map
      (fun s => s.payment.db.outbox.map (·.eventType)) =
        some [.paymentFailed, .paymentCompleted] by decide)
  have hr := Reach.init.run hs
  exact ⟨s, hs, hr, he, saga_artefacts_unique_per_order hr 1⟩

end MsaSaga.System
