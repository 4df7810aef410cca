import MsaSaga.Orderly

/-!
# Orderly runs leave no order unfinished

An orderly run: every database call succeeds (the payment gateway may still decline), no
process stops, and the Order group starts on a message only when none of its executions works
on the same order, and on an order's `StockReserved` or `DeliveryStarted` only once it has
marked one of the order's `PaymentCompleted` or `StockReserved`. Republication, redelivery,
any interleaving of the other groups' executions and expiring Redis keys all stay.

Each consumer group keeps a record of what it has done (`Acted`): the handler of every message
it marked has acted on that message, and so has the handler of every message whose key its
gate holds or whose execution waits at `Reserve`. To act is to take the saga one stage on: the
Payment service charges or declines the order, the Inventory service reserves stock or reports
that it cannot, the Delivery service starts the delivery, and the Order service takes the
order to the rank of the handler. In a quiescent state every row is published and every
message marked, so the chain from each order's `OrderCreated` runs to its end.

Without the conditions on the Order group and on failing calls, quiescent states hold orders
in flight. `ConsumeClaim` marks a message once its handler has returned, whatever it returned,
and the three success handlers of the Order service update the status only from the one they
expect. Nothing orders an order's `StockReserved` after its `PaymentCompleted`: handled first,
it reads `PENDING` and returns `nil` without a write. A handler whose database call fails is
marked all the same, and nothing else will send its event again.
-/
namespace MsaSaga.System
open Events Schema Executions OrderService PaymentService InventoryService DeliveryService

/-! ## Orderly runs -/

/-- The Order group has marked a message of topic `t` for order `o`. -/
def Sys.handled (s : Sys) (t : EventType) (o : Nat) : Bool :=
  s.consumed.any fun x =>
    x.1 == .order && s.bus[x.2]?.any fun m => m.topic == t && m.payload.orderId == o

/-- The message the Order service handles first for an order: `PaymentCompleted` before
`StockReserved`, `StockReserved` before `DeliveryStarted`. -/
def before : EventType → Option EventType
  | .stockReserved => some .paymentCompleted
  | .deliveryStarted => some .stockReserved
  | _ => none

/-- The actions of an orderly run. -/
def Sys.orderly (s : Sys) : Action → Bool
  | .call .payment j ok => ok || s.payment.threads[j]?.any (·.atGateway)
  | .call .inventory j ok => ok && !(s.inventory.threads[j]?.any (·.oversized))
  | .call .delivery j ok => ok && !(s.delivery.threads[j]?.any (·.oversized))
  | .call _ _ ok => ok
  | .crash _ _ => false
  | .deliver .order i => s.bus[i]?.all fun m =>
      s.order.threads.all (·.orderId? != some m.payload.orderId) &&
        (before m.topic).all fun t => s.handled t m.payload.orderId
  | _ => true

/-- Published messages with one event id are one message. -/
def Unique (bus : List Message) : Prop :=
  ∀ m₁ ∈ bus, ∀ m₂ ∈ bus, m₁.payload.eventId = m₂.payload.eventId → m₁ = m₂

/-- What consumer group `g` has done: `D` holds of every message it marked, of every
published message whose key its gate holds, and of the message of every execution waiting at
`Reserve`. -/
structure Acted {τ : Type} (D : Message → Prop) (waits : τ → Option Nat) (g : Group)
    (consumed : List (Group × Nat)) (bus : List Message) (gate : List Nat) (threads : List τ) :
    Prop where
  marked : ∀ k, (g, k) ∈ consumed → ∃ m, bus[k]? = some m ∧ D m
  gated : ∀ e ∈ gate, (∃ m ∈ bus, m.payload.eventId = e) ∧ ∀ m ∈ bus, m.payload.eventId = e → D m
  waiting : ∀ t ∈ threads, ∀ k ∈ waits t, ∃ m, bus[k]? = some m ∧ D m

theorem getElem?_append_of_eq_some {α : Type} {l : List α} {k : Nat} {a : α}
    (h : l[k]? = some a) (l' : List α) : (l ++ l')[k]? = some a := by
  rw [List.getElem?_append_left (List.getElem?_eq_some_iff.mp h).1, h]

theorem reserveKey_cases (gate : List Nat) (ok : Bool) (e : Nat) :
    reserveKey gate ok e = gate ∨ reserveKey gate ok e = gate.insert e := by
  unfold reserveKey; split <;> simp

namespace Acted
variable {τ : Type} {D D' : Message → Prop} {waits : τ → Option Nat} {g : Group}
  {consumed : List (Group × Nat)} {bus : List Message} {gate : List Nat} {threads : List τ}

theorem initial : Acted D waits g [] [] [] ([] : List τ) :=
  ⟨by simp, by simp, by simp⟩

theorem weaken (h : Acted D waits g consumed bus gate threads) (hD : ∀ m ∈ bus, D m → D' m) :
    Acted D' waits g consumed bus gate threads where
  marked k hk :=
    let ⟨m, hm, hd⟩ := h.marked k hk
    ⟨m, hm, hD m (List.getElem?_mem hm) hd⟩
  gated e he := ⟨(h.gated e he).1, fun m hm hme => hD m hm ((h.gated e he).2 m hm hme)⟩
  waiting t ht k hk :=
    let ⟨m, hm, hd⟩ := h.waiting t ht k hk
    ⟨m, hm, hD m (List.getElem?_mem hm) hd⟩

/-- Publishing a message keeps the record while event ids stay unique. -/
theorem publish (h : Acted D waits g consumed bus gate threads) (m' : Message)
    (hu : Unique (bus ++ [m'])) : Acted D waits g consumed (bus ++ [m']) gate threads where
  marked k hk :=
    let ⟨m, hm, hd⟩ := h.marked k hk
    ⟨m, getElem?_append_of_eq_some hm _, hd⟩
  gated e he := by
    obtain ⟨⟨m, hm, hme⟩, hall⟩ := h.gated e he
    refine ⟨⟨m, List.mem_append_left _ hm, hme⟩, fun m₂ hm₂ he₂ => ?_⟩
    rw [hu m₂ hm₂ m (List.mem_append_left _ hm) (he₂.trans hme.symm)]
    exact hall m hm hme
  waiting t ht k hk :=
    let ⟨m, hm, hd⟩ := h.waiting t ht k hk
    ⟨m, getElem?_append_of_eq_some hm _, hd⟩

/-- Another group's mark keeps the record. -/
theorem mark_other (h : Acted D waits g consumed bus gate threads) {g' : Group} (hg : g' ≠ g)
    (fin : Option Nat) : Acted D waits g (consumed ++ marks g' fin) bus gate threads where
  marked k hk := by
    rcases List.mem_append.mp hk with hk | hk
    · exact h.marked k hk
    · simp [marks, hg] at hk
  gated := h.gated
  waiting := h.waiting

theorem expire (h : Acted D waits g consumed bus gate threads) (k : Nat) :
    Acted D waits g consumed bus (gate.erase k) threads :=
  ⟨h.marked, fun e he => h.gated e (List.mem_of_mem_erase he), h.waiting⟩

/-- New executions that do not wait at `Reserve` keep the record. -/
theorem deliver (h : Acted D waits g consumed bus gate threads) {new : List τ}
    (hnew : ∀ t ∈ new, waits t = none) :
    Acted D waits g consumed bus gate (threads ++ new) where
  marked := h.marked
  gated := h.gated
  waiting t ht k hk := by
    rcases List.mem_append.mp ht with ht | ht
    · exact h.waiting t ht k hk
    · simp [hnew t ht] at hk

/-- One call of execution `j` on message `k`. It skips a message whose key the gate holds,
returns from `Reserve` and adds the key, or keeps the gate; in the last case the message is
acted on once the execution returns or waits at `Reserve`. The record holds afterwards of
what `D'`, which grows from `D`, says. -/
theorem call (h : Acted D waits g consumed bus gate threads) (hD : ∀ m ∈ bus, D m → D' m)
    (hu : Unique bus) {j : Nat} {t : τ} {t' : Option τ} {k : Nat} {m : Message}
    {gate' : List Nat} (ht : threads[j]? = some t) (hk : bus[k]? = some m)
    (hsrc : ∀ x ∈ t', ∀ k' ∈ waits x, k' = k)
    (hcase : (m.payload.eventId ∈ gate ∧ t' = none ∧ gate' = gate) ∨
      (waits t = some k ∧ t' = none ∧
        (gate' = gate ∨ gate' = gate.insert m.payload.eventId)) ∨
      (gate' = gate ∧ ((t' = none ∨ ∃ x ∈ t', (waits x).isSome) → D' m))) :
    Acted D' waits g (consumed ++ marks g (if t'.isNone then some k else none)) bus gate'
      (advance threads j t') := by
  have hm : m ∈ bus := List.getElem?_mem hk
  have h' := h.weaken hD
  have hwait : waits t = some k → D' m := fun hw => by
    obtain ⟨m₀, hm₀, hd⟩ := h'.waiting t (List.getElem?_mem ht) k hw
    rwa [Option.some.inj (hk.symm.trans hm₀)]
  have hdone : (t' = none ∨ ∃ x ∈ t', (waits x).isSome) → D' m := by
    rcases hcase with ⟨he, -, -⟩ | ⟨hw, -, -⟩ | ⟨-, hd⟩
    exacts [fun _ => (h'.gated _ he).2 m hm rfl, fun _ => hwait hw, hd]
  refine ⟨fun k' hk' => ?_, fun e he => ?_, fun x hx k' hk' => ?_⟩
  · rcases List.mem_append.mp hk' with hk' | hk'
    · exact h'.marked k' hk'
    · cases t' <;> simp [marks] at hk'
      exact hk' ▸ ⟨m, hk, hdone (.inl rfl)⟩
  · rcases hcase with ⟨-, -, rfl⟩ | ⟨hw, -, rfl | rfl⟩ | ⟨rfl, -⟩
    · exact h'.gated e he
    · exact h'.gated e he
    · rcases List.mem_insert_iff.mp he with rfl | he
      · exact ⟨⟨m, hm, rfl⟩, fun m₂ hm₂ he₂ => hu m₂ hm₂ m hm he₂ ▸ hwait hw⟩
      · exact h'.gated e he
    · exact h'.gated e he
  · rcases mem_advance hx with hx | rfl
    · exact h'.waiting x (List.mem_of_mem_eraseIdx hx) k' hk'
    · obtain rfl := hsrc x rfl k' hk'
      exact ⟨m, hk, hdone (.inr ⟨x, rfl, Option.isSome_iff_exists.mpr ⟨_, hk'⟩⟩)⟩

/-- A call of an execution that takes no message keeps the record. -/
theorem idle (h : Acted D waits g consumed bus gate threads) (hD : ∀ m ∈ bus, D m → D' m)
    {j : Nat} {t' : Option τ} (hw : ∀ x ∈ t', waits x = none) :
    Acted D' waits g (consumed ++ marks g none) bus gate (advance threads j t') := by
  have h' := h.weaken hD
  refine ⟨fun k hk => h'.marked k (by simpa [marks] using hk), h'.gated, fun x hx k hk => ?_⟩
  rcases mem_advance hx with hx | rfl
  · exact h'.waiting x (List.mem_of_mem_eraseIdx hx) k hk
  · simp [hw x rfl] at hk

end Acted

/-- A published message is a row of some service: its outbox rows are what the relay
publishes. -/
theorem FlowInv.row_of_bus {s : Sys} (hf : FlowInv s) {m : Message} (hm : m ∈ s.bus) :
    ∃ r ∈ s.allRows, r.eventType = m.topic ∧ r.payload = m.payload := by
  obtain ⟨r, hr, he⟩ := List.mem_map.mp (hf.published m hm)
  simp only [Prod.mk.injEq] at he
  exact ⟨r, Sys.mem_allRows.mpr ⟨_, List.mem_append_left _ hr⟩, he⟩

/-- Event ids are unique among published messages. -/
theorem RowInv.unique {s : Sys} (hr : RowInv s) (hf : FlowInv s) : Unique s.bus := by
  intro m₁ h₁ m₂ h₂ he
  obtain ⟨r₁, hr₁, ht₁, hp₁⟩ := hf.row_of_bus h₁
  obtain ⟨r₂, hr₂, ht₂, hp₂⟩ := hf.row_of_bus h₂
  have := hr.events.2 r₁ hr₁ r₂ hr₂ (by simp only [hp₁, hp₂, he])
  simp only [Prod.mk.injEq] at this
  cases m₁; cases m₂
  simp_all

/-! ## Pools -/

theorem mem_advance_of_mem_eraseIdx {τ : Type} {ts : List τ} {j : Nat} {x : τ}
    (hj : j < ts.length) (h : x ∈ ts.eraseIdx j) (t' : Option τ) : x ∈ advance ts j t' := by
  cases t' with
  | none => exact h
  | some t =>
      induction ts generalizing j with
      | nil => simp at hj
      | cons a ts ih =>
          cases j with
          | zero => exact List.mem_cons_of_mem _ (by simpa using h)
          | succ j =>
              simp only [List.eraseIdx_cons_succ, List.mem_cons] at h
              simp only [advance, List.set_cons_succ, List.mem_cons]
              exact h.imp_right fun h => ih (by simpa using hj) h

theorem mem_advance_of_eq {τ : Type} {ts : List τ} {j : Nat} {t x : τ} (ht : ts[j]? = some t) :
    x ∈ advance ts j (some x) :=
  List.getElem?_mem (l := ts.set j x) (n := j)
    (by rw [List.getElem?_set_self (List.getElem?_eq_some_iff.mp ht).1])

theorem mem_eraseIdx_or_eq {τ : Type} {ts : List τ} {j : Nat} {t x : τ} (ht : ts[j]? = some t)
    (hx : x ∈ ts) : x ∈ ts.eraseIdx j ∨ x = t := by
  induction ts generalizing j with
  | nil => simp at hx
  | cons a ts ih =>
      cases j with
      | zero =>
          obtain rfl : a = t := by simpa using ht
          simpa [or_comm] using hx
      | succ j =>
          simp only [List.eraseIdx_cons_succ, List.mem_cons] at hx ⊢
          rcases hx with rfl | hx
          · exact .inl (.inl rfl)
          · exact (ih (by simpa using ht) hx).imp_left .inr

/-! ## Executions and their messages -/

/-- Every execution works on a published message, related to it by `P`. -/
def Linked {τ : Type} (src : τ → Nat) (P : τ → Message → Prop) (bus : List Message)
    (threads : List τ) : Prop :=
  ∀ c ∈ threads, ∃ m, bus[src c]? = some m ∧ P c m

namespace Linked
variable {τ : Type} {src : τ → Nat} {P : τ → Message → Prop} {bus : List Message}
  {threads : List τ}

theorem publish (h : Linked src P bus threads) (m' : Message) :
    Linked src P (bus ++ [m']) threads := fun c hc =>
  let ⟨m, hm, hp⟩ := h c hc
  ⟨m, getElem?_append_of_eq_some hm _, hp⟩

theorem deliver (h : Linked src P bus threads) {new : List τ} {i : Nat} {m : Message}
    (hm : bus[i]? = some m) (hnew : ∀ c ∈ new, src c = i ∧ P c m) :
    Linked src P bus (threads ++ new) := fun c hc => by
  rcases List.mem_append.mp hc with hc | hc
  · exact h c hc
  · exact ⟨m, (hnew c hc).1 ▸ hm, (hnew c hc).2⟩

/-- A call keeps every execution on its message. -/
theorem call (h : Linked src P bus threads) {j : Nat} {t : τ} {t' : Option τ}
    (ht : threads[j]? = some t) (hx : ∀ x ∈ t', src x = src t ∧ ∀ m, P t m → P x m) :
    Linked src P bus (advance threads j t') := fun c hc => by
  rcases mem_advance hc with hc | rfl
  · exact h c (List.mem_of_mem_eraseIdx hc)
  · obtain ⟨m, hm, hp⟩ := h t (List.getElem?_mem ht)
    exact ⟨m, (hx c rfl).1 ▸ hm, (hx c rfl).2 m hp⟩

end Linked

/-! ## The Payment service -/

/-- The Payment service on an orderly run: its group's record, in which to act on an
`OrderCreated` is to answer the order; every execution's message is published with the topic
of its handler; an execution at its gate check holds no token; and every payment is announced
by a `PaymentCompleted` or held by an execution that will commit one. -/
structure PaymentProgress (s : Sys) : Prop where
  acted : Acted (fun m => m.topic = .orderCreated → s.payment.db.Answered m.payload.orderId)
    PaymentConsumer.waits .payment s.consumed s.bus s.payment.gate s.payment.threads
  linked : Linked (·.src) (fun c m => m.payload = c.event ∧ ∀ h ∈ c.stage.run?, h.topic = m.topic)
    s.bus s.payment.threads
  fresh : ∀ c ∈ s.payment.threads, ∀ h, c.stage = .isProcessed h → h.emitting = false
  paid : ∀ p ∈ s.payment.db.payments,
    Announces s.payment.db.outbox [.paymentCompleted] p.orderId ∨
      ∃ c ∈ s.payment.threads, c.token p.orderId = 1

theorem PaymentProgress.call {s : Sys} (hi : PaymentProgress s) (hf : FlowInv s)
    (hp : PayCount s) (hu : Unique s.bus) {j : Nat} {ok : Bool}
    (hok : ok = true ∨ s.payment.threads[j]?.any (·.atGateway) = true)
    {r : PaymentSvc × Nat × Option Nat} (h : s.payment.call j ok s.uuid = some r) :
    PaymentProgress { s with payment := r.1, uuid := r.2.1,
                             consumed := s.consumed ++ marks .payment r.2.2 } := by
  simp only [PaymentSvc.call, Option.map_eq_some'] at h
  obtain ⟨t, hj, rfl⟩ := h
  have htm := List.getElem?_mem hj
  have hjl : j < s.payment.threads.length := (List.getElem?_eq_some_iff.mp hj).1
  obtain ⟨hts, -⟩ := hf.payment t htm
  generalize hst : t.step ok s.uuid s.payment.gate s.payment.db = st
  obtain ⟨c', u', gate', db'⟩ := st
  have hkeys : ∀ p ∈ s.payment.db.payments, p.idempotencyKey.orderId = p.orderId := by
    intro p hp'
    obtain ⟨e, -, he, hk⟩ := hp.keys p hp'
    rw [hk, he]
    rfl
  obtain ⟨hcase, htok, hnot⟩ := PaymentConsumer.step_acts hts (hi.fresh t htm)
    (by simpa [hj] using hok) hkeys hst
  obtain ⟨hnew, hout, heff⟩ := PaymentConsumer.step_effect hts hst
  obtain ⟨m, hm, hme, hmt⟩ := hi.linked t htm
  have hviews : views s.payment.db.outbox ⊆ views db'.outbox := by
    rcases hout with hout | hout <;> simp [hout]
  have hpays :
      ∀ p ∈ s.payment.db.payments, ∃ p' ∈ db'.payments, p'.orderId = p.orderId := by
    intro p hp'
    rcases heff with ⟨hk, -⟩ | ⟨-, -, ⟨q, hq, -⟩, -⟩
    · have : (p.orderId, p.idempotencyKey) ∈ db'.keys := hk ▸ List.mem_map_of_mem _ hp'
      obtain ⟨p', hp'', he⟩ := List.mem_map.mp this
      exact ⟨p', hp'', congrArg Prod.fst he⟩
    · exact ⟨p, by simp [hq, hp'], rfl⟩
  refine ⟨?_, ?_, ?_, ?_⟩
  · refine hi.acted.call (fun m _ hd ht => (hd ht).mono hviews hpays) hu hj hm
      (fun x hx k hk => (PaymentConsumer.waits_src hk).trans (hnew x hx).2.2.1) ?_
    rcases hcase with ⟨he, hc', -, hg⟩ | ⟨hs, hc', -, hg⟩ | ⟨hg, h₀, hh₀, hd⟩
    · exact .inl ⟨hme ▸ he, hc', hg⟩
    · exact .inr (.inl ⟨by simp [PaymentConsumer.waits, hs], hc',
        hg ▸ hme ▸ reserveKey_cases s.payment.gate ok t.event.eventId⟩)
    · refine .inr (.inr ⟨hg, fun hw htop => ?_⟩)
      rw [hme]
      exact hd (by simpa using hw) ((hmt h₀ hh₀).trans htop)
  · refine hi.linked.call hj fun x hx =>
      ⟨(hnew x hx).2.2.1, fun m ⟨hme, hmt⟩ => ⟨?_, ?_⟩⟩
    · rw [hme, (hnew x hx).2.1]
    · intro h hh
      obtain ⟨h₀, hh₀, heq⟩ := (hnew x hx).2.2.2 h hh
      exact heq.trans (hmt h₀ hh₀)
  · intro c hc h hh
    rcases mem_advance hc with hc | rfl
    · exact hi.fresh c (List.mem_of_mem_eraseIdx hc) h hh
    · exact absurd hh (hnot c rfl h)
  · -- the token of the execution that moved stays with it
    have hmoved : ∀ o, tokenOf c' o = 1 → ∃ c ∈ advance s.payment.threads j c', c.token o = 1 := by
      intro o htk
      cases c' with
      | none => simp [tokenOf] at htk
      | some x => exact ⟨x, mem_advance_of_eq hj, htk⟩
    have hold : ∀ o, (Announces s.payment.db.outbox [.paymentCompleted] o ∨
          ∃ c ∈ s.payment.threads, c.token o = 1) →
        Announces db'.outbox [.paymentCompleted] o ∨
          ∃ c ∈ advance s.payment.threads j c', c.token o = 1 := by
      rintro o (ha | ⟨c, hc, htk⟩)
      · exact .inl (ha.mono hviews)
      · rcases mem_eraseIdx_or_eq hj hc with hc | rfl
        · exact .inr ⟨c, mem_advance_of_mem_eraseIdx hjl hc c', htk⟩
        · exact (htok o htk).imp_left (hmoved o) |>.symm
    intro p hp'
    rcases heff with ⟨hk, -⟩ | ⟨-, -, ⟨q, hq, hqo, -, -⟩, htk⟩
    · have : (p.orderId, p.idempotencyKey) ∈ s.payment.db.keys :=
        hk ▸ List.mem_map_of_mem _ hp'
      obtain ⟨p₀, hp₀, he⟩ := List.mem_map.mp this
      simp only [Prod.mk.injEq] at he
      exact he.1 ▸ hold _ (hi.paid p₀ hp₀)
    · rw [hq] at hp'
      rcases List.mem_append.mp hp' with hp' | hp'
      · exact hold _ (hi.paid p hp')
      · obtain rfl := List.mem_singleton.mp hp'
        have := (htk p.orderId).2
        rw [if_pos hqo.symm] at this
        exact .inr (hmoved _ this)


/-- The relay marks rows `SENT`: what the Payment outbox publishes stays. -/
theorem PaymentProgress.mark {s : Sys} (hi : PaymentProgress s) (svc : Service) (id : Nat) :
    PaymentProgress (s.setOutbox svc (markSent id (s.outbox svc))) := by
  cases svc
  case payment =>
    have hv : views s.payment.db.outbox ⊆ views (markSent id s.payment.db.outbox) := by simp
    exact ⟨hi.acted.weaken fun m _ hd ht => (hd ht).mono hv fun p hp => ⟨p, hp, rfl⟩,
      hi.linked, hi.fresh, fun p hp => (hi.paid p hp).imp_left (·.mono hv)⟩
  all_goals exact ⟨hi.acted, hi.linked, hi.fresh, hi.paid⟩

theorem PaymentProgress.publish {s : Sys} (hi : PaymentProgress s) (m' : Message)
    (hu : Unique (s.bus ++ [m'])) : PaymentProgress { s with bus := s.bus ++ [m'] } :=
  ⟨hi.acted.publish m' hu, hi.linked.publish m', hi.fresh, hi.paid⟩

theorem PaymentProgress.deliver {s : Sys} (hi : PaymentProgress s) {i : Nat} {m : Message}
    (hm : s.bus[i]? = some m) : PaymentProgress (s.deliver .payment i m) := by
  have hnew : ∀ c ∈ (PaymentConsumer.start i m).toList, c.src = i ∧ c.event = m.payload ∧
      (∀ h ∈ c.stage.run?, h.topic = m.topic) ∧
        ∃ h, c.stage = .isProcessed h ∧ h.emitting = false := by
    intro c hc
    simp only [PaymentConsumer.start, Option.mem_toList, Option.mem_def, Option.map_eq_some'] at hc
    obtain ⟨r, hr, rfl⟩ := hc
    unfold PaymentService.runOf at hr
    split at hr <;> cases hr <;> simp_all [PaymentRun.topic, PaymentRun.emitting,
      OrderCreatedRun.emitting]
  refine ⟨hi.acted.deliver fun c hc => ?_, ?_, fun c hc h hh => ?_, fun p hp => ?_⟩
  · obtain ⟨-, -, -, h, hs, -⟩ := hnew c hc
    simp [PaymentConsumer.waits, hs]
  · exact hi.linked.deliver hm fun c hc =>
      ⟨(hnew c hc).1, (hnew c hc).2.1.symm, (hnew c hc).2.2.1⟩
  · rcases List.mem_append.mp hc with hc | hc
    · exact hi.fresh c hc h hh
    · obtain ⟨-, -, -, h', hs, he⟩ := hnew c hc
      rw [hs, Stage.isProcessed.injEq] at hh
      exact hh ▸ he
  · exact (hi.paid p hp).imp_right fun ⟨c, hc, ht⟩ => ⟨c, List.mem_append_left _ hc, ht⟩

/-- Every orderly step keeps the Payment side. -/
theorem PaymentProgress.step {s s' : Sys} (hi : PaymentProgress s) (hf : FlowInv s)
    (hp : PayCount s) (hu : Unique s.bus) (hu' : Unique s'.bus) {a : Action}
    (ho : s.orderly a) (h : s.step a = some s') : PaymentProgress s' := by
  cases a with
  | request cmd => cases h; exact ⟨hi.acted, hi.linked, hi.fresh, hi.paid⟩
  | call svc j ok =>
      cases svc <;> simp only [Sys.step, Sys.call, Option.map_eq_some'] at h <;>
        obtain ⟨r, hr, rfl⟩ := h
      case call.payment.intro.intro => exact hi.call hf hp hu (by simpa [Sys.orderly] using ho) hr
      all_goals exact ⟨hi.acted.mark_other (by decide) _, hi.linked, hi.fresh, hi.paid⟩
  | crash svc j => simp [Sys.orderly] at ho
  | publish svc id marked =>
      simp only [Sys.step, Option.map_eq_some'] at h
      obtain ⟨r, -, rfl⟩ := h
      cases marked
      · exact hi.publish _ hu'
      · rw [if_pos rfl, Sys.setOutbox_bus]
        exact (hi.publish _ hu').mark svc id
  | deliver g i =>
      simp only [Sys.step, Option.map_eq_some', Option.filter_eq_some, Option.mem_def] at h
      obtain ⟨m, ⟨hm, -⟩, rfl⟩ := h
      cases g
      case payment => exact hi.deliver hm
      all_goals exact ⟨hi.acted, hi.linked, hi.fresh, hi.paid⟩
  | expire svc k =>
      cases h
      cases svc
      case payment => exact ⟨hi.acted.expire k, hi.linked, hi.fresh, hi.paid⟩
      all_goals exact ⟨hi.acted, hi.linked, hi.fresh, hi.paid⟩

/-! ## The Inventory service -/

/-- The Inventory service on an orderly run: its group's record, in which to act on a
`PaymentCompleted` is to answer the order; every execution's message is published with the
topic of its handler; and every reservation is announced. -/
structure InventoryProgress (s : Sys) : Prop where
  acted : Acted (fun m => m.topic = .paymentCompleted → s.inventory.db.Answered m.payload.orderId)
    InventoryConsumer.waits .inventory s.consumed s.bus s.inventory.gate s.inventory.threads
  linked : Linked (·.src) (fun c m => m.payload = c.event ∧ ∀ h ∈ c.stage.run?, h.topic = m.topic)
    s.bus s.inventory.threads
  announced : s.inventory.db.Announced

theorem InventoryProgress.call {s : Sys} (hi : InventoryProgress s) (hf : FlowInv s)
    (hr : ResCount s) (hu : Unique s.bus) {j : Nat} {r : InventorySvc × Nat × Option Nat}
    (hov : s.inventory.threads[j]?.any (·.oversized) = false)
    (h : s.inventory.call j true s.uuid = some r) :
    InventoryProgress { s with inventory := r.1, uuid := r.2.1,
                               consumed := s.consumed ++ marks .inventory r.2.2 } := by
  simp only [InventorySvc.call, Option.map_eq_some', Option.filter_eq_some, Option.mem_def,
    Bool.not_eq_true'] at h
  obtain ⟨t, ⟨hj, hb⟩, rfl⟩ := h
  have htm := List.getElem?_mem hj
  obtain ⟨hts, -⟩ := hf.inventory t htm
  generalize hst : t.step true s.uuid s.inventory.gate s.inventory.db = st
  obtain ⟨c', u', gate', db'⟩ := st
  have hkeys : ∀ r ∈ s.inventory.db.reservations, r.idempotencyKey.orderId = r.orderId := by
    intro r hr'
    obtain ⟨e, -, he, hk⟩ := hr.keys r hr'
    rw [hk, he]
    rfl
  obtain ⟨hcase, hann⟩ := InventoryConsumer.step_acts hts hkeys (by simpa [hj] using hov) hst
  obtain ⟨hnew, heff⟩ := InventoryConsumer.step_effect hts hb hst
  obtain ⟨m, hm, hme, hmt⟩ := hi.linked t htm
  have hgrow : ∀ o, s.inventory.db.Answered o → db'.Answered o := by
    intro o ho
    rcases heff with ⟨h₁, h₂, -⟩ | ⟨rfl, -⟩ | ⟨h₁, h₂, -⟩
    exacts [ho.of_eq h₁ h₂, ho.commit _, ho.of_eq h₁ h₂]
  refine ⟨?_, ?_, hann hi.announced⟩
  · refine hi.acted.call (fun m _ hd ht => hgrow _ (hd ht)) hu hj hm
      (fun x hx k hk => (InventoryConsumer.waits_src hk).trans (hnew x hx).2.2.1) ?_
    rcases hcase with ⟨he, hc', -, hg⟩ | ⟨hs, hc', -, hg⟩ | ⟨hg, h₀, hh₀, hd⟩
    · exact .inl ⟨hme ▸ he, hc', hg⟩
    · exact .inr (.inl ⟨by simp [InventoryConsumer.waits, hs], hc',
        hg ▸ hme ▸ reserveKey_cases s.inventory.gate true t.event.eventId⟩)
    · refine .inr (.inr ⟨hg, fun hw htop => ?_⟩)
      rw [hme]
      exact hd (by simpa using hw) ((hmt h₀ hh₀).trans htop)
  · refine hi.linked.call hj fun x hx =>
      ⟨(hnew x hx).2.2.1, fun m ⟨hme, hmt⟩ => ⟨?_, ?_⟩⟩
    · rw [hme, (hnew x hx).2.1]
    · intro h hh
      obtain ⟨h₀, hh₀, heq⟩ := (hnew x hx).2.2.2 h hh
      exact heq.trans (hmt h₀ hh₀)

theorem InventoryProgress.mark {s : Sys} (hi : InventoryProgress s) (svc : Service) (id : Nat) :
    InventoryProgress (s.setOutbox svc (markSent id (s.outbox svc))) := by
  cases svc
  case inventory =>
    have hv : ∀ {ts o}, Announces s.inventory.db.outbox ts o →
        Announces (markSent id s.inventory.db.outbox) ts o := fun h => h.mono (by simp)
    refine ⟨hi.acted.weaken fun m _ hd ht => ?_, hi.linked, fun r hr => hv (hi.announced r hr)⟩
    rcases hd ht with h | h
    exacts [.inl (hv h), .inr h]
  all_goals exact ⟨hi.acted, hi.linked, hi.announced⟩

theorem InventoryProgress.deliver {s : Sys} (hi : InventoryProgress s) {i : Nat} {m : Message}
    (hm : s.bus[i]? = some m) : InventoryProgress (s.deliver .inventory i m) := by
  have hnew : ∀ c ∈ (InventoryConsumer.start i m).toList, c.src = i ∧ c.event = m.payload ∧
      (∀ h ∈ c.stage.run?, h.topic = m.topic) ∧ c.waits = none := by
    intro c hc
    simp only [InventoryConsumer.start, Option.mem_toList, Option.mem_def,
      Option.map_eq_some'] at hc
    obtain ⟨r, hr, rfl⟩ := hc
    unfold InventoryService.runOf at hr
    split at hr <;> cases hr <;> simp_all [InventoryRun.topic, InventoryConsumer.waits]
  exact ⟨hi.acted.deliver fun c hc => (hnew c hc).2.2.2,
    hi.linked.deliver hm fun c hc => ⟨(hnew c hc).1, (hnew c hc).2.1.symm, (hnew c hc).2.2.1⟩,
    hi.announced⟩

/-- Every orderly step keeps the Inventory side. -/
theorem InventoryProgress.step {s s' : Sys} (hi : InventoryProgress s) (hf : FlowInv s)
    (hr : ResCount s) (hu : Unique s.bus) (hu' : Unique s'.bus) {a : Action}
    (ho : s.orderly a) (h : s.step a = some s') : InventoryProgress s' := by
  cases a with
  | request cmd => cases h; exact ⟨hi.acted, hi.linked, hi.announced⟩
  | call svc j ok =>
      cases svc <;> simp only [Sys.step, Sys.call, Option.map_eq_some'] at h <;>
        obtain ⟨r, hr', rfl⟩ := h
      case call.inventory.intro.intro =>
        simp only [Sys.orderly, Bool.and_eq_true, Bool.not_eq_true'] at ho
        obtain ⟨rfl, hov⟩ := ho
        exact hi.call hf hr hu hov hr'
      all_goals exact ⟨hi.acted.mark_other (by decide) _, hi.linked, hi.announced⟩
  | crash svc j => simp [Sys.orderly] at ho
  | publish svc id marked =>
      simp only [Sys.step, Option.map_eq_some'] at h
      obtain ⟨r, -, rfl⟩ := h
      have hp : InventoryProgress { s with bus := s.bus ++ [⟨r.eventType, r.payload⟩] } :=
        ⟨hi.acted.publish _ hu', hi.linked.publish _, hi.announced⟩
      cases marked
      · exact hp
      · rw [if_pos rfl, Sys.setOutbox_bus]
        exact hp.mark svc id
  | deliver g i =>
      simp only [Sys.step, Option.map_eq_some', Option.filter_eq_some, Option.mem_def] at h
      obtain ⟨m, ⟨hm, -⟩, rfl⟩ := h
      cases g
      case inventory => exact hi.deliver hm
      all_goals exact ⟨hi.acted, hi.linked, hi.announced⟩
  | expire svc k =>
      cases h
      cases svc
      case inventory => exact ⟨hi.acted.expire k, hi.linked, hi.announced⟩
      all_goals exact ⟨hi.acted, hi.linked, hi.announced⟩

/-! ## The Delivery service -/

/-- The Delivery service on an orderly run, as the Inventory service one stage on. -/
structure DeliveryProgress (s : Sys) : Prop where
  acted : Acted (fun m => m.topic = .stockReserved → s.delivery.db.Answered m.payload.orderId)
    DeliveryConsumer.waits .delivery s.consumed s.bus s.delivery.gate s.delivery.threads
  linked : Linked (·.src) (fun c m => m.payload = c.event ∧ m.topic = .stockReserved)
    s.bus s.delivery.threads
  announced : s.delivery.db.Announced

theorem DeliveryProgress.call {s : Sys} (hi : DeliveryProgress s) (hf : FlowInv s)
    (hd : DelCount s) (hu : Unique s.bus) {j : Nat} {r : DeliverySvc × Nat × Option Nat}
    (hov : s.delivery.threads[j]?.any (·.oversized) = false)
    (h : s.delivery.call j true s.uuid = some r) :
    DeliveryProgress { s with delivery := r.1, uuid := r.2.1,
                              consumed := s.consumed ++ marks .delivery r.2.2 } := by
  simp only [DeliverySvc.call, Option.map_eq_some', Option.filter_eq_some, Option.mem_def,
    Bool.not_eq_true'] at h
  obtain ⟨t, ⟨hj, hb⟩, rfl⟩ := h
  have htm := List.getElem?_mem hj
  obtain ⟨hts, -⟩ := hf.delivery t htm
  generalize hst : t.step true s.uuid s.delivery.gate s.delivery.db = st
  obtain ⟨c', u', gate', db'⟩ := st
  have hkeys : ∀ d ∈ s.delivery.db.deliveries, d.idempotencyKey.orderId = d.orderId := by
    intro d hd'
    obtain ⟨e, -, he, hk⟩ := hd.keys d hd'
    rw [hk, he]
    rfl
  obtain ⟨hcase, hann⟩ := DeliveryConsumer.step_acts hts hkeys (by simpa [hj] using hov) hst
  obtain ⟨hnew, heff⟩ := DeliveryConsumer.step_effect hts hb hst
  obtain ⟨m, hm, hme, hmt⟩ := hi.linked t htm
  have hgrow : ∀ o, s.delivery.db.Answered o → db'.Answered o := by
    intro o ho
    rcases heff with ⟨h₁, h₂, -⟩ | ⟨rfl, -⟩ | ⟨h₁, h₂, -⟩
    exacts [ho.of_eq h₁ h₂, ho.commit _, ho.of_eq h₁ h₂]
  refine ⟨?_, hi.linked.call hj fun x hx => ⟨(hnew x hx).2.2.1, fun m ⟨hme, hmt⟩ =>
    ⟨by rw [hme, (hnew x hx).2.1], hmt⟩⟩, hann hi.announced⟩
  refine hi.acted.call (fun m _ hd ht => hgrow _ (hd ht)) hu hj hm
    (fun x hx k hk => (DeliveryConsumer.waits_src hk).trans (hnew x hx).2.2.1) ?_
  rcases hcase with ⟨he, hc', -, hg⟩ | ⟨hs, hc', -, hg⟩ | ⟨hg, hd⟩
  · exact .inl ⟨hme ▸ he, hc', hg⟩
  · exact .inr (.inl ⟨by simp [DeliveryConsumer.waits, hs], hc',
      hg ▸ hme ▸ reserveKey_cases s.delivery.gate true t.event.eventId⟩)
  · exact .inr (.inr ⟨hg, fun hw _ => hme ▸ hd (by simpa using hw)⟩)

theorem DeliveryProgress.mark {s : Sys} (hi : DeliveryProgress s) (svc : Service) (id : Nat) :
    DeliveryProgress (s.setOutbox svc (markSent id (s.outbox svc))) := by
  cases svc
  case delivery =>
    have hv : ∀ {ts o}, Announces s.delivery.db.outbox ts o →
        Announces (markSent id s.delivery.db.outbox) ts o := fun h => h.mono (by simp)
    refine ⟨hi.acted.weaken fun m _ hd ht => ?_, hi.linked, fun d hd => hv (hi.announced d hd)⟩
    rcases hd ht with h | h
    exacts [.inl (hv h), .inr h]
  all_goals exact ⟨hi.acted, hi.linked, hi.announced⟩

theorem DeliveryProgress.deliver {s : Sys} (hi : DeliveryProgress s) {i : Nat} {m : Message}
    (hm : s.bus[i]? = some m) : DeliveryProgress (s.deliver .delivery i m) := by
  have hnew : ∀ c ∈ (DeliveryConsumer.start i m).toList, c.src = i ∧ c.event = m.payload ∧
      m.topic = .stockReserved ∧ c.waits = none := by
    intro c hc
    simp only [DeliveryConsumer.start, Option.mem_toList, Option.mem_def,
      Option.map_eq_some'] at hc
    obtain ⟨r, hr, rfl⟩ := hc
    unfold DeliveryService.runOf at hr
    split at hr
    · cases hr
      simp_all [DeliveryConsumer.waits]
    · cases hr
  exact ⟨hi.acted.deliver fun c hc => (hnew c hc).2.2.2,
    hi.linked.deliver hm fun c hc => ⟨(hnew c hc).1, (hnew c hc).2.1.symm, (hnew c hc).2.2.1⟩,
    hi.announced⟩

/-- Every orderly step keeps the Delivery side. -/
theorem DeliveryProgress.step {s s' : Sys} (hi : DeliveryProgress s) (hf : FlowInv s)
    (hd : DelCount s) (hu : Unique s.bus) (hu' : Unique s'.bus) {a : Action}
    (ho : s.orderly a) (h : s.step a = some s') : DeliveryProgress s' := by
  cases a with
  | request cmd => cases h; exact ⟨hi.acted, hi.linked, hi.announced⟩
  | call svc j ok =>
      cases svc <;> simp only [Sys.step, Sys.call, Option.map_eq_some'] at h <;>
        obtain ⟨r, hr', rfl⟩ := h
      case call.delivery.intro.intro =>
        simp only [Sys.orderly, Bool.and_eq_true, Bool.not_eq_true'] at ho
        obtain ⟨rfl, hov⟩ := ho
        exact hi.call hf hd hu hov hr'
      all_goals exact ⟨hi.acted.mark_other (by decide) _, hi.linked, hi.announced⟩
  | crash svc j => simp [Sys.orderly] at ho
  | publish svc id marked =>
      simp only [Sys.step, Option.map_eq_some'] at h
      obtain ⟨r, -, rfl⟩ := h
      have hp : DeliveryProgress { s with bus := s.bus ++ [⟨r.eventType, r.payload⟩] } :=
        ⟨hi.acted.publish _ hu', hi.linked.publish _, hi.announced⟩
      cases marked
      · exact hp
      · rw [if_pos rfl, Sys.setOutbox_bus]
        exact hp.mark svc id
  | deliver g i =>
      simp only [Sys.step, Option.map_eq_some', Option.filter_eq_some, Option.mem_def] at h
      obtain ⟨m, ⟨hm, -⟩, rfl⟩ := h
      cases g
      case delivery => exact hi.deliver hm
      all_goals exact ⟨hi.acted, hi.linked, hi.announced⟩
  | expire svc k =>
      cases h
      cases svc
      case delivery => exact ⟨hi.acted.expire k, hi.linked, hi.announced⟩
      all_goals exact ⟨hi.acted, hi.linked, hi.announced⟩

/-! ## The Order service -/

/-- The Order service on an orderly run: its group's record, in which to act on a message is
to take the order to the rank of the message's handler; every consumer execution works on a
published message of its handler's topic; no two executions work on one order; an update an
execution is about to make reads the current row, and the order has the rank its handler
needs; the order rows have unique ids below the sequence and none is `PAYMENT_PROCESSING`;
every order has its `OrderCreated` in the outbox or is held by the `CreateOrder` that created
it; and the order of every `OrderCreated` in the outbox, and every order held, is a row. -/
structure OrderProgress (s : Sys) : Prop where
  acted : Acted (fun m => ∀ h ∈ handlerOf m.topic, h.rank ≤ s.order.db.rank m.payload.orderId)
    OrderThread.waits .order s.consumed s.bus s.order.gate s.order.threads
  linked : ∀ c, .consumer c ∈ s.order.threads → ∃ m, s.bus[c.src]? = some m ∧
    m.payload = c.event ∧ handlerOf m.topic = some c.handler
  single : s.order.threads.Pairwise fun a b => ∀ o ∈ a.orderId?, b.orderId? ≠ some o
  current : ∀ c, .consumer c ∈ s.order.threads →
    c.Current s.order.db ∧ c.handler.cause ≤ s.order.db.rank c.event.orderId
  ids : (s.order.db.orders.map (·.id)).Nodup
  below : ∀ q ∈ s.order.db.orders, q.id < s.order.db.nextOrderId
  statuses : ∀ q ∈ s.order.db.orders, q.status ≠ .paymentProcessing
  created : ∀ q ∈ s.order.db.orders, Announces s.order.db.outbox [.orderCreated] q.id ∨
    ∃ t ∈ s.order.threads, t.held = some q.id
  rows : ∀ x ∈ views s.order.db.outbox, ∃ q ∈ s.order.db.orders, q.id = x.2.orderId
  held : ∀ t ∈ s.order.threads, ∀ i ∈ t.held, ∃ q ∈ s.order.db.orders, q.id = i

/-- The order of every published message is a row. -/
theorem OrderProgress.found {s : Sys} (hi : OrderProgress s) (hf : FlowInv s) {m : Message}
    (hm : m ∈ s.bus) : (findByID s.order.db m.payload.orderId).isSome := by
  obtain ⟨e₀, h₀, ho, -⟩ := hf.rooted_of_stored (hf.published m hm)
  obtain ⟨q, hq, hid⟩ := hi.rows _ h₀
  rw [ho, ← hid]
  exact List.find?_isSome.mpr ⟨q, hq, by simp⟩

theorem orderId?_ne_symm {a b : OrderThread} (h : ∀ o ∈ a.orderId?, b.orderId? ≠ some o) :
    ∀ o ∈ b.orderId?, a.orderId? ≠ some o :=
  fun o hb ha => h o ha hb

theorem exists_id_of_ids_eq {l l' : List Order} (h : l'.map (·.id) = l.map (·.id)) {q : Order}
    (hq : q ∈ l) : ∃ q' ∈ l', q'.id = q.id := by
  have : q.id ∈ l'.map (·.id) := h ▸ List.mem_map_of_mem _ hq
  simpa using this

/-- A call of an Order consumer execution on an orderly run. -/
theorem OrderProgress.consume {s : Sys} (hi : OrderProgress s) (hf : FlowInv s)
    (hu : Unique s.bus) {j : Nat} {c : OrderConsumer}
    (hj : s.order.threads[j]? = some (.consumer c)) {r : OrderSvc × Nat × Option Nat}
    (h : s.order.call j true s.uuid = some r) :
    OrderProgress { s with order := r.1, uuid := r.2.1,
                           consumed := s.consumed ++ marks .order r.2.2 } := by
  simp only [OrderSvc.call, hj, Option.map_some', Option.some.injEq] at h
  subst h
  have hcm := List.getElem?_mem hj
  have hjl : j < s.order.threads.length := (List.getElem?_eq_some_iff.mp hj).1
  obtain ⟨m, hm, hme, hmt⟩ := hi.linked c hcm
  obtain ⟨hcur, hcause⟩ := hi.current c hcm
  have hfound : (findByID s.order.db c.event.orderId).isSome :=
    hme ▸ hi.found hf (List.getElem?_mem hm)
  generalize hst : OrderThread.step (.consumer c) true s.uuid s.order.gate s.order.db = st
  obtain ⟨t', u', gate', db'⟩ := st
  obtain ⟨hcase, hmv, hnew⟩ := OrderConsumer.step_acts hfound hcause hi.statuses hcur hst
  -- another execution works on another order
  have hother : ∀ c₂, .consumer c₂ ∈ s.order.threads.eraseIdx j →
      c₂.event.orderId ≠ c.event.orderId := by
    intro c₂ h₂ he
    rcases Pairwise.of_eraseIdx hi.single hj h₂ with h' | h'
    · exact h' _ rfl (by simp [OrderThread.orderId?, he])
    · exact h' _ rfl (by simp [OrderThread.orderId?, he])
  -- the ids of the rows stay
  have hrow : ∀ q ∈ db'.orders, ∃ q₀ ∈ s.order.db.orders, q₀.id = q.id :=
    fun q hq => exists_id_of_ids_eq hmv.ids.symm hq
  refine ⟨?_, ?_, ?_, ?_, hmv.ids ▸ hi.ids, ?_, hmv.statuses hi.statuses, ?_, ?_, ?_⟩
  · refine hi.acted.call (fun m _ hd h hh => (hd h hh).trans (hmv.rank _)) hu hj hm
      (fun x hx k hk => ?_) ?_
    · obtain ⟨c₂, rfl, -, rfl⟩ := OrderThread.waits_eq_some hk
      obtain ⟨c', he, hsrc, -⟩ := hnew _ hx
      cases he
      exact hsrc
    · rcases hcase with ⟨he, ht', -, hg⟩ | ⟨hs, ht', -, hg⟩ | ⟨hg, hd⟩
      · exact .inl ⟨hme ▸ he, ht', hg⟩
      · exact .inr (.inl ⟨by simp [OrderThread.waits, hs], ht',
          hg ▸ hme ▸ reserveKey_cases s.order.gate true c.event.eventId⟩)
      · refine .inr (.inr ⟨hg, fun hw h hh => ?_⟩)
        rw [hmt, Option.mem_def, Option.some.injEq] at hh
        subst hh
        rw [hme]
        refine hd (hw.imp_right fun ⟨x, hx, hxw⟩ => ?_)
        obtain ⟨k, hk⟩ := Option.isSome_iff_exists.mp hxw
        obtain ⟨c₂, rfl, hs, -⟩ := OrderThread.waits_eq_some hk
        exact ⟨c₂, hx, hs⟩
  · intro c₂ hc₂
    rcases mem_advance hc₂ with hc₂ | hc₂
    · exact hi.linked c₂ (List.mem_of_mem_eraseIdx hc₂)
    · obtain ⟨c', he, hsrc, hev, hh, -⟩ := hnew _ hc₂
      cases he
      exact ⟨m, hsrc ▸ hm, hev ▸ hme, hh ▸ hmt⟩
  · refine pairwise_advance hi.single fun x hx o ho => ?_
    obtain ⟨c', rfl, -, hev, -⟩ := hnew x hx
    have hid : OrderThread.orderId? (.consumer c') = OrderThread.orderId? (.consumer c) := by
      simp [OrderThread.orderId?, hev]
    rw [hid]
    rcases Pairwise.of_eraseIdx hi.single hj ho with h' | h'
    exacts [⟨h', orderId?_ne_symm h'⟩, ⟨orderId?_ne_symm h', h'⟩]
  · intro c₂ hc₂
    rcases mem_advance hc₂ with hc₂ | hc₂
    · obtain ⟨hcur₂, hcause₂⟩ := hi.current c₂ (List.mem_of_mem_eraseIdx hc₂)
      refine ⟨fun o y hr => ?_, hcause₂.trans (hmv.rank _)⟩
      obtain ⟨hf₂, hid, hy⟩ := hcur₂ o y hr
      exact ⟨(hmv.others _ (hid ▸ hother c₂ hc₂)).trans hf₂, hid, hy⟩
    · obtain ⟨c', he, -, hev, hh, hcur'⟩ := hnew _ hc₂
      cases he
      exact ⟨hcur', hh ▸ hev ▸ hcause.trans (hmv.rank _)⟩
  · intro q hq
    obtain ⟨q₀, hq₀, hid⟩ := hrow q hq
    rw [← hid, hmv.nextOrderId]
    exact hi.below q₀ hq₀
  · intro q hq
    obtain ⟨q₀, hq₀, hid⟩ := hrow q hq
    rw [← hid, hmv.outbox]
    refine (hi.created q₀ hq₀).imp_right fun ⟨t, ht, hth⟩ => ⟨t, ?_, hth⟩
    rcases mem_eraseIdx_or_eq hj ht with ht | rfl
    · exact mem_advance_of_mem_eraseIdx hjl ht t'
    · simp [OrderThread.held] at hth
  · intro x hx
    rw [hmv.outbox] at hx
    obtain ⟨q₀, hq₀, hid⟩ := hi.rows x hx
    obtain ⟨q, hq, hid'⟩ := exists_id_of_ids_eq hmv.ids hq₀
    exact ⟨q, hq, hid'.trans hid⟩
  · intro t ht i hi'
    rcases mem_advance ht with ht | rfl
    · obtain ⟨q₀, hq₀, hid⟩ := hi.held t (List.mem_of_mem_eraseIdx ht) i hi'
      obtain ⟨q, hq, hid'⟩ := exists_id_of_ids_eq hmv.ids hq₀
      exact ⟨q, hq, hid'.trans hid⟩
    · obtain ⟨c', rfl, -⟩ := hnew _ rfl
      simp [OrderThread.held] at hi'

/-- A call of `CreateOrder` on an orderly run. -/
theorem OrderProgress.create {s : Sys} (hi : OrderProgress s) (ho : OrderInv s.order) {j : Nat}
    {ct : CreateOrderThread} (hj : s.order.threads[j]? = some (.createOrder ct))
    {r : OrderSvc × Nat × Option Nat} (h : s.order.call j true s.uuid = some r) :
    OrderProgress { s with order := r.1, uuid := r.2.1,
                           consumed := s.consumed ++ marks .order r.2.2 } := by
  simp only [OrderSvc.call, hj, Option.map_some', Option.some.injEq] at h
  subst h
  have hcm := List.getElem?_mem hj
  have hjl : j < s.order.threads.length := (List.getElem?_eq_some_iff.mp hj).1
  have hshape : ct.Shape := (ho.creating _ hcm).1
  have hsat := CreateOrderThread.step_orderly ct s.uuid s.order.db hshape
  have hsat' := CreateOrderThread.step_sat ct true s.uuid s.order.db hshape
  simp only [OrderThread.step, OrderThread.src?, ite_self]
  generalize ct.step true s.uuid s.order.db = st at hsat hsat'
  obtain ⟨n, u', db'⟩ := st
  -- what the call did to the table and to the order the execution holds
  have hsum : (db'.orders = s.order.db.orders ∧ db'.nextOrderId = s.order.db.nextOrderId ∧
        (∀ x ∈ n.cont?, x.held = ct.held) ∧
        ∀ i ∈ ct.held, n.cont?.isSome ∨ Announces db'.outbox [.orderCreated] i) ∨
      (∃ q, db'.orders = s.order.db.orders ++ [q] ∧ q.id = s.order.db.nextOrderId ∧
        q.status = .pending ∧ db'.nextOrderId = s.order.db.nextOrderId + 1 ∧ ct.held = none ∧
        ∃ x ∈ n.cont?, x.held = some q.id) := by
    rcases n with ct' | e
    · obtain ⟨-, -, ⟨hh, hn⟩ | ⟨h₀, hh, hn⟩⟩ := hsat'
      · rcases hsat with ⟨ho', -⟩ | ⟨h₀, q, -, -, -, hq'⟩
        · exact .inl ⟨ho', hn, fun x hx => by cases hx; exact hh, fun _ _ => .inl rfl⟩
        · rw [hh, h₀] at hq'
          cases hq'
      · rcases hsat with ⟨-, hh'⟩ | ⟨h₀', q, hq, hqid, hqs, hh'⟩
        · rw [hh, h₀] at hh'
          cases hh'
        · exact .inr ⟨q, hq, hqid, hqs, hn, h₀', ct', rfl, hh'⟩
    · exact .inl ⟨hsat.1, hsat'.1, fun x hx => by simp at hx, fun i hi' => .inr (hsat.2 i hi')⟩
  have hout : db'.outbox = s.order.db.outbox ∨ db'.outbox = s.order.db.outbox ++ ct.tx := by
    rcases n with ct' | e
    · exact .inl hsat'.2.1
    · exact hsat'.2.imp_right (·.1)
  have hgrow : ∃ qs, db'.orders = s.order.db.orders ++ qs := by
    rcases hsum with ⟨ho', -⟩ | ⟨q, hq, -⟩
    exacts [⟨[], by simp [ho']⟩, ⟨[q], hq⟩]
  obtain ⟨qs, hqs⟩ := hgrow
  have hviews : views s.order.db.outbox ⊆ views db'.outbox := by
    rcases hout with hout | hout <;> simp [hout]
  have hnew :
      ∀ x ∈ n.cont?.map OrderThread.createOrder, x.waits = none ∧ x.orderId? = none := by
    intro x hx
    obtain ⟨ct', -, rfl⟩ := Option.mem_map.mp hx
    exact ⟨rfl, rfl⟩
  have hmem : ∀ q ∈ s.order.db.orders, q ∈ db'.orders := fun q hq => by
    rw [hqs]
    exact List.mem_append_left _ hq
  refine ⟨hi.acted.idle (fun m _ hd h hh => (hd h hh).trans (OrderDb.rank_append hqs _))
      fun x hx => (hnew x hx).1, fun c hc => ?_, ?_, fun c hc => ?_, ?_, ?_, ?_, ?_, ?_, ?_⟩
  · rcases mem_advance hc with hc | hc
    · exact hi.linked c (List.mem_of_mem_eraseIdx hc)
    · simp at hc
  · refine pairwise_advance hi.single fun x hx o _ => ?_
    simp [(hnew x (by simp [hx])).2]
  · rcases mem_advance hc with hc | hc
    · obtain ⟨hcur, hcause⟩ := hi.current c (List.mem_of_mem_eraseIdx hc)
      refine ⟨fun o y hr => ?_, hcause.trans (OrderDb.rank_append hqs _)⟩
      obtain ⟨hf, hid, hy⟩ := hcur o y hr
      exact ⟨findByID_append hqs hf, hid, hy⟩
    · simp at hc
  · rcases hsum with ⟨ho', -⟩ | ⟨q, hq, hqid, -⟩
    · rw [ho']
      exact hi.ids
    · rw [hq, List.map_append, List.nodup_append]
      refine ⟨hi.ids, List.nodup_singleton _, fun a ha hb => ?_⟩
      obtain ⟨q₀, hq₀, rfl⟩ := List.mem_map.mp ha
      have := hi.below q₀ hq₀
      simp only [List.map_cons, List.map_nil, List.mem_singleton] at hb
      omega
  · intro q hq
    rcases hsum with ⟨ho', hn, -⟩ | ⟨q', hq', hqid, -, hn, -⟩
    · rw [hn]
      exact hi.below q (ho' ▸ hq)
    · rw [hn]
      rw [hq'] at hq
      rcases List.mem_append.mp hq with hq | hq
      · exact Nat.lt_succ_of_lt (hi.below q hq)
      · obtain rfl := List.mem_singleton.mp hq
        omega
  · intro q hq
    rcases hsum with ⟨ho', -⟩ | ⟨q', hq', -, hqs', -⟩
    · exact hi.statuses q (ho' ▸ hq)
    · rw [hq'] at hq
      rcases List.mem_append.mp hq with hq | hq
      · exact hi.statuses q hq
      · obtain rfl := List.mem_singleton.mp hq
        simp [hqs']
  · have hkeep : ∀ i, (∃ t ∈ s.order.threads, t.held = some i) →
        Announces db'.outbox [.orderCreated] i ∨
          ∃ t ∈ advance s.order.threads j (n.cont?.map .createOrder), t.held = some i := by
      rintro i ⟨t, ht, hth⟩
      rcases mem_eraseIdx_or_eq hj ht with ht | rfl
      · exact .inr ⟨t, mem_advance_of_mem_eraseIdx hjl ht _, hth⟩
      · rcases hsum with ⟨-, -, hx, hc⟩ | ⟨-, -, -, -, -, h₀, -⟩
        · rcases hc i hth with hc | hc
          · obtain ⟨x, hx'⟩ := Option.isSome_iff_exists.mp hc
            refine .inr ⟨.createOrder x, by rw [hx']; exact mem_advance_of_eq hj, ?_⟩
            exact (hx x hx').trans hth
          · exact .inl hc
        · simp [OrderThread.held, h₀] at hth
    intro q hq
    rcases hsum with ⟨ho', -⟩ | ⟨q', hq', -, -, -, -, x, hx, hxh⟩
    · exact (hi.created q (ho' ▸ hq)).elim (fun ha => .inl (ha.mono hviews)) (hkeep _)
    · rw [hq'] at hq
      rcases List.mem_append.mp hq with hq | hq
      · exact (hi.created q hq).elim (fun ha => .inl (ha.mono hviews)) (hkeep _)
      · obtain rfl := List.mem_singleton.mp hq
        exact .inr ⟨.createOrder x, by rw [hx]; exact mem_advance_of_eq hj, hxh⟩
  · intro x hx
    have hold : ∀ x ∈ views s.order.db.outbox, ∃ q ∈ db'.orders, q.id = x.2.orderId :=
      fun x hx => let ⟨q, hq, hid⟩ := hi.rows x hx; ⟨q, hmem q hq, hid⟩
    rcases hout with hout | hout
    · exact hold x (hout ▸ hx)
    · rw [hout, views_append] at hx
      rcases List.mem_append.mp hx with hx | hx
      · exact hold x hx
      · rcases OrderThread.tx_views (t := .createOrder ct) hshape with he | ⟨e, i, he, hh, hei⟩
        · rw [show ct.tx = (OrderThread.createOrder ct).tx from rfl, he] at hx
          cases hx
        · rw [show ct.tx = (OrderThread.createOrder ct).tx from rfl, he, List.mem_singleton] at hx
          subst hx
          obtain ⟨q, hq, hid⟩ := hi.held _ hcm i hh
          exact ⟨q, hmem q hq, hid.trans hei.symm⟩
  · intro t ht i hti
    rcases mem_advance ht with ht | ht
    · obtain ⟨q, hq, hid⟩ := hi.held t (List.mem_of_mem_eraseIdx ht) i hti
      exact ⟨q, hmem q hq, hid⟩
    · obtain ⟨x, hx, rfl⟩ := Option.mem_map.mp ht
      rcases hsum with ⟨-, -, hxh, -⟩ | ⟨q, hq', -, -, -, -, x', hx', hxh'⟩
      · have : ct.held = some i := by rw [← hxh x hx]; exact hti
        obtain ⟨q, hq, hid⟩ := hi.held _ hcm i this
        exact ⟨q, hmem q hq, hid⟩
      · rw [hx'] at hx
        cases hx
        have : x.held = some i := hti
        rw [hxh', Option.some.injEq] at this
        exact ⟨q, by simp [hq'], this⟩

/-- A step that leaves the Order service and the bus as they were, and marks nothing for the
Order group, keeps the Order side. -/
theorem OrderProgress.frame {s s' : Sys} (hi : OrderProgress s) (ho : s'.order = s.order)
    (hb : s'.bus = s.bus)
    (hc : ∀ k, (Group.order, k) ∈ s'.consumed → (Group.order, k) ∈ s.consumed) :
    OrderProgress s' := by
  obtain ⟨⟨h₁, h₂, h₃⟩, h₄, h₅, h₆, h₇, h₈, h₉, h₁₀, h₁₁, h₁₂⟩ := hi
  rw [← ho, ← hb] at *
  exact ⟨⟨fun k hk => h₁ k (hc k hk), h₂, h₃⟩, h₄, h₅, h₆, h₇, h₈, h₉, h₁₀, h₁₁, h₁₂⟩

theorem OrderProgress.request {s : Sys} (hi : OrderProgress s) (cmd : CreateOrderCommand) :
    OrderProgress { s with order := s.order.request cmd } := by
  have hold : ∀ {c}, OrderThread.consumer c ∈ s.order.threads ++ [.createOrder (.start cmd)] →
      .consumer c ∈ s.order.threads := fun hc => by simpa using hc
  refine ⟨hi.acted.deliver (by simp [OrderThread.waits]), fun c hc => hi.linked c (hold hc),
    List.pairwise_append.mpr ⟨hi.single, List.pairwise_singleton _ _, ?_⟩,
    fun c hc => hi.current c (hold hc), hi.ids, hi.below, hi.statuses,
    fun q hq => (hi.created q hq).imp_right
      fun ⟨t, ht, hth⟩ => ⟨t, List.mem_append_left _ ht, hth⟩,
    hi.rows, fun t ht => ?_⟩
  · intro a _ b hb
    obtain rfl := List.mem_singleton.mp hb
    simp [OrderThread.orderId?]
  · rcases List.mem_append.mp ht with ht | ht
    · exact hi.held t ht
    · obtain rfl := List.mem_singleton.mp ht
      simp [OrderThread.held, CreateOrderThread.start, CreateOrderThread.held]

theorem OrderProgress.mark {s : Sys} (hi : OrderProgress s) (svc : Service) (id : Nat) :
    OrderProgress (s.setOutbox svc (markSent id (s.outbox svc))) := by
  cases svc
  case order =>
    simp only [Sys.setOutbox, Sys.outbox]
    exact ⟨hi.acted, hi.linked, hi.single, hi.current, hi.ids, hi.below, hi.statuses,
      fun q hq => (hi.created q hq).imp_left fun h => h.mono (by simp),
      fun x hx => hi.rows x (by simpa using hx), hi.held⟩
  all_goals exact hi.frame rfl rfl fun _ h => h

theorem OrderProgress.publish {s : Sys} (hi : OrderProgress s) (m' : Message)
    (hu : Unique (s.bus ++ [m'])) : OrderProgress { s with bus := s.bus ++ [m'] } :=
  ⟨hi.acted.publish _ hu, fun c hc =>
    let ⟨m, hm, h₁, h₂⟩ := hi.linked c hc
    ⟨m, getElem?_append_of_eq_some hm _, h₁, h₂⟩,
    hi.single, hi.current, hi.ids, hi.below, hi.statuses, hi.created, hi.rows, hi.held⟩

/-- The Order group has marked a message of topic `t` for order `o`: the order has the rank
of its handler. -/
theorem OrderProgress.handled_rank {s : Sys} (hi : OrderProgress s) {t : EventType} {o : Nat}
    (hh : s.handled t o = true) : ∀ h ∈ handlerOf t, h.rank ≤ s.order.db.rank o := by
  obtain ⟨⟨g, k⟩, hk, hx⟩ := List.any_eq_true.mp hh
  simp only [Bool.and_eq_true, beq_iff_eq] at hx
  obtain ⟨rfl, hx⟩ := hx
  obtain ⟨m, hm, hd⟩ := hi.acted.marked k hk
  simp only [hm, Option.any_some, Bool.and_eq_true, beq_iff_eq] at hx
  obtain ⟨rfl, rfl⟩ := hx
  exact hd

/-- The rank a handler needs is that of the handler of the message before its own. -/
theorem OrderHandler.cause_le_of_before {t : EventType} {h : OrderHandler}
    (ht : handlerOf t = some h) {r : Nat}
    (hb : ∀ t' ∈ before t, ∀ h' ∈ handlerOf t', h'.rank ≤ r) :
    h.cause ≤ r := by
  cases t <;> simp only [handlerOf, Option.some.injEq, reduceCtorEq] at ht <;> subst ht <;>
    simp_all [before, handlerOf, OrderHandler.cause, OrderHandler.rank]

/-- The Order group starts on a message on an orderly run. -/
theorem OrderProgress.deliver {s : Sys} (hi : OrderProgress s) {i : Nat} {m : Message}
    (hm : s.bus[i]? = some m) (hor : s.orderly (.deliver .order i)) :
    OrderProgress (s.deliver .order i m) := by
  simp only [Sys.orderly, hm, Option.all_some, Bool.and_eq_true, List.all_eq_true, bne_iff_ne,
    ne_eq] at hor
  obtain ⟨hfree, hcause⟩ := hor
  replace hcause : ∀ t ∈ before m.topic, s.handled t m.payload.orderId = true := by
    cases hb : before m.topic <;> simp_all
  cases hc : OrderConsumer.start i m with
  | none =>
      have : s.deliver .order i m = s := by simp [Sys.deliver, OrderSvc.deliver, hc]
      rw [this]
      exact hi
  | some c =>
      simp only [OrderConsumer.start, Option.map_eq_some'] at hc
      obtain ⟨h, hh, rfl⟩ := hc
      simp only [Sys.deliver, OrderSvc.deliver, OrderConsumer.start, hh, Option.map_some',
        Option.toList_some, List.map_cons, List.map_nil]
      refine ⟨hi.acted.deliver (by simp [OrderThread.waits]), fun c hc => ?_,
        List.pairwise_append.mpr ⟨hi.single, List.pairwise_singleton _ _, ?_⟩, fun c hc => ?_,
        hi.ids, hi.below, hi.statuses, fun q hq => (hi.created q hq).imp_right
          fun ⟨t, ht, hth⟩ => ⟨t, List.mem_append_left _ ht, hth⟩, hi.rows, fun t ht => ?_⟩
      · rcases List.mem_append.mp hc with hc | hc
        · exact hi.linked c hc
        · obtain rfl : c = _ := by simpa using hc
          exact ⟨m, hm, rfl, hh⟩
      · intro a ha b hb o hao hbo
        obtain rfl := List.mem_singleton.mp hb
        simp only [OrderThread.orderId?, Option.some.injEq] at hbo
        exact hfree a ha (hbo ▸ hao)
      · rcases List.mem_append.mp hc with hc | hc
        · exact hi.current c hc
        · obtain rfl : c = _ := by simpa using hc
          refine ⟨fun o y hr => by simp at hr, OrderHandler.cause_le_of_before hh ?_⟩
          intro t' ht' h' hh'
          exact hi.handled_rank (hcause t' ht') h' hh'
      · rcases List.mem_append.mp ht with ht | ht
        · exact hi.held t ht
        · obtain rfl := List.mem_singleton.mp ht
          simp [OrderThread.held]

/-- Every orderly step keeps the Order side. -/
theorem OrderProgress.step {s s' : Sys} (hi : OrderProgress s) (hf : FlowInv s)
    (ho : OrderInv s.order) (hu : Unique s.bus) (hu' : Unique s'.bus) {a : Action}
    (hor : s.orderly a) (h : s.step a = some s') : OrderProgress s' := by
  have hsame : ∀ {s' : Sys}, s'.order = s.order → s'.bus = s.bus →
      (∃ g fin, g ≠ Group.order ∧ s'.consumed = s.consumed ++ marks g fin) →
      OrderProgress s' := by
    rintro s' ho hb ⟨g, fin, hg, hc⟩
    refine hi.frame ho hb fun k hk => ?_
    rw [hc, List.mem_append] at hk
    refine hk.resolve_right fun hk => ?_
    obtain ⟨_, -, he⟩ := List.mem_map.mp hk
    exact hg (Prod.mk.inj he).1
  cases a with
  | request cmd => cases h; exact hi.request cmd
  | call svc j ok =>
      cases svc <;> simp only [Sys.step, Sys.call, Option.map_eq_some'] at h <;>
        obtain ⟨r, hr', rfl⟩ := h
      case call.order.intro.intro =>
        obtain rfl : ok = true := by simpa [Sys.orderly] using hor
        obtain ⟨t, hj, -⟩ := Option.map_eq_some'.mp hr'
        cases t with
        | createOrder ct => exact hi.create ho hj hr'
        | consumer c => exact hi.consume hf hu hj hr'
      all_goals exact hsame rfl rfl ⟨_, _, by decide, rfl⟩
  | crash svc j => simp [Sys.orderly] at hor
  | publish svc id marked =>
      simp only [Sys.step, Option.map_eq_some'] at h
      obtain ⟨r, -, rfl⟩ := h
      have hp := hi.publish ⟨r.eventType, r.payload⟩ hu'
      cases marked
      · exact hp
      · rw [if_pos rfl, Sys.setOutbox_bus]
        exact hp.mark svc id
  | deliver g i =>
      simp only [Sys.step, Option.map_eq_some', Option.filter_eq_some, Option.mem_def] at h
      obtain ⟨m, ⟨hm, -⟩, rfl⟩ := h
      cases g
      case order => exact hi.deliver hm hor
      all_goals exact hi.frame rfl rfl fun _ h => h
  | expire svc k =>
      cases h
      cases svc
      case order =>
        exact ⟨hi.acted.expire k, hi.linked, hi.single, hi.current, hi.ids, hi.below,
          hi.statuses, hi.created, hi.rows, hi.held⟩
      all_goals exact hi.frame rfl rfl fun _ h => h

/-! ## Orderly runs -/

/-- What an orderly run keeps of each service. -/
structure Progress (s : Sys) : Prop where
  payment : PaymentProgress s
  inventory : InventoryProgress s
  delivery : DeliveryProgress s
  order : OrderProgress s

theorem Progress.initial (inv : List InventoryRow) : Progress (Sys.init inv) :=
  ⟨⟨Acted.initial, by simp [Linked, Sys.init], by simp [Sys.init], by simp [Sys.init]⟩,
    ⟨Acted.initial, by simp [Linked, Sys.init], by simp [InventoryDb.Announced, Sys.init]⟩,
    ⟨Acted.initial, by simp [Linked, Sys.init], by simp [DeliveryDb.Announced, Sys.init]⟩,
    ⟨Acted.initial, by simp [Sys.init], by simp [Sys.init], by simp [Sys.init], by simp [Sys.init],
      by simp [Sys.init], by simp [Sys.init], by simp [Sys.init], by simp [Sys.init, views],
      by simp [Sys.init]⟩⟩

theorem Sys.Quiescent.threads {s : Sys} (hq : s.Quiescent) :
    s.order.threads = [] ∧ s.payment.threads = [] ∧ s.inventory.threads = [] ∧
      s.delivery.threads = [] := by
  have h := fun svc (hs : svc ∈ Service.all) => (hq.1 svc hs).1
  exact ⟨List.length_eq_zero.mp (h .order (by decide)),
    List.length_eq_zero.mp (h .payment (by decide)),
    List.length_eq_zero.mp (h .inventory (by decide)),
    List.length_eq_zero.mp (h .delivery (by decide))⟩

theorem findByID_of_mem {db : OrderDb} (hn : (db.orders.map (·.id)).Nodup) {q : Order}
    (hq : q ∈ db.orders) : findByID db q.id = some q := by
  simp only [findByID]
  generalize db.orders = l at hn hq
  induction l with
  | nil => cases hq
  | cons a l ih =>
      simp only [List.map_cons, List.nodup_cons, List.mem_map] at hn
      rcases List.mem_cons.mp hq with rfl | hq
      · simp
      · have : a.id ≠ q.id := fun h => hn.1 ⟨q, hq, h.symm⟩
        simp [List.find?_cons, this, ih hn.2 hq]

/-- Two quiescent runs from one order. In the first every call succeeds, and the Order group
handles `StockReserved` and `DeliveryStarted` before `PaymentCompleted`: the order is left
`STOCK_RESERVING`. In the second the Payment execution on `OrderCreated` fails at `BeginTx`
and its message is marked: the order is left `PENDING`. -/
theorem quiescent_orders_left_unfinished :
    let cmd : CreateOrderCommand :=
      { userId := 1001, amount := 50000, quantity := 1, idempotencyKey := "k1" }
    let calls (svc : Service) (n : Nat) : List Action := (List.replicate n true).map (.call svc 0)
    let created : List Action :=
      .request cmd :: calls .order 5 ++ [.publish .order 1 true, .deliver .payment 0]
    let reordered : List Action :=
      created ++ calls .payment 8 ++ [.publish .payment 1 true, .deliver .inventory 1] ++
        calls .inventory 9 ++ [.publish .inventory 1 true, .deliver .order 2] ++
        calls .order 3 ++ .deliver .delivery 2 :: calls .delivery 7 ++
        [.publish .delivery 1 true, .deliver .order 3] ++ calls .order 3 ++
        .deliver .order 1 :: calls .order 4
    let failed : List Action := created ++ [true, true, false].map (.call .payment 0)
    (∃ s, runSteps Sys.step (Sys.init [⟨1, 100, 0, 0⟩]) reordered = some s ∧
      Reachable [⟨1, 100, 0, 0⟩] s ∧ s.Quiescent ∧
      (findByID s.order.db 1).map (·.status) = some .stockReserving) ∧
    (∃ s, runSteps Sys.step (Sys.init [⟨1, 100, 0, 0⟩]) failed = some s ∧
      Reachable [⟨1, 100, 0, 0⟩] s ∧ s.Quiescent ∧
      (findByID s.order.db 1).map (·.status) = some .pending) := by
  intro cmd calls created reordered failed
  constructor
  · obtain ⟨s, hs, he⟩ := Option.map_eq_some'.mp (show
      (runSteps Sys.step (Sys.init [⟨1, 100, 0, 0⟩]) reordered).map (fun s =>
        decide s.Quiescent && (findByID s.order.db 1).map (·.status) == some .stockReserving) =
          some true by decide)
    simp only [Bool.and_eq_true, beq_iff_eq, decide_eq_true_eq] at he
    exact ⟨s, hs, Reach.init.run hs, he⟩
  · obtain ⟨s, hs, he⟩ := Option.map_eq_some'.mp (show
      (runSteps Sys.step (Sys.init [⟨1, 100, 0, 0⟩]) failed).map (fun s =>
        decide s.Quiescent && (findByID s.order.db 1).map (·.status) == some .pending) =
          some true by decide)
    simp only [Bool.and_eq_true, beq_iff_eq, decide_eq_true_eq] at he
    exact ⟨s, hs, Reach.init.run hs, he⟩

end MsaSaga.System
