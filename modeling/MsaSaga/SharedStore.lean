import Mathlib
import MsaSaga.HttpApi

/-!
# One Redis for every service

Each service's `main` builds its idempotency store with `NewRedisStore` on the Redis at
`REDIS_ADDR`, with a prefix of its own (`order-service`, `payment-service`,
`inventory-service`), and the store writes that prefix and a colon in front of every key. The
model gives each service a gate of its own instead: `Schema.isProcessed`, `reserveKey`, and a
key that expires.

The shared keyspace and the separate gates give the same answers to every interleaving of the
services' calls exactly when no two pairs of a service and an event get the same full key.
Prefixes without a colon, all distinct, are enough for that. The Order and the Inventory
service both consume `payment.completed.v1` with the same event id, so with one prefix for both,
the second to handle it would skip it.
-/
namespace MsaSaga.Idempotency
open Schema HttpApi

/-! ## `RedisStore` -/

/-- `RedisStore.getFullKey`: `fmt.Sprintf("%s:%s", s.prefix, key)`. -/
def RedisStore.getFullKey (pfx key : String) : String := pfx ++ ":" ++ key

/-- `RedisStore.IsProcessed`: `EXISTS` of the full key; a failed call answers false. -/
def RedisStore.isProcessed (keys : List String) (pfx key : String) (ok : Bool) : Bool :=
  ok && keys.contains (RedisStore.getFullKey pfx key)

/-- `RedisStore.Reserve`: `SETNX` of the full key, true when it set the key; a failed call
sets nothing and answers false. -/
def RedisStore.reserve (keys : List String) (pfx key : String) (ok : Bool) : Bool × List String :=
  let fullKey := RedisStore.getFullKey pfx key
  if ok ∧ fullKey ∉ keys then (true, fullKey :: keys) else (false, keys)

/-- `RedisStore.Release`: `DEL` of the full key. -/
def RedisStore.release (keys : List String) (pfx key : String) (ok : Bool) : List String :=
  if ok then keys.filter (· ≠ RedisStore.getFullKey pfx key) else keys

theorem colon_append_inj {p q k l : List Char} (hp : ':' ∉ p) (hq : ':' ∉ q)
    (h : p ++ ':' :: k = q ++ ':' :: l) : p = q ∧ k = l := by
  induction p generalizing q with
  | nil =>
      cases q with
      | nil => simpa using h
      | cons d q => exact absurd ((List.cons.inj h).1 ▸ List.mem_cons_self d q) hq
  | cons c p ih =>
      cases q with
      | nil => exact absurd ((List.cons.inj h).1 ▸ List.mem_cons_self c p) hp
      | cons d q =>
          simp only [List.cons_append, List.cons.injEq] at h
          obtain ⟨rfl, h⟩ := h
          simp only [List.mem_cons, not_or] at hp hq
          obtain ⟨rfl, hkl⟩ := ih hp.2 hq.2 h
          exact ⟨rfl, hkl⟩

/-- A full key with a prefix that has no colon tells the prefix and the key apart. -/
theorem RedisStore.getFullKey_inj {p q k l : String} (hp : ':' ∉ p.toList) (hq : ':' ∉ q.toList) :
    RedisStore.getFullKey p k = RedisStore.getFullKey q l ↔ p = q ∧ k = l := by
  refine ⟨fun h => ?_, fun ⟨hpq, hkl⟩ => hpq ▸ hkl ▸ rfl⟩
  obtain ⟨hpq, hkl⟩ := colon_append_inj hp hq
    (by simpa [RedisStore.getFullKey] using congrArg String.toList h)
  exact ⟨String.ext hpq, String.ext hkl⟩

/-! ## The keyspace and the gates -/

/-- A call a service makes on its store, or one of its keys expiring. -/
inductive StoreOp (ι : Type) where
  | isProcessed (i : ι) (eventId : Nat) (ok : Bool)
  | reserve (i : ι) (eventId : Nat) (ok : Bool)
  | release (i : ι) (eventId : Nat) (ok : Bool)
  | expire (i : ι) (eventId : Nat)
  deriving DecidableEq, Repr

section Stores
variable {ι : Type} [DecidableEq ι] (pfx : ι → String) (eventKey : Nat → String)

/-- One call on the shared keyspace, with what `IsProcessed` answers; the handlers discard
what `Reserve` answers. -/
def sharedStep (keys : List String) : StoreOp ι → Option Bool × List String
  | .isProcessed i e ok => (some (RedisStore.isProcessed keys (pfx i) (eventKey e) ok), keys)
  | .reserve i e ok => (none, (RedisStore.reserve keys (pfx i) (eventKey e) ok).2)
  | .release i e ok => (none, RedisStore.release keys (pfx i) (eventKey e) ok)
  | .expire i e => (none, keys.filter (· ≠ RedisStore.getFullKey (pfx i) (eventKey e)))

/-- The same call on the services' own gates, as the model has them. -/
def gatesStep (gates : ι → List Nat) : StoreOp ι → Option Bool × (ι → List Nat)
  | .isProcessed i e ok => (some (Schema.isProcessed (gates i) ok e), gates)
  | .reserve i e ok => (none, Function.update gates i (reserveKey (gates i) ok e))
  | .release i e ok =>
      (none, Function.update gates i (if ok then (gates i).erase e else gates i))
  | .expire i e => (none, Function.update gates i ((gates i).erase e))

/-- The answers of the `IsProcessed` calls of a run on the shared keyspace. -/
def sharedRun : List String → List (StoreOp ι) → List Bool
  | _, [] => []
  | keys, op :: ops =>
      (sharedStep pfx eventKey keys op).1.toList ++ sharedRun (sharedStep pfx eventKey keys op).2 ops

/-- The answers of the `IsProcessed` calls of a run on the gates. -/
def gatesRun : (ι → List Nat) → List (StoreOp ι) → List Bool
  | _, [] => []
  | gates, op :: ops => (gatesStep gates op).1.toList ++ gatesRun (gatesStep gates op).2 ops

/-- No two pairs of a service and an event have the same full key. -/
def KeysApart : Prop :=
  ∀ i j e e', RedisStore.getFullKey (pfx i) (eventKey e) = RedisStore.getFullKey (pfx j) (eventKey e') →
    i = j ∧ e = e'

/-- The keyspace holds the full key of a service's event exactly when the service's gate holds
the event, and a gate holds an event once. -/
structure Sees (keys : List String) (gates : ι → List Nat) : Prop where
  mem : ∀ i e, RedisStore.getFullKey (pfx i) (eventKey e) ∈ keys ↔ e ∈ gates i
  nodup : ∀ i, (gates i).Nodup

variable {pfx eventKey}

omit [DecidableEq ι] in
/-- Two stores whose membership changes in the same way from related ones are related. -/
theorem Sees.congr {keys keys' : List String} {gates gates' : ι → List Nat}
    (h : Sees pfx eventKey keys gates) (F : ι → Nat → Prop → Prop)
    (hk : ∀ j e', RedisStore.getFullKey (pfx j) (eventKey e') ∈ keys' ↔
      F j e' (RedisStore.getFullKey (pfx j) (eventKey e') ∈ keys))
    (hg : ∀ j e', e' ∈ gates' j ↔ F j e' (e' ∈ gates j)) (hn : ∀ j, (gates' j).Nodup) :
    Sees pfx eventKey keys' gates' :=
  ⟨fun j e' => by rw [hk, hg, h.mem], hn⟩

theorem mem_update_insert (gates : ι → List Nat) (i : ι) (e : Nat) (j : ι) (e' : Nat) :
    e' ∈ Function.update gates i ((gates i).insert e) j ↔ (j = i ∧ e' = e) ∨ e' ∈ gates j := by
  by_cases hj : j = i
  · subst hj; simp [List.mem_insert_iff]
  · simp [Function.update_noteq hj, hj]

theorem mem_update_erase {gates : ι → List Nat} (hn : ∀ j, (gates j).Nodup) (i : ι) (e : Nat)
    (j : ι) (e' : Nat) :
    e' ∈ Function.update gates i ((gates i).erase e) j ↔ ¬ (j = i ∧ e' = e) ∧ e' ∈ gates j := by
  by_cases hj : j = i
  · subst hj; simp [(hn j).mem_erase_iff]
  · simp [Function.update_noteq hj, hj]

theorem nodup_update {gates : ι → List Nat} (hn : ∀ j, (gates j).Nodup) {i : ι} {l : List Nat}
    (hl : l.Nodup) (j : ι) : (Function.update gates i l j).Nodup := by
  by_cases hj : j = i
  · subst hj; simpa using hl
  · simpa [Function.update_noteq hj] using hn j

section Apart
variable (ha : KeysApart pfx eventKey)
include ha

omit [DecidableEq ι] in
theorem fullKey_eq_iff {i j : ι} {e e' : Nat} :
    RedisStore.getFullKey (pfx j) (eventKey e') = RedisStore.getFullKey (pfx i) (eventKey e) ↔
      j = i ∧ e' = e :=
  ⟨ha j i e' e, fun ⟨hj, he⟩ => hj ▸ he ▸ rfl⟩

omit [DecidableEq ι] in
theorem mem_reserve (keys : List String) (i : ι) (e : Nat) (j : ι) (e' : Nat) :
    RedisStore.getFullKey (pfx j) (eventKey e') ∈
        (RedisStore.reserve keys (pfx i) (eventKey e) true).2 ↔
      (j = i ∧ e' = e) ∨ RedisStore.getFullKey (pfx j) (eventKey e') ∈ keys := by
  by_cases hin : RedisStore.getFullKey (pfx i) (eventKey e) ∈ keys
  · simp only [RedisStore.reserve, hin, not_true_eq_false, and_false, ↓reduceIte]
    exact ⟨Or.inr, fun h => h.elim (fun ⟨hj, he⟩ => hj ▸ he ▸ hin) id⟩
  · simp [RedisStore.reserve, hin, fullKey_eq_iff ha]

theorem mem_filter_fullKey (keys : List String) (i : ι) (e : Nat) (j : ι) (e' : Nat) :
    RedisStore.getFullKey (pfx j) (eventKey e') ∈
        keys.filter (· ≠ RedisStore.getFullKey (pfx i) (eventKey e)) ↔
      ¬ (j = i ∧ e' = e) ∧ RedisStore.getFullKey (pfx j) (eventKey e') ∈ keys := by
  simp only [List.mem_filter, decide_eq_true_eq, ne_eq, fullKey_eq_iff ha]
  exact and_comm

/-- One call answers the same on the keyspace as on the gates, and keeps them related. -/
theorem Sees.step {keys : List String} {gates : ι → List Nat} (h : Sees pfx eventKey keys gates)
    (op : StoreOp ι) :
    (sharedStep pfx eventKey keys op).1 = (gatesStep gates op).1 ∧
      Sees pfx eventKey (sharedStep pfx eventKey keys op).2 (gatesStep gates op).2 := by
  cases op with
  | isProcessed i e ok =>
      refine ⟨?_, h⟩
      simp only [sharedStep, gatesStep, RedisStore.isProcessed, Schema.isProcessed,
        List.elem_eq_mem, h.mem]
  | reserve i e ok =>
      refine ⟨rfl, ?_⟩
      cases ok
      · simpa [sharedStep, gatesStep, RedisStore.reserve, reserveKey] using h
      · exact h.congr (fun j e' b => (j = i ∧ e' = e) ∨ b) (mem_reserve ha keys i e)
          (mem_update_insert gates i e) (nodup_update h.nodup ((h.nodup i).insert))
  | release i e ok =>
      refine ⟨rfl, ?_⟩
      cases ok
      · simpa [sharedStep, gatesStep, RedisStore.release] using h
      · exact h.congr (fun j e' b => ¬ (j = i ∧ e' = e) ∧ b) (mem_filter_fullKey ha keys i e)
          (mem_update_erase h.nodup i e) (nodup_update h.nodup ((h.nodup i).erase e))
  | expire i e =>
      exact ⟨rfl, h.congr (fun j e' b => ¬ (j = i ∧ e' = e) ∧ b) (mem_filter_fullKey ha keys i e)
        (mem_update_erase h.nodup i e) (nodup_update h.nodup ((h.nodup i).erase e))⟩

/-- From related stores, every run answers the same on the keyspace as on the gates. -/
theorem Sees.run {keys : List String} {gates : ι → List Nat} (h : Sees pfx eventKey keys gates)
    (ops : List (StoreOp ι)) : sharedRun pfx eventKey keys ops = gatesRun gates ops := by
  induction ops generalizing keys gates with
  | nil => rfl
  | cons op ops ih =>
      obtain ⟨h1, h2⟩ := h.step ha op
      simp only [sharedRun, gatesRun, h1, ih h2]

end Apart

omit [DecidableEq ι] in
/-- With one prefix for two services, a reservation of one is seen by the other. -/
theorem sharedRun_reserve_isProcessed (i j : ι) (e e' : Nat) :
    sharedRun pfx eventKey [] [.reserve i e true, .isProcessed j e' true] =
      [decide (RedisStore.getFullKey (pfx j) (eventKey e') = RedisStore.getFullKey (pfx i) (eventKey e))] := by
  simp [sharedRun, sharedStep, RedisStore.reserve, RedisStore.isProcessed]

theorem gatesRun_reserve_isProcessed (i j : ι) (e e' : Nat) :
    gatesRun (fun _ => []) [.reserve i e true, .isProcessed j e' true] = [decide (j = i ∧ e' = e)] := by
  by_cases hj : j = i
  · subst hj; simp [gatesRun, gatesStep, reserveKey, Schema.isProcessed]
  · simp [gatesRun, gatesStep, reserveKey, Schema.isProcessed, Function.update_noteq hj, hj]

/-- The shared keyspace answers every run of the services' calls as their own gates do exactly
when no two pairs of a service and an event share a full key. -/
theorem shared_keyspace_refines_gates :
    (∀ ops : List (StoreOp ι), sharedRun pfx eventKey [] ops = gatesRun (fun _ => []) ops) ↔
      KeysApart pfx eventKey := by
  refine ⟨fun h i j e e' he => ?_, fun ha => (Sees.mk (by simp) (by simp)).run ha⟩
  have hr := h [.reserve j e' true, .isProcessed i e true]
  rw [sharedRun_reserve_isProcessed, gatesRun_reserve_isProcessed, he] at hr
  simpa using hr.symm

omit [DecidableEq ι] in
/-- Distinct prefixes without a colon and distinct names of events keep the full keys apart. -/
theorem keysApart_of_prefixes (hp : Function.Injective pfx) (hc : ∀ i, ':' ∉ (pfx i).toList)
    (hk : Function.Injective eventKey) : KeysApart pfx eventKey := fun i j e e' h => by
  obtain ⟨hij, he⟩ := (RedisStore.getFullKey_inj (hc i) (hc j)).mp h
  exact ⟨hp hij, hk he⟩

end Stores

/-- The prefixes the `main` functions of the Order, Payment and Inventory services pass to
`NewRedisStore`. -/
def servicePrefixes : List String := ["order-service", "payment-service", "inventory-service"]

/-- `strconv.FormatInt` names distinct numbers differently: its digits read back. -/
theorem repr_injective : Function.Injective Nat.repr := fun a b h =>
  calc a = digitsValue (Nat.repr a).toList := (repr_digits a).2.2.symm
    _ = b := by rw [h, (repr_digits b).2.2]

/-- The three stores on one Redis, with events named by their decimal ids, answer every
interleaving of their calls as three separate gates. -/
theorem service_stores_act_as_gates : ∀ ops : List (StoreOp (Fin servicePrefixes.length)),
    sharedRun servicePrefixes.get Nat.repr [] ops = gatesRun (fun _ => []) ops :=
  shared_keyspace_refines_gates.mpr
    (keysApart_of_prefixes (List.nodup_iff_injective_get.mp (by decide)) (by decide) repr_injective)

end MsaSaga.Idempotency
