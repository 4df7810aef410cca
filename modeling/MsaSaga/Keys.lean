import Mathlib
import MsaSaga.Uniqueness

/-!
# Kafka keys and idempotency keys

An order id becomes a string in three places. `PublishWithOrderID` writes it in decimal with
`strconv.FormatInt`, and so do the consumers' `fmt.Sprintf` formats of their idempotency keys,
which the tables hold in `VARCHAR(64)` columns. The Order relay instead reads the id back out
of the row's JSON payload, where `encoding/json` decodes every number into a `float64`, and
passes `string(rune(int64(oid)))`: one character, the code point of the id or U+FFFD.

A decimal string has one digit more than the base-10 logarithm of its number, so the
reservation key outgrows its column from the billionth order on and the delivery key from the
10^18th, while the payment key fits every `int64`. The inserts of the reservation and the
delivery fail on a longer key, so no order from the billionth on is ever reserved.
-/
namespace MsaSaga.Keys
open Events Schema

/-! ## Decimal strings -/

/-- `strconv.FormatInt(i, 10)`. -/
def formatInt (i : Int) : String := toString i

theorem toDigitsCore_length {f n : Nat} (l : List Char) (h : n < f) :
    (Nat.toDigitsCore 10 f n l).length = l.length + Nat.log 10 n + 1 := by
  induction f generalizing n l with
  | zero => omega
  | succ f ih =>
      simp only [Nat.toDigitsCore]
      split
      · simp [Nat.log_of_lt (by omega : n < 10)]
      · have h10 : 10 ≤ n := by omega
        have hlog := Nat.log_div_base 10 n
        have hpos := Nat.log_pos (by decide : 1 < 10) h10
        rw [ih _ (by omega), List.length_cons]
        omega

/-- A decimal string has one digit more than the base-10 logarithm of its number. -/
theorem length_repr (n : Nat) : (Nat.repr n).length = Nat.log 10 n + 1 := by
  simpa using @toDigitsCore_length (n + 1) n [] (Nat.lt_succ_self n)

theorem formatInt_length (n : Nat) : (formatInt n).length = Nat.log 10 n + 1 := length_repr n

theorem log_lt_iff {n k : Nat} (hk : 0 < k) : Nat.log 10 n < k ↔ n < 10 ^ k := by
  rcases Nat.eq_zero_or_pos n with rfl | hn
  · simp [hk, Nat.pos_pow_of_pos]
  · exact (Nat.lt_pow_iff_log_lt (by decide) hn.ne').symm

/-! ## Idempotency keys -/

/-- `fmt.Sprintf("<stem>%d-%s", evt.OrderID, evt.EventID)`. -/
def formatKey (kind : KeyKind) (orderID : Nat) (eventID : String) : String :=
  keyStem kind ++ toString orderID ++ "-" ++ eventID

theorem formatKey_length (kind : KeyKind) (orderID : Nat) (eventID : String) :
    (formatKey kind orderID eventID).length =
      (keyStem kind).length + Nat.log 10 orderID + 2 + eventID.length := by
  have hd : (toString orderID).length = Nat.log 10 orderID + 1 := length_repr orderID
  have hs : "-".length = 1 := rfl
  simp only [formatKey, String.length_append, hd, hs]
  omega

/-- With the event's 36-character UUID, the key's string has the length `IdemKey.length`
counts. -/
theorem IdemKey.length_formatKey (k : IdemKey) {eventID : String} (he : eventID.length = 36) :
    (formatKey k.kind k.orderId eventID).length = k.length := by
  have hd : (toString k.orderId).length = Nat.log 10 k.orderId + 1 := length_repr k.orderId
  rw [formatKey_length, he, IdemKey.length, hd]
  omega

/-- A key fits its column exactly when its order id is below the power of ten its stem leaves
room for. -/
theorem IdemKey.fits_iff (k : IdemKey) :
    k.Fits ↔ k.orderId < 10 ^ (27 - (keyStem k.kind).length) := by
  have hstem : (keyStem k.kind).length ≤ 18 := by cases k.kind <;> decide
  have hd : (toString k.orderId).length = Nat.log 10 k.orderId + 1 := length_repr k.orderId
  rw [IdemKey.Fits, IdemKey.length, hd, keyColumnWidth, ← log_lt_iff (by omega)]
  omega

/-- With a 36-character event id, each key fits its column exactly for the order ids below a
power of ten: 10^19 for the payment key, which every `int64` is below, 10^9 for the reservation
key and 10^18 for the delivery key. -/
theorem idempotency_keys_fit_iff (orderID : Nat) {eventID : String} (he : eventID.length = 36) :
    ((formatKey .payment orderID eventID).length ≤ keyColumnWidth ↔ orderID < 10 ^ 19) ∧
    ((formatKey .stockReservation orderID eventID).length ≤ keyColumnWidth ↔
      orderID < 10 ^ 9) ∧
    ((formatKey .delivery orderID eventID).length ≤ keyColumnWidth ↔
      orderID < 10 ^ 18) := by
  -- the length the inserts check, `IdemKey.Fits`, of the key with that order id
  have key (kind : KeyKind) : (formatKey kind orderID eventID).length ≤ keyColumnWidth ↔
      orderID < 10 ^ (27 - (keyStem kind).length) := by
    rw [IdemKey.length_formatKey ⟨kind, orderID, 0⟩ he]
    exact IdemKey.fits_iff ⟨kind, orderID, 0⟩
  exact ⟨key .payment, key .stockReservation, key .delivery⟩

/-- At order id 10^9 the payment and delivery keys fit, and the reservation key has 65
characters. -/
theorem reservation_key_outgrows_column :
    let eventID := "123e4567-e89b-12d3-a456-426614174000"
    eventID.length = 36 ∧ (formatKey .payment (10 ^ 9) eventID).length ≤ keyColumnWidth ∧
      ¬(formatKey .stockReservation (10 ^ 9) eventID).length ≤ keyColumnWidth ∧
      (formatKey .delivery (10 ^ 9) eventID).length ≤ keyColumnWidth := by
  intro eventID
  have he : eventID.length = 36 := by decide
  obtain ⟨hp, hr, hd⟩ := idempotency_keys_fit_iff (10 ^ 9) he
  exact ⟨he, hp.mpr (by decide), fun h => absurd (hr.mp h) (by decide), hd.mpr (by decide)⟩

/-! ## The Order relay's key -/

/-- `encoding/json` decoding a non-negative integer into a `float64`: the nearest `float64`,
ties to even. Every integer below 2^53 is one; above, the 53 leading bits stay. -/
def parseFloat64 (n : Nat) : Nat :=
  if n < 2 ^ 53 then n
  else
    let e := Nat.log2 n - 52
    let q := n / 2 ^ e
    let r := n % 2 ^ e
    if 2 * r < 2 ^ e ∨ (2 * r = 2 ^ e ∧ q % 2 = 0) then q * 2 ^ e else (q + 1) * 2 ^ e

/-- `int64(f)` of an integral `float64` `f ≥ 0`. From 2^63 on the conversion is
implementation-specific; amd64's `CVTTSD2SI` returns -2^63. -/
def int64OfFloat (f : Nat) : Int := if f < 2 ^ 63 then f else -2 ^ 63

/-- `rune(x)` of an `int64`: its low 32 bits, as an `int32`. -/
def runeOfInt64 (x : Int) : Int :=
  if x % 2 ^ 32 < 2 ^ 31 then x % 2 ^ 32 else x % 2 ^ 32 - 2 ^ 32

/-- `string(r)`: the character `r`, or U+FFFD where `r` is a surrogate or outside the code
space. -/
def stringOfRune (r : Int) : String :=
  if 0 ≤ r ∧ r < 0x110000 ∧ ¬(0xD800 ≤ r ∧ r < 0xE000) then String.singleton (Char.ofNat r.toNat)
  else String.singleton (Char.ofNat 0xFFFD)

/-- The key `OutboxWorker.publishEvent` takes from the payload's `orderId`:
`string(rune(int64(oid)))` of the decoded `float64`. -/
def publishEventKey (e : Event) : String :=
  stringOfRune (runeOfInt64 (int64OfFloat (parseFloat64 e.orderId)))

theorem publishEventKey_length (e : Event) : (publishEventKey e).length = 1 := by
  unfold publishEventKey stringOfRune
  split <;> exact String.length_singleton _

/-- Below the surrogates the key is the character whose code point is the order id. -/
theorem publishEventKey_of_lt {e : Event} (h : e.orderId < 0xD800) :
    publishEventKey e = String.singleton (Char.ofNat e.orderId) := by
  have hf : parseFloat64 e.orderId = e.orderId := if_pos (by omega)
  have hi : int64OfFloat e.orderId = e.orderId := if_pos (by omega)
  have hm : (e.orderId : Int) % 2 ^ 32 = e.orderId := Int.emod_eq_of_lt (by omega) (by omega)
  have hr : runeOfInt64 e.orderId = e.orderId := by
    rw [runeOfInt64, hm, if_pos (by omega)]
  rw [publishEventKey, hf, hi, hr, stringOfRune, if_pos (by omega), Int.toNat_ofNat]

/-- The Order relay's key is never the decimal string of the order id: one character, which is
not the digit of an id below ten and is shorter than the decimal string of any other. -/
theorem publishEventKey_ne_formatInt (e : Event) : publishEventKey e ≠ formatInt e.orderId := by
  intro h
  rcases Nat.lt_or_ge e.orderId 10 with h10 | h10
  · rw [publishEventKey_of_lt (by omega)] at h
    have hne : ∀ o < 10, String.singleton (Char.ofNat o) ≠ formatInt o := by decide
    exact hne _ h10 h
  · have hl := congrArg String.length h
    rw [publishEventKey_length, formatInt_length] at hl
    have := Nat.log_pos (by decide : 1 < 10) h10
    omega

end MsaSaga.Keys

namespace MsaSaga.System
open Events Schema OrderService Keys

/-- In every run the key of each stored reservation and delivery, whatever UUID it carries,
fits its `VARCHAR(64)` column, since the insert of a longer one fails: no order from id 10^9
on is ever reserved, and none from 10^18 on ever gets a delivery. -/
theorem stored_keys_fit_their_columns {inv : List InventoryRow} {s : Sys} (h : Reachable inv s) :
    (∀ r ∈ s.inventory.db.reservations, ∀ eventID : String, eventID.length = 36 →
      (formatKey .stockReservation r.orderId eventID).length ≤ keyColumnWidth ∧ r.orderId < 10 ^ 9) ∧
    ∀ d ∈ s.delivery.db.deliveries, ∀ eventID : String, eventID.length = 36 →
      (formatKey .delivery d.orderId eventID).length ≤ keyColumnWidth ∧ d.orderId < 10 ^ 18 := by
  obtain ⟨-, hr, hd⟩ := counts_of_reachable h
  refine ⟨fun r hr' eventID he => ?_, fun d hd' eventID he => ?_⟩
  · obtain ⟨e, -, heo, hek⟩ := hr.keys r hr'
    have hfit := hr.fits r hr'
    rw [hek, ← heo] at hfit
    exact ⟨(IdemKey.length_formatKey (reservationKey r.orderId e.eventId) he).trans_le hfit,
      (IdemKey.fits_iff _).mp hfit⟩
  · obtain ⟨e, -, heo, hek⟩ := hd.keys d hd'
    have hfit := hd.fits d hd'
    rw [hek, ← heo] at hfit
    exact ⟨(IdemKey.length_formatKey (deliveryKey d.orderId e.eventId) he).trans_le hfit,
      (IdemKey.fits_iff _).mp hfit⟩

/-- On the happy path order 1 is reserved and shipped, under keys that fit their columns. -/
theorem shipped_order_keys_fit :
    let cmd : CreateOrderCommand :=
      { userId := 1001, amount := 50000, quantity := 1, idempotencyKey := "k1" }
    let calls (svc : Service) (n : Nat) : List Action := List.replicate n (.call svc 0 true)
    let trace : List Action :=
      .request cmd :: calls .order 5 ++ [.publish .order 1 true, .deliver .payment 0] ++
        calls .payment 8 ++ [.publish .payment 1 true, .deliver .inventory 1] ++
        calls .inventory 9 ++ [.publish .inventory 1 true, .deliver .delivery 2] ++
        calls .delivery 7
    ∃ s, runSteps Sys.step (Sys.init [⟨1, 100, 0, 0⟩]) trace = some s ∧
      s.inventory.db.reservations.map (·.orderId) = [1] ∧
      s.delivery.db.deliveries.map (·.orderId) = [1] ∧
      (∀ r ∈ s.inventory.db.reservations, ∀ eventID : String, eventID.length = 36 →
        (formatKey .stockReservation r.orderId eventID).length ≤ keyColumnWidth ∧
          r.orderId < 10 ^ 9) ∧
      ∀ d ∈ s.delivery.db.deliveries, ∀ eventID : String, eventID.length = 36 →
        (formatKey .delivery d.orderId eventID).length ≤ keyColumnWidth ∧ d.orderId < 10 ^ 18 := by
  intro cmd calls trace
  obtain ⟨s, hs, he⟩ := Option.map_eq_some'.mp (show
    (runSteps Sys.step (Sys.init [⟨1, 100, 0, 0⟩]) trace).map
      (fun s => (s.inventory.db.reservations.map (·.orderId), s.delivery.db.deliveries.map (·.orderId))) =
        some ([1], [1]) by decide)
  exact ⟨s, hs, (Prod.mk.inj he).1, (Prod.mk.inj he).2, stored_keys_fit_their_columns (Reach.init.run hs)⟩

end MsaSaga.System
