import Mathlib
import MsaSaga.Keys
import MsaSaga.OrderVersions

/-!
# `GET /orders/{id}`

`HTTPHandler.GetOrder` takes the path after `/orders/` to `strconv.ParseInt(s, 10, 64)`,
answers `400 invalid order ID` when it fails, `404 order not found` when `FindByID` finds no
row or fails, and `200` with the order otherwise; a method other than `GET` is `405`.

`ParseInt` in base 10 accepts exactly an optional sign followed by one or more decimal digits
whose value fits an `int64`: a leading `+` and leading zeros are accepted, and the decimal
form `strconv.FormatInt` writes is read back to the same number. So every order of a reachable
state with an id below 2^63 is served at its decimal id, and at every other spelling of it.

`POST /orders` answers 201 only with the row of the request's key, as the lookup found it or as
the execution created it. Two requests with one key that both miss the lookup before either
inserts do not both get it: the second insert fails on the unique index, and `CreateOrder`
returns that error.
-/
namespace MsaSaga.HttpApi
open Events Schema OrderService Keys

/-! ## `strconv.ParseInt(s, 10, 64)` -/

/-- The error of a failed parse, `ErrSyntax` or `ErrRange`. -/
inductive NumError where
  | errSyntax | errRange
  deriving DecidableEq, Repr

/-- The largest `uint64`. -/
def maxUint64 : Nat := 2 ^ 64 - 1

/-- A decimal digit, as the base-10 switch of `ParseUint` takes it; any other byte is
`ErrSyntax` in base 10. -/
def IsDigit (c : Char) : Prop := '0' ≤ c ∧ c ≤ '9'

instance (c : Char) : Decidable (IsDigit c) := inferInstanceAs (Decidable (_ ∧ _))

/-- One step of the digit loop: `n*10 + d`. -/
def decStep (n : Nat) (c : Char) : Nat := n * 10 + (c.toNat - '0'.toNat)

/-- The value of a string of digits. -/
def digitsValue (ds : List Char) : Nat := ds.foldl decStep 0

/-- The digit loop of `strconv.ParseUint` in base 10 from the value `n` read so far: a
character that is not a digit is `ErrSyntax`, a value past `maxUint64` is `ErrRange`, and
either ends the loop. -/
def parseUintLoop : List Char → Nat → Except NumError Nat
  | [], n => .ok n
  | c :: cs, n =>
      if IsDigit c then
        if maxUint64 / 10 + 1 ≤ n then .error .errRange
        else if maxUint64 < decStep n c then .error .errRange
        else parseUintLoop cs (decStep n c)
      else .error .errSyntax

/-- `strconv.ParseUint(s, 10, 64)`. -/
def parseUint (s : List Char) : Except NumError Nat :=
  if s = [] then .error .errSyntax else parseUintLoop s 0

/-- The sign `ParseInt` picks off the front: whether it is `-`, and the rest. -/
def splitSign : List Char → Bool × List Char
  | [] => (false, [])
  | c :: cs => if c = '+' then (false, cs) else if c = '-' then (true, cs) else (false, c :: cs)

/-- The `int64` range check `ParseInt` makes of what `ParseUint` gave: a syntax error is
returned, a range error goes on with `maxUint64`. -/
def checkInt64 (neg : Bool) : Except NumError Nat → Except NumError Int
  | .error .errSyntax => .error .errSyntax
  | r =>
      let un := match r with
        | .ok n => n
        | .error _ => maxUint64
      if !neg ∧ 2 ^ 63 ≤ un then .error .errRange
      else if neg ∧ 2 ^ 63 < un then .error .errRange
      else .ok (if neg then -(un : Int) else un)

/-- `strconv.ParseInt(s, 10, 64)`. -/
def parseInt (s : String) : Except NumError Int :=
  if s = "" then .error .errSyntax
  else checkInt64 (splitSign s.toList).1 (parseUint (splitSign s.toList).2)

/-! ## The digit loop -/

theorem le_foldl_decStep (cs : List Char) (n : Nat) : n ≤ cs.foldl decStep n := by
  induction cs generalizing n with
  | nil => exact le_refl n
  | cons c cs ih => exact le_trans (by simp only [decStep]; omega) (ih (decStep n c))

/-- On digits whose value fits, the loop reads the value. -/
theorem parseUintLoop_of_digits :
    ∀ {cs : List Char} {n : Nat}, (∀ c ∈ cs, IsDigit c) → cs.foldl decStep n ≤ maxUint64 →
      parseUintLoop cs n = .ok (cs.foldl decStep n)
  | [], _, _, _ => rfl
  | c :: cs, n, hd, hv => by
      have hle := le_foldl_decStep cs (decStep n c)
      simp only [List.foldl_cons] at hv
      have hn : ¬ maxUint64 / 10 + 1 ≤ n := by
        simp only [decStep, maxUint64] at hle hv ⊢; omega
      simp only [parseUintLoop, if_pos (hd c (List.mem_cons_self c cs)), if_neg hn,
        if_neg (show ¬ maxUint64 < decStep n c by omega), List.foldl_cons]
      exact parseUintLoop_of_digits (fun c' h => hd c' (List.mem_cons_of_mem c h)) hv

/-- What the loop reads is digits, and their value. -/
theorem parseUintLoop_eq_ok :
    ∀ {cs : List Char} {n v : Nat}, parseUintLoop cs n = .ok v →
      (∀ c ∈ cs, IsDigit c) ∧ v = cs.foldl decStep n
  | [], _, _, h => ⟨by simp, (Except.ok.inj h).symm⟩
  | c :: cs, n, v, h => by
      simp only [parseUintLoop] at h
      split_ifs at h with hd
      obtain ⟨hds, rfl⟩ := parseUintLoop_eq_ok h
      exact ⟨fun c' h' => (List.mem_cons.mp h').elim (· ▸ hd) (hds c'), rfl⟩

/-- `ParseUint` reads a nonempty string of digits whose value fits a `uint64`. -/
theorem parseUint_of_digits {ds : List Char} (hne : ds ≠ []) (hd : ∀ c ∈ ds, IsDigit c)
    (hv : digitsValue ds ≤ maxUint64) : parseUint ds = .ok (digitsValue ds) := by
  simpa only [parseUint, if_neg hne] using parseUintLoop_of_digits hd hv

/-- What `ParseUint` reads is a nonempty string of digits, and its value. -/
theorem parseUint_eq_ok {ds : List Char} {v : Nat} (h : parseUint ds = .ok v) :
    ds ≠ [] ∧ (∀ c ∈ ds, IsDigit c) ∧ v = digitsValue ds := by
  unfold parseUint at h
  split_ifs at h with hne
  exact ⟨hne, parseUintLoop_eq_ok h⟩

/-! ## Decimal strings -/

theorem digitChar_isDigit : ∀ d < 10, IsDigit (Nat.digitChar d) ∧ (Nat.digitChar d).toNat - '0'.toNat = d := by
  decide

/-- `Nat.toDigitsCore` puts digits in front of `l` that read as `n` followed by `l`. -/
theorem toDigitsCore_digits {f n : Nat} {l : List Char} (h : n < f) (hl : ∀ c ∈ l, IsDigit c) :
    (∀ c ∈ Nat.toDigitsCore 10 f n l, IsDigit c) ∧
      (Nat.toDigitsCore 10 f n l).foldl decStep 0 = l.foldl decStep n := by
  induction f generalizing n l with
  | zero => omega
  | succ f ih =>
      obtain ⟨hd, hv⟩ := digitChar_isDigit (n % 10) (Nat.mod_lt n (by decide))
      have hl' : ∀ c ∈ Nat.digitChar (n % 10) :: l, IsDigit c := List.forall_mem_cons.mpr ⟨hd, hl⟩
      have hstep : ∀ m, m = n / 10 → decStep m (Nat.digitChar (n % 10)) = n := by
        rintro m rfl; simp only [decStep, hv]; omega
      simp only [Nat.toDigitsCore]
      split
      · exact ⟨hl', by rw [List.foldl_cons, hstep 0 (by omega)]⟩
      · obtain ⟨hd', hv'⟩ := ih (n := n / 10) (by omega) hl'
        exact ⟨hd', by rw [hv', List.foldl_cons, hstep _ rfl]⟩

/-- `strconv.FormatInt` of a natural number writes nonempty digits that read as the number. -/
theorem repr_digits (n : Nat) :
    (Nat.repr n).toList ≠ [] ∧ (∀ c ∈ (Nat.repr n).toList, IsDigit c) ∧
      digitsValue (Nat.repr n).toList = n := by
  obtain ⟨hd, hv⟩ := toDigitsCore_digits (Nat.lt_succ_self n) (l := []) (by simp)
  refine ⟨fun h => ?_, hd, hv⟩
  have := length_repr n
  simp only [String.length, String.toList] at h this
  rw [h] at this
  simp at this

/-! ## Sign and range -/

/-- A string is its sign followed by the rest `splitSign` leaves. -/
theorem splitSign_spec (l : List Char) :
    ∃ sign, l = sign ++ (splitSign l).2 ∧ (sign = [] ∨ sign = ['+'] ∨ sign = ['-']) ∧
      ((splitSign l).1 = true ↔ sign = ['-']) := by
  cases l with
  | nil => exact ⟨[], rfl, .inl rfl, by simp [splitSign]⟩
  | cons c cs =>
      by_cases hp : c = '+'
      · exact ⟨['+'], by simp [splitSign, hp], .inr (.inl rfl), by simp [splitSign, hp]⟩
      by_cases hm : c = '-'
      · exact ⟨['-'], by simp [splitSign, hm], .inr (.inr rfl), by simp [splitSign, hm]⟩
      · exact ⟨[], by simp [splitSign, hp, hm], .inl rfl, by simp [splitSign, hp, hm]⟩

theorem IsDigit.not_sign {c : Char} (h : IsDigit c) : c ≠ '+' ∧ c ≠ '-' := by
  constructor <;> rintro rfl <;> exact absurd h (by decide)

theorem splitSign_append {sign ds : List Char} (hsign : sign = [] ∨ sign = ['+'] ∨ sign = ['-'])
    (hne : ds ≠ []) (hd : ∀ c ∈ ds, IsDigit c) :
    splitSign (sign ++ ds) = (decide (sign = ['-']), ds) := by
  obtain ⟨c, cs, rfl⟩ := List.exists_cons_of_ne_nil hne
  obtain ⟨hp, hm⟩ := (hd c (List.mem_cons_self c cs)).not_sign
  rcases hsign with rfl | rfl | rfl <;> simp [splitSign, hp, hm]

/-- The range check passes exactly the values of `int64`. -/
theorem checkInt64_eq_ok {neg : Bool} {r : Except NumError Nat} {v : Int} :
    checkInt64 neg r = .ok v ↔
      ∃ n, r = .ok n ∧ v = (if neg then -(n : Int) else n) ∧ -2 ^ 63 ≤ v ∧ v < 2 ^ 63 := by
  rcases r with (_ | _) | n
  · simp [checkInt64]
  · cases neg <;> simp [checkInt64, maxUint64]
  · cases neg <;> simp only [checkInt64] <;> split_ifs <;> simp_all <;> omega

/-! ## What `ParseInt` accepts -/

/-- `ParseInt` reads an optional sign and digits whose value is an `int64`. -/
theorem parseInt_of_digits {s : String} {sign ds : List Char} {v : Int}
    (hs : s.toList = sign ++ ds) (hsign : sign = [] ∨ sign = ['+'] ∨ sign = ['-'])
    (hne : ds ≠ []) (hd : ∀ c ∈ ds, IsDigit c)
    (hv : v = if sign = ['-'] then -(digitsValue ds : Int) else digitsValue ds)
    (hlo : -2 ^ 63 ≤ v) (hhi : v < 2 ^ 63) : parseInt s = .ok v := by
  have hs0 : s ≠ "" := fun h => hne (List.append_eq_nil.mp (h ▸ hs).symm).2
  have hfit : digitsValue ds ≤ maxUint64 := by
    split_ifs at hv <;> simp only [maxUint64] <;> omega
  rw [parseInt, if_neg hs0, hs, splitSign_append hsign hne hd, parseUint_of_digits hne hd hfit]
  exact checkInt64_eq_ok.mpr ⟨_, rfl, by simpa using hv, hlo, hhi⟩

theorem parseInt_eq_ok_iff {s : String} {v : Int} :
    parseInt s = .ok v ↔
      ∃ sign ds, s.toList = sign ++ ds ∧ (sign = [] ∨ sign = ['+'] ∨ sign = ['-']) ∧
        ds ≠ [] ∧ (∀ c ∈ ds, IsDigit c) ∧
        v = (if sign = ['-'] then -(digitsValue ds : Int) else digitsValue ds) ∧
        -2 ^ 63 ≤ v ∧ v < 2 ^ 63 := by
  constructor
  · intro h
    rw [parseInt] at h
    split_ifs at h
    obtain ⟨n, hr, hv, hlo, hhi⟩ := checkInt64_eq_ok.mp h
    obtain ⟨hne, hd, rfl⟩ := parseUint_eq_ok hr
    obtain ⟨sign, hs, hsign, hneg⟩ := splitSign_spec s.toList
    exact ⟨sign, _, hs, hsign, hne, hd, by simpa only [hneg] using hv, hlo, hhi⟩
  · rintro ⟨sign, ds, hs, hsign, hne, hd, hv, hlo, hhi⟩
    exact parseInt_of_digits hs hsign hne hd hv hlo hhi

theorem parseInt_formatInt (n : Int) (hlo : -2 ^ 63 ≤ n) (hhi : n < 2 ^ 63) :
    parseInt (formatInt n) = .ok n := by
  cases n with
  | ofNat m =>
      obtain ⟨hne, hd, hv⟩ := repr_digits m
      exact parseInt_of_digits (show _ = [] ++ (Nat.repr m).toList from rfl) (.inl rfl) hne hd
        (by rw [if_neg (by simp), hv]; rfl) hlo hhi
  | negSucc m =>
      obtain ⟨hne, hd, hv⟩ := repr_digits (m + 1)
      exact parseInt_of_digits (show _ = ['-'] ++ (Nat.repr (m + 1)).toList from rfl) (.inr (.inr rfl)) hne hd
        (by rw [if_pos rfl, hv]; rfl) hlo hhi

/-- The least `int64` is written and read back. -/
theorem parseInt_formatInt_min :
    (-2 ^ 63 : Int) ≤ -2 ^ 63 ∧ (-2 ^ 63 : Int) < 2 ^ 63 ∧
      parseInt (formatInt (-2 ^ 63)) = .ok (-2 ^ 63) :=
  ⟨le_refl _, by decide, parseInt_formatInt _ (le_refl _) (by decide)⟩

end MsaSaga.HttpApi

namespace MsaSaga.OrderService
open Schema

/-- The error `orderService.GetOrder` returns: the error of `FindByID`, no row or a failed
query, wrapped as `ORDER_NOT_FOUND`. -/
def orderNotFound : Err := ⟨some .orderNotFound, "order not found"⟩

/-- `orderService.GetOrder`: `FindByID` of the id, a query that fails when `ok` is false. The
`id` column is a `BIGSERIAL`, so a negative id selects no row. -/
def getOrder (db : OrderDb) (ok : Bool) (orderID : Int) : Except Err Order :=
  match ok, orderID with
  | true, .ofNat id =>
      match findByID db id with
      | some order => .ok order
      | none => .error orderNotFound
  | _, _ => .error orderNotFound

theorem getOrder_eq_ok {db : OrderDb} {ok : Bool} {orderID : Int} {o : Order} :
    getOrder db ok orderID = .ok o ↔ ok = true ∧ ∃ id : Nat, orderID = id ∧ findByID db id = some o := by
  rcases ok with _ | _ <;> rcases orderID with id | _ <;> simp only [getOrder] <;> try split
  all_goals simp_all

theorem findByID_eq_none {db : OrderDb} {id : Nat} :
    findByID db id = none ↔ ∀ o ∈ db.orders, o.id ≠ id := by
  simp [findByID]

theorem findByID_mem {db : OrderDb} {id : Nat} {o : Order} (h : findByID db id = some o) :
    o ∈ db.orders ∧ o.id = id :=
  ⟨List.mem_of_find?_eq_some h, by simpa using List.find?_some h⟩

/-- With the ids of the rows distinct, `FindByID` finds exactly the row of the id. -/
theorem findByID_eq_some {db : OrderDb} (hn : (db.orders.map (·.id)).Nodup) {id : Nat} {o : Order} :
    findByID db id = some o ↔ o ∈ db.orders ∧ o.id = id :=
  ⟨findByID_mem, fun ⟨ho, hid⟩ => hid ▸ System.findByID_of_mem hn ho⟩

theorem getOrder_eq_error {db : OrderDb} {ok : Bool} {orderID : Int} :
    (∃ e, getOrder db ok orderID = .error e) ↔ ok = false ∨ ∀ o ∈ db.orders, (o.id : Int) ≠ orderID := by
  rcases ok with _ | _ <;> rcases orderID with id | _ <;> simp only [getOrder] <;> try split
  all_goals simp_all [findByID_eq_none]
  exact ⟨_, findByID_mem ‹_›⟩

/-! ## What `CreateOrder` answers -/

/-- A row of the id holds the key. -/
def OrderDb.HasKey (db : OrderDb) (id : Nat) (key : String) : Prop :=
  ∃ r ∈ db.orders, r.id = id ∧ r.idempotencyKey = key

@[simp] theorem setStatus_idempotencyKey (id : Nat) (st : OrderStatus) (v : Nat) (r : Order) :
    (setStatus id st v r).idempotencyKey = r.idempotencyKey := by
  unfold setStatus; split <;> rfl

/-- No call removes a row or changes its id or its key. -/
theorem OrdersStep.hasKey {db db' : OrderDb} (h : OrdersStep db db') {id : Nat} {key : String}
    (hk : db.HasKey id key) : db'.HasKey id key := by
  obtain ⟨r, hr, hid, hkey⟩ := hk
  cases h with
  | same ho _ => exact ⟨r, ho ▸ hr, hid, hkey⟩
  | create _ _ _ ho _ => exact ⟨r, ho ▸ List.mem_append_left _ hr, hid, hkey⟩
  | update o st _ _ _ ho _ =>
      exact ⟨_, ho ▸ List.mem_map_of_mem _ hr, by simpa using hid, by simpa using hkey⟩

/-- What a `CreateOrder` answer of `res` to a request with key `key` stands for: the row of the
key as the lookup found it, or the row the execution created, `PENDING`, with its
`OrderCreated` committed to the outbox. -/
def Answered (key : String) (db db' : OrderDb) (res : CreateOrderResult) : Prop :=
  (∃ o ∈ db.orders, o.id = res.orderId ∧ o.idempotencyKey = key ∧ o.status = res.status) ∨
    (db'.HasKey res.orderId key ∧ res.status = .pending ∧
      ∃ row ∈ db'.outbox, row.eventType = .orderCreated ∧ row.aggregateId = res.orderId)

/-- What a `CreateOrder` execution relies on once `Create` returned its row `o`: the table has
the row under the key, and the transaction holds its `OrderCreated` before the commit. -/
def CreateOrderThread.Keyed (db : OrderDb) (t : CreateOrderThread) : Prop :=
  match t.pc with
  | .insertTx o => db.HasKey o.id t.cmd.idempotencyKey ∧ o.status = .pending
  | .commit o => db.HasKey o.id t.cmd.idempotencyKey ∧ o.status = .pending ∧
      ∃ row ∈ t.tx, row.eventType = .orderCreated ∧ row.aggregateId = o.id
  | _ => True

theorem CreateOrderThread.Keyed.mono {db db' : OrderDb} (h : OrdersStep db db')
    {t : CreateOrderThread} (ht : t.Keyed db) : t.Keyed db' := by
  obtain ⟨cmd, pc, tx⟩ := t
  cases pc <;> simp only [CreateOrderThread.Keyed] at ht ⊢
  case insertTx => exact ⟨h.hasKey ht.1, ht.2⟩
  case commit => exact ⟨h.hasKey ht.1, ht.2⟩

/-- One call of `CreateOrder` keeps its execution keyed, and answers only what `Answered`
allows. -/
theorem CreateOrderThread.step_keyed (t : CreateOrderThread) (ok : Bool) (u : Nat) {db : OrderDb}
    (ht : t.Keyed db) :
    Next.Sat (fun t' _ db' => t'.cmd = t.cmd ∧ t'.Keyed db')
      (fun r _ db' => ∀ res, r = .ok res → Answered t.cmd.idempotencyKey db db' res)
      (t.step ok u db) := by
  obtain ⟨cmd, pc, tx⟩ := t
  cases pc <;> cases ok <;> simp only [CreateOrderThread.Keyed] at ht <;>
    simp only [CreateOrderThread.step, validate, Bool.false_eq_true, ↓reduceIte] <;>
    (repeat' split) <;> simp only [Next.Sat, CreateOrderThread.Keyed, true_and, and_true]
  case findByIdempotencyKey.true.h_1 o hf =>
    rintro _ ⟨⟩
    split_ifs at hf
    exact .inl ⟨o, List.mem_of_find?_eq_some hf, rfl, by simpa using List.find?_some hf, rfl⟩
  case create.true.h_1 o db' hc =>
    obtain ⟨-, rfl, rfl⟩ := create_eq_ok hc
    exact ⟨⟨_, List.mem_append_right _ (List.mem_singleton_self _), rfl, rfl⟩, rfl⟩
  case insertTx.true o =>
    exact ⟨ht.1, ht.2, _, List.mem_append_right _ (List.mem_singleton_self _), rfl, rfl⟩
  case commit.true o =>
    rintro _ ⟨⟩
    obtain ⟨hk, hst, row, hrow, hty, hid⟩ := ht
    exact .inr ⟨hk, hst, row, List.mem_append_right _ hrow, hty, hid⟩
  all_goals rintro _ h
  all_goals first | (cases h; done) | simp_all

/-- An execution of the Order service relies on `Keyed` if it is a `CreateOrder`. -/
def OrderThread.Keyed (db : OrderDb) : OrderThread → Prop
  | .createOrder t => t.Keyed db
  | .consumer _ => True

theorem OrderThread.Keyed.mono {db db' : OrderDb} (h : OrdersStep db db') :
    ∀ {t : OrderThread}, t.Keyed db → t.Keyed db'
  | .createOrder _, ht => CreateOrderThread.Keyed.mono h ht
  | .consumer _, _ => trivial

theorem OrderThread.step_keyed (t : OrderThread) (ok : Bool) (u : Nat) (gate : List Nat)
    {db : OrderDb} (ht : t.Keyed db) :
    ∀ t' ∈ (t.step ok u gate db).1, t'.Keyed (t.step ok u gate db).2.2.2 := by
  rcases t with t | c
  · have hs := t.step_keyed ok u ht
    simp only [OrderThread.step]
    generalize t.step ok u db = r at hs ⊢
    obtain ⟨_ | _, u', db'⟩ := r <;> simp [Next.Sat, Next.cont?] at hs ⊢
    exact hs.2
  · simp only [OrderThread.step, Option.mem_def, Option.map_eq_some']
    rintro _ ⟨_, -, rfl⟩
    trivial

/-- Every `CreateOrder` execution of the service is keyed. -/
def OrderSvc.Keyed (s : OrderSvc) : Prop := ∀ t ∈ s.threads, t.Keyed s.db

theorem OrderSvc.Keyed.step {s s' : OrderSvc} (hv : s.Versions) (hi : s.Keyed) {a : OrderAction}
    (h : s.step a = some s') : s'.Keyed := by
  have hdb := (hv.step h).2
  cases a with
  | request cmd =>
      cases h
      exact fun t ht => (List.mem_append.mp ht).elim (hi t) fun ht => by
        obtain rfl := List.mem_singleton.mp ht; trivial
  | deliver src msg =>
      cases h
      refine fun t ht => (List.mem_append.mp ht).elim (hi t) fun ht => ?_
      obtain ⟨c, -, rfl⟩ := List.mem_map.mp ht
      trivial
  | call j ok u =>
      obtain ⟨r, hr, rfl⟩ := Option.map_eq_some'.mp h
      obtain ⟨t, ht, rfl⟩ := Option.map_eq_some'.mp hr
      exact fun c hc => (mem_advance hc).elim
        (fun hc => (hi c (List.mem_of_mem_eraseIdx hc)).mono hdb)
        (t.step_keyed ok u s.gate (hi t (List.getElem?_mem ht)) c)
  | crash j => cases h; exact fun c hc => hi c (List.mem_of_mem_eraseIdx hc)
  | _ => cases h; exact hi

end MsaSaga.OrderService

namespace MsaSaga.HttpApi
open Schema OrderService

/-! ## The handler -/

/-- The body `respondJSON` encodes: an `ErrorResponse`, the order, a `CreateOrderResponse`, or
the `ErrorResponse` of a service error, whose text `err.Error()` the `errors` package renders
(that package is not among the sources). -/
inductive Body where
  | error (error code : String)
  | order (o : Order)
  | created (orderId : Nat) (status : OrderStatus)
  | failure (err : Err)
  deriving DecidableEq, Repr

/-- The status and the body a handler writes. -/
structure Response where
  status : Nat
  body : Body
  deriving DecidableEq, Repr

instance instDecidableEqExcept {ε α : Type} [DecidableEq ε] [DecidableEq α] :
    DecidableEq (Except ε α)
  | .error a, .error b =>
      if h : a = b then isTrue (h ▸ rfl) else isFalse fun e => h (Except.error.inj e)
  | .ok a, .ok b => if h : a = b then isTrue (h ▸ rfl) else isFalse fun e => h (Except.ok.inj e)
  | .error _, .ok _ => isFalse fun e => Except.noConfusion e
  | .ok _, .error _ => isFalse fun e => Except.noConfusion e

/-- `HTTPHandler.respondError`. -/
def HTTPHandler.respondError (status : Nat) (message code : String) : Response :=
  ⟨status, .error message code⟩

/-- `HTTPHandler.GetOrder` on the path `/orders/{orderIDStr}`: the mux sends it every path
under `/orders/`. -/
def HTTPHandler.getOrder (db : OrderDb) (ok : Bool) (method orderIDStr : String) : Response :=
  if method ≠ "GET" then HTTPHandler.respondError 405 "method not allowed" ""
  else
    match parseInt orderIDStr with
    | .error _ => HTTPHandler.respondError 400 "invalid order ID" ""
    | .ok orderID =>
        match OrderService.getOrder db ok orderID with
        | .error _ => HTTPHandler.respondError 404 "order not found" ""
        | .ok order => ⟨200, .order order⟩

theorem HTTPHandler.getOrder_eq_ok {db : OrderDb} {ok : Bool} {method t : String} {o : Order} :
    HTTPHandler.getOrder db ok method t = ⟨200, .order o⟩ ↔
      method = "GET" ∧ ∃ i, parseInt t = .ok i ∧ OrderService.getOrder db ok i = .ok o := by
  by_cases hm : method = "GET"
  · rcases hp : parseInt t with _ | i
    · simp [HTTPHandler.getOrder, HTTPHandler.respondError, hm, hp]
    · rcases hg : OrderService.getOrder db ok i <;>
        simp [HTTPHandler.getOrder, HTTPHandler.respondError, hm, hp, hg]
  · simp [HTTPHandler.getOrder, HTTPHandler.respondError, hm]

theorem HTTPHandler.getOrder_status_404 {db : OrderDb} {ok : Bool} {method t : String} :
    (HTTPHandler.getOrder db ok method t).status = 404 ↔
      method = "GET" ∧ ∃ i, parseInt t = .ok i ∧ ∃ e, OrderService.getOrder db ok i = .error e := by
  by_cases hm : method = "GET"
  · rcases hp : parseInt t with _ | i
    · simp [HTTPHandler.getOrder, HTTPHandler.respondError, hm, hp]
    · rcases hg : OrderService.getOrder db ok i <;>
        simp [HTTPHandler.getOrder, HTTPHandler.respondError, hm, hp, hg]
  · simp [HTTPHandler.getOrder, HTTPHandler.respondError, hm]

/-! ## `POST /orders` -/

end MsaSaga.HttpApi

namespace MsaSaga.System
open Events Schema OrderService HttpApi

/-- In every state the system reaches, `GET /orders/{id}` answers 200 with a row exactly when
the query succeeds and the path reads as that row's id, and 404 exactly when it reads as an
id that no row has or the query fails. -/
theorem get_order_serves_exactly_its_rows {inv : List InventoryRow} {s : Sys}
    (h : Reachable inv s) (ok : Bool) (method t : String) :
    (∀ o, HTTPHandler.getOrder s.order.db ok method t = ⟨200, .order o⟩ ↔
      ok = true ∧ method = "GET" ∧ o ∈ s.order.db.orders ∧ parseInt t = .ok o.id) ∧
    ((HTTPHandler.getOrder s.order.db ok method t).status = 404 ↔
      method = "GET" ∧ ∃ i, parseInt t = .ok i ∧
        (ok = false ∨ ∀ o ∈ s.order.db.orders, (o.id : Int) ≠ i)) := by
  have hn := (versions_of_reachable h.order).rows.nodup
  refine ⟨fun o => ?_, ?_⟩
  · simp only [HTTPHandler.getOrder_eq_ok, getOrder_eq_ok, findByID_eq_some hn]
    constructor
    · rintro ⟨hm, _, hp, hok, _, rfl, ho, rfl⟩
      exact ⟨hok, hm, ho, hp⟩
    · rintro ⟨hok, hm, ho, hp⟩
      exact ⟨hm, _, hp, hok, _, rfl, ho, rfl⟩
  · simp only [HTTPHandler.getOrder_status_404, getOrder_eq_error]

/-- Order 1 is created; its row is served at `+01`, which reads as 1. -/
theorem created_order_served_at_a_signed_id :
    let cmd : CreateOrderCommand :=
      { userId := 1001, amount := 50000, quantity := 1, idempotencyKey := "k1" }
    let o : Order :=
      { id := 1, userId := 1001, amount := 50000, quantity := 1, status := .pending,
        version := 0, idempotencyKey := "k1" }
    ∃ s, runSteps Sys.step (Sys.init []) (.request cmd :: List.replicate 5 (.call .order 0 true)) =
        some s ∧
      s.order.db.orders = [o] ∧ parseInt "+01" = .ok 1 ∧
      (∀ o', HTTPHandler.getOrder s.order.db true "GET" "+01" = ⟨200, .order o'⟩ ↔
        true = true ∧ "GET" = "GET" ∧ o' ∈ s.order.db.orders ∧ parseInt "+01" = .ok o'.id) ∧
      ((HTTPHandler.getOrder s.order.db true "GET" "+01").status = 404 ↔
        "GET" = "GET" ∧ ∃ i, parseInt "+01" = .ok i ∧
          (true = false ∨ ∀ o' ∈ s.order.db.orders, (o'.id : Int) ≠ i)) := by
  intro cmd o
  obtain ⟨s, hs, he⟩ := Option.map_eq_some'.mp (show
    (runSteps Sys.step (Sys.init [])
        (.request cmd :: List.replicate 5 (.call .order 0 true))).map (·.order.db.orders) =
      some [o] by decide)
  exact ⟨s, hs, he, rfl, get_order_serves_exactly_its_rows (Reach.init.run hs) true "GET" "+01"⟩

/-- Two requests with one key, both looking it up before either inserts: the first creates
order 1 and its `OrderCreated`, and the second's insert hits the unique index, so it returns
`failed to create order`. Run one after the other, the second request is answered order 1. -/
theorem createOrder_race_returns_duplicate_key_error :
    let cmd : CreateOrderCommand :=
      { userId := 1001, amount := 50000, quantity := 1, idempotencyKey := "k1" }
    let calls (js : List Nat) : List Action := js.map (.call .order · true)
    let answer (s : Sys) (j : Nat) : Option (Next CreateOrderThread CreateOrderReturn) :=
      match s.order.threads[j]? with
      | some (.createOrder t) => some (t.step true s.uuid s.order.db).1
      | _ => none
    let race : List Action := [.request cmd, .request cmd] ++ calls [0, 1, 0, 1, 0]
    (runSteps Sys.step (Sys.init []) race).map (answer · 1) =
        some (some (.ret (.error (dbErr "failed to create order")))) ∧
      (runSteps Sys.step (Sys.init []) (race ++ calls [1, 0])).map (answer · 0) =
        some (some (.ret (.ok ⟨1, .pending⟩))) ∧
      (runSteps Sys.step (Sys.init []) (race ++ calls [1, 0, 0])).map
          (fun s => (s.order.db.orders.map (·.idempotencyKey), s.order.db.outbox.map (·.eventType))) =
        some (["k1"], [.orderCreated]) ∧
      (runSteps Sys.step (Sys.init []) (.request cmd :: calls [0, 0, 0, 0, 0] ++ [.request cmd])).map
          (answer · 0) =
        some (some (.ret (.ok ⟨1, .pending⟩))) :=
  ⟨by decide, by decide, by decide, by decide⟩

end MsaSaga.System
