import MsaSaga.InventoryService
import Mathlib

/-!
# The inventory ledger under concurrent executions

An execution updates an inventory row only while its transaction holds the row's lock, and
the lock is held to the end of the transaction, so a row moves by whole transactions: the
paired `-q`/`+q` updates keep `available + reserved`, the availability check before a
reservation keeps `available` non-negative, and each committed transaction that updated a row
raised its version by one.

The reservation a restoration cancels is read outside its transaction, and the cancelling
update is not conditioned on the status. Two restorations of one order that both read the
reservation `RESERVED` both return its quantity, and the reserved quantity of the row no
longer matches the reservations that are `RESERVED`.
-/
namespace MsaSaga.InventoryLedger
open Events Schema InventoryService

/-! ## What a row, a lock and a transaction keep -/

/-- The product ids of the rows a transaction holds the lock of. -/
def lockedIds (tx : InvTx) : List Nat := tx.locked.map (·.row.productId)

/-- A committed inventory row against its initial value `r₀`, given the product ids of the
committed transactions that updated a row. -/
def RowInv (updates : List Nat) (r₀ r : InventoryRow) : Prop :=
  r.productId = r₀.productId ∧ 0 ≤ r.available ∧
    r.available + r.reserved = r₀.available + r₀.reserved ∧
    r.version = r₀.version + updates.count r₀.productId

/-- A locked row as its transaction sees it, against the committed row: updated at most once,
by opposite changes of the two quantities that leave `available` non-negative. -/
def LockInv (inventory : List InventoryRow) (l : LockedRow) : Prop :=
  ∃ r ∈ inventory, r.productId = l.row.productId ∧ 0 ≤ l.row.available ∧
    l.row.available + l.row.reserved = r.available + r.reserved ∧
    l.row.version = r.version + if l.updated then 1 else 0

/-- An open transaction: each row locked once and against its committed row, and only
non-negative quantities reserved. -/
structure TxInv (inventory : List InventoryRow) (tx : InvTx) : Prop where
  nodup : (lockedIds tx).Nodup
  locked : ∀ l ∈ tx.locked, LockInv inventory l
  reservations : ∀ r ∈ tx.reservations, 0 ≤ r.quantity

/-- What a handler's program point knows of its transaction: nothing is locked before the
row is read, and the reservation updates only the row it checked, once. -/
def RunInv : InventoryRun → Prop
  | .reserve m => match m.pc with
      | .selectKey | .beginTx | .selectForUpdate => m.tx.locked = []
      | .update v => ∃ l, m.tx.locked = [l] ∧ l.updated = false ∧ l.row.productId = productID ∧
          l.row.version = v ∧ quantity ≤ l.row.available
      | _ => True
  | .restore m => match m.pc with
      | .selectReservation => m.tx.locked = []
      | .beginTx r | .restore r => m.tx.locked = [] ∧ 0 ≤ r.quantity
      | _ => True

def StageInv : Stage InventoryRun → Prop
  | .isProcessed h => h = .reserve {} ∨ h = .restore {}
  | .handle h => RunInv h
  | .reserve => True

structure ThreadInv (inventory : List InventoryRow) (c : InventoryConsumer) : Prop where
  tx : TxInv inventory c.tx
  stage : StageInv c.stage

/-- The ledger invariant of the service started from the table `init`. -/
structure LedgerInv (init : List InventoryRow) (s : InventorySvc) : Prop where
  ids : s.db.inventory.map (·.productId) = init.map (·.productId)
  rows : ∀ r ∈ s.db.inventory, ∃ r₀ ∈ init, RowInv s.db.updates r₀ r
  reservations : ∀ r ∈ s.db.reservations, 0 ≤ r.quantity
  threads : ∀ c ∈ s.threads, ThreadInv s.db.inventory c
  exclusive : s.threads.Pairwise fun a b => (lockedIds a.tx).Disjoint (lockedIds b.tx)

/-- A call that commits nothing leaves the tables the ledger reads as they were. -/
def SameTables (db db' : InventoryDb) : Prop :=
  db'.inventory = db.inventory ∧ db'.reservations = db.reservations ∧ db'.updates = db.updates

/-- The locks a call takes were free: no transaction of `others` holds them. -/
def FreshLocks (others : List InvTx) (tx tx' : InvTx) : Prop :=
  ∀ p ∈ lockedIds tx', p ∈ lockedIds tx ∨ ∀ o ∈ others, p ∉ lockedIds o

theorem TxInv.empty (inventory : List InventoryRow) : TxInv inventory {} :=
  ⟨List.nodup_nil, nofun, nofun⟩

/-- `BeginTx` stamps the transaction's start and changes nothing the invariant reads. -/
theorem TxInv.startedAt {inventory : List InventoryRow} {tx : InvTx} (h : TxInv inventory tx)
    (t : Nat) : TxInv inventory { tx with startedAt := t } :=
  ⟨h.1, h.2, h.3⟩

@[simp] theorem txInv_with_outbox {inventory : List InventoryRow} {tx : InvTx}
    {o : List OutboxRow} : TxInv inventory { tx with outbox := o } ↔ TxInv inventory tx :=
  ⟨fun h => ⟨h.1, h.2, h.3⟩, fun h => ⟨h.1, h.2, h.3⟩⟩

@[simp] theorem txInv_with_canceled {inventory : List InventoryRow} {tx : InvTx}
    {c : List Nat} : TxInv inventory { tx with canceled := c } ↔ TxInv inventory tx :=
  ⟨fun h => ⟨h.1, h.2, h.3⟩, fun h => ⟨h.1, h.2, h.3⟩⟩

@[simp] theorem txInv_with_reservations {inventory : List InventoryRow} {tx : InvTx}
    {rs : List StockReservation} :
    TxInv inventory { tx with reservations := tx.reservations ++ rs } ↔
      TxInv inventory tx ∧ ∀ r ∈ rs, 0 ≤ r.quantity := by
  constructor
  · intro h
    exact ⟨⟨h.1, h.2, fun r hr => h.3 r (by simp [hr])⟩, fun r hr => h.3 r (by simp [hr])⟩
  · rintro ⟨h, hrs⟩
    refine ⟨h.1, h.2, fun r hr => ?_⟩
    rcases List.mem_append.mp hr with hr | hr
    exacts [h.3 r hr, hrs r hr]

/-! ## Taking and updating a lock -/

theorem InvTx.view_of_locked_nil {tx : InvTx} (h : tx.locked = []) (db : InventoryDb) (p : Nat) :
    tx.view db p = db.inventory.find? (·.productId = p) := by
  simp [InvTx.view, h]

theorem InvTx.lock_of_locked_nil {tx : InvTx} (h : tx.locked = []) (r : InventoryRow) :
    (tx.lock r).locked = [⟨r, false⟩] := by
  simp [InvTx.lock, h]

theorem InvTx.modify_single {tx : InvTx} {l : LockedRow} (h : tx.locked = [l]) {p : Nat}
    (hp : l.row.productId = p) (f : InventoryRow → InventoryRow) :
    (tx.modify p f).locked = [⟨f l.row, true⟩] := by
  simp [InvTx.modify, h, hp]

/-- The first lock of a transaction, on a committed row. -/
theorem TxInv.lock_fresh {inventory : List InventoryRow} {tx : InvTx} (ht : TxInv inventory tx)
    (h : tx.locked = []) {r : InventoryRow} (hr : r ∈ inventory) (ha : 0 ≤ r.available) :
    TxInv inventory (tx.lock r) where
  nodup := by simp [lockedIds, InvTx.lock_of_locked_nil h]
  locked l hl := by
    simp only [InvTx.lock_of_locked_nil h, List.mem_singleton] at hl
    subst hl
    exact ⟨r, hr, rfl, ha, rfl, by simp⟩
  reservations := by simpa using ht.reservations

/-- One update of a locked row by opposite changes of the two quantities. -/
theorem LockInv.update {inventory : List InventoryRow} {l : LockedRow} (h : LockInv inventory l)
    (hu : l.updated = false) (f : InventoryRow → InventoryRow)
    (hp : (f l.row).productId = l.row.productId) (ha : 0 ≤ (f l.row).available)
    (hs : (f l.row).available + (f l.row).reserved = l.row.available + l.row.reserved)
    (hv : (f l.row).version = l.row.version + 1) : LockInv inventory ⟨f l.row, true⟩ := by
  obtain ⟨r, hr, hrp, -, hrs, hrv⟩ := h
  simp only [hu, if_false] at hrv
  exact ⟨r, hr, hrp.trans hp.symm, ha, hs.trans hrs, by simp [hv, hrv]⟩

/-- A transaction holding one lock, after its only update. -/
theorem TxInv.modify_single {inventory : List InventoryRow} {tx : InvTx} {l : LockedRow}
    (ht : TxInv inventory tx) (h : tx.locked = [l]) {p : Nat} (hp : l.row.productId = p)
    {f : InventoryRow → InventoryRow} (hl : LockInv inventory ⟨f l.row, true⟩) :
    TxInv inventory (tx.modify p f) where
  nodup := by simp [lockedIds, InvTx.modify_single h hp]
  locked l' hl' := by
    simp only [InvTx.modify_single h hp, List.mem_singleton] at hl'
    exact hl' ▸ hl
  reservations := ht.reservations

/-! ## One call of a handler -/

section Handlers
variable (evt : Event) (ok : Bool) (u : Nat) (db : InventoryDb) (others : List InvTx)

theorem handlePaymentCompleted_ledger (m : ReserveRun) (hm : RunInv (.reserve m))
    (ht : TxInv db.inventory m.tx) (ha : ∀ r ∈ db.inventory, 0 ≤ r.available)
    (hw : ∀ o ∈ others, InventoryRun.waitsFor evt o (.reserve m) = false) :
    Next.Sat (fun m' _ db' => SameTables db db' ∧ RunInv (.reserve m') ∧
        TxInv db.inventory m'.tx ∧ FreshLocks others m.tx m'.tx)
      (fun _ _ db' => SameTables db db' ∨ db' = db.commit m.tx)
      (handlePaymentCompleted evt m ok u db) := by
  obtain ⟨pc, tx⟩ := m
  cases pc <;> cases ok <;> simp only [handlePaymentCompleted] <;> (repeat' split)
  case selectForUpdate.true.h_2.isTrue r hv _ | selectForUpdate.true.h_2.isFalse r hv hq =>
    simp only [RunInv] at hm
    rw [InvTx.view_of_locked_nil hm] at hv
    have hr := List.mem_of_find?_eq_some hv
    have hp : r.productId = productID := by simpa using List.find?_some hv
    have hfree : FreshLocks others tx (tx.lock r) := fun p hl => .inr fun o ho => by
      simp only [lockedIds, InvTx.lock_of_locked_nil hm, List.map_singleton,
        List.mem_singleton] at hl
      simpa [InventoryRun.waitsFor, lockedIds, hl, hp] using hw o ho
    refine ⟨⟨rfl, rfl, rfl⟩, ?_, ht.lock_fresh hm hr (ha r hr), hfree⟩
    first
      | trivial
      | exact ⟨_, InvTx.lock_of_locked_nil hm r, rfl, hp, rfl, Int.not_lt.mp hq⟩
  case update.true.isTrue.h_1.isTrue =>
    simp only [RunInv] at hm
    obtain ⟨l, hl, hu, hp, -, hq⟩ := hm
    have hl' := (ht.locked l (by simp [hl])).update hu reserveRow rfl
      (by simp only [reserveRow]; omega) (by simp only [reserveRow]; omega) rfl
    refine ⟨⟨rfl, rfl, rfl⟩, trivial, ht.modify_single hl hp hl', fun p hp' => .inl ?_⟩
    simpa [lockedIds, InvTx.modify_single hl hp, hl] using hp'
  case beginTx.true.isTrue => exact ⟨⟨rfl, rfl, rfl⟩, hm, ht.startedAt u, fun _ => .inl⟩
  all_goals simp_all [Next.Sat, SameTables, RunInv, FreshLocks, lockedIds, quantity]

theorem handlePaymentRefunded_ledger (m : RestoreRun) (hm : RunInv (.restore m))
    (ht : TxInv db.inventory m.tx) (ha : ∀ r ∈ db.inventory, 0 ≤ r.available)
    (hq : ∀ r ∈ db.reservations, 0 ≤ r.quantity)
    (hw : ∀ o ∈ others, InventoryRun.waitsFor evt o (.restore m) = false) :
    Next.Sat (fun m' _ db' => SameTables db db' ∧ RunInv (.restore m') ∧
        TxInv db.inventory m'.tx ∧ FreshLocks others m.tx m'.tx)
      (fun _ _ db' => SameTables db db' ∨ db' = db.commit m.tx)
      (handlePaymentRefunded evt m ok u db) := by
  obtain ⟨pc, tx⟩ := m
  cases pc <;> cases ok <;> simp only [handlePaymentRefunded] <;> (repeat' split)
  case selectReservation.true.h_2 r hr =>
    exact ⟨⟨rfl, rfl, rfl⟩, ⟨hm, hq r (List.mem_of_find?_eq_some hr)⟩, ht, fun _ => .inl⟩
  case restore.true.isTrue.h_1 r _ _ row hv =>
    obtain ⟨hm, hrq⟩ := hm
    rw [InvTx.view_of_locked_nil hm] at hv
    have hr := List.mem_of_find?_eq_some hv
    have hp : row.productId = r.productId := by simpa using List.find?_some hv
    have hl := InvTx.lock_of_locked_nil hm row
    have ht' := ht.lock_fresh hm hr (ha row hr)
    have hl' := (ht'.locked ⟨row, false⟩ (by simp [hl])).update rfl (restoreRow r.quantity) rfl
      (by simp only [restoreRow]; have := ha row hr; omega) (by simp only [restoreRow]; omega) rfl
    refine ⟨⟨rfl, rfl, rfl⟩, trivial, ht'.modify_single hl hp hl', fun p hp' => .inr fun o ho => ?_⟩
    simp only [lockedIds, InvTx.modify_single hl hp, List.map_singleton, List.mem_singleton,
      restoreRow] at hp'
    simpa [InventoryRun.waitsFor, lockedIds, hp', hp] using hw o ho
  case beginTx.true.isTrue => exact ⟨⟨rfl, rfl, rfl⟩, hm, ht.startedAt u, fun _ => .inl⟩
  all_goals simp_all [Next.Sat, SameTables, RunInv, FreshLocks, lockedIds]

theorem InventoryRun.step_ledger (h : InventoryRun) (hh : RunInv h) (ht : TxInv db.inventory h.tx)
    (ha : ∀ r ∈ db.inventory, 0 ≤ r.available) (hq : ∀ r ∈ db.reservations, 0 ≤ r.quantity)
    (hw : ∀ o ∈ others, h.waitsFor evt o = false) :
    Next.Sat (fun h' _ db' => SameTables db db' ∧ RunInv h' ∧ TxInv db.inventory h'.tx ∧
        FreshLocks others h.tx h'.tx)
      (fun _ _ db' => SameTables db db' ∨ db' = db.commit h.tx) (h.step evt ok u db) := by
  cases h with
  | reserve m =>
      have := handlePaymentCompleted_ledger evt ok u db others m hh ht ha hw
      simp only [InventoryRun.step]
      generalize handlePaymentCompleted evt m ok u db = r at this
      obtain ⟨_ | _, _, _⟩ := r <;> exact this
  | restore m =>
      have := handlePaymentRefunded_ledger evt ok u db others m hh ht ha hq hw
      simp only [InventoryRun.step]
      generalize handlePaymentRefunded evt m ok u db = r at this
      obtain ⟨_ | _, _, _⟩ := r <;> exact this

end Handlers

/-! ## Committing a transaction -/

theorem InvTx.commitRow_productId (tx : InvTx) (r : InventoryRow) :
    (tx.commitRow r).productId = r.productId := by
  unfold InvTx.commitRow
  split
  · rename_i l hl
    simpa using List.find?_some hl
  · rfl

theorem InvTx.commitRow_of_not_mem {tx : InvTx} {r : InventoryRow}
    (h : r.productId ∉ lockedIds tx) : tx.commitRow r = r := by
  unfold InvTx.commitRow
  split
  · rename_i l hl
    refine absurd ?_ h
    have hp : l.row.productId = r.productId := by simpa using List.find?_some hl
    exact List.mem_map.mpr ⟨l, List.mem_of_find?_eq_some hl, hp⟩
  · rfl

/-- A transaction that locked a row once adds one entry for it to `updates` if it updated the
row, and none otherwise. -/
theorem count_updated_of_find {locked : List LockedRow}
    (hn : (locked.map (·.row.productId)).Nodup) {p : Nat} {l : LockedRow}
    (hl : locked.find? (·.row.productId = p) = some l) :
    ((locked.filter (·.updated)).map (·.row.productId)).count p = if l.updated then 1 else 0 := by
  induction locked with
  | nil => simp at hl
  | cons x xs ih =>
      simp only [List.map_cons, List.nodup_cons, List.mem_map] at hn
      by_cases hx : x.row.productId = p
      · simp only [List.find?_cons, hx, decide_True, Option.some.injEq] at hl
        subst hl
        have h0 : ((xs.filter (·.updated)).map (·.row.productId)).count x.row.productId = 0 :=
          List.count_eq_zero.mpr fun hm => by
            obtain ⟨y, hy, hyp⟩ := List.mem_map.mp hm
            exact hn.1 ⟨y, (List.mem_filter.mp hy).1, hyp⟩
        subst hx
        cases hu : x.updated <;> simp [List.filter_cons, hu, h0]
      · simp only [List.find?_cons, hx, decide_False] at hl
        rw [← ih hn.2 hl]
        cases hu : x.updated <;> simp [List.filter_cons, List.count_cons, hu, hx]

theorem count_updated_of_find_none {locked : List LockedRow} {p : Nat}
    (hl : locked.find? (·.row.productId = p) = none) :
    ((locked.filter (·.updated)).map (·.row.productId)).count p = 0 :=
  List.count_eq_zero.mpr fun hm => by
    obtain ⟨y, hy, hyp⟩ := List.mem_map.mp hm
    exact absurd hyp (by simpa using List.find?_eq_none.mp hl y (List.mem_filter.mp hy).1)

/-- Committing a transaction whose locked rows are against the committed rows keeps every row
against its initial value. -/
theorem rows_commit {init : List InventoryRow} {db : InventoryDb} {tx : InvTx}
    (hids : (db.inventory.map (·.productId)).Nodup) (ht : TxInv db.inventory tx)
    (hrows : ∀ r ∈ db.inventory, ∃ r₀ ∈ init, RowInv db.updates r₀ r) :
    ∀ r ∈ (db.commit tx).inventory, ∃ r₀ ∈ init, RowInv (db.commit tx).updates r₀ r := by
  intro r' hr'
  obtain ⟨r, hr, rfl⟩ := List.mem_map.mp hr'
  obtain ⟨r₀, hr₀, hp, ha, hs, hv⟩ := hrows r hr
  refine ⟨r₀, hr₀, ?_⟩
  have hc : (db.commit tx).updates = db.updates ++ (tx.locked.filter (·.updated)).map (·.row.productId) := rfl
  unfold InvTx.commitRow
  split
  · rename_i l hl
    obtain ⟨r₁, hr₁, hp₁, ha₁, hs₁, hv₁⟩ := ht.locked l (List.mem_of_find?_eq_some hl)
    have hlp : l.row.productId = r.productId := by simpa using List.find?_some hl
    obtain rfl : r₁ = r := List.inj_on_of_nodup_map hids hr₁ hr (hp₁.trans hlp)
    refine ⟨hlp.trans hp, ha₁, hs₁.trans hs, ?_⟩
    rw [hc, List.count_append, ← hp, count_updated_of_find ht.nodup hl, hv₁, hv, hp]
    omega
  · rename_i hl
    refine ⟨hp, ha, hs, ?_⟩
    rw [hc, List.count_append, ← hp, count_updated_of_find_none hl, hv, hp]
    rfl

/-- A lock another transaction holds is untouched by this one's commit. -/
theorem LockInv.commit {db : InventoryDb} {tx : InvTx} {l : LockedRow}
    (h : LockInv db.inventory l) (hn : l.row.productId ∉ lockedIds tx) :
    LockInv (db.commit tx).inventory l := by
  obtain ⟨r, hr, hp, rest⟩ := h
  exact ⟨r, List.mem_map.mpr ⟨r, hr, InvTx.commitRow_of_not_mem (hp ▸ hn)⟩, hp, rest⟩

/-! ## One call of a consumer execution -/

/-- One call of an execution that does not wait: it commits nothing or its own transaction,
and what it continues with keeps its invariant and holds only locks that were free. -/
theorem InventoryConsumer.step_ledger (c : InventoryConsumer) (ok : Bool) (u : Nat)
    (gate : List Nat) (db : InventoryDb) (others : List InventoryConsumer)
    (hc : ThreadInv db.inventory c) (ha : ∀ r ∈ db.inventory, 0 ≤ r.available)
    (hq : ∀ r ∈ db.reservations, 0 ≤ r.quantity) (hb : c.blocked others = false) :
    (SameTables db (c.step ok u gate db).2.2.2 ∨ (c.step ok u gate db).2.2.2 = db.commit c.tx) ∧
      ∀ c' ∈ (c.step ok u gate db).1, ThreadInv (c.step ok u gate db).2.2.2.inventory c' ∧
        FreshLocks (others.map (·.tx)) c.tx c'.tx := by
  obtain ⟨src, evt, stage⟩ := c
  cases stage with
  | isProcessed h =>
      simp only [InventoryConsumer.step, Stage.step]
      split
      · exact ⟨.inl ⟨rfl, rfl, rfl⟩, by simp⟩
      · refine ⟨.inl ⟨rfl, rfl, rfl⟩, fun c' hc' => ?_⟩
        obtain rfl : { src, event := evt, stage := .handle h } = c' := by simpa using hc'
        have hs : StageInv (.isProcessed h) := hc.stage
        rcases hs with rfl | rfl <;>
          exact ⟨⟨TxInv.empty _, rfl⟩, fun _ hp => by
            simp [InventoryConsumer.tx, InventoryRun.tx, lockedIds] at hp⟩
  | handle h =>
      have hw : ∀ o ∈ others.map (·.tx), h.waitsFor evt o = false := by
        simpa [InventoryConsumer.blocked] using hb
      have := InventoryRun.step_ledger evt ok u db (others.map (·.tx)) h hc.stage hc.tx ha hq hw
      simp only [InventoryConsumer.step, Stage.step]
      generalize h.step evt ok u db = r at this
      obtain ⟨n, u', db'⟩ := r
      cases n with
      | cont h' =>
          obtain ⟨hsame, hr, ht, hf⟩ := this
          refine ⟨.inl hsame, fun c' hc' => ?_⟩
          obtain rfl : { src, event := evt, stage := .handle h' } = c' := by simpa using hc'
          exact ⟨⟨hsame.1 ▸ ht, hr⟩, hf⟩
      | ret e =>
          rcases e with _ | ⟨⟩
          · exact ⟨this, by simp⟩
          · refine ⟨this, fun c' hc' => ?_⟩
            obtain rfl : { src, event := evt, stage := .reserve } = c' := by simpa using hc'
            exact ⟨⟨TxInv.empty _, trivial⟩, fun _ hp => by
              simp [InventoryConsumer.tx, lockedIds] at hp⟩
  | reserve =>
      simp only [InventoryConsumer.step, Stage.step]
      exact ⟨.inl ⟨rfl, rfl, rfl⟩, by simp⟩

/-! ## Every reachable state -/

theorem InventoryDb.commit_ids (db : InventoryDb) (tx : InvTx) :
    (db.commit tx).inventory.map (·.productId) = db.inventory.map (·.productId) := by
  simp [InventoryDb.commit, InvTx.commitRow_productId]

theorem reservations_commit {db : InventoryDb} {tx : InvTx}
    (hdb : ∀ r ∈ db.reservations, 0 ≤ r.quantity) (htx : ∀ r ∈ tx.reservations, 0 ≤ r.quantity) :
    ∀ r ∈ (db.commit tx).reservations, 0 ≤ r.quantity := by
  intro r hr
  obtain ⟨r', hr', rfl⟩ := List.mem_map.mp hr
  have hq : 0 ≤ r'.quantity := (List.mem_append.mp hr').elim (hdb r') (htx r')
  unfold InvTx.commitReservation
  split <;> exact hq

/-- A new execution has no transaction yet and starts the handler its topic names. -/
theorem InventoryConsumer.start_inv {src : Nat} {msg : Message} {c : InventoryConsumer}
    (h : c ∈ (InventoryConsumer.start src msg).toList) : c.tx = {} ∧ StageInv c.stage := by
  simp only [InventoryConsumer.start, Option.mem_toList, Option.mem_def, Option.map_eq_some'] at h
  obtain ⟨r, hr, rfl⟩ := h
  refine ⟨rfl, ?_⟩
  unfold runOf at hr
  split at hr <;> cases hr <;> simp [StageInv]

section Service
variable {init : List InventoryRow}

theorem LedgerInv.initial (ha : ∀ r ∈ init, 0 ≤ r.available) :
    LedgerInv init { db := { inventory := init } } where
  ids := rfl
  rows r hr := ⟨r, hr, rfl, ha r hr, rfl, by simp⟩
  reservations := by simp
  threads := by simp
  exclusive := List.Pairwise.nil

theorem LedgerInv.available {s : InventorySvc} (hi : LedgerInv init s) :
    ∀ r ∈ s.db.inventory, 0 ≤ r.available := fun r hr => by
  obtain ⟨_, _, _, h, _⟩ := hi.rows r hr
  exact h

theorem LedgerInv.call (hn : (init.map (·.productId)).Nodup) {s : InventorySvc}
    (hi : LedgerInv init s) {j : Nat} {ok : Bool} {u : Nat} {r : InventorySvc × Nat × Option Nat}
    (h : s.call j ok u = some r) : LedgerInv init r.1 := by
  simp only [InventorySvc.call, Option.map_eq_some', Option.filter_eq_some, Option.mem_def,
    Bool.not_eq_true'] at h
  obtain ⟨t, ⟨hj, hb⟩, rfl⟩ := h
  have ht := hi.threads t (List.getElem?_mem hj)
  have hids : (s.db.inventory.map (·.productId)).Nodup := hi.ids ▸ hn
  have hdisj : ∀ o ∈ s.threads.eraseIdx j, (lockedIds t.tx).Disjoint (lockedIds o.tx) :=
    fun o ho => by
      rcases Pairwise.of_eraseIdx hi.exclusive hj ho with h | h
      exacts [h, fun _ h₁ h₂ => h h₂ h₁]
  obtain ⟨hdb, hnew⟩ :=
    InventoryConsumer.step_ledger t ok u s.gate s.db (s.threads.eraseIdx j) ht hi.available
      hi.reservations hb
  generalize t.step ok u s.gate s.db = st at hdb hnew
  obtain ⟨t', u', gate', db'⟩ := st
  dsimp only at hdb hnew
  have hothers : ∀ c ∈ s.threads.eraseIdx j, ThreadInv db'.inventory c := by
    intro c hc
    have hc₀ := hi.threads c (List.mem_of_mem_eraseIdx hc)
    rcases hdb with hsame | rfl
    · exact hsame.1 ▸ hc₀
    · exact ⟨⟨hc₀.tx.nodup, fun l hl => (hc₀.tx.locked l hl).commit fun hm =>
        hdisj c hc hm (List.mem_map_of_mem _ hl), hc₀.tx.reservations⟩, hc₀.stage⟩
  refine ⟨?_, ?_, ?_, fun c hc => (mem_advance hc).elim (hothers c) fun hc => (hnew c hc).1,
    pairwise_advance hi.exclusive fun c hc o ho => ?_⟩
  · rcases hdb with hsame | rfl
    · exact hsame.1 ▸ hi.ids
    · exact (InventoryDb.commit_ids _ _).trans hi.ids
  · rcases hdb with ⟨hi', -, hu⟩ | rfl
    · simp only [hi', hu]
      exact hi.rows
    · exact rows_commit hids ht.tx hi.rows
  · rcases hdb with ⟨-, hr, -⟩ | rfl
    · exact hr ▸ hi.reservations
    · exact reservations_commit hi.reservations ht.tx.reservations
  · have hd : (lockedIds c.tx).Disjoint (lockedIds o.tx) := fun p hp hpo =>
      ((hnew c hc).2 p hp).elim (fun hpt => hdisj o ho hpt hpo)
        fun hfree => hfree o.tx (List.mem_map_of_mem _ ho) hpo
    exact ⟨hd, fun _ h₁ h₂ => hd h₂ h₁⟩

theorem LedgerInv.step (hn : (init.map (·.productId)).Nodup) {s s' : InventorySvc}
    (hi : LedgerInv init s) {a : InventoryAction} (h : s.step a = some s') : LedgerInv init s' := by
  cases a with
  | deliver src msg =>
      cases h
      refine ⟨hi.ids, hi.rows, hi.reservations, fun c hc => ?_, ?_⟩
      · rcases List.mem_append.mp hc with hc | hc
        · exact hi.threads c hc
        · obtain ⟨htx, hs⟩ := InventoryConsumer.start_inv hc
          exact ⟨htx ▸ TxInv.empty _, hs⟩
      · refine List.pairwise_append.mpr ⟨hi.exclusive, ?_, fun a _ b hb => ?_⟩
        · cases InventoryConsumer.start src msg <;> simp
        · simp [(InventoryConsumer.start_inv hb).1, lockedIds]
  | call j ok u =>
      obtain ⟨r, hr, rfl⟩ := Option.map_eq_some'.mp h
      exact hi.call hn hr
  | crash j =>
      cases h
      exact ⟨hi.ids, hi.rows, hi.reservations,
        fun c hc => hi.threads c (List.mem_of_mem_eraseIdx hc),
        hi.exclusive.sublist (List.eraseIdx_sublist _ _)⟩
  | expire k => cases h; exact ⟨hi.ids, hi.rows, hi.reservations, hi.threads, hi.exclusive⟩
  | markSent id => cases h; exact ⟨hi.ids, hi.rows, hi.reservations, hi.threads, hi.exclusive⟩

theorem ledgerInv_of_reachable (hn : (init.map (·.productId)).Nodup)
    (ha : ∀ r ∈ init, 0 ≤ r.available) {s : InventorySvc} (h : InventorySvc.Reachable init s) :
    LedgerInv init s := by
  induction h with
  | init => exact LedgerInv.initial ha
  | step a _ hs ih => exact ih.step hn hs

/-- Every inventory row keeps `available` non-negative and `available + reserved` at its
initial value, and its version is its initial version plus the number of committed
transactions that updated it, in every state the service reaches from a table with one row
per product and no negative `available`. -/
theorem inventory_rows_balance (hn : (init.map (·.productId)).Nodup)
    (ha : ∀ r ∈ init, 0 ≤ r.available) {s : InventorySvc} (h : InventorySvc.Reachable init s) :
    ∀ r₀ ∈ init, ∃ r, s.db.inventory.find? (·.productId = r₀.productId) = some r ∧
      0 ≤ r.available ∧ r.available + r.reserved = r₀.available + r₀.reserved ∧
      r.version = r₀.version + s.db.updates.count r₀.productId := by
  have hi := ledgerInv_of_reachable hn ha h
  intro r₀ hr₀
  have hmem : r₀.productId ∈ s.db.inventory.map (·.productId) :=
    hi.ids ▸ List.mem_map_of_mem _ hr₀
  obtain ⟨r, hr⟩ : ∃ r, s.db.inventory.find? (·.productId = r₀.productId) = some r := by
    obtain ⟨r', hr', hp⟩ := List.mem_map.mp hmem
    exact Option.isSome_iff_exists.mp (List.find?_isSome.mpr ⟨r', hr', by simp [hp]⟩)
  have hp : r.productId = r₀.productId := by simpa using List.find?_some hr
  obtain ⟨r₁, hr₁, hp₁, hrow⟩ := hi.rows r (List.mem_of_find?_eq_some hr)
  obtain rfl : r₁ = r₀ := List.inj_on_of_nodup_map hn hr₁ hr₀ (hp₁.symm.trans hp)
  exact ⟨r, hr, hrow⟩

theorem inventory_rows_balance_after_reservation :
    let init : List InventoryRow := [⟨1, 10, 0, 0⟩]
    ∃ s, InventorySvc.Reachable init s ∧ s.db.updates = [1] ∧
      ∀ r₀ ∈ init, ∃ r, s.db.inventory.find? (·.productId = r₀.productId) = some r ∧
        0 ≤ r.available ∧ r.available + r.reserved = r₀.available + r₀.reserved ∧
        r.version = r₀.version + s.db.updates.count r₀.productId := by
  let pc : Event := { eventId := 10, eventType := .paymentCompleted, correlationId := 1, orderId := 1 }
  obtain ⟨s, hs, hu⟩ := Option.map_eq_some'.mp (show
    (runSteps InventorySvc.step { db := { inventory := [⟨1, 10, 0, 0⟩] } }
      (.deliver 0 ⟨.paymentCompleted, pc⟩ :: List.replicate 9 (.call 0 true 100))).map
        (·.db.updates) = some [1] by decide)
  have hr := Reach.init.run hs
  exact ⟨s, hr, hu, inventory_rows_balance (by decide) (by decide) hr⟩

end Service

/-! ## Two restorations of one reservation -/

/-- `SUM(quantity)` over the `RESERVED` reservations of product `p`. -/
def reservedHeld (db : InventoryDb) (p : Nat) : Int :=
  ((db.reservations.filter fun r => r.productId = p ∧ r.status = .reserved).map (·.quantity)).sum

/-- One reservation of one unit, then the same `PaymentRefunded` delivered twice: both
executions read the reservation `RESERVED` before either commits, and each restores it. The
row ends with `reserved = -1` and `available = 11`, while no reservation is `RESERVED`. -/
theorem refunded_twice_restores_twice :
    let pc : Event := { eventId := 10, eventType := .paymentCompleted, correlationId := 1, orderId := 1 }
    let pr : Event := { eventId := 20, eventType := .paymentRefunded, correlationId := 1, orderId := 1 }
    let trace : List InventoryAction :=
      .deliver 0 ⟨.paymentCompleted, pc⟩ :: List.replicate 9 (.call 0 true 100) ++
      [.deliver 1 ⟨.paymentRefunded, pr⟩, .deliver 2 ⟨.paymentRefunded, pr⟩,
        .call 0 true 200, .call 0 true 200, .call 1 true 300, .call 1 true 300] ++
      List.replicate 6 (.call 0 true 200) ++ List.replicate 6 (.call 0 true 300)
    ∃ s, runSteps InventorySvc.step { db := { inventory := [⟨1, 10, 0, 0⟩] } } trace = some s ∧
      InventorySvc.Reachable [⟨1, 10, 0, 0⟩] s ∧
      s.db.inventory = [⟨1, 11, -1, 3⟩] ∧ reservedHeld s.db 1 = 0 := by
  intro pc pr trace
  obtain ⟨s, hs, he⟩ := Option.map_eq_some'.mp (show
    (runSteps InventorySvc.step { db := { inventory := [⟨1, 10, 0, 0⟩] } } trace).map
      (fun s => (s.db.inventory, reservedHeld s.db 1)) = some ([⟨1, 11, -1, 3⟩], 0) by decide)
  exact ⟨s, hs, Reach.init.run hs, (Prod.mk.inj he).1, (Prod.mk.inj he).2⟩

end MsaSaga.InventoryLedger
