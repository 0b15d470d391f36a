import HopTorrent.Proofs.InfoHash
import HopTorrent.Storage.Database
import HopTorrent.Transfer.Progress
import Mathlib.Logic.Function.Basic

/-!
# Proofs/Storage/Rows — the stored transfers as what was shown of them

What was shown of a transfer determines its row: what identifies it is kept as first shown, the rest
as last shown (`Row.ofViews`).  A database mirrors a shelf of snapshots when its rows are these and
no others; saving a snapshot puts it on the shelf, forgetting a transfer clears its place
(`Mirrors.save`, `Mirrors.delete`, `Mirrors.clear`).
-/

namespace HopTorrent

/-! ## Percentages can be stored -/

namespace Binary64

variable {x y : Binary64}

theorem bits_min_le (x y : Binary64) : (x.min y).bits ≤ y.bits := by
  rw [min]
  split
  · assumption
  · exact UInt64.le_refl _

theorem bits_hundred : hundred.bits = 0x4059000000000000 := by decide +kernel

theorem toNat_bits_le (h : x.bits ≤ hundred.bits) : x.bits.toNat ≤ 0x4059000000000000 := by
  rw [bits_hundred] at h
  exact h

/-- A number whose bits are no larger than those of one hundred is finite. -/
theorem exponentField_lt (h : x.bits ≤ hundred.bits) : x.exponentField < 2047 := by
  have hb := toNat_bits_le h
  rw [exponentField]
  simp only [Nat.pow_eq]
  omega

/-- Among these numbers only zero has no significand. -/
theorem eq_zero_of_significand (h : x.bits ≤ hundred.bits) (hs : x.significand = 0) : x = zero := by
  have hb := toNat_bits_le h
  have hbits : x.bits.toNat = 0 := by
    rw [significand, exponentField, fractionField] at hs
    simp only [Nat.pow_eq] at hs
    split at hs <;> omega
  rcases x with ⟨bits⟩
  exact congrArg mk (UInt64.toNat_inj.mp hbits)

end Binary64

/-- A percentage is no more than one hundred. -/
theorem Progress.bits_percent_le (completed total : Nat) :
    (percent completed total).bits ≤ Binary64.hundred.bits := by
  rw [percent]
  split
  · exact UInt64.zero_le
  split
  · exact UInt64.le_refl _
  · exact UInt64.le_trans (Binary64.bits_min_le _ _) (by decide +kernel)

namespace Storage

/-- **A percentage is stored as it is.** -/
theorem storedProgress_percent (completed total : Nat) :
    storedProgress (Progress.percent completed total)
      = some (Progress.percent completed total) := by
  have hp := Progress.bits_percent_le completed total
  have hn : (Progress.percent completed total).isNaN = false := by
    simp [Binary64.isNaN, Nat.ne_of_lt (Binary64.exponentField_lt hp)]
  rw [storedProgress, if_neg (by simp [hn])]
  split
  · rename_i hz
    rw [Binary64.eq_zero_of_significand hp hz.2]
  · rfl

/-! ## Rows -/

/-- **What is kept of a transfer**: what identifies it as it was first shown, the rest as it was
last shown. -/
def Row.between (first latest : Snapshot) : Row where
  name := first.name
  totalSize := toStored first.totalSize
  downloaded := toStored latest.downloaded
  uploaded := toStored latest.uploaded
  downloadRate := toStored latest.downloadRate
  uploadRate := toStored latest.uploadRate
  progress := latest.progress
  status := latest.status.name
  magnet := first.magnet
  createdAt := Calendar.seconds first.createdAt

/-- The row of a transfer that was shown so; there is none before it was shown. -/
def Row.ofViews : List Snapshot → Option Row
  | [] => none
  | first :: later => some (.between first (later.getLastD first))

/-- The row of a transfer that had a row, or none, after it is saved. -/
def Row.seen (old : Option Row) (view : Snapshot) : Row :=
  match old with
  | some row => row.updated view view.progress
  | none => .ofSnapshot view view.progress

/-- **Saving a snapshot is showing it.** -/
theorem Row.ofViews_snoc (views : List Snapshot) (view : Snapshot) :
    Row.ofViews (views ++ [view]) = some (Row.seen (Row.ofViews views) view) := by
  cases views with
  | nil => rfl
  | cons first later =>
    rw [List.cons_append, ofViews, List.getLastD_concat]
    rfl

theorem Row.ofViews_eq_none_iff {views : List Snapshot} :
    Row.ofViews views = none ↔ views = [] := by
  cases views <;> simp [ofViews]

/-! ## The mirror -/

/-- What was shown of each transfer. -/
abbrev Shelf := InfoHash → List Snapshot

/-- The shelf with some more snapshots. -/
def Shelf.noting (shelf : Shelf) (views : List Snapshot) : Shelf :=
  fun id => shelf id ++ views.filter fun view => view.infoHash = id

@[simp] theorem Shelf.noting_nil (shelf : Shelf) : shelf.noting [] = shelf := by
  funext id
  exact List.append_nil _

theorem Shelf.noting_cons (shelf : Shelf) (view : Snapshot) (views : List Snapshot) :
    shelf.noting (view :: views) = (shelf.noting [view]).noting views := by
  funext id
  by_cases h : view.infoHash = id <;> simp [noting, h]

/-- **A database keeps what was shown**: one row for each transfer that was, and no other. -/
def Mirrors (db : Database) (shelf : Shelf) : Prop :=
  ∃ rows, db.contents.transfers = some rows
    ∧ (∀ id : InfoHash, rows.get? id.toHex = Row.ofViews (shelf id))
    ∧ ∀ key row, rows.get? key = some row → ∃ id : InfoHash, key = id.toHex

/-- A new database keeps nothing. -/
theorem mirrors_empty : Mirrors Database.empty fun _ => [] :=
  ⟨.empty, rfl, fun _ => rfl, nofun⟩

variable {db : Database} {shelf : Shelf}

/-- Nothing but the rows matters. -/
theorem Mirrors.of_transfers {db' : Database} (h : Mirrors db shelf)
    (hd : db'.contents.transfers = db.contents.transfers) : Mirrors db' shelf := by
  obtain ⟨rows, hr, hrows⟩ := h
  exact ⟨rows, hd.trans hr, hrows⟩

/-- A statement that the rows allow. -/
theorem run_onTransfers {α : Type} {a : α} {rows rows' : Table String Row} (doing : String)
    {f : Table String Row → Except String (α × Table String Row)}
    (hr : db.contents.transfers = some rows) (hf : f rows = .ok (a, rows')) :
    (Database.onTransfers doing f).run db
      = (.ok a, ⟨{ db.contents with transfers := some rows' }, false⟩) := by
  simp only [Database.onTransfers, bind_pure_comp, StateT.run_bind, StateT.run_get, StateT.run_set,
    pure_bind, hr, hf, StateT.run_map, map_pure]
  rfl

/-- **A snapshot that is saved is kept.** -/
theorem Mirrors.save (h : Mirrors db shelf) {view : Snapshot}
    (hp : storedProgress view.progress = some view.progress) :
    ∃ db', (Database.save view).run db = (.ok (), db') ∧ Mirrors db' (shelf.noting [view]) := by
  obtain ⟨rows, hr, hrows, hkeys⟩ := h
  have hf : Database.saved view rows = .ok ((), rows.put view.infoHash.toHex
      (.seen (rows.get? view.infoHash.toHex) view)) := by
    rw [Database.saved, hp]
    dsimp only
    cases rows.get? view.infoHash.toHex <;> rfl
  refine ⟨_, run_onTransfers _ hr hf, _, rfl, fun id => ?_, fun key row hk => ?_⟩
  · rw [Table.get?_put, Shelf.noting]
    split
    · rename_i he
      obtain rfl := InfoHash.toHex_injective he
      rw [hrows, ← Row.ofViews_snoc]
      simp
    · rename_i he
      have hne : view.infoHash ≠ id := fun hid => he (congrArg InfoHash.toHex hid.symm)
      simp [hrows, hne]
  · rw [Table.get?_put] at hk
    split at hk
    · exact ⟨_, ‹_›⟩
    · exact hkeys key row hk

/-- No row is left under a key that is deleted. -/
theorem Mirrors.erase (h : Mirrors db shelf) (key : String) :
    ∃ db', (Database.delete key).run db = (.ok (), db')
      ∧ Mirrors db' fun id => if id.toHex = key then [] else shelf id := by
  obtain ⟨rows, hr, hrows, hkeys⟩ := h
  refine ⟨_, run_onTransfers _ hr rfl, _, rfl, fun j => ?_, fun key row hk => ?_⟩
  · dsimp only
    by_cases hj : j.toHex = key
    · rw [Table.get?_erase, if_pos hj, if_pos hj]
      rfl
    · rw [Table.get?_erase, if_neg hj, if_neg hj, hrows]
  · rw [Table.get?_erase] at hk
    split at hk
    · cases hk
    · exact hkeys key row hk

/-- **A transfer that is deleted has no row.** -/
theorem Mirrors.delete (h : Mirrors db shelf) (id : InfoHash) :
    ∃ db', (Database.delete id.toHex).run db = (.ok (), db')
      ∧ Mirrors db' (Function.update shelf id []) := by
  obtain ⟨db', hrun, hm⟩ := h.erase id.toHex
  refine ⟨db', hrun, ?_⟩
  have hshelf : (fun j => if j.toHex = id.toHex then [] else shelf j)
      = Function.update shelf id [] := by
    funext j
    by_cases hj : j = id
    · rw [hj, if_pos rfl, Function.update_self]
    · rw [if_neg fun he => hj (InfoHash.toHex_injective he), Function.update_of_ne hj]
  exact hshelf ▸ hm

/-- **No row is left after all are cleared.** -/
theorem Mirrors.clear (h : Mirrors db shelf) :
    ∃ count db', Database.clear.run db = (.ok count, db') ∧ Mirrors db' fun _ => [] := by
  obtain ⟨rows, hr, -⟩ := h
  exact ⟨_, _, run_onTransfers _ hr rfl, .empty, rfl, fun _ => rfl, nofun⟩

/-! ## Statements on the settings -/

/-- A statement that leaves the rows alone. -/
def LeavesRows {α : Type} (m : Statement α) : Prop :=
  ∀ db, (m.run db).2.contents.transfers = db.contents.transfers

variable {α β : Type}

theorem LeavesRows.pure (a : α) : LeavesRows (pure a : Statement α) := fun _ => rfl

theorem LeavesRows.bind {m : Statement α} {f : α → Statement β} (hm : LeavesRows m)
    (hf : ∀ a, LeavesRows (f a)) : LeavesRows (m >>= f) :=
  fun db => (hf _ _).trans (hm db)

theorem leavesRows_onSettings (f : Table String String → α × Table String String) :
    LeavesRows (Database.onSettings f) := by
  intro db
  rw [Database.onSettings]
  cases hs : db.contents.settings <;>
    simp only [bind_pure_comp, StateT.run_bind, StateT.run_get, StateT.run_set, pure_bind, hs,
      StateT.run_map, StateT.run_pure, map_pure] <;> rfl

/-- Reading settings leaves the rows alone. -/
theorem leavesRows_valuesOf (settings : List Setting) :
    LeavesRows (Database.valuesOf settings) := by
  induction settings with
  | nil => exact .pure _
  | cons setting rest ih =>
    refine .bind (leavesRows_onSettings _) fun v => ?_
    cases v with
    | error e => exact .pure _
    | ok v =>
      refine .bind ih fun vs => ?_
      cases vs with
      | error e => exact .pure _
      | ok vs => exact .pure _

end Storage

end HopTorrent
