import HopTorrent.Proofs.Binary64
import HopTorrent.Proofs.Settings
import HopTorrent.Proofs.Storage.Reopening
import HopTorrent.Proofs.Storage.Rows

/-!
# Proofs/Storage/History — a database answers from what was asked of it before

What was saved of a transfer since it was last forgotten (`shown`) determines its record, and what
was last given for a key (`lastGiven`) is its value: the two tables are two maps that know nothing
of each other.  One request keeps this (`Keeps.perform`), hence every history of requests does, and
each next request is answered accordingly (`history_remembered`) — whether or not the file was
opened once more in between.
-/

namespace HopTorrent

/-! ## Snapshots that can be stored -/

namespace Binary64

variable {x : Binary64}

theorem value_eq_zero_iff : x.value = 0 ↔ x.significand = 0 := by
  have hsign : (if x.negative then -1 else 1 : ℚ) ≠ 0 := by split <;> norm_num
  have hres : (resolution : ℚ) ≠ 0 := Nat.cast_ne_zero.mpr resolution_pos.ne'
  rw [value, mul_eq_zero, or_iff_right hsign, div_eq_zero_iff, or_iff_left hres, Nat.cast_eq_zero,
    units, mul_eq_zero, or_iff_left (Nat.two_pow_pos _).ne']

theorem isNaN_of_isFinite (h : x.isFinite = true) : x.isNaN = false := by
  have hx : x.exponentField < 2047 := of_decide_eq_true h
  exact decide_eq_false fun hn => hx.ne hn.1

/-- The number without the sign that a zero may have. -/
def unsignedZero (x : Binary64) : Binary64 := if x.value = 0 then .zero else x

theorem isFinite_unsignedZero (h : x.isFinite = true) : x.unsignedZero.isFinite = true := by
  rw [unsignedZero]
  split
  · decide
  · exact h

theorem value_unsignedZero (x : Binary64) : x.unsignedZero.value = x.value := by
  rw [unsignedZero]
  split
  · rename_i h
    rw [h]
    exact value_eq_zero_iff.mpr (by decide)
  · rfl

theorem unsignedZero_unsignedZero (x : Binary64) :
    x.unsignedZero.unsignedZero = x.unsignedZero := by
  rw [unsignedZero, value_unsignedZero]
  split
  · rw [unsignedZero, if_pos ‹_›]
  · rfl

end Binary64

/-- A snapshot that can be stored: its percentage is a number, and its creation time has a date. -/
structure Snapshot.Storable (view : Snapshot) : Prop where
  finite : view.progress.isFinite = true
  dated : Storage.dateRange.1 ≤ Calendar.seconds view.createdAt
    ∧ Calendar.seconds view.createdAt ≤ Storage.dateRange.2

/-- A snapshot as far as it is told apart from others when it is stored. -/
def Snapshot.stored (view : Snapshot) : Snapshot :=
  { view with progress := view.progress.unsignedZero }

namespace Storage

variable {view : Snapshot} {id : InfoHash}

theorem storedProgress_of_isFinite {x : Binary64} (h : x.isFinite = true) :
    storedProgress x = some x.unsignedZero := by
  rw [storedProgress, if_neg (by simp [Binary64.isNaN_of_isFinite h]), Binary64.unsignedZero]
  by_cases hz : x.value = 0
  · rw [if_pos hz, if_pos ⟨h, Binary64.value_eq_zero_iff.mp hz⟩]
  · rw [if_neg hz, if_neg fun hs => hz (Binary64.value_eq_zero_iff.mpr hs.2)]

theorem storedProgress_stored (h : view.progress.isFinite = true) :
    storedProgress view.stored.progress = some view.stored.progress := by
  rw [Snapshot.stored, storedProgress_of_isFinite (Binary64.isFinite_unsignedZero h),
    Binary64.unsignedZero_unsignedZero]

/-- Saving a snapshot is saving what is told apart of it. -/
theorem save_stored (h : view.progress.isFinite = true) :
    Database.save view.stored = Database.save view := by
  have hs : Database.saved view.stored = Database.saved view := by
    funext rows
    rw [Database.saved, Database.saved, storedProgress_stored h, storedProgress_of_isFinite h]
    rfl
  rw [Database.save, Database.save, hs]

/-! ## Records -/

/-- An instant without its fraction of a second. -/
def wholeSeconds (instant : Int) : Int := instant - instant % 1000000000

/-- **What is read back of a transfer**: what identifies it as it was first saved, the rest as it
was last saved, no number above the largest that can be stored. -/
def Record.between (id : InfoHash) (first latest : Snapshot) : Record where
  infoHash := id.toHex
  name := first.name
  totalSize := min first.totalSize (2 ^ 63 - 1)
  downloaded := min latest.downloaded (2 ^ 63 - 1)
  uploaded := min latest.uploaded (2 ^ 63 - 1)
  downloadRate := min latest.downloadRate (2 ^ 63 - 1)
  uploadRate := min latest.uploadRate (2 ^ 63 - 1)
  progress := latest.progress.unsignedZero
  status := latest.status.name
  magnet := first.magnet
  createdAt := wholeSeconds first.createdAt

theorem ofSeconds_seconds (instant : Int) :
    Calendar.ofSeconds (Calendar.seconds instant) = wholeSeconds instant := by
  rw [Calendar.ofSeconds, Calendar.seconds, wholeSeconds, Calendar.nanosPerSecond,
    Int.fdiv_eq_ediv_of_nonneg _ (by omega)]
  omega

theorem toRecord_between {first latest : Snapshot} (hf : first.Storable) :
    (Row.between first.stored latest.stored).toRecord id.toHex
      = .between id first latest := by
  have hc : instantOf (Calendar.seconds first.createdAt) = wholeSeconds first.createdAt := by
    rw [instantOf, if_pos hf.dated, ofSeconds_seconds]
  simp only [Row.toRecord, Row.between, Record.between, ofStored_toStored, Snapshot.stored, hc]
  rfl

/-- The rows are read in order. -/
theorem readBefore_trans (a b c : String × Row) (hab : Database.readBefore a b = true)
    (hbc : Database.readBefore b c = true) : Database.readBefore a c = true := by
  simp only [Database.readBefore, Bool.or_eq_true, Bool.and_eq_true, decide_eq_true_eq] at *
  rcases hab with hab | ⟨hab, hab'⟩ <;> rcases hbc with hbc | ⟨hbc, hbc'⟩
  · exact .inl (by omega)
  · exact .inl (by omega)
  · exact .inl (by omega)
  · exact .inr ⟨by omega, String.le_trans hab' hbc'⟩

theorem readBefore_total (a b : String × Row) :
    (Database.readBefore a b || Database.readBefore b a) = true := by
  simp only [Database.readBefore, Bool.or_eq_true, Bool.and_eq_true, decide_eq_true_eq]
  obtain h | h | h : a.2.createdAt > b.2.createdAt ∨ b.2.createdAt > a.2.createdAt
      ∨ a.2.createdAt = b.2.createdAt := by
    omega
  · exact .inl (.inl h)
  · exact .inr (.inl h)
  · exact (String.le_total a.1 b.1).imp (fun hab => .inr ⟨h, hab⟩) fun hba => .inr ⟨h.symm, hba⟩

theorem mem_records_iff {rows : Table String Row} {r : Record} :
    r ∈ Database.records rows ↔ ∃ key row, rows.get? key = some row ∧ r = row.toRecord key := by
  rw [Database.records, List.mem_map]
  constructor
  · rintro ⟨⟨key, row⟩, hmem, rfl⟩
    exact ⟨key, row, (rows.mem_entries_iff key row).mp (List.mem_mergeSort.mp hmem), rfl⟩
  · rintro ⟨key, row, hget, rfl⟩
    exact ⟨(key, row), List.mem_mergeSort.mpr ((rows.mem_entries_iff key row).mpr hget), rfl⟩

theorem length_records (rows : Table String Row) :
    (Database.records rows).length = rows.size := by
  rw [Database.records, List.length_map, List.length_mergeSort, Table.size]

/-- No two records are of the same transfer. -/
theorem nodup_records (rows : Table String Row) :
    ((Database.records rows).map Record.infoHash).Nodup := by
  rw [Database.records, List.map_map]
  exact ((List.mergeSort_perm rows.entries Database.readBefore).map Prod.fst).nodup_iff.mpr
    rows.nodup

/-- Newer records come first. -/
theorem pairwise_records {rows : Table String Row} (hdated : ∀ key row, rows.get? key = some row →
      dateRange.1 ≤ row.createdAt ∧ row.createdAt ≤ dateRange.2) :
    (Database.records rows).Pairwise fun a b => b.createdAt ≤ a.createdAt := by
  rw [Database.records, List.pairwise_map]
  refine (List.pairwise_mergeSort readBefore_trans readBefore_total _).imp_of_mem ?_
  rintro ⟨key, a⟩ ⟨key', b⟩ ha hb hab
  have hinstant : ∀ key row, (key, row) ∈ rows.entries.mergeSort Database.readBefore →
      instantOf row.createdAt = row.createdAt * 1000000000 := fun key row hmem =>
    if_pos (hdated key row ((rows.mem_entries_iff key row).mp (List.mem_mergeSort.mp hmem)))
  simp only [Database.readBefore, Bool.or_eq_true, Bool.and_eq_true, decide_eq_true_eq] at hab
  show instantOf b.createdAt ≤ instantOf a.createdAt
  rw [hinstant _ _ ha, hinstant _ _ hb]
  omega

/-! ## Requests -/

/-- What may be asked of a database. -/
inductive Request where
  | save (view : Snapshot)
  | delete (key : String)
  | clear
  | all
  | set (key value : String)
  | get (key : String)
  | settings
  /-- Opens the same file once more. -/
  | reopen

/-- What is answered. -/
inductive Answer where
  | done (result : Except Error Unit)
  | records (result : Except Error (List Record))
  | count (result : Except Error Nat)
  | value (result : Except Error (Option String))
  | values (result : Except Error (List (Setting × String)))

/-- An open database, and the tree its file is in. -/
structure Held where
  tree : Tree
  database : Database

namespace Held

/-- Performs a statement.  What it changes is written at once. -/
def perform {α : Type} (l : Location) (answer : Except Error α → Answer)
    (m : Statement (Except Error α)) (h : Held) : Answer × Held :=
  let (result, database) := m.run h.database
  (answer result, ⟨h.tree.saveDatabase l database, database⟩)

/-- Opens the file once more. -/
def reopen (l : Location) (h : Held) : Answer × Held :=
  match h.tree.openDatabase l with
  | .error e => (.done (.error e), h)
  | .ok (database, tree) => (.done (.ok ()), ⟨tree, database⟩)

/-- The answer to a request, and what is held afterwards. -/
def ask (l : Location) (h : Held) : Request → Answer × Held
  | .save view => h.perform l .done (Database.save view)
  | .delete key => h.perform l .done (Database.delete key)
  | .clear => h.perform l .count Database.clear
  | .all => h.perform l .records Database.all
  | .set key value => h.perform l .done (Database.setValue key value)
  | .get key => h.perform l .value (Database.value? key)
  | .settings => h.perform l .values Database.settings
  | .reopen => h.reopen l

/-- What is held after some requests, the latest one first. -/
def after (l : Location) (h : Held) : List Request → Held
  | [] => h
  | r :: earlier => ((h.after l earlier).ask l r).2

end Held

/-! ## What requests tell -/

namespace Request

/-- The snapshot of a transfer that a request saves. -/
def saved? (id : InfoHash) : Request → Option Snapshot
  | save view => if view.infoHash = id then some view else none
  | _ => none

/-- Whether a request forgets a transfer. -/
def forgets (id : InfoHash) : Request → Bool
  | delete key => key = id.toHex
  | clear => true
  | _ => false

/-- The value that a request gives to a key.  Opening states the version of the layout. -/
def given? (key : String) : Request → Option String
  | set k value => if k = key then some value else none
  | reopen => if key = versionKey then some "1" else none
  | _ => none

/-- Whether a request is about transfers. -/
def OnTransfers : Request → Prop
  | save _ | delete _ | clear | all => True
  | _ => False

/-- Whether a request is about settings. -/
def OnSettings : Request → Prop
  | set _ _ | get _ | settings => True
  | _ => False

/-- Whether a request may be made: what is saved can be stored, and only a file is opened once
more. -/
def Sound (l : Location) : Request → Prop
  | save view => view.Storable
  | reopen => Tree.vanishes l = false
  | _ => True

end Request

/-- **What was saved of a transfer since it was last forgotten**, the earliest first. -/
def shown (id : InfoHash) (past : List Request) : List Snapshot :=
  ((past.takeWhile fun r => !r.forgets id).filterMap (·.saved? id)).reverse

/-- **The last value that was given to a key**, the database being opened first of all. -/
def lastGiven (key : String) (past : List Request) : Option String :=
  (past ++ [Request.reopen]).findSome? (·.given? key)

variable {l : Location} {h h' : Held} {r : Request} {past : List Request} {db : Database}

theorem shown_cons (id : InfoHash) (r : Request) (past : List Request) :
    shown id (r :: past) = if r.forgets id then [] else shown id past ++ (r.saved? id).toList := by
  cases hf : r.forgets id
  · rw [shown, List.takeWhile_cons_of_pos (by simp [hf]), List.filterMap_cons]
    cases r.saved? id <;> simp [shown]
  · rw [shown, List.takeWhile_cons_of_neg (by simp [hf])]
    rfl

theorem lastGiven_cons (key : String) (r : Request) (past : List Request) :
    lastGiven key (r :: past) = (r.given? key).or (lastGiven key past) := by
  rw [lastGiven, List.cons_append, List.findSome?_cons, ← lastGiven]
  cases r.given? key <;> rfl

/-- What was shown of a transfer was saved. -/
theorem save_mem_of_mem_shown (hv : view ∈ shown id past) :
    .save view ∈ past ∧ view.infoHash = id := by
  obtain ⟨r, hr, hs⟩ := List.mem_filterMap.mp (List.mem_reverse.mp hv)
  have hpast : r ∈ past := (List.takeWhile_sublist _).subset hr
  cases r with
  | save v =>
    rw [Request.saved?] at hs
    split at hs
    · cases hs
      exact ⟨hpast, ‹_›⟩
    · cases hs
  | _ => cases hs

/-! ## Statements -/

/-- A statement on settings that are there. -/
theorem run_onSettings {α : Type} {values : Table String String}
    (f : Table String String → α × Table String String) (hs : db.contents.settings = some values) :
    (Database.onSettings f).run db
      = (.ok (f values).1, ⟨{ db.contents with settings := some (f values).2 }, false⟩) := by
  simp only [Database.onSettings, bind_pure_comp, StateT.run_bind, StateT.run_get, StateT.run_set,
    pure_bind, hs, StateT.run_map, map_pure]
  rfl

/-- What is read of some preferences is what they have. -/
theorem run_valuesOf {values : Table String String} (settings : List Setting)
    (hs : db.contents.settings = some values) : ∃ db', db'.contents = db.contents
      ∧ (Database.valuesOf settings).run db
        = (.ok (settings.filterMap fun s => (values.get? s.key).map (s, ·)), db') := by
  induction settings generalizing db with
  | nil => exact ⟨db, rfl, rfl⟩
  | cons s rest ih =>
    have hc : (⟨db.contents.transfers, some values⟩ : Contents) = db.contents := by rw [← hs]
    have hread : (⟨⟨db.contents.transfers, some values⟩, false⟩ : Database).contents.settings
        = some values := rfl
    obtain ⟨db', hdb', hrest⟩ := ih hread
    refine ⟨db', hdb'.trans hc, ?_⟩
    rw [Database.valuesOf, StateT.run_bind, Database.value?, run_onSettings _ hs]
    show (Database.valuesOf rest >>= _).run _ = _
    rw [StateT.run_bind, hrest, List.filterMap_cons]
    cases values.get? s.key <;> rfl

/-- A statement on transfers leaves the settings alone. -/
theorem settings_onTransfers {α : Type} (doing : String)
    (f : Table String Row → Except String (α × Table String Row)) (db : Database) :
    ((Database.onTransfers doing f).run db).2.contents.settings = db.contents.settings := by
  cases ht : db.contents.transfers with
  | none =>
    simp only [Database.onTransfers, bind_pure_comp, StateT.run_bind, StateT.run_get,
      StateT.run_set, pure_bind, ht, StateT.run_pure]
    rfl
  | some rows =>
    cases hf : f rows <;>
      simp only [Database.onTransfers, bind_pure_comp, StateT.run_bind, StateT.run_get,
        StateT.run_set, pure_bind, ht, hf, StateT.run_pure, StateT.run_map, map_pure] <;> rfl

/-- All rows are read as records. -/
theorem run_all {rows : Table String Row} (hr : db.contents.transfers = some rows) :
    Database.all.run db = (.ok (Database.records rows), ⟨db.contents, false⟩) := by
  have hc : (⟨some rows, db.contents.settings⟩ : Contents) = db.contents := by rw [← hr]
  rw [Database.all, StateT.run_bind, StateT.run_get]
  show (Database.onTransfers _ _).run db = _
  rw [run_onTransfers _ hr rfl, hc]

/-! ## What a database keeps -/

/-- **What a database keeps of some requests**: the rows are what was saved, and the values what was
given, in a file that can be opened once more. -/
structure Keeps (l : Location) (h : Held) (past : List Request) : Prop where
  rows : Mirrors h.database fun id => (shown id past).map Snapshot.stored
  settings : ∃ values, h.database.contents.settings = some values
    ∧ ∀ key, values.get? key = lastGiven key past
  file : Tree.vanishes l = false → h.tree.Holds l h.database.contents

/-- A request that tells nothing about transfers. -/
theorem shown_cons_of_idle (hf : ∀ id, r.forgets id = false) (hs : ∀ id, r.saved? id = none) :
    (fun id => (shown id (r :: past)).map Snapshot.stored)
      = fun id => (shown id past).map Snapshot.stored := by
  funext id
  rw [shown_cons, hf, hs]
  simp

/-- A request that gives nothing to keys. -/
theorem lastGiven_cons_of_idle (hg : ∀ key, r.given? key = none) (key : String) :
    lastGiven key (r :: past) = lastGiven key past := by
  rw [lastGiven_cons, hg, Option.none_or]

/-- A statement that changes the rows as told. -/
theorem Keeps.of_rows {α : Type} (hk : Keeps l h past) (answer : Except Error α → Answer)
    {m : Statement (Except Error α)} (hg : ∀ key, r.given? key = none)
    (hs : (m.run h.database).2.contents.settings = h.database.contents.settings)
    (hm : Mirrors (m.run h.database).2 fun id => (shown id (r :: past)).map Snapshot.stored) :
    Keeps l (h.perform l answer m).2 (r :: past) := by
  obtain ⟨values, hv, hkeys⟩ := hk.settings
  refine ⟨hm, ⟨values, hs.trans hv, fun key => ?_⟩, fun hl => (hk.file hl).saveDatabase _⟩
  rw [lastGiven_cons_of_idle hg, hkeys]

/-- A statement that changes the settings as told. -/
theorem Keeps.of_settings {α : Type} (hk : Keeps l h past) (answer : Except Error α → Answer)
    {m : Statement (Except Error α)} (hf : ∀ id, r.forgets id = false)
    (hs : ∀ id, r.saved? id = none)
    (ht : (m.run h.database).2.contents.transfers = h.database.contents.transfers)
    (hv : ∃ values, (m.run h.database).2.contents.settings = some values
      ∧ ∀ key, values.get? key = lastGiven key (r :: past)) :
    Keeps l (h.perform l answer m).2 (r :: past) := by
  refine ⟨?_, hv, fun hl => (hk.file hl).saveDatabase _⟩
  rw [shown_cons_of_idle hf hs]
  exact hk.rows.of_transfers ht

/-- Opening the file once more keeps the rows, and all values but the version of the layout. -/
theorem Keeps.reopen (hk : Keeps l h past) (hl : Tree.vanishes l = false) :
    ∃ tree, h.ask l .reopen
        = (.done (.ok ()), ⟨tree, .ofContents h.database.contents⟩)
      ∧ Keeps l ⟨tree, .ofContents h.database.contents⟩ (.reopen :: past) := by
  obtain ⟨tree, hopen, hheld⟩ := (hk.file hl).openDatabase
  obtain ⟨rows, hrows, -⟩ := hk.rows
  obtain ⟨values, hv, hkeys⟩ := hk.settings
  refine ⟨tree, ?_, ?_, ⟨_, rfl, fun key => ?_⟩, fun _ => hheld⟩
  · rw [Held.ask, Held.reopen, hopen]
  · rw [shown_cons_of_idle (fun _ => rfl) fun _ => rfl]
    refine hk.rows.of_transfers ?_
    show some (h.database.contents.transfers.getD .empty) = _
    rw [hrows, Option.getD_some]
  · rw [hv, Option.getD_some, Table.get?_put, hkeys, lastGiven_cons, Request.given?,
      show toString layoutVersion = "1" from rfl]
    split <;> rfl

/-- **A request that may be made is kept.** -/
theorem Keeps.ask (hk : Keeps l h past) (hr : r.Sound l) : Keeps l (h.ask l r).2 (r :: past) := by
  obtain ⟨values, hv, hkeys⟩ := hk.settings
  cases r with
  | save view =>
    have hview : view.Storable := hr
    obtain ⟨db', hrun, hm⟩ := hk.rows.save (storedProgress_stored hview.finite)
    rw [save_stored hview.finite] at hrun
    refine hk.of_rows _ (fun _ => rfl) (settings_onTransfers _ _ _) ?_
    rw [hrun]
    convert hm using 2 with id
    rw [shown_cons, Shelf.noting, Request.saved?]
    by_cases hid : view.infoHash = id <;> simp [Request.forgets, Snapshot.stored, hid]
  | delete key =>
    obtain ⟨db', hrun, hm⟩ := hk.rows.erase key
    refine hk.of_rows _ (fun _ => rfl) (settings_onTransfers _ _ _) ?_
    rw [hrun]
    convert hm using 2 with id
    rw [shown_cons, Request.forgets]
    by_cases hid : key = id.toHex
    · simp [hid]
    · simp [hid, Ne.symm hid, Request.saved?]
  | clear =>
    obtain ⟨count, db', hrun, hm⟩ := hk.rows.clear
    refine hk.of_rows _ (fun _ => rfl) (settings_onTransfers _ _ _) ?_
    rw [hrun]
    exact hm
  | all =>
    obtain ⟨rows, hrows, -⟩ := hk.rows
    refine hk.of_rows _ (fun _ => rfl) ?_ ?_
    · rw [run_all hrows]
    · rw [run_all hrows, shown_cons_of_idle (fun _ => rfl) fun _ => rfl]
      exact hk.rows.of_transfers rfl
  | set key value =>
    refine hk.of_settings _ (fun _ => rfl) (fun _ => rfl) (leavesRows_onSettings _ _) ?_
    rw [Database.setValue, run_onSettings _ hv]
    refine ⟨_, rfl, fun k => ?_⟩
    rw [Table.get?_put, hkeys, lastGiven_cons, Request.given?]
    by_cases hkey : k = key
    · simp [hkey]
    · simp [hkey, Ne.symm hkey]
  | get key =>
    refine hk.of_settings _ (fun _ => rfl) (fun _ => rfl) (leavesRows_onSettings _ _) ?_
    rw [Database.value?, run_onSettings _ hv]
    exact ⟨_, rfl, fun k => (hkeys k).trans (lastGiven_cons_of_idle (fun _ => rfl) k).symm⟩
  | settings =>
    obtain ⟨db', hdb', hrun⟩ := run_valuesOf Setting.all hv
    refine hk.of_settings _ (fun _ => rfl) (fun _ => rfl) (leavesRows_valuesOf _ _) ?_
    rw [Database.settings, hrun, hdb']
    exact ⟨_, hv, fun k => (hkeys k).trans (lastGiven_cons_of_idle (fun _ => rfl) k).symm⟩
  | reopen =>
    obtain ⟨tree, hask, hkept⟩ := hk.reopen hr
    rw [hask]
    exact hkept

/-- **What is kept after every history of requests that may be made.** -/
theorem Keeps.after (hk : Keeps l h []) (hpast : ∀ r ∈ past, r.Sound l) :
    Keeps l (h.after l past) past := by
  induction past with
  | nil => exact hk
  | cons r earlier ih =>
    obtain ⟨hr, hearlier⟩ := List.forall_mem_cons.mp hpast
    exact (ih hearlier).ask hr

/-- A database that was just made keeps nothing. -/
theorem keeps_of_openDatabase {tree tree' : Tree}
    (hopen : tree.openDatabase l = .ok (Database.empty, tree')) :
    Keeps l ⟨tree', Database.empty⟩ [] := by
  refine ⟨mirrors_empty, ⟨_, rfl, fun key => ?_⟩, fun hl => Tree.holds_of_openDatabase hl hopen⟩
  rw [Table.get?_put, lastGiven, List.nil_append, List.findSome?_singleton, Request.given?]
  rfl

/-! ## What a database answers -/

/-- The row of what was saved, by its first and its last snapshot. -/
theorem ofViews_stored_eq_some_iff {views : List Snapshot} {row : Row} :
    Row.ofViews (views.map Snapshot.stored) = some row ↔ ∃ first latest,
      views.head? = some first ∧ views.getLast? = some latest
        ∧ row = .between first.stored latest.stored := by
  cases views with
  | nil => simp [Row.ofViews]
  | cons first later =>
    rw [List.map_cons, Row.ofViews, List.getLastD_map, List.getLastD_eq_getLast?, List.head?_cons,
      List.getLast?_cons]
    constructor
    · intro he
      exact ⟨_, _, rfl, rfl, (Option.some.inj he).symm⟩
    · rintro ⟨_, _, ⟨⟩, ⟨⟩, rfl⟩
      rfl

/-- **What a database answers** after some requests. -/
structure Answers (l : Location) (h : Held) (past : List Request) : Prop where
  saved : ∀ view, view.Storable → (h.ask l (.save view)).1 = .done (.ok ())
  deleted : ∀ key, (h.ask l (.delete key)).1 = .done (.ok ())
  set : ∀ key value, (h.ask l (.set key value)).1 = .done (.ok ())
  /-- There is one record of each transfer that was saved since it was last forgotten, the newer
  ones come first, and clearing counts them. -/
  records : ∃ rs, (h.ask l .all).1 = .records (.ok rs)
    ∧ (∀ r, r ∈ rs ↔ ∃ id first latest, (shown id past).head? = some first
      ∧ (shown id past).getLast? = some latest ∧ r = .between id first latest)
    ∧ (rs.map Record.infoHash).Nodup
    ∧ rs.Pairwise (fun a b => b.createdAt ≤ a.createdAt)
    ∧ (h.ask l .clear).1 = .count (.ok rs.length)
  value : ∀ key, (h.ask l (.get key)).1 = .value (.ok (lastGiven key past))
  /-- The preferences that have a value are answered with it, and nothing else is. -/
  values : ∃ vs, (h.ask l .settings).1 = .values (.ok vs)
    ∧ (∀ s value, (s, value) ∈ vs ↔ lastGiven s.key past = some value)
    ∧ (vs.map Prod.fst).Nodup
    ∧ ∀ entry ∈ vs, entry.1.key ≠ versionKey
  settings_kept : ∀ r : Request, r.OnTransfers →
    (h.ask l r).2.database.contents.settings = h.database.contents.settings
  rows_kept : ∀ r : Request, r.OnSettings →
    (h.ask l r).2.database.contents.transfers = h.database.contents.transfers
  /-- A file that is opened once more has the same records, and the same values but the version of
  the layout. -/
  reopened : Tree.vanishes l = false → ∃ h', h.ask l .reopen = (.done (.ok ()), h')
    ∧ (h'.ask l .all).1 = (h.ask l .all).1
    ∧ (h'.ask l (.get versionKey)).1 = .value (.ok (some "1"))
    ∧ ∀ key, key ≠ versionKey → (h'.ask l (.get key)).1 = (h.ask l (.get key)).1

/-- Requests about transfers leave the settings alone. -/
theorem settings_ask (hr : r.OnTransfers) :
    (h.ask l r).2.database.contents.settings = h.database.contents.settings := by
  cases r with
  | save view => exact settings_onTransfers _ (Database.saved view) h.database
  | delete key => exact settings_onTransfers _ (fun rows => .ok ((), rows.erase key)) h.database
  | clear => exact settings_onTransfers _ (fun rows => .ok (rows.size, .empty)) h.database
  | all =>
    exact settings_onTransfers _ (fun rows => .ok (Database.records rows, rows)) h.database
  | _ => exact hr.elim

/-- Requests about settings leave the transfers alone. -/
theorem transfers_ask (hr : r.OnSettings) :
    (h.ask l r).2.database.contents.transfers = h.database.contents.transfers := by
  cases r with
  | set key value =>
    exact leavesRows_onSettings (fun values => ((), values.put key value)) h.database
  | get key => exact leavesRows_onSettings (fun values => (values.get? key, values)) h.database
  | settings => exact leavesRows_valuesOf Setting.all h.database
  | _ => exact hr.elim

namespace Keeps

theorem saved (hk : Keeps l h past) (hview : view.Storable) :
    (h.ask l (.save view)).1 = .done (.ok ()) := by
  obtain ⟨db', hrun, -⟩ := hk.rows.save (storedProgress_stored hview.finite)
  rw [save_stored hview.finite] at hrun
  rw [Held.ask, Held.perform, hrun]

theorem deleted (hk : Keeps l h past) (key : String) :
    (h.ask l (.delete key)).1 = .done (.ok ()) := by
  obtain ⟨db', hrun, -⟩ := hk.rows.erase key
  rw [Held.ask, Held.perform, hrun]

theorem set (hk : Keeps l h past) (key value : String) :
    (h.ask l (.set key value)).1 = .done (.ok ()) := by
  obtain ⟨values, hv, -⟩ := hk.settings
  rw [Held.ask, Held.perform, Database.setValue, run_onSettings _ hv]

theorem value (hk : Keeps l h past) (key : String) :
    (h.ask l (.get key)).1 = .value (.ok (lastGiven key past)) := by
  obtain ⟨values, hv, hkeys⟩ := hk.settings
  rw [Held.ask, Held.perform, Database.value?, run_onSettings _ hv, hkeys]

theorem values (hk : Keeps l h past) : (h.ask l .settings).1
    = .values (.ok (Setting.valued fun s => lastGiven s.key past)) := by
  obtain ⟨values, hv, hkeys⟩ := hk.settings
  obtain ⟨db', -, hrun⟩ := run_valuesOf Setting.all hv
  rw [Held.ask, Held.perform, Database.settings, hrun]
  simp only [hkeys, Setting.valued]

/-- One record of each transfer, the newer ones first. -/
theorem records (hk : Keeps l h past) (hpast : ∀ r ∈ past, r.Sound l) :
    ∃ rs, (h.ask l .all).1 = .records (.ok rs)
      ∧ (∀ r, r ∈ rs ↔ ∃ id first latest, (shown id past).head? = some first
        ∧ (shown id past).getLast? = some latest ∧ r = .between id first latest)
      ∧ (rs.map Record.infoHash).Nodup
      ∧ rs.Pairwise (fun a b => b.createdAt ≤ a.createdAt)
      ∧ (h.ask l .clear).1 = .count (.ok rs.length) := by
  obtain ⟨rows, hr, hrows, hids⟩ := hk.rows
  have hstorable : ∀ id view, view ∈ shown id past → view.Storable := fun id view hv =>
    hpast _ (save_mem_of_mem_shown hv).1
  refine ⟨Database.records rows, ?_, fun r => ?_, nodup_records rows,
    pairwise_records fun key row hget => ?_, ?_⟩
  · rw [Held.ask, Held.perform, run_all hr]
  · rw [mem_records_iff]
    constructor
    · rintro ⟨key, row, hget, rfl⟩
      obtain ⟨id, rfl⟩ := hids key row hget
      rw [hrows, ofViews_stored_eq_some_iff] at hget
      obtain ⟨first, latest, hf, hl, rfl⟩ := hget
      exact ⟨id, first, latest, hf, hl,
        toRecord_between (hstorable id first (List.mem_of_head? hf))⟩
    · rintro ⟨id, first, latest, hf, hl, rfl⟩
      refine ⟨id.toHex, .between first.stored latest.stored, ?_,
        (toRecord_between (hstorable id first (List.mem_of_head? hf))).symm⟩
      rw [hrows, ofViews_stored_eq_some_iff]
      exact ⟨first, latest, hf, hl, rfl⟩
  · obtain ⟨id, rfl⟩ := hids key row hget
    rw [hrows, ofViews_stored_eq_some_iff] at hget
    obtain ⟨first, latest, hf, -, rfl⟩ := hget
    exact (hstorable id first (List.mem_of_head? hf)).dated
  · rw [length_records, Held.ask, Held.perform, Database.clear, run_onTransfers _ hr rfl]

/-- The same is answered of transfers once the file was opened once more. -/
theorem all_reopened (hk : Keeps l h past) (tree : Tree) :
    ((⟨tree, .ofContents h.database.contents⟩ : Held).ask l .all).1 = (h.ask l .all).1 := by
  obtain ⟨rows, hr, -⟩ := hk.rows
  have hr' : (Database.ofContents h.database.contents).contents.transfers = some rows := by
    show some (h.database.contents.transfers.getD .empty) = _
    rw [hr, Option.getD_some]
  rw [Held.ask, Held.ask, Held.perform, Held.perform, run_all hr, run_all hr']

end Keeps

/-- No preference is kept under the key of the layout's version. -/
theorem key_ne_versionKey (s : Setting) : s.key ≠ versionKey := by
  cases s <;> decide

/-- **A database answers from what was asked of it since it was made**, as two maps that know
nothing of each other. -/
theorem history_remembered {tree tree' : Tree}
    (hopen : tree.openDatabase l = .ok (Database.empty, tree'))
    (hpast : ∀ r ∈ past, r.Sound l) :
    Answers l ((⟨tree', Database.empty⟩ : Held).after l past) past := by
  have hk := (keeps_of_openDatabase hopen).after hpast
  constructor
  case saved => exact fun _ => hk.saved
  case deleted => exact hk.deleted
  case set => exact hk.set
  case records => exact hk.records hpast
  case value => exact hk.value
  case values =>
    exact ⟨_, hk.values, fun _ _ => Setting.mem_valued_iff, Setting.nodup_valued _,
      fun entry _ => key_ne_versionKey entry.1⟩
  case settings_kept => exact fun _ => settings_ask
  case rows_kept => exact fun _ => transfers_ask
  case reopened =>
    intro hl
    obtain ⟨tree, hask, hkept⟩ := hk.reopen hl
    refine ⟨_, hask, hk.all_reopened tree, ?_, fun key hkey => ?_⟩
    · rw [hkept.value, lastGiven_cons, Request.given?, if_pos rfl, Option.some_or]
    · rw [hkept.value, hk.value, lastGiven_cons, Request.given?, if_neg hkey, Option.none_or]

/-- Even of a transfer that was saved twice, beyond what can be stored, and of a version that was
overwritten, in a file that was opened once more. -/
theorem history_remembered_reopened :
    let l : Location := ⟨"data/b2torrent.db", false⟩
    let tree : Tree := ⟨.empty, ["home"]⟩
    let first : Snapshot := ⟨⟨.replicate 20 1⟩, "a", 2 ^ 64 - 1, 0, 0, 0, 0, .zero, .starting, 0,
      1500000000, "magnet:"⟩
    let latest : Snapshot := { first with name := "b", downloaded := 2 ^ 63, progress := .hundred }
    let past : List Request :=
      [.reopen, .set versionKey "7", .save latest, .delete "b", .save first]
    ∃ tree', tree.openDatabase l = .ok (Database.empty, tree') ∧ (∀ r ∈ past, r.Sound l)
      ∧ Answers l ((⟨tree', Database.empty⟩ : Held).after l past) past
      ∧ shown first.infoHash past = [first, latest]
      ∧ lastGiven versionKey past = some "1" := by
  intro l tree first latest past
  have hparent : Tree.parentOf l.path = "data" := by decide +kernel
  have hlocate : tree.locate "data" = ["home", "data"] := by decide +kernel
  have hmake : tree.makeDirectories (Tree.parentOf l.path)
      = .ok ((tree.place ["home"] .directory).place ["home", "data"] .directory) := by
    rw [hparent, Tree.makeDirectories, hlocate]
    rfl
  have hplace : tree.locate l.path = ["home", "data", "b2torrent.db"] := by decide +kernel
  have hopen := Tree.openDatabase_of_absent (by decide +kernel) (by decide +kernel) hmake (by
    show Tree.nodeAt _ (tree.locate l.path) = none
    rw [hplace]
    rfl)
  have hpast : ∀ r ∈ past, r.Sound l := by
    have hfirst : first.Storable := ⟨by decide, by decide, by decide⟩
    have hlatest : latest.Storable := ⟨by decide +kernel, by decide, by decide⟩
    simpa [past, Request.Sound, hfirst, hlatest] using by decide +kernel
  exact ⟨_, hopen, hpast, history_remembered hopen hpast, rfl, rfl⟩

end Storage

end HopTorrent
