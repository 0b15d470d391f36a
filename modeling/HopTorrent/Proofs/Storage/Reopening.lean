import HopTorrent.Storage.Tree

/-!
# Proofs/Storage/Reopening — a database file is opened once more

Opening a database makes the directories above it and writes the file, so afterwards the tree holds
that file (`Tree.holds_of_openDatabase`); writing it again keeps this (`Tree.Holds.saveDatabase`);
and opening what the tree holds never fails, and gives the contents that were last written
(`Tree.Holds.openDatabase`).
-/

namespace HopTorrent.Storage.Tree

variable {t t' : Tree} {l : Location} {c : Contents} {n : Node} {p q start : Path}
  {names : List String}

theorem nodeAt_place_self (hq : q ≠ []) : (t.place q n).nodeAt q = some n := by
  rw [nodeAt, if_neg (by simpa using hq), place, Table.get?_put, if_pos rfl]

theorem nodeAt_place_of_ne (hp : p ≠ q) : (t.place q n).nodeAt p = t.nodeAt p := by
  rw [nodeAt, nodeAt, place, Table.get?_put, if_neg hp]

/-- The root is a directory. -/
theorem ne_nil_of_nodeAt (h : t.nodeAt q ≠ some .directory) : q ≠ [] := by
  rintro rfl
  exact h rfl

/-! ## Directories -/

/-- All names on the way down from a place are directories. -/
def Passable (t : Tree) (start : Path) : List String → Prop
  | [] => True
  | name :: rest =>
    t.nodeAt (start ++ [name]) = some .directory ∧ Passable t (start ++ [name]) rest

/-- Where all are directories none is made. -/
theorem Passable.makeFrom (h : t.Passable start names) : t.makeFrom start names = .ok t := by
  induction names generalizing start with
  | nil => rfl
  | cons name rest ih =>
    rw [Tree.makeFrom, h.1]
    exact ih h.2

/-- What is put where no directory stands is in nobody's way. -/
theorem Passable.place (h : t.Passable start names) (hq : t.nodeAt q ≠ some .directory) :
    (t.place q n).Passable start names := by
  induction names generalizing start with
  | nil => trivial
  | cons name rest ih =>
    have hne : start ++ [name] ≠ q := fun he => hq (he ▸ h.1)
    exact ⟨(nodeAt_place_of_ne hne).trans h.1, ih h.2⟩

/-- Making directories takes nothing away, and leaves the way down passable. -/
theorem makeFrom_eq_ok (h : t.makeFrom start names = .ok t') :
    t'.Passable start names ∧ t'.here = t.here
      ∧ ∀ p, t.nodeAt p = some .directory → t'.nodeAt p = some .directory := by
  induction names generalizing t start with
  | nil =>
    cases h
    exact ⟨trivial, rfl, fun _ hp => hp⟩
  | cons name rest ih =>
    rw [makeFrom] at h
    split at h
    case h_1 hd =>
      obtain ⟨hway, hhere, hkept⟩ := ih h
      exact ⟨⟨hkept _ hd, hway⟩, hhere, hkept⟩
    case h_2 => cases h
    case h_3 hnone =>
      obtain ⟨hway, hhere, hkept⟩ := ih h
      have hne : start ++ [name] ≠ [] := List.append_ne_nil_of_right_ne_nil _ (List.cons_ne_nil _ _)
      refine ⟨⟨hkept _ (nodeAt_place_self hne), hway⟩, hhere, fun p hp => hkept p ?_⟩
      rw [nodeAt_place_of_ne, hp]
      rintro rfl
      rw [hnone] at hp
      cases hp

/-- The directory at a path is there, and those above it. -/
def HasDirectories (t : Tree) (path : String) : Prop :=
  path.isEmpty = true ∨ t.Passable [] (t.locate path)

theorem hasDirectories_of_makeDirectories {path : String} (h : t.makeDirectories path = .ok t') :
    t'.HasDirectories path := by
  rw [makeDirectories] at h
  split at h
  · exact .inl ‹_›
  · obtain ⟨hway, hhere, -⟩ := makeFrom_eq_ok h
    refine .inr ?_
    rw [locate, hhere]
    exact hway

/-- They are not made twice. -/
theorem HasDirectories.makeDirectories {path : String} (h : t.HasDirectories path) :
    t.makeDirectories path = .ok t := by
  rw [Tree.makeDirectories]
  split
  · rfl
  · exact (h.resolve_left ‹_›).makeFrom

theorem HasDirectories.place {path : String} (h : t.HasDirectories path)
    (hq : t.nodeAt q ≠ some .directory) : (t.place q n).HasDirectories path :=
  h.imp_right fun hway => hway.place hq

/-! ## The file -/

/-- **The tree holds a database file**: it stands at its path, with these contents, and the
directories above it are there. -/
structure Holds (t : Tree) (l : Location) (c : Contents) : Prop where
  file : vanishes l = false
  named : l.path.endsWith "/" = false
  directories : t.HasDirectories (parentOf l.path)
  stands : t.nodeAt (t.locate l.path) = some (.database c)

theorem saveDatabase_eq (hl : vanishes l = false) (t : Tree) (db : Database) :
    t.saveDatabase l db = t.place (t.locate l.path) (.database db.contents) := by
  rw [saveDatabase, if_neg (by simp [hl])]

/-- **A database file that is written is held**, if no directory has its name. -/
theorem holds_saveDatabase (hl : vanishes l = false) (hn : l.path.endsWith "/" = false)
    (hd : t.HasDirectories (parentOf l.path)) (hs : t.nodeAt (t.locate l.path) ≠ some .directory)
    (db : Database) : (t.saveDatabase l db).Holds l db.contents := by
  rw [saveDatabase_eq hl]
  exact ⟨hl, hn, hd.place hs, nodeAt_place_self (ne_nil_of_nodeAt hs)⟩

/-- Writing a file that is held keeps it held. -/
theorem Holds.saveDatabase (h : t.Holds l c) (db : Database) :
    (t.saveDatabase l db).Holds l db.contents :=
  holds_saveDatabase h.file h.named h.directories (by rw [h.stands]; exact nofun) db

/-- What can be opened is no directory. -/
theorem contentsAt_eq_some {path : String} (h : t.contentsAt path = some c) :
    path.endsWith "/" = false ∧ t.nodeAt (t.locate path) ≠ some .directory := by
  rw [contentsAt] at h
  split at h
  · cases h
  · refine ⟨Bool.eq_false_iff.mpr ‹_›, fun hd => ?_⟩
    rw [hd] at h
    cases h

/-- **A database file that was opened is held.** -/
theorem holds_of_openDatabase {db : Database} (hl : vanishes l = false)
    (h : t.openDatabase l = .ok (db, t')) : t'.Holds l db.contents := by
  rw [openDatabase, if_neg (by simp [hl])] at h
  split at h
  · cases h
  · rename_i made hmade
    split at h
    · cases h
    · rename_i c hc
      cases h
      obtain ⟨hnamed, hstands⟩ := contentsAt_eq_some hc
      exact holds_saveDatabase hl hnamed (hasDirectories_of_makeDirectories hmade) hstands _

/-- Where no file stands a new one is made. -/
theorem openDatabase_of_absent (hl : vanishes l = false) (hn : l.path.endsWith "/" = false)
    (hd : t.makeDirectories (parentOf l.path) = .ok t')
    (hs : t'.nodeAt (t'.locate l.path) = none) :
    t.openDatabase l = .ok (.empty, t'.saveDatabase l .empty) := by
  have hc : t'.contentsAt l.path = some .blank := by
    rw [contentsAt, if_neg (by simp [hn]), hs]
  rw [openDatabase, if_neg (by simp [hl]), hd]
  dsimp only
  rw [hc]
  rfl

/-- **A file that is held can be opened once more**, and what is found is what was written. -/
theorem Holds.openDatabase (h : t.Holds l c) : ∃ t', t.openDatabase l
    = .ok (.ofContents c, t') ∧ t'.Holds l (Database.ofContents c).contents := by
  have hc : t.contentsAt l.path = some c := by
    rw [contentsAt, if_neg (by simp [h.named]), h.stands]
  refine ⟨_, ?_, h.saveDatabase _⟩
  rw [Tree.openDatabase, if_neg (by simp [h.file]), h.directories.makeDirectories]
  dsimp only
  rw [hc]

end HopTorrent.Storage.Tree
