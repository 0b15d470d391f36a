import HopTorrent.Text.Blank
import Mathlib.Data.List.TakeWhile
import Mathlib.Data.String.Basic

/-!
# Proofs/Text/Blank — what trimming leaves

Trimming leaves the one part of a text that has nothing but blanks on its two sides, and neither
begins nor ends with one (`trimBlanks_eq_iff`).  Of a blank text it leaves nothing
(`trimBlanks_eq_nil_iff`).
-/

namespace HopTorrent.Text

variable {cs core left right : List Char}

/-- What is trimmed to nothing holds nothing but blanks. -/
theorem trimBlanks_eq_nil_iff : trimBlanks cs = [] ↔ ∀ c ∈ cs, isBlank c := by
  rw [trimBlanks, List.reverse_eq_nil_iff, List.dropWhile_eq_nil_iff]
  constructor
  · intro h
    rw [← List.dropWhile_eq_nil_iff]
    cases hd : cs.dropWhile isBlank with
    | nil => rfl
    | cons c rest =>
      have hc := List.head?_dropWhile_not isBlank cs
      rw [hd] at h hc
      exact absurd (h c (by simp)) (by simpa using hc)
  · intro h
    rw [List.dropWhile_eq_nil_iff.mpr h]
    nofun

/-- A text is trimmed to nothing exactly when it is blank. -/
theorem isEmpty_trim (s : String) : (trim s).isEmpty = isBlankText s := by
  rw [Bool.eq_iff_iff, trim, isBlankText, List.all_eq_true, ← trimBlanks_eq_nil_iff]
  simp

/-- A text holds more than blanks exactly when some character is none. -/
theorem isBlankText_eq_false_iff {s : String} :
    isBlankText s = false ↔ ∃ c ∈ s.toList, isBlank c = false := by
  rw [isBlankText, List.all_eq_false]
  simp only [Bool.not_eq_true]

/-! ## What stands between the blanks -/

/-- **The core of a text**: it stands between blanks, and neither begins nor ends with one. -/
structure Core (cs core : List Char) : Prop where
  between : ∃ left right, cs = left ++ core ++ right ∧ (∀ c ∈ left, isBlank c)
    ∧ ∀ c ∈ right, isBlank c
  first : ∀ c ∈ core.head?, isBlank c = false
  last : ∀ c ∈ core.getLast?, isBlank c = false

/-- Blanks in front of what begins with none are dropped. -/
theorem dropWhile_isBlank_append (hl : ∀ c ∈ left, isBlank c)
    (hc : ∀ c ∈ core.head?, isBlank c = false) : (left ++ core).dropWhile isBlank = core := by
  rw [List.dropWhile_append_of_pos hl]
  cases core with
  | nil => rfl
  | cons c core => rw [List.dropWhile_cons_of_neg (by simp [hc c rfl])]

/-- What trimming leaves is a core. -/
theorem core_trimBlanks (cs : List Char) : Core cs (trimBlanks cs) := by
  -- `mid` follows the first blanks; it is the core and the last blanks.
  obtain ⟨mid, hmid⟩ : ∃ mid, mid = cs.dropWhile isBlank := ⟨_, rfl⟩
  have hcore : trimBlanks cs = (mid.reverse.dropWhile isBlank).reverse := by rw [hmid, trimBlanks]
  have hright : trimBlanks cs ++ (mid.reverse.takeWhile isBlank).reverse = mid := by
    rw [hcore, ← List.reverse_append, List.takeWhile_append_dropWhile, List.reverse_reverse]
  refine ⟨⟨cs.takeWhile isBlank, (mid.reverse.takeWhile isBlank).reverse, ?_,
    fun c hc => List.mem_takeWhile_imp hc,
    fun c hc => List.mem_takeWhile_imp (List.mem_reverse.mp hc)⟩, fun c hc => ?_, fun c hc => ?_⟩
  · rw [List.append_assoc, hright, hmid, List.takeWhile_append_dropWhile]
  · have hfirst := List.head?_dropWhile_not isBlank cs
    rwa [← hmid, ← hright, List.head?_append, Option.mem_def.mp hc] at hfirst
  · have hlast := List.head?_dropWhile_not isBlank mid.reverse
    rw [hcore, List.getLast?_reverse] at hc
    rwa [Option.mem_def.mp hc] at hlast

/-- There is no other core. -/
theorem Core.trimBlanks_eq (h : Core cs core) : trimBlanks cs = core := by
  obtain ⟨⟨left, right, rfl, hl, hr⟩, hfirst, hlast⟩ := h
  cases core with
  | nil =>
    rw [trimBlanks_eq_nil_iff, List.append_nil]
    exact fun c hc => (List.mem_append.mp hc).elim (hl c) (hr c)
  | cons c core =>
    have hmid : (left ++ (c :: core ++ right)).dropWhile isBlank = c :: core ++ right :=
      dropWhile_isBlank_append hl hfirst
    have hcore : (right.reverse ++ (c :: core).reverse).dropWhile isBlank = (c :: core).reverse :=
      dropWhile_isBlank_append (by simpa using hr) (by rwa [List.head?_reverse])
    rw [trimBlanks, List.append_assoc, hmid, List.reverse_append, hcore, List.reverse_reverse]

/-- Blanks on both sides leave the core as it is. -/
theorem Core.between_blanks (h : Core cs core) (hl : ∀ c ∈ left, isBlank c)
    (hr : ∀ c ∈ right, isBlank c) : Core (left ++ cs ++ right) core := by
  obtain ⟨⟨l, r, rfl, hl', hr'⟩, hfirst, hlast⟩ := h
  refine ⟨⟨left ++ l, r ++ right, by simp, fun c hc => ?_, fun c hc => ?_⟩, hfirst, hlast⟩
  · exact (List.mem_append.mp hc).elim (hl c) (hl' c)
  · exact (List.mem_append.mp hc).elim (hr' c) (hr c)

/-- A core is its own core. -/
theorem Core.self (h : Core cs core) : Core core core :=
  ⟨⟨[], [], by simp, nofun, nofun⟩, h.first, h.last⟩

/-- A core is a part of its text. -/
theorem Core.subset (h : Core cs core) : core ⊆ cs := by
  obtain ⟨l, r, rfl, -, -⟩ := h.between
  exact fun c hc => by simp [hc]

/-- **Trimming leaves the core.** -/
theorem trimBlanks_eq_iff : trimBlanks cs = core ↔ Core cs core :=
  ⟨fun h => h ▸ core_trimBlanks cs, Core.trimBlanks_eq⟩

end HopTorrent.Text
