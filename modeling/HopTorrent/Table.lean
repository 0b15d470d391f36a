/-!
# Table — values under distinct keys, in the order their keys were first put

Putting a value under a key that is present replaces the value in place; a new key goes to the end.
What a table holds under a key is read with `get?`, and each operation says what it does to that
view.
-/

namespace HopTorrent

/-- Values under distinct keys. -/
structure Table (κ ν : Type) where
  entries : List (κ × ν)
  nodup : (entries.map Prod.fst).Nodup

namespace Table

variable {κ ν : Type}

/-- No keys. -/
def empty : Table κ ν := ⟨[], by simp⟩

instance : Inhabited (Table κ ν) := ⟨empty⟩

/-- The keys, in order. -/
def keys (t : Table κ ν) : List κ := t.entries.map Prod.fst

/-- The values, in the order of their keys. -/
def values (t : Table κ ν) : List ν := t.entries.map Prod.snd

/-- How many keys there are. -/
def size (t : Table κ ν) : Nat := t.entries.length

/-- Whether there are no keys. -/
def isEmpty (t : Table κ ν) : Bool := t.entries.isEmpty

/-- Applies a function to every value. -/
def mapValues {μ : Type} (f : κ → ν → μ) (t : Table κ ν) : Table κ μ where
  entries := t.entries.map fun (k, v) => (k, f k v)
  nodup := by
    have h : (t.entries.map fun (k, v) => (k, f k v)).map Prod.fst = t.entries.map Prod.fst := by
      simp [List.map_map, Function.comp_def]
    rw [h]
    exact t.nodup

variable [DecidableEq κ]

/-- The value under a key among entries. -/
def find (k : κ) : List (κ × ν) → Option ν
  | [] => none
  | e :: es => if e.1 = k then some e.2 else find k es

/-- The value under a key. -/
def get? (t : Table κ ν) (k : κ) : Option ν := find k t.entries

/-- Whether a key is present. -/
def contains (t : Table κ ν) (k : κ) : Bool := (t.get? k).isSome

/-- The entries with the value under one key replaced. -/
def replaced (k : κ) (v : ν) : List (κ × ν) → List (κ × ν)
  | [] => []
  | e :: es => (if e.1 = k then (k, v) else e) :: replaced k v es

/-- Replacing a value keeps the keys. -/
theorem map_fst_replaced (k : κ) (v : ν) (es : List (κ × ν)) :
    (replaced k v es).map Prod.fst = es.map Prod.fst := by
  induction es with
  | nil => rfl
  | cons e es ih => by_cases h : e.1 = k <;> simp [replaced, h, ih]

/-- Puts a value under a key. -/
def put (t : Table κ ν) (k : κ) (v : ν) : Table κ ν :=
  if h : k ∈ t.entries.map Prod.fst then
    ⟨replaced k v t.entries, by rw [map_fst_replaced]; exact t.nodup⟩
  else
    ⟨t.entries ++ [(k, v)], by
      rw [List.map_append, List.nodup_append]
      refine ⟨t.nodup, by simp, ?_⟩
      intro a ha b hb hab
      simp only [List.map_cons, List.map_nil, List.mem_singleton] at hb
      exact h (hb ▸ hab ▸ ha)⟩

/-- Takes a key away. -/
def erase (t : Table κ ν) (k : κ) : Table κ ν where
  entries := t.entries.filter fun e => e.1 ≠ k
  nodup := t.nodup.sublist (List.filter_sublist.map Prod.fst)

/-! ## What a table holds -/

/-- Nothing is held under any key of the empty table. -/
@[simp] theorem get?_empty (k : κ) : (empty : Table κ ν).get? k = none := rfl

/-- Looking up among replaced entries. -/
theorem find_replaced (k j : κ) (v : ν) (es : List (κ × ν)) :
    find j (replaced k v es)
      = if j = k then (if k ∈ es.map Prod.fst then some v else none) else find j es := by
  induction es with
  | nil => simp [replaced, find]
  | cons e es ih =>
    by_cases he : e.1 = k
    · by_cases hj : j = k
      · simp [replaced, find, he, hj]
      · have hk : ¬ k = j := fun h => hj h.symm
        simp [replaced, find, he, hj, hk, ih]
    · have hk : ¬ k = e.1 := fun h => he h.symm
      by_cases hj : j = k
      · subst hj
        simp only [replaced, find, he, if_false, ih, if_true, List.map_cons, List.mem_cons, hk,
          false_or]
      · simp [replaced, find, he, hj, ih]

/-- A missing key is found nowhere. -/
theorem find_eq_none {k : κ} {es : List (κ × ν)} (h : k ∉ es.map Prod.fst) : find k es = none := by
  induction es with
  | nil => rfl
  | cons e es ih =>
    simp only [List.map_cons, List.mem_cons, not_or] at h
    rw [find, if_neg fun e => h.1 e.symm, ih h.2]

/-- Looking up in a longer list. -/
theorem find_append_single (k j : κ) (v : ν) (es : List (κ × ν)) :
    find j (es ++ [(k, v)]) = (find j es).or (if j = k then some v else none) := by
  induction es with
  | nil => simp [find, eq_comm]
  | cons e es ih =>
    by_cases he : e.1 = j
    · simp [find, he]
    · simp [find, he, ih]

/-- **What is put under a key is held under it**, and nothing else changes. -/
theorem get?_put (t : Table κ ν) (k j : κ) (v : ν) :
    (t.put k v).get? j = if j = k then some v else t.get? j := by
  by_cases h : k ∈ t.entries.map Prod.fst
  · simp only [put, dif_pos h, get?, find_replaced, if_pos h]
  · simp only [put, dif_neg h, get?, find_append_single]
    by_cases hj : j = k
    · subst hj
      simp [find_eq_none h]
    · simp [hj]

/-- Looking up among the entries without a key. -/
theorem find_filter_ne (k j : κ) (es : List (κ × ν)) :
    find j (es.filter fun e => e.1 ≠ k) = if j = k then none else find j es := by
  induction es with
  | nil => simp [find]
  | cons e es ih =>
    by_cases he : e.1 = k
    · have : ¬ e.1 ≠ k := fun h => h he
      rw [List.filter_cons_of_neg (by simpa using he), ih]
      by_cases hj : j = k
      · simp [hj]
      · have hne : ¬ e.1 = j := fun h => hj (h ▸ he)
        simp [hj, find, hne]
    · rw [List.filter_cons_of_pos (by simpa using he), find, ih]
      by_cases hj : j = k
      · subst hj
        simp [he]
      · simp [hj, find]

/-- **A key taken away holds nothing**, and nothing else changes. -/
theorem get?_erase (t : Table κ ν) (k j : κ) :
    (t.erase k).get? j = if j = k then none else t.get? j :=
  find_filter_ne k j t.entries

/-- Looking up among values that were changed. -/
theorem find_map {μ : Type} (f : κ → ν → μ) (k : κ) (es : List (κ × ν)) :
    find k (es.map fun (k, v) => (k, f k v)) = (find k es).map (f k) := by
  induction es with
  | nil => rfl
  | cons e es ih =>
    by_cases he : e.1 = k
    · subst he
      simp [find]
    · simp [find, he, ih]

/-- A function applied to every value is applied to what is held. -/
theorem get?_mapValues {μ : Type} (f : κ → ν → μ) (t : Table κ ν) (k : κ) :
    (t.mapValues f).get? k = (t.get? k).map (f k) :=
  find_map f k t.entries

/-- What is found among entries is one of them. -/
theorem mem_of_find {k : κ} {v : ν} {es : List (κ × ν)} (h : find k es = some v) :
    (k, v) ∈ es := by
  induction es with
  | nil => cases h
  | cons e es ih =>
    by_cases he : e.1 = k
    · rw [find, if_pos he] at h
      cases h
      exact he ▸ List.mem_cons_self
    · rw [find, if_neg he] at h
      exact List.mem_cons_of_mem _ (ih h)

/-- Of entries with distinct keys each is found. -/
theorem find_of_mem {k : κ} {v : ν} {es : List (κ × ν)} (hn : (es.map Prod.fst).Nodup)
    (h : (k, v) ∈ es) : find k es = some v := by
  induction es with
  | nil => cases h
  | cons e es ih =>
    rw [List.map_cons, List.nodup_cons] at hn
    rcases List.mem_cons.mp h with rfl | h
    · simp [find]
    · have hne : e.1 ≠ k := fun he => hn.1 (he ▸ List.mem_map_of_mem (f := Prod.fst) h)
      rw [find, if_neg hne, ih hn.2 h]

/-- **The entries of a table are what it holds.** -/
theorem mem_entries_iff (t : Table κ ν) (k : κ) (v : ν) :
    (k, v) ∈ t.entries ↔ t.get? k = some v :=
  ⟨find_of_mem t.nodup, mem_of_find⟩

/-- Taking the first key away leaves the other entries. -/
theorem entries_erase_head {t : Table κ ν} {e : κ × ν} {es : List (κ × ν)}
    (h : t.entries = e :: es) : (t.erase e.1).entries = es := by
  have hn := t.nodup
  rw [h, List.map_cons, List.nodup_cons] at hn
  show t.entries.filter _ = es
  rw [h, List.filter_cons_of_neg (by simp), List.filter_eq_self]
  intro e' he'
  have hne : e'.1 ≠ e.1 := fun hk => hn.1 (hk ▸ List.mem_map_of_mem he')
  simpa using hne

/-- Taking a key away that is present leaves fewer. -/
theorem size_erase_lt {t : Table κ ν} {e : κ × ν} (h : e ∈ t.entries) :
    (t.erase e.1).size < t.size :=
  List.length_filter_lt_length_iff_exists.mpr ⟨e, h, by simp⟩

end Table

end HopTorrent
