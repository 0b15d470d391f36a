import HopTorrent.Settings
import HopTorrent.Table
import Mathlib.Data.List.Nodup

/-!
# Proofs/Settings — updates of a table of preferences

An update gives texts to some preferences (`given?`), and is stored by putting one value after
another (`putAll`).  What was put last is held (`get?_putAll`); so to put the same once more changes
nothing (`putAll_putAll`), and updates of different preferences may come in any order
(`get?_putAll_comm`).
-/

namespace HopTorrent

/-! ## Putting several values -/

namespace Table

variable {κ ν : Type} [DecidableEq κ] {t : Table κ ν} {k j : κ} {v : ν} {es : List (κ × ν)}

/-- Puts several values, one after another. -/
def putAll (t : Table κ ν) (es : List (κ × ν)) : Table κ ν :=
  es.foldl (fun t e => t.put e.1 e.2) t

theorem find_eq_none_iff : find k es = none ↔ k ∉ es.map Prod.fst := by
  induction es with
  | nil => simp [find]
  | cons e es ih =>
    by_cases he : e.1 = k
    · simp [find, he]
    · simp [find, he, ih, Ne.symm he]

/-- What is put last is held. -/
theorem get?_putAll (t : Table κ ν) (hn : (es.map Prod.fst).Nodup) (j : κ) :
    (t.putAll es).get? j = (find j es).or (t.get? j) := by
  induction es generalizing t with
  | nil => rfl
  | cons e es ih =>
    obtain ⟨he, hn⟩ := List.nodup_cons.mp hn
    rw [putAll, List.foldl_cons, ← putAll, ih _ hn, get?_put, find]
    by_cases hj : e.1 = j
    · rw [if_pos hj, if_pos hj.symm, find_eq_none_iff.mpr (hj ▸ he)]
      rfl
    · rw [if_neg hj, if_neg (Ne.symm hj)]

theorem replaced_of_find (hn : (es.map Prod.fst).Nodup) (h : find k es = some v) :
    replaced k v es = es := by
  have hkeep : ∀ es : List (κ × ν), k ∉ es.map Prod.fst → replaced k v es = es := by
    intro es hk
    induction es with
    | nil => rfl
    | cons e es ih =>
      obtain ⟨he, hk⟩ := not_or.mp (List.mem_cons.not.mp hk)
      rw [replaced, if_neg (Ne.symm he), ih hk]
  induction es with
  | nil => cases h
  | cons e es ih =>
    obtain ⟨he, hn⟩ := List.nodup_cons.mp hn
    rw [find] at h
    rw [replaced]
    split at h
    · rename_i hk
      rw [if_pos hk, hkeep es (hk ▸ he), ← hk, ← Option.some.inj h]
    · rename_i hk
      rw [if_neg hk, ih hn h]

/-- **To put what is held changes nothing.** -/
theorem put_of_get? (h : t.get? k = some v) : t.put k v = t := by
  have hk : k ∈ t.entries.map Prod.fst := by
    by_contra hn
    cases (find_eq_none hn).symm.trans h
  rw [put, dif_pos hk]
  cases t with
  | mk es hn => simp only [replaced_of_find hn h]

theorem putAll_of_get? (h : ∀ e ∈ es, t.get? e.1 = some e.2) : t.putAll es = t := by
  induction es with
  | nil => rfl
  | cons e es ih =>
    obtain ⟨he, hes⟩ := List.forall_mem_cons.mp h
    rw [putAll, List.foldl_cons, put_of_get? he]
    exact ih hes

/-- **To put the same values once more changes nothing.** -/
theorem putAll_putAll (t : Table κ ν) (hn : (es.map Prod.fst).Nodup) :
    (t.putAll es).putAll es = t.putAll es := by
  refine putAll_of_get? fun e he => ?_
  rw [get?_putAll t hn, find_of_mem hn he, Option.some_or]

end Table

/-! ## Preferences that have a value -/

namespace Setting

theorem mem_all (x : Setting) : x ∈ all := by cases x <;> decide

theorem nodup_all : all.Nodup := by decide

theorem key_injective : Function.Injective key := by
  have hkeys : (all.map key).Nodup := by decide
  exact fun x y h => List.inj_on_of_nodup_map hkeys x.mem_all y.mem_all h

/-- The preferences that have a value, with it. -/
def valued (held : Setting → Option String) : List (Setting × String) :=
  all.filterMap fun x => (held x).map (x, ·)

theorem mem_valued_iff {held : Setting → Option String} {x : Setting} {value : String} :
    (x, value) ∈ valued held ↔ held x = some value := by
  rw [valued, List.mem_filterMap]
  constructor
  · rintro ⟨y, -, h⟩
    obtain ⟨v, hv, he⟩ := Option.map_eq_some_iff.mp h
    cases he
    exact hv
  · intro h
    exact ⟨x, x.mem_all, by rw [h, Option.map_some]⟩

theorem nodup_valued (held : Setting → Option String) : ((valued held).map Prod.fst).Nodup := by
  refine List.Sublist.nodup ?_ nodup_all
  rw [valued]
  generalize all = settings
  induction settings with
  | nil => exact .slnil
  | cons x rest ih =>
    rw [List.filterMap_cons]
    cases held x
    · exact ih.cons x
    · exact ih.cons_cons x

end Setting

/-! ## What an update gives -/

namespace SettingsUpdate

variable {u u' : SettingsUpdate}

/-- **What an update gives to a preference**: a text that is not empty. -/
def given? (u : SettingsUpdate) (x : Setting) : Option String :=
  (u.value x).filter fun v => !v.isEmpty

/-- What is stored are the preferences that are given a value. -/
theorem entries_eq (u : SettingsUpdate) :
    u.entries = (Setting.valued u.given?).map fun e => (e.1.key, e.2) := by
  rw [Setting.valued, List.map_filterMap]
  simp only [Option.map_map]
  rfl

theorem nodup_entries (u : SettingsUpdate) : (u.entries.map Prod.fst).Nodup := by
  have hkeys := (Setting.nodup_valued u.given?).map Setting.key_injective
  rw [List.map_map] at hkeys
  rwa [entries_eq, List.map_map]

theorem mem_entries_iff {e : String × String} :
    e ∈ u.entries ↔ ∃ x, u.given? x = some e.2 ∧ e.1 = x.key := by
  rw [entries_eq, List.mem_map]
  constructor
  · rintro ⟨⟨x, v⟩, hm, rfl⟩
    exact ⟨x, Setting.mem_valued_iff.mp hm, rfl⟩
  · rintro ⟨x, hv, hk⟩
    exact ⟨(x, e.2), Setting.mem_valued_iff.mpr hv, Prod.ext hk.symm rfl⟩

/-- The entries hold what is given. -/
theorem find_entries (u : SettingsUpdate) (x : Setting) :
    Table.find x.key u.entries = u.given? x := by
  cases hv : u.given? x with
  | some v => exact Table.find_of_mem u.nodup_entries (mem_entries_iff.mpr ⟨x, hv, rfl⟩)
  | none =>
    rw [Table.find_eq_none_iff]
    intro hm
    obtain ⟨e, he, hk⟩ := List.mem_map.mp hm
    obtain ⟨y, hy, hyk⟩ := mem_entries_iff.mp he
    cases Setting.key_injective (hk.symm.trans hyk)
    cases hv.symm.trans hy

theorem entries_eq_nil (h : ∀ x, u.given? x = none) : u.entries = [] := by
  rw [List.eq_nil_iff_forall_not_mem]
  intro e he
  obtain ⟨x, hx, -⟩ := mem_entries_iff.mp he
  cases (h x).symm.trans hx

/-- **Updates that give nothing to the same preference** may come in any order. -/
theorem get?_putAll_comm (h : ∀ x, u.given? x = none ∨ u'.given? x = none)
    (t : Table String String) (key : String) :
    ((t.putAll u.entries).putAll u'.entries).get? key
      = ((t.putAll u'.entries).putAll u.entries).get? key := by
  simp only [Table.get?_putAll _ u.nodup_entries, Table.get?_putAll _ u'.nodup_entries]
  by_cases hkey : ∃ x : Setting, x.key = key
  · obtain ⟨x, rfl⟩ := hkey
    rw [find_entries, find_entries]
    obtain hx | hx := h x <;> rw [hx, Option.none_or, Option.none_or]
  · have hnone : ∀ w : SettingsUpdate, Table.find key w.entries = none := by
      intro w
      rw [Table.find_eq_none_iff]
      intro hm
      obtain ⟨e, he, rfl⟩ := List.mem_map.mp hm
      obtain ⟨x, -, hk⟩ := mem_entries_iff.mp he
      exact hkey ⟨x, hk.symm⟩
    rw [hnone, hnone, Option.none_or, Option.none_or]

end SettingsUpdate

end HopTorrent
