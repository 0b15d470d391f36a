import HopTorrent.Chain
import HopTorrent.Proofs.Text.Blank
import Mathlib.Data.List.Forall2

/-!
# Proofs/Chain/Listed — chains written as lists

A list names what stands between its commas, without the blanks around it and without what is only
blanks (`entries_eq_iff`).  It is the chain of these hops when there are some and each is an address
(`exists_parse_iff`), and nothing else is wrong with a list.
-/

namespace HopTorrent.Chain

variable {list : String} {segments hops : List String} {e : Error}

/-- **What a list names**: it is cut at its commas, of every piece the core is taken, and the empty
ones are left out. -/
structure Names (list : String) (segments : List String) : Prop where
  cut : ∃ pieces cores, pieces ≠ [] ∧ (∀ piece ∈ pieces, ',' ∉ piece)
    ∧ [','].intercalate pieces = list.toList ∧ pieces.Forall₂ Text.Core cores
    ∧ segments = (cores.filter (!·.isEmpty)).map String.ofList

/-- **The entries of a list are what it names.** -/
theorem entries_eq_iff : entries list = segments ↔ Names list segments := by
  have cores {pieces cores : List (List Char)} :
      pieces.Forall₂ Text.Core cores ↔ pieces.map Text.trimBlanks = cores := by
    rw [← congrFun₂ List.forall₂_eq_eq_eq, List.forall₂_map_left_iff]
    simp only [Text.trimBlanks_eq_iff]
  constructor
  · rintro rfl
    obtain ⟨hne, hm, hj⟩ := Text.pieces_eq_iff.mp (rfl : Text.pieces ',' list.toList = _)
    exact ⟨_, _, hne, hm, hj, cores.mpr rfl, rfl⟩
  · rintro ⟨pieces, _, hne, hm, hj, hc, rfl⟩
    rw [entries, Text.pieces_eq_iff.mpr ⟨hne, hm, hj⟩, cores.mp hc]

/-- **A list is a chain when it names its hops.** -/
theorem parse_eq_ok_iff {c : Chain} : parse list = .ok c ↔ Names list c.hops := by
  rw [parse, ofHops_eq_ok_iff, entries_eq_iff]

/-- **Texts are a chain** when there are some and each is an address. -/
theorem exists_ofHops_iff :
    (∃ c, ofHops hops = .ok c) ↔ hops ≠ [] ∧ ∀ hop ∈ hops, Address.accepts hop = true := by
  simp only [ofHops_eq_ok_iff]
  constructor
  · rintro ⟨c, rfl⟩
    exact ⟨c.nonempty, c.accepted⟩
  · rintro ⟨hne, ha⟩
    exact ⟨⟨hops, hne, ha⟩, rfl⟩

/-- **Which lists are chains.** -/
theorem exists_parse_iff : (∃ c, parse list = .ok c)
    ↔ ∃ segments, Names list segments ∧ segments ≠ []
      ∧ ∀ hop ∈ segments, Address.accepts hop = true := by
  simp only [parse, exists_ofHops_iff, ← entries_eq_iff, exists_eq_left']

/-- What is wrong with hops is said in one of two ways: there are none, or one is no address. -/
theorem ofHops_error (h : ofHops hops = .error e) :
    (hops = [] ∧ e = .config "at least one proxy address required")
      ∨ ∃ hop ∈ hops, Address.accepts hop = false
        ∧ e = .config ("invalid proxy address " ++ Redacted.hop hop) := by
  unfold ofHops at h
  split at h
  · next hnil => cases h; exact .inl ⟨hnil, rfl⟩
  split at h
  · next hop hf =>
    cases h
    exact .inr ⟨hop, List.mem_of_find?_eq_some hf, by simpa using List.find?_some hf, rfl⟩
  · cases h

end HopTorrent.Chain
