import HopTorrent.Chain

/-!
# Chain/Shuffle — an order drawn at random

From the last position down to the second, the element there changes places with the one at a
drawn position not behind it.  One draw below `i + 1` is made for each position `i`, so that every
order of distinct elements comes from exactly one sequence of draws.
-/

namespace HopTorrent.Chain

/-- One draw for each position: a position not behind it. -/
abbrev Draws := (i : Nat) → Fin (i + 1)

/-- Two elements of a list change places. -/
def swap {α : Type} (xs : List α) (i j : Nat) : List α :=
  match xs[i]?, xs[j]? with
  | some a, some b => (xs.set i b).set j a
  | _, _ => xs

/-- The elements at position `i` and before it change places as drawn. -/
def shuffleFrom {α : Type} (draws : Draws) : Nat → List α → List α
  | 0, xs => xs
  | i + 1, xs => shuffleFrom draws i (swap xs (i + 1) (draws (i + 1)).val)

/-- **A list in a drawn order.** -/
def shuffle {α : Type} (draws : Draws) (xs : List α) : List α :=
  shuffleFrom draws (xs.length - 1) xs

/-- The hops in a drawn order; the chain itself keeps its own. -/
def permuted (c : Chain) (draws : Draws) : List String := shuffle draws c.hops

/-! ## Nothing is lost -/

/-- Changing places loses nothing. -/
theorem swap_perm {α : Type} (xs : List α) (i j : Nat) : (swap xs i j).Perm xs := by
  unfold swap
  split
  · next a b ha hb =>
    obtain ⟨hi, rfl⟩ := List.getElem?_eq_some_iff.1 ha
    obtain ⟨hj, rfl⟩ := List.getElem?_eq_some_iff.1 hb
    exact List.set_set_perm hi hj
  · exact .refl _

/-- Changing places repeatedly loses nothing. -/
theorem shuffleFrom_perm {α : Type} (draws : Draws) (i : Nat) (xs : List α) :
    (shuffleFrom draws i xs).Perm xs := by
  induction i generalizing xs with
  | zero => exact .refl _
  | succ i ih => exact (ih _).trans (swap_perm _ _ _)

end HopTorrent.Chain
