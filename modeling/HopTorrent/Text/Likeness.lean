/-!
# Text/Likeness — how alike two words are

Two letters are partners when they are equal and at most a reach apart, the reach being one less
than half of the longer word; each letter has at most one partner.  With `m` partners, of which `t`
pairs stand in a different order, the likeness of words of lengths `a` and `b` is the mean of
`m / a`, `m / b` and `(m - t) / m`.
-/

namespace HopTorrent.Text

/-- The place of the first letter in a window that equals `c` and has no partner yet. -/
def partner? (c : Char) (from_ upTo : Nat) (word : List Char) (taken : List Nat) : Option Nat :=
  (List.range word.length).find? fun j =>
    from_ ≤ j && j < upTo && word[j]? == some c && !taken.contains j

/-- The letters from the `i`-th on that have a partner in `word`, each with its partner's place. -/
def partnersFrom (reach : Nat) (word : List Char) :
    (i : Nat) → (taken : List Nat) → List Char → List (Char × Nat)
  | _, _, [] => []
  | i, taken, c :: cs =>
    match partner? c (i - reach) (i + reach + 1) word taken with
    | some j => (c, j) :: partnersFrom reach word (i + 1) (j :: taken) cs
    | none => partnersFrom reach word (i + 1) taken cs

/-- The letters of `a` that have partners in `b`. -/
def partners (a b : List Char) : List (Char × Nat) :=
  partnersFrom (max a.length b.length / 2 - 1) b 0 [] a

/-- How many pairs of partners stand in a different order. -/
def transpositions (b : List Char) (ps : List (Char × Nat)) : Nat :=
  let order := (ps.map Prod.snd).mergeSort
  (((ps.map Prod.fst).zip order).filter fun (c, j) => b[j]? != some c).length / 2

/-- A likeness as a fraction; words without partners have none. -/
structure Likeness where
  numerator : Nat
  denominator : Nat
deriving DecidableEq, Repr

namespace Likeness

/-- The likeness of two words. -/
def of (a b : List Char) : Likeness :=
  let ps := partners a b
  let m := ps.length
  let t := transpositions b ps
  if m = 0 then ⟨0, 1⟩
  else
    ⟨m * m * b.length + m * m * a.length + (m - t) * a.length * b.length,
      3 * (m * a.length * b.length)⟩

/-- Whether a likeness is above seven tenths. -/
def strong (l : Likeness) : Bool := 7 * l.denominator < 10 * l.numerator

/-- Whether the second of two likenesses is at least the first. -/
def atMost (l k : Likeness) : Bool := l.numerator * k.denominator ≤ k.numerator * l.denominator

end Likeness

/-- The word most like `s`, if one is strongly like it; of equally like ones the last. -/
def mostLike (s : List Char) (words : List String) : Option String :=
  let scored := words.map fun w => (w, Likeness.of s w.toList)
  ((scored.filter fun p => p.2.strong).foldl (fun best p =>
    match best with
    | none => some p
    | some b => if b.2.atMost p.2 then some p else some b) none).map Prod.fst

end HopTorrent.Text
