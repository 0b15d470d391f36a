import HopTorrent.Text.Natural

/-!
# Proofs/Text/Numeral — a number is read back from its digits

A numeral is digits after an optional plus sign, so no other mark stands in one
(`not_mem_of_natural?`), and the digits a number is written with are a numeral of that number
(`natural?_toDigits`).
-/

namespace HopTorrent.Text

variable {cs : List Char} {acc limit n : Nat} {c : Char}

/-- Digits have the value that they spell. -/
theorem digitsValue_of_isDigit (h : ∀ c ∈ cs, c.isDigit = true) (acc : Nat) :
    digitsValue acc cs = some (Nat.ofDigitChars 10 cs acc) := by
  induction cs generalizing acc with
  | nil => rfl
  | cons c cs ih =>
    obtain ⟨hc, hcs⟩ := List.forall_mem_cons.mp h
    rw [digitsValue, if_pos hc, ih hcs, Nat.ofDigitChars_cons, Nat.mul_comm]

/-- Only digits spell a value. -/
theorem isDigit_of_digitsValue (h : digitsValue acc cs = some n) : ∀ c ∈ cs, c.isDigit = true := by
  induction cs generalizing acc with
  | nil => simp
  | cons c cs ih =>
    rw [digitsValue] at h
    split at h
    · rename_i hc
      exact List.forall_mem_cons.mpr ⟨hc, ih h⟩
    · cases h

/-- Only digits spell a number. -/
theorem isDigit_of_digits? (h : digits? cs = some n) : ∀ c ∈ cs, c.isDigit = true := by
  cases cs with
  | nil => simp
  | cons c cs => exact isDigit_of_digitsValue h

/-- **A number is read back from its digits.** -/
theorem digits?_toDigits (n : Nat) : digits? (Nat.toDigits 10 n) = some n := by
  have hd : ∀ c ∈ Nat.toDigits 10 n, c.isDigit = true := fun c hc =>
    Nat.isDigit_of_mem_toDigits (by decide) (by decide) hc
  have hv := digitsValue_of_isDigit hd 0
  rw [Nat.ofDigitChars_ten_toDigits] at hv
  cases hcs : Nat.toDigits 10 n with
  | nil => exact absurd hcs Nat.toDigits_ne_nil
  | cons c cs =>
    rw [hcs] at hv
    exact hv

/-- **A numeral is digits, or digits after a plus sign**, worth no more than the limit. -/
theorem natural?_eq_some_iff : natural? limit cs = some n
    ↔ n ≤ limit ∧ (digits? cs = some n ∨ ∃ ds, cs = '+' :: ds ∧ digits? ds = some n) := by
  unfold natural?
  rw [Option.filter_eq_some_iff, and_comm, decide_eq_true_iff]
  refine and_congr_right fun _ => ?_
  split
  · rename_i ds
    have hplus : digits? ('+' :: ds) ≠ some n := fun h => by
      have hd : Char.isDigit '+' = true := isDigit_of_digits? h _ List.mem_cons_self
      simp at hd
    simp [hplus]
  · rename_i hcs
    exact (or_iff_left fun ⟨ds, h, _⟩ => hcs ds h).symm

/-- **A numeral of a number**: decimal digits that spell it, after an optional plus sign. -/
structure Numeral (cs : List Char) (n : Nat) : Prop where
  digits : ∃ ds, (cs = ds ∨ cs = '+' :: ds) ∧ ds ≠ [] ∧ (∀ c ∈ ds, c.isDigit = true)
    ∧ Nat.ofDigitChars 10 ds 0 = n

/-- Digits spell a number exactly when there are some and nothing else. -/
theorem digits?_eq_some_iff : digits? cs = some n
    ↔ cs ≠ [] ∧ (∀ c ∈ cs, c.isDigit = true) ∧ Nat.ofDigitChars 10 cs 0 = n := by
  cases cs with
  | nil => simp [digits?]
  | cons c cs =>
    constructor
    · intro h
      have hd := isDigit_of_digits? h
      exact ⟨nofun, hd, Option.some.inj ((digitsValue_of_isDigit hd 0).symm.trans h)⟩
    · rintro ⟨-, hd, rfl⟩
      exact digitsValue_of_isDigit hd 0

/-- **Exactly the numerals of numbers within the limit are read.** -/
theorem natural?_eq_some_iff_numeral :
    natural? limit cs = some n ↔ Numeral cs n ∧ n ≤ limit := by
  rw [natural?_eq_some_iff, and_comm]
  refine and_congr_left fun _ => ?_
  constructor
  · rintro (h | ⟨ds, hcs, h⟩)
    · exact ⟨cs, .inl rfl, digits?_eq_some_iff.mp h⟩
    · exact ⟨ds, .inr hcs, digits?_eq_some_iff.mp h⟩
  · rintro ⟨ds, rfl | rfl, h⟩
    · exact .inl (digits?_eq_some_iff.mpr h)
    · exact .inr ⟨ds, rfl, digits?_eq_some_iff.mpr h⟩

/-- **A number within the limit is read back as a numeral.** -/
theorem natural?_toDigits (h : n ≤ limit) : natural? limit (Nat.toDigits 10 n) = some n :=
  natural?_eq_some_iff.mpr ⟨h, .inl (digits?_toDigits n)⟩

/-- **No other mark stands in a numeral.** -/
theorem not_mem_of_natural? (hd : c.isDigit = false) (hp : c ≠ '+')
    (h : natural? limit cs = some n) : c ∉ cs := by
  have hnot : ∀ {ds : List Char}, digits? ds = some n → c ∉ ds := fun hds hc =>
    absurd (isDigit_of_digits? hds c hc) (by simp [hd])
  obtain ⟨-, hds | ⟨ds, rfl, hds⟩⟩ := natural?_eq_some_iff.mp h
  · exact hnot hds
  · exact fun hc => (List.mem_cons.mp hc).elim hp (hnot hds)

end HopTorrent.Text
