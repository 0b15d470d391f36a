import HopTorrent.Proofs.InfoHash

/-!
# Proofs/InfoHash/Digits — transfers and their digits

The digits of a transfer are read as that transfer again, and no other text is read as it but for
the case of the letters.  Identifiers and their digits are ordered alike: two bytes compare as their
upper halves do and then their lower halves, and a digit stands before another when its value does
(`compare_toHex`).  So nothing is lost when transfers are known by their digits alone
(`digits_faithful`).
-/

namespace HopTorrent

namespace Text

/-! ## Digits of either case -/

/-- The characters that have a value are the hexadecimal digits of ASCII. -/
theorem isHexDigit_iff {c : Char} : IsHexDigit c ↔ c.isHexDigit = true := by
  have hclass : c.isHexDigit = true
      ↔ (c.isDigit = true ∨ 'a' ≤ c ∧ c ≤ 'f') ∨ 'A' ≤ c ∧ c ≤ 'F' := by
    simp only [Char.isHexDigit, Bool.or_eq_true, Bool.and_eq_true, decide_eq_true_eq]
    rfl
  rw [hclass, IsHexDigit, hexValue?]
  split
  · rename_i hdigit
    simp [hdigit]
  split
  · rename_i hlower
    simp [hlower]
  split
  · rename_i hupper
    simp [hupper]
  · rename_i hdigit hlower hupper
    simp [hdigit, hlower, hupper]

/-! ## Order of the digits -/

/-- Rows of characters are compared one character after another. -/
theorem compareOfLessAndEq_chars (cs cs' : List Char) :
    compareOfLessAndEq cs cs' = Ord.compare cs cs' := by
  induction cs generalizing cs' with
  | nil => cases cs' <;> rfl
  | cons c cs ih =>
    cases cs' with
    | nil => rfl
    | cons c' cs' =>
      have hc : Ord.compare c c' = compareOfLessAndEq c c' := rfl
      rw [List.compare_cons_cons, ← ih, hc]
      by_cases he : c = c'
      · simp [compareOfLessAndEq, he]
      · by_cases hl : c < c' <;> simp [compareOfLessAndEq, List.cons_lt_cons_iff, he, hl]

/-- Texts are compared as their characters are. -/
theorem compare_toList (s s' : String) : Ord.compare s s' = Ord.compare s.toList s'.toList := by
  rw [← compareOfLessAndEq_chars]
  change compareOfLessAndEq s s' = _
  simp only [compareOfLessAndEq, String.lt_iff, String.toList_inj]

/-- Digits are ordered as their values are. -/
theorem compare_hexDigit {m n : Nat} (hm : m < 16) (hn : n < 16) :
    Ord.compare (hexDigit m) (hexDigit n) = Ord.compare m n := by
  have h : ∀ m n : Fin 16,
      Ord.compare (hexDigit m.val) (hexDigit n.val) = Ord.compare m.val n.val := by decide
  exact h ⟨m, hm⟩ ⟨n, hn⟩

/-- Numbers compare as what stands above their last digit, and then as that digit. -/
theorem compare_halves (m n : Nat) :
    (Ord.compare (m / 16) (n / 16)).then (Ord.compare (m % 16) (n % 16)) = Ord.compare m n := by
  obtain h | h | h := Nat.lt_trichotomy (m / 16) (n / 16)
  · have hlt : m < n := by omega
    rw [Nat.compare_eq_lt.mpr h, Nat.compare_eq_lt.mpr hlt]
    rfl
  · -- Above the last digit nothing differs, so that digit decides.
    have hlt : m % 16 < n % 16 ↔ m < n := by omega
    have hgt : n % 16 < m % 16 ↔ n < m := by omega
    rw [Nat.compare_eq_eq.mpr h]
    change Ord.compare (m % 16) (n % 16) = Ord.compare m n
    simp only [Nat.compare_eq_ite_lt, hlt, hgt]
  · have hgt : n < m := by omega
    rw [Nat.compare_eq_gt.mpr h, Nat.compare_eq_gt.mpr hgt]
    rfl

/-- A byte is ordered as its number is. -/
theorem compare_toNat (b b' : UInt8) : Ord.compare b.toNat b'.toNat = Ord.compare b b' := by
  change compareOfLessAndEq b.toNat b'.toNat = compareOfLessAndEq b b'
  simp only [compareOfLessAndEq, UInt8.lt_iff_toNat_lt, UInt8.toNat_inj]

/-- **Bytes are ordered as their digits are.** -/
theorem compare_hexDigits (bs bs' : Bytes) :
    Ord.compare (hexDigits bs) (hexDigits bs') = Ord.compare bs bs' := by
  induction bs generalizing bs' with
  | nil => cases bs' <;> rfl
  | cons b bs ih =>
    cases bs' with
    | nil => rfl
    | cons b' bs' =>
      have hb : b.toNat < 256 := b.toNat_lt
      have hb' : b'.toNat < 256 := b'.toNat_lt
      rw [hexDigits_cons, hexDigits_cons, List.compare_cons_cons, List.compare_cons_cons,
        List.compare_cons_cons, compare_hexDigit (by omega) (by omega),
        compare_hexDigit (by omega) (by omega), ← Ordering.then_assoc, compare_halves,
        compare_toNat, ih]

end Text

namespace InfoHash

variable {text text' : String} {id id' : InfoHash}

/-! ## Texts that are read -/

/-- **The texts that are read** are those of forty hexadecimal digits, … -/
theorem exists_parse_iff : (∃ id, parse text = .ok id)
    ↔ text.length = 40 ∧ ∀ c ∈ text.toList, c.isHexDigit = true := by
  simp only [parse_eq_ok_iff, exists_names_iff, Text.isHexDigit_iff]

/-- … and all others are refused alike. -/
theorem parse_of_forall_ne (h : ∀ id, parse text ≠ .ok id) :
    parse text = .error (.validation "info-hash must be 40 hex characters") := by
  rw [parse]
  split
  · rename_i id hid
    refine absurd ?_ (h id)
    rw [parse, hid]
  · rfl

/-- **A text is read as the transfer** whose digits it is, but for the case of the letters. -/
theorem parse_eq_ok_iff_toLower : parse text = .ok id ↔ id.toHex = text.toLower := by
  have htext : text.toLower.toList = text.toList.map Char.toLower := String.toList_map
  rw [parse_eq_ok_iff, Names, eq_comm, ← String.toList_inj, htext]

/-- **Texts are read as one transfer** when they differ in the case of letters only. -/
theorem eq_iff_toLower_eq (h : parse text = .ok id) (h' : parse text' = .ok id') :
    id = id' ↔ text.toLower = text'.toLower := by
  rw [← parse_eq_ok_iff_toLower.mp h, ← parse_eq_ok_iff_toLower.mp h']
  exact ⟨congrArg toHex, toHex_injective⟩

/-! ## Order of the identifiers -/

/-- **Transfers are ordered as their digits are.** -/
theorem compare_toHex (id id' : InfoHash) :
    Ord.compare id.toHex id'.toHex = Ord.compare id id' := by
  rw [Text.compare_toList, toHex, toHex, Text.toHex, Text.toHex, String.toList_ofList,
    String.toList_ofList, Text.compare_hexDigits, List.compare_eq_compareLex]
  rfl

/-! ## Names -/

/-- **A text as the name of a transfer.** -/
structure Named (text : String) : Prop where
  /-- It is read as one when it has forty hexadecimal digits of either case and nothing else, … -/
  reads : (∃ id, parse text = .ok id)
    ↔ text.length = 40 ∧ ∀ c ∈ text.toList, c.isHexDigit = true
  /-- … and is refused otherwise. -/
  refused : (∀ id, parse text ≠ .ok id) →
    parse text = .error (.validation "info-hash must be 40 hex characters")
  /-- The transfer is the one that is written as the text in lower case. -/
  lower : ∀ id, parse text = .ok id ↔ id.toHex = text.toLower
  /-- Another text is read as the same transfer when it differs in the case of letters only. -/
  alike : ∀ text' id id', parse text = .ok id → parse text' = .ok id' →
    (id = id' ↔ text.toLower = text'.toLower)

/-- **A transfer as its digits.** -/
structure Written (id : InfoHash) : Prop where
  /-- They are read as that transfer, … -/
  reads : parse id.toHex = .ok id
  /-- … and stand before those of another when it stands before the other. -/
  order : ∀ id', Ord.compare id id' = Ord.compare id.toHex id'.toHex

/-- **Texts name transfers by their digits** alone, and every transfer is known by its digits. -/
theorem digits_faithful : (∀ text, Named text) ∧ ∀ id, Written id := by
  constructor
  · intro text
    constructor
    case reads => exact exists_parse_iff
    case refused => exact parse_of_forall_ne
    case lower => exact fun id => parse_eq_ok_iff_toLower
    case alike => exact fun text' id id' => eq_iff_toLower_eq
  · intro id
    constructor
    case reads => exact parse_eq_ok_iff.mpr (names_toHex id)
    case order => exact fun id' => (compare_toHex id id').symm

/-- A letter outside ASCII is no digit, also where the text is as long in bytes as a name is. -/
example : ("é" ++ "00112233445566778899AaBbCcDdEeFf001122").utf8ByteSize = 40
    ∧ (parse ("é" ++ "00112233445566778899AaBbCcDdEeFf001122")).isOk = false := by decide +kernel

end InfoHash

end HopTorrent
