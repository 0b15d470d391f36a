import HopTorrent.Bytes

/-!
# Text/Hex — bytes as pairs of hexadecimal digits

Writing uses lower case; reading takes either case.  Reading what was written gives the bytes back
(`ofHex?_toHex`).
-/

namespace HopTorrent.Text

/-- The lowercase hexadecimal digit of a value below 16. -/
def hexDigit (n : Nat) : Char :=
  if n < 10 then Char.ofNat ('0'.toNat + n) else Char.ofNat ('a'.toNat + (n - 10))

/-- The value of a hexadecimal digit of either case. -/
def hexValue? (c : Char) : Option Nat :=
  if c.isDigit then some (c.toNat - '0'.toNat)
  else if 'a' ≤ c ∧ c ≤ 'f' then some (c.toNat - 'a'.toNat + 10)
  else if 'A' ≤ c ∧ c ≤ 'F' then some (c.toNat - 'A'.toNat + 10)
  else none

/-- The two lowercase digits of a byte. -/
def byteHex (b : UInt8) : List Char := [hexDigit (b.toNat / 16), hexDigit (b.toNat % 16)]

/-- The lowercase digits of a byte sequence. -/
def hexDigits (bs : Bytes) : List Char := bs.flatMap byteHex

/-- A byte sequence in lowercase hexadecimal. -/
def toHex (bs : Bytes) : String := String.ofList (hexDigits bs)

/-- The bytes that pairs of hexadecimal digits spell; an odd digit or any other character spells
nothing. -/
def ofHexDigits? : List Char → Option Bytes
  | [] => some []
  | [_] => none
  | hi :: lo :: rest => do
    let h ← hexValue? hi
    let l ← hexValue? lo
    let bs ← ofHexDigits? rest
    return UInt8.ofNat (h * 16 + l) :: bs

/-- The bytes that a text of hexadecimal digits spells. -/
def ofHex? (s : String) : Option Bytes := ofHexDigits? s.toList

/-- The digits of the first byte stand first. -/
theorem hexDigits_cons (b : UInt8) (bs : Bytes) : hexDigits (b :: bs)
    = hexDigit (b.toNat / 16) :: hexDigit (b.toNat % 16) :: hexDigits bs := rfl

/-! ## Reading what was written -/

/-- A written digit has the value it was written for. -/
theorem hexValue?_hexDigit {n : Nat} (h : n < 16) : hexValue? (hexDigit n) = some n := by
  have : ∀ m : Fin 16, hexValue? (hexDigit m) = some m.val := by decide
  exact this ⟨n, h⟩

/-- **Bytes are read back from their digits.** -/
theorem ofHexDigits?_hexDigits (bs : Bytes) : ofHexDigits? (hexDigits bs) = some bs := by
  induction bs with
  | nil => rfl
  | cons b bs ih =>
    have hb : b.toNat < 256 := b.toNat_lt
    have hhi : hexValue? (hexDigit (b.toNat / 16)) = some (b.toNat / 16) :=
      hexValue?_hexDigit (by omega)
    have hlo : hexValue? (hexDigit (b.toNat % 16)) = some (b.toNat % 16) :=
      hexValue?_hexDigit (by omega)
    have hsum : b.toNat / 16 * 16 + b.toNat % 16 = b.toNat := by omega
    rw [hexDigits_cons, ofHexDigits?, hhi, hlo, ih]
    change some (UInt8.ofNat (b.toNat / 16 * 16 + b.toNat % 16) :: bs) = some (b :: bs)
    rw [hsum, UInt8.ofNat_toNat]

/-- **Bytes are read back from their text.** -/
@[simp] theorem ofHex?_toHex (bs : Bytes) : ofHex? (toHex bs) = some bs := by
  simp [ofHex?, toHex, ofHexDigits?_hexDigits]

/-- Each byte is written with two digits. -/
@[simp] theorem length_hexDigits (bs : Bytes) : (hexDigits bs).length = 2 * bs.length := by
  induction bs with
  | nil => rfl
  | cons b bs ih =>
    rw [hexDigits_cons]
    simp only [List.length_cons, ih]
    omega

/-- A written digit takes one byte. -/
theorem utf8Size_hexDigit {n : Nat} (h : n < 16) : (hexDigit n).utf8Size = 1 := by
  have : ∀ m : Fin 16, (hexDigit m).utf8Size = 1 := by decide
  exact this ⟨n, h⟩

/-- Each byte is written with two bytes. -/
@[simp] theorem utf8ByteSize_toHex (bs : Bytes) : (toHex bs).utf8ByteSize = 2 * bs.length := by
  induction bs with
  | nil => rfl
  | cons b bs ih =>
    have hb : b.toNat < 256 := b.toNat_lt
    have hcons : toHex (b :: bs) = String.singleton (hexDigit (b.toNat / 16))
        ++ (String.singleton (hexDigit (b.toNat % 16)) ++ toHex bs) := by
      rw [← String.toList_inj]
      simp [toHex, hexDigits_cons]
    rw [hcons, String.utf8ByteSize_append, String.utf8ByteSize_append, ih,
      String.utf8ByteSize_singleton, String.utf8ByteSize_singleton,
      utf8Size_hexDigit (by omega), utf8Size_hexDigit (by omega), List.length_cons]
    omega

end HopTorrent.Text
