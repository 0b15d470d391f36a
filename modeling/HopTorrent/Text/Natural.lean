/-!
# Text/Natural — decimal numerals

A numeral is one or more ASCII digits after an optional plus sign.  Leading zeros count for
nothing; a value above the stated limit is no value at all.
-/

namespace HopTorrent.Text

/-- The number a sequence of decimal digits spells, read after the digits worth `acc`. -/
def digitsValue (acc : Nat) : List Char → Option Nat
  | [] => some acc
  | c :: cs => if c.isDigit then digitsValue (acc * 10 + (c.toNat - '0'.toNat)) cs else none

/-- The number a nonempty sequence of decimal digits spells. -/
def digits? : List Char → Option Nat
  | [] => none
  | cs => digitsValue 0 cs

/-- **The value of a numeral**, if it is at most `limit`. -/
def natural? (limit : Nat) (cs : List Char) : Option Nat :=
  (digits? (match cs with
    | '+' :: rest => rest
    | rest => rest)).filter (· ≤ limit)

/-- Largest 16-bit value. -/
def max16 : Nat := Nat.pow 2 16 - 1

/-- Largest 32-bit value. -/
def max32 : Nat := Nat.pow 2 32 - 1

/-- Largest 64-bit value. -/
def max64 : Nat := Nat.pow 2 64 - 1

/-- `n` in decimal, with zeros in front up to `width` digits. -/
def padded (width n : Nat) : String :=
  let digits := Nat.toDigits 10 n
  String.ofList (List.replicate (width - digits.length) '0' ++ digits)

end HopTorrent.Text
