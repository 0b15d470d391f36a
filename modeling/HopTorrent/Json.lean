import HopTorrent.Binary64.Shortest
import HopTorrent.Text.Natural

/-!
# Json — values and how they are written

Values are written without blanks, object members in the order given.  A floating point number is
written with the fewest digits that read back, positionally while its point stands at most sixteen
digits from the front and at most four zeros before them, with a signed exponent otherwise; what is
no finite number is written `null`.
-/

namespace HopTorrent

/-- A value to be written. -/
inductive Json where
  | null
  | bool (b : Bool)
  | nat (n : Nat)
  | number (x : Binary64)
  | text (s : String)
  | array (items : List Json)
  | object (members : List (String × Json))

namespace Json

/-- A control character's code in four hexadecimal digits. -/
def unicodeEscape (c : Char) : List Char :=
  let digits := Nat.toDigits 16 c.toNat
  "\\u".toList ++ List.replicate (4 - digits.length) '0' ++ digits

/-- One character as it stands in a text. -/
def escapedChar (c : Char) : List Char :=
  if c = '"' then ['\\', '"']
  else if c = '\\' then ['\\', '\\']
  else if c = '\n' then ['\\', 'n']
  else if c = '\r' then ['\\', 'r']
  else if c = '\t' then ['\\', 't']
  else if c = '\x08' then ['\\', 'b']
  else if c = '\x0c' then ['\\', 'f']
  else if c.toNat < 0x20 then unicodeEscape c
  else [c]

/-- A text between quotation marks. -/
def writeText (s : String) : String :=
  String.ofList ('"' :: s.toList.flatMap escapedChar ++ ['"'])

/-- Decimal digits with the point in its place: positional between `10 ^ -5` and `10 ^ 16`. -/
def writeDecimal (d : Binary64.Decimal) : String :=
  let digits := Nat.toDigits 10 d.digits
  let len : Int := digits.length
  let point : Int := len + d.exponent
  String.ofList <|
    if 0 ≤ d.exponent ∧ point ≤ 16 then
      digits ++ List.replicate d.exponent.toNat '0' ++ ['.', '0']
    else if 0 < point ∧ point ≤ 16 then
      digits.take point.toNat ++ ['.'] ++ digits.drop point.toNat
    else if -5 < point ∧ point ≤ 0 then
      ['0', '.'] ++ List.replicate (-point).toNat '0' ++ digits
    else
      let sign := if point < 1 then '-' else '+'
      let exponent := 'e' :: sign :: Nat.toDigits 10 (point - 1).natAbs
      if digits.length = 1 then digits ++ exponent
      else digits.take 1 ++ ['.'] ++ digits.drop 1 ++ exponent

/-- A floating point number. -/
def writeNumber (x : Binary64) : String :=
  if !x.isFinite then "null"
  else
    let magnitude := if x.significand = 0 then "0.0" else writeDecimal x.shortest
    if x.negative then "-" ++ magnitude else magnitude

mutual

/-- A value as text. -/
def render : Json → String
  | null => "null"
  | bool true => "true"
  | bool false => "false"
  | nat n => toString n
  | number x => writeNumber x
  | text s => writeText s
  | array items => "[" ++ renderItems items ++ "]"
  | object members => "\x7b" ++ renderMembers members ++ "\x7d"

/-- Values between commas. -/
def renderItems : List Json → String
  | [] => ""
  | [v] => render v
  | v :: vs => render v ++ "," ++ renderItems vs

/-- Named values between commas. -/
def renderMembers : List (String × Json) → String
  | [] => ""
  | [(k, v)] => writeText k ++ ":" ++ render v
  | (k, v) :: rest => writeText k ++ ":" ++ render v ++ "," ++ renderMembers rest

end

end Json

end HopTorrent
