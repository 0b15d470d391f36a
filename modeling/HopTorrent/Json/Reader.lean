import HopTorrent.Bytes
import HopTorrent.Text.Hex

/-!
# Json/Reader — reading records of texts

A record is an object whose known fields are texts, or an array of the fields in order.  A known
field is read completely: its escapes must pair up and its bytes must be valid UTF-8.  The value of
an unknown field is only passed over, to any depth; it must be well formed, and no more than that.
A known field given twice spoils the record.

Every reader returns what it read and the bytes behind it, or nothing where the text is not of the
form it reads.
-/

namespace HopTorrent.Json

/-! ## Marks -/

/-- `"` -/
@[match_pattern] def quote : UInt8 := 0x22
/-- `\` -/
@[match_pattern] def escape : UInt8 := 0x5C
/-- `,` -/
@[match_pattern] def comma : UInt8 := 0x2C
/-- `:` -/
@[match_pattern] def colon : UInt8 := 0x3A
/-- `[` -/
@[match_pattern] def openArray : UInt8 := 0x5B
/-- `]` -/
@[match_pattern] def closeArray : UInt8 := 0x5D
/-- Opens an object. -/
@[match_pattern] def openObject : UInt8 := 0x7B
/-- Closes an object. -/
@[match_pattern] def closeObject : UInt8 := 0x7D

/-- `-` -/
@[match_pattern] def minus : UInt8 := 0x2D
/-- `.` -/
@[match_pattern] def point : UInt8 := 0x2E
/-- `0` -/
@[match_pattern] def digitZero : UInt8 := 0x30
/-- `u` -/
@[match_pattern] def letterU : UInt8 := 0x75
/-- `n` -/
@[match_pattern] def letterN : UInt8 := 0x6E
/-- `t` -/
@[match_pattern] def letterT : UInt8 := 0x74
/-- `f` -/
@[match_pattern] def letterF : UInt8 := 0x66

/-- Space, line feed, carriage return and tab. -/
def isBlankByte (b : UInt8) : Bool := b = 0x20 || b = 0x0A || b = 0x0D || b = 0x09

/-- The bytes behind the blanks in front. -/
def skipBlanks (bs : Bytes) : Bytes := bs.dropWhile isBlankByte

/-- The bytes behind these ones, if they come next. -/
def expect (word bs : Bytes) : Option Bytes :=
  if bs.take word.length = word then some (bs.drop word.length) else none

/-! ## Texts -/

/-- The value of four hexadecimal digits. -/
def hex4? (a b c d : UInt8) : Option Nat := do
  let digit (x : UInt8) := Text.hexValue? (Char.ofNat x.toNat)
  return (((← digit a) * 16 + (← digit b)) * 16 + (← digit c)) * 16 + (← digit d)

/-- The byte that an escape of one letter stands for. -/
def shortEscape? (b : UInt8) : Option UInt8 :=
  match Char.ofNat b.toNat with
  | '"' => some 0x22
  | '\\' => some 0x5C
  | '/' => some 0x2F
  | 'b' => some 0x08
  | 'f' => some 0x0C
  | 'n' => some 0x0A
  | 'r' => some 0x0D
  | 't' => some 0x09
  | _ => none

/-- The bytes of the character with a code point. -/
def codePointBytes (n : Nat) : Bytes := String.utf8EncodeChar (Char.ofNat n)

/-- The rest of a text, and the bytes it stands for.  A code point beyond sixteen bits is written
as a leading and a trailing half; a half on its own is refused, and so is a control character. -/
def textBytes : Bytes → Option (Bytes × Bytes)
  | [] => none
  | quote :: rest => some ([], rest)
  | escape :: letterU :: a :: b :: c :: d :: rest => do
    let n ← hex4? a b c d
    if n < 0xD800 ∨ 0xDFFF < n then
      let (bs, rest) ← textBytes rest
      return (codePointBytes n ++ bs, rest)
    else if 0xDBFF < n then none
    else
      match rest with
      | escape :: letterU :: a :: b :: c :: d :: rest =>
        let low ← hex4? a b c d
        if low < 0xDC00 ∨ 0xDFFF < low then none
        let (bs, rest) ← textBytes rest
        return (codePointBytes (0x10000 + (n - 0xD800) * 0x400 + (low - 0xDC00)) ++ bs, rest)
      | _ => none
  | escape :: b :: rest => do
    let e ← shortEscape? b
    let (bs, rest) ← textBytes rest
    return (e :: bs, rest)
  | b :: rest => do
    if b < 0x20 ∨ b = escape then none
    let (bs, rest) ← textBytes rest
    return (b :: bs, rest)

/-- The rest of a text, behind its opening quotation mark. -/
def readText (bs : Bytes) : Option (String × Bytes) := do
  let (content, rest) ← textBytes bs
  let s ← Bytes.ofUtf8? content
  return (s, rest)

/-- The bytes behind a text, whatever it stands for. -/
def skipText : Bytes → Option Bytes
  | [] => none
  | quote :: rest => some rest
  | escape :: letterU :: a :: b :: c :: d :: rest =>
    if (hex4? a b c d).isSome then skipText rest else none
  | escape :: b :: rest => if (shortEscape? b).isSome then skipText rest else none
  | b :: rest => if b < 0x20 ∨ b = escape then none else skipText rest

/-! ## Values passed over -/

/-- Whether a byte is a decimal digit. -/
def isDigitByte (b : UInt8) : Bool := 0x30 ≤ b && b ≤ 0x39

/-- The bytes behind one or more digits. -/
def skipDigits (bs : Bytes) : Option Bytes :=
  match bs with
  | b :: rest => if isDigitByte b then some (rest.dropWhile isDigitByte) else none
  | [] => none

/-- The bytes behind an exponent, if there is one. -/
def skipExponent (bs : Bytes) : Option Bytes :=
  match bs with
  | e :: rest =>
    if e = 0x65 ∨ e = 0x45 then
      match rest with
      | sign :: digits => if sign = 0x2B ∨ sign = 0x2D then skipDigits digits else skipDigits rest
      | [] => none
    else some bs
  | [] => some []

/-- The bytes behind a fraction and an exponent, as far as there are any. -/
def skipFraction (bs : Bytes) : Option Bytes :=
  match bs with
  | point :: rest => (skipDigits rest).bind skipExponent
  | _ => skipExponent bs

/-- The bytes behind a number without its sign.  A leading zero stands alone. -/
def skipNumber (bs : Bytes) : Option Bytes :=
  match bs with
  | digitZero :: rest =>
    match rest with
    | b :: _ => if isDigitByte b then none else skipFraction rest
    | [] => some []
  | _ => (skipDigits bs).bind skipFraction

/-- The bytes behind a value that holds no other. -/
def skipScalar (bs : Bytes) : Option Bytes :=
  match bs with
  | quote :: rest => skipText rest
  | minus :: rest => skipNumber rest
  | letterN :: _ => expect (Bytes.utf8 "null") bs
  | letterT :: _ => expect (Bytes.utf8 "true") bs
  | letterF :: _ => expect (Bytes.utf8 "false") bs
  | _ => skipNumber bs

/-- What a reader inside nested values may meet next. -/
inductive Expecting where
  /-- A value. -/
  | value
  /-- The name of an object's member. -/
  | name
  /-- A comma or the end of the innermost value that holds others. -/
  | more
deriving DecidableEq

/-- The bytes behind the values that are still open; `true` stands for an object, the innermost
value comes first.  Each step passes over a byte at least. -/
def skipOpen (fuel : Nat) (expecting : Expecting) (open_ : List Bool) (bs : Bytes) :
    Option Bytes :=
  match fuel with
  | 0 => none
  | fuel + 1 =>
    match expecting, open_, skipBlanks bs with
    | .value, _, openArray :: rest =>
      match skipBlanks rest with
      | closeArray :: rest => skipOpen fuel .more open_ rest
      | rest => skipOpen fuel .value (false :: open_) rest
    | .value, _, openObject :: rest =>
      match skipBlanks rest with
      | closeObject :: rest => skipOpen fuel .more open_ rest
      | rest => skipOpen fuel .name (true :: open_) rest
    | .value, _, rest => (skipScalar rest).bind (skipOpen fuel .more open_)
    | .name, _, quote :: rest =>
      match (skipText rest).map skipBlanks with
      | some (colon :: rest) => skipOpen fuel .value open_ rest
      | _ => none
    | .name, _, _ => none
    | .more, [], _ => some bs
    | .more, false :: _, comma :: rest => skipOpen fuel .value open_ rest
    | .more, true :: _, comma :: rest => skipOpen fuel .name open_ rest
    | .more, false :: outer, closeArray :: rest => skipOpen fuel .more outer rest
    | .more, true :: outer, closeObject :: rest => skipOpen fuel .more outer rest
    | .more, _, _ => none

/-- The bytes behind a value of any kind. -/
def skipValue (bs : Bytes) : Option Bytes := skipOpen (2 * bs.length + 2) .value [] bs

/-! ## Records -/

/-- The value of a known field: a text, or, where the record allows it, `null`. -/
def readField (nullable : Bool) (bs : Bytes) : Option (Option String × Bytes) :=
  match skipBlanks bs with
  | quote :: rest => (readText rest).map fun (s, rest) => (some s, rest)
  | rest => if nullable then (expect (Bytes.utf8 "null") rest).map (none, ·) else none

/-- The known fields given, by name. -/
abbrev Fields := List (String × Option String)

/-- The members of an object from the next one on, after the known fields `seen`. -/
def readMembers (names : List String) (nullable : Bool) (fuel : Nat) (seen : Fields)
    (bs : Bytes) : Option (Fields × Bytes) :=
  match fuel with
  | 0 => none
  | fuel + 1 => do
    match skipBlanks bs with
    | quote :: rest =>
      let (name, rest) ← readText rest
      match skipBlanks rest with
      | colon :: rest =>
        let (seen, rest) ←
          if names.contains name then
            if (seen.lookup name).isSome then none
            else (readField nullable rest).map fun (v, rest) => (seen ++ [(name, v)], rest)
          else (skipValue rest).map (seen, ·)
        match skipBlanks rest with
        | comma :: rest => readMembers names nullable fuel seen rest
        | closeObject :: rest => return (seen, rest)
        | _ => none
      | _ => none
    | _ => none

/-- The elements of an array from the next one on, as the fields with these names. -/
def readElements (nullable : Bool) : List String → Bytes → Option (Fields × Bytes)
  | [], _ => none
  | name :: names, bs => do
    let (v, rest) ← readField nullable bs
    match skipBlanks rest with
    | comma :: rest =>
      let (fields, rest) ← readElements nullable names rest
      return ((name, v) :: fields, rest)
    | closeArray :: rest => return ([(name, v)], rest)
    | _ => none

/-- **A record**: its known fields, whether it was given as an array, and the bytes behind it. -/
def readRecord (names : List String) (nullable : Bool) (bs : Bytes) :
    Option ((Fields × Bool) × Bytes) :=
  match skipBlanks bs with
  | openObject :: rest =>
    match skipBlanks rest with
    | closeObject :: rest => some (([], false), rest)
    | rest => (readMembers names nullable rest.length [] rest).map fun (fs, rest) =>
        ((fs, false), rest)
  | openArray :: rest =>
    match skipBlanks rest with
    | closeArray :: rest => some (([], true), rest)
    | rest => (readElements nullable names rest).map fun (fs, rest) => ((fs, true), rest)
  | _ => none

end HopTorrent.Json
