import HopTorrent.Text.Cut

/-!
# Http/MediaType — what a body claims to be

A media type has a type and a subtype of token characters, and perhaps parameters.  The subtype may
end in a suffix after its last plus sign.  Case does not matter.
-/

namespace HopTorrent.Http

/-- What a body claims to be, without its parameters. -/
structure MediaType where
  type : List Char
  subtype : List Char
  suffix : Option (List Char)
deriving DecidableEq, Repr

namespace MediaType

/-- The marks a token may hold besides letters and digits. -/
def tokenMarks : List Char :=
  ['!', '#', '$', '%', '&', '\x27', '+', '-', '.', '^', '_', '\x60', '|', '~']

/-- Whether a character may stand in a token. -/
def isToken (c : Char) : Bool := c.isAlphanum || tokenMarks.contains c

/-- Whether a character may stand in a quoted value. -/
def isQuotable (c : Char) : Bool := 31 < c.toNat && c.toNat < 127

/-- What follows the parameter's value between quotation marks; a mark right after the opening one
counts as content. -/
def skipQuoted : List Char → Option (List Char)
  | [] => none
  | first :: rest =>
    if !isQuotable first then none
    else
      match rest.dropWhile fun c => isQuotable c && c ≠ '"' with
      | '"' :: after =>
        match after.dropWhile (· = ' ') with
        | [] => some []
        | ';' :: more => some more
        | _ => none
      | _ => none

/-- What follows a parameter's value, without the semicolon. -/
def skipValue : List Char → Option (List Char)
  | '"' :: rest => skipQuoted rest
  | cs =>
    match cs.dropWhile isToken with
    | [] => some []
    | ';' :: rest => if (cs.takeWhile isToken).isEmpty then none else some rest
    | _ => none

/-- Whether parameters are well formed, behind the semicolon; `fuel` bounds their number. -/
def parametersOk : (fuel : Nat) → List Char → Bool
  | 0, cs => cs.isEmpty
  | fuel + 1, cs =>
    match cs.dropWhile (· = ' ') with
    | [] => true
    | rest =>
      match rest.dropWhile isToken with
      | '=' :: value =>
        if (rest.takeWhile isToken).isEmpty then false
        else
          match skipValue value with
          | some more => parametersOk fuel more
          | none => false
      | _ => false

/-- The subtype and the suffix behind its last plus sign; a plus sign in front belongs to the
subtype. -/
def splitSuffix (cs : List Char) : List Char × Option (List Char) :=
  match Text.cutLast '+' cs with
  | some (before, after) => if before.isEmpty then (cs, none) else (before, some after)
  | none => (cs, none)

/-- Reads a media type. -/
def parse? (s : String) : Option MediaType :=
  let cs := s.toLower.toList
  let type := cs.takeWhile isToken
  match cs.dropWhile isToken with
  | '/' :: rest =>
    if type.isEmpty then none
    else
      let sub := rest.takeWhile isToken
      let (subtype, suffix) := splitSuffix sub
      match rest.dropWhile isToken with
      | [] => some ⟨type, subtype, suffix⟩
      | ';' :: params =>
        if sub.isEmpty ∨ !parametersOk (params.length + 1) params then none
        else some ⟨type, subtype, suffix⟩
      | _ => none
  | _ => none

/-- Whether a body of this type is JSON. -/
def isJson (m : MediaType) : Bool :=
  m.type = "application".toList
    && (m.subtype = "json".toList || m.suffix = some "json".toList)

end MediaType

end HopTorrent.Http
