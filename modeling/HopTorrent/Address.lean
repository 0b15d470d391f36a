import HopTorrent.Error
import HopTorrent.Text.Cut
import HopTorrent.Text.Natural

/-!
# Address — `host:port`

The host stands in brackets or holds no colon, and is never empty.  The port is a decimal numeral
below 65536 after an optional plus sign.  Anything else is no address.
-/

namespace HopTorrent

/-- A host, by name or by number, and a port. -/
structure Address where
  host : String
  port : UInt16
deriving DecidableEq, Repr

namespace Address

/-- The host and the text of the port: bracketed hosts end at the first bracket, others at the
only colon. -/
def split? : List Char → Option (List Char × List Char)
  | '[' :: rest => do
    let (host, tail) ← Text.cutFirst ']' rest
    match tail with
    | ':' :: port => some (host, port)
    | _ => none
  | cs => (Text.cutLast ':' cs).filter fun (host, _) => !host.contains ':'

/-- The host and the port of a character sequence. -/
def parts? (cs : List Char) : Option (List Char × UInt16) := do
  let (host, port) ← split? cs
  if host.isEmpty then none
  let n ← Text.natural? Text.max16 port
  return (host, UInt16.ofNat n)

/-- Reads `host:port`. -/
def parse (s : String) : Except Error Address :=
  match parts? s.toList with
  | some (host, port) => .ok ⟨String.ofList host, port⟩
  | none => .error (.validation ("invalid address: " ++ s))

/-- Whether a text is an address. -/
def accepts (s : String) : Bool := (parts? s.toList).isSome

end Address

end HopTorrent
