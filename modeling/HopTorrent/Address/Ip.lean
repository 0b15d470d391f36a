import HopTorrent.Bytes
import HopTorrent.Text.Cut
import HopTorrent.Text.Hex
import HopTorrent.Text.Natural

/-!
# Address/Ip — numeric hosts

A version 4 host is four decimal numbers below 256 without leading zeros.  A version 6 host is
eight groups of one to four hexadecimal digits, where one run of zero groups may be left out (`::`)
and the last two groups may be written as a version 4 host.

Writing leaves out the longest run of at least two zero groups, the first of equally long ones, and
uses the version 4 form for mapped hosts alone.
-/

namespace HopTorrent

/-- A numeric host. -/
inductive Ip where
  | v4 (octets : Vector UInt8 4)
  | v6 (groups : Vector UInt16 8)
deriving DecidableEq, Repr

namespace Ip

/-! ## Reading -/

/-- A number below 256, in up to three digits without leading zeros. -/
def octet? (cs : List Char) : Option UInt8 :=
  if cs.length ≤ 3 ∧ (cs.head? ≠ some '0' ∨ cs.length = 1) then
    ((Text.digits? cs).filter (· < 256)).map UInt8.ofNat
  else none

/-- Four numbers between dots. -/
def octets? (cs : List Char) : Option (List UInt8) :=
  ((Text.pieces '.' cs).mapM octet?).filter (·.length = 4)

/-- The value of hexadecimal digits, read after the digits worth `acc`. -/
def hexValueOf (acc : Nat) : List Char → Option Nat
  | [] => some acc
  | c :: cs => (Text.hexValue? c).bind fun d => hexValueOf (acc * 16 + d) cs

/-- A group of one to four hexadecimal digits. -/
def group? (cs : List Char) : Option UInt16 :=
  if 1 ≤ cs.length ∧ cs.length ≤ 4 then (hexValueOf 0 cs).map UInt16.ofNat else none

/-- The two groups that four octets make. -/
def octetGroups : List UInt8 → List UInt16
  | hi :: lo :: rest => UInt16.ofNat (Bytes.toPort hi lo) :: octetGroups rest
  | _ => []

/-- The groups between colons, the last of them perhaps in the version 4 form. -/
def groupsOf : List (List Char) → Option (List UInt16)
  | [] => some []
  | [last] => (group? last).map (fun g => [g]) |>.or ((octets? last).map octetGroups)
  | piece :: rest => do
    let g ← group? piece
    let gs ← groupsOf rest
    return g :: gs

/-- The groups between colons; no text has no groups. -/
def groups? (cs : List Char) : Option (List UInt16) :=
  if cs.isEmpty then some [] else groupsOf (Text.pieces ':' cs)

/-- What stands before and after the first `::`. -/
def cutGap : List Char → Option (List Char × List Char)
  | ':' :: ':' :: rest => some ([], rest)
  | c :: rest => (cutGap rest).map fun (head, tail) => (c :: head, tail)
  | [] => none

/-- The eight groups of a version 6 host. -/
def v6Groups? (cs : List Char) : Option (List UInt16) :=
  match cutGap cs with
  | none => groups? cs
  | some (head, tail) => do
    if head.contains '.' then none
    let front ← groups? head
    let back ← groups? tail
    if front.length + back.length > 7 then none
    return front ++ List.replicate (8 - front.length - back.length) 0 ++ back

/-- Reads a numeric host. -/
def ofChars? (cs : List Char) : Option Ip :=
  match octets? cs with
  | some os => if h : os.length = 4 then some (.v4 ⟨os.toArray, by simp [h]⟩) else none
  | none =>
    match v6Groups? cs with
    | some gs => if h : gs.length = 8 then some (.v6 ⟨gs.toArray, by simp [h]⟩) else none
    | none => none

/-! ## Writing -/

/-- Four decimal numbers between dots. -/
def showOctets (os : List UInt8) : String :=
  String.intercalate "." (os.map fun o => toString o.toNat)

/-- Groups in hexadecimal between colons. -/
def showGroups (gs : List UInt16) : String :=
  String.intercalate ":" (gs.map fun g => String.ofList (Nat.toDigits 16 g.toNat))

/-- The longest run of zero groups, as its start and length: `at_` is the position of the first
group given, `run` the number of zero groups right before it, `best` the longest run so far. -/
def longestGap (at_ run : Nat) (best : Nat × Nat) : List UInt16 → Nat × Nat
  | [] => best
  | g :: gs =>
    if g = 0 then
      let run := run + 1
      longestGap (at_ + 1) run (if run > best.2 then (at_ + 1 - run, run) else best) gs
    else longestGap (at_ + 1) 0 best gs

/-- The octets of the groups, most significant first. -/
def groupOctets (gs : List UInt16) : List UInt8 := gs.flatMap fun g => Bytes.ofPort g.toNat

/-- A version 6 host as text. -/
def showV6 (gs : List UInt16) : String :=
  if gs.take 6 = [0, 0, 0, 0, 0, 0xFFFF] then "::ffff:" ++ showOctets (groupOctets (gs.drop 6))
  else
    let (start, run) := longestGap 0 0 (0, 0) gs
    if run > 1 then showGroups (gs.take start) ++ "::" ++ showGroups (gs.drop (start + run))
    else showGroups gs

/-- A numeric host as text. -/
def render : Ip → String
  | v4 os => showOctets os.toList
  | v6 gs => showV6 gs.toList

/-- A numeric host as it stands in front of a port: version 6 in brackets. -/
def renderHost : Ip → String
  | v4 os => showOctets os.toList
  | v6 gs => "[" ++ showV6 gs.toList ++ "]"

/-- The octets of a host, most significant first. -/
def octets : Ip → Bytes
  | v4 os => os.toList
  | v6 gs => groupOctets gs.toList

/-- The version 4 host with these octets. -/
def ofOctets4 (os : Vector UInt8 4) : Ip := .v4 os

/-- The version 6 host with these octets. -/
def ofOctets6 (os : Vector UInt8 16) : Ip :=
  .v6 (Vector.ofFn fun i : Fin 8 => UInt16.ofNat (Bytes.toPort os[2 * i.val] os[2 * i.val + 1]))

end Ip

end HopTorrent
