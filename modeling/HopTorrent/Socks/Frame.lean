import HopTorrent.Socks.Message

/-!
# Socks/Frame — reading back what a client said

The bytes a client writes through a chain are one handshake after another: a greeting, a name and a
password if they were asked for, and a request.  Cutting them apart again shows what was asked of
whom.
-/

namespace HopTorrent.Socks

/-- One message of a client. -/
inductive Frame where
  | greeting (bytes : Bytes)
  | auth (user pass : Bytes)
  | request (target : String) (bytes : Bytes)
  /-- The beginning of a message that was not finished. -/
  | incomplete (bytes : Bytes)
deriving DecidableEq, Repr

namespace Frame

/-- The first `n` bytes and the rest, if there are as many. -/
def takeExactly (n : Nat) (bs : Bytes) : Option (Bytes × Bytes) :=
  if n ≤ bs.length then some (bs.take n, bs.drop n) else none

/-- Bytes after their number, and the rest. -/
def takeCounted : Bytes → Option (Bytes × Bytes)
  | [] => none
  | n :: rest => takeExactly n.toNat rest

/-- A greeting and the rest. -/
def greeting? : Bytes → Option (Frame × Bytes)
  | v :: rest => (takeCounted rest).map fun (methods, rest) =>
      (.greeting (v :: counted methods), rest)
  | [] => none

/-- A name and a password, and the rest. -/
def auth? : Bytes → Option (Frame × Bytes)
  | _ :: rest => do
    let (user, rest) ← takeCounted rest
    let (pass, rest) ← takeCounted rest
    return (.auth user pass, rest)
  | [] => none

/-- The host a request names: its length and its text. -/
def host? : Bytes → Option (Nat × String)
  | kind :: rest =>
    if kind = ipv4 then
      (takeExactly 4 rest).map fun (os, _) => (5, Ip.showOctets os)
    else if kind = ipv6 then
      (takeExactly 16 rest).map fun (os, _) =>
        (17, "[" ++ Ip.showV6 (Ip.octetGroups os) ++ "]")
    else (takeCounted rest).map fun (name, _) =>
      (2 + name.length, (Bytes.ofUtf8? name).getD "")
  | [] => none

/-- A request and the rest. -/
def request? (bs : Bytes) : Option (Frame × Bytes) := do
  let (front, rest) ← takeExactly 3 bs
  let (length, host) ← host? rest
  let (named, rest) ← takeExactly length rest
  match rest with
  | hi :: lo :: rest =>
    return (.request (host ++ ":" ++ toString (Bytes.toPort hi lo))
      (front ++ named ++ [hi, lo]), rest)
  | _ => none

/-- The messages that follow; `greeted` says whether a greeting came before.  The `fuel` bounds
their number. -/
def cutFrom : (fuel : Nat) → (greeted : Bool) → Bytes → List Frame
  | 0, _, bs => if bs.isEmpty then [] else [.incomplete bs]
  | fuel + 1, greeted, bs =>
    if bs.isEmpty then []
    else if !greeted then
      match greeting? bs with
      | some (f, rest) => f :: cutFrom fuel true rest
      | none => [.incomplete bs]
    else if bs.head? = some authVersion then
      match auth? bs with
      | some (f, rest) => f :: cutFrom fuel true rest
      | none => [.incomplete bs]
    else
      match request? bs with
      | some (f, rest) => f :: cutFrom fuel false rest
      | none => [.incomplete bs]

/-- **The messages that a client wrote.** -/
def cut (bs : Bytes) : List Frame := cutFrom bs.length false bs

end Frame

end HopTorrent.Socks
