import HopTorrent.Address.Ip
import HopTorrent.Chain.Dialer

/-!
# Network — what the host can reach on its own

Only the first hop of a chain, and the address the service listens on, are ever handed to the host's
own network.  Such an address is cut at its last colon, so a version 6 host needs no brackets here;
only a host that is no number is looked up by name.
-/

namespace HopTorrent

/-- A numeric host and a port. -/
structure Endpoint where
  host : Ip
  port : UInt16
deriving DecidableEq, Repr

/-- What the host's network answers; refusals are texts. -/
structure Network where
  /-- The numeric host that a name stands for. -/
  resolve : String → Except String Ip
  /-- A connection. -/
  connect : Endpoint → Except String Stream
  /-- Leave to listen. -/
  listen : Endpoint → Except String Unit

namespace Network

/-- The host and the port of an address, cut at the last colon. -/
def cut (address : String) : Except String (List Char × UInt16) :=
  match Text.cutLast ':' address.toList with
  | none => .error "invalid socket address"
  | some (host, port) =>
    match Text.natural? Text.max16 port with
    | some n => .ok (host, UInt16.ofNat n)
    | none => .error "invalid port value"

/-- A numeric host, in brackets or not. -/
def numeric? (host : List Char) : Option Ip :=
  match host with
  | '[' :: rest => (Text.cutFirst ']' rest).bind fun (inner, tail) =>
      if tail.isEmpty then Ip.ofChars? inner else none
  | _ => Ip.ofChars? host

/-- **The endpoint an address stands for.** -/
def endpoint (net : Network) (address : String) : Except String Endpoint := do
  let (host, port) ← cut address
  match numeric? host with
  | some ip => return ⟨ip, port⟩
  | none => return ⟨← net.resolve (String.ofList host), port⟩

/-- Listens on an address. -/
def listenOn (net : Network) (address : String) : Except String Unit := do
  net.listen (← net.endpoint address)

/-- Connects to an address. -/
def reach (net : Network) (address : String) : Except String Stream := do
  net.connect (← net.endpoint address)

/-- **Dials without any proxy.** -/
def dial (net : Network) (network address : String) : Except Error Stream := do
  checkNetwork network
  (net.reach address).mapError fun why =>
    .network ("failed to connect to " ++ address ++ ": " ++ why)

/-- The network as the transport below the first hop. -/
def transport (net : Network) : Transport := fun _ network address =>
  .after 0 (net.dial network address)

/-! ## A host on its own -/

/-- Whether a character may stand in a host name. -/
def isNameChar (c : Char) : Bool := c.isAlphanum || c = '-' || c = '_'

/-- Whether a text could be the name of a host: labels of up to 63 characters between dots. -/
def isHostName (name : String) : Bool :=
  (Text.pieces '.' name.toList).all fun label =>
    !label.isEmpty && label.length ≤ 63 && label.all isNameChar

/-- The host itself, as version 4. -/
def loopback : Ip := .v4 #v[127, 0, 0, 1]

/-- Whether a numeric host stands for the host itself. -/
def isLocal : Ip → Bool
  | .v4 os => os.toList.head? = some 127 || os.toList.all (· = 0)
  | .v6 gs => gs.toList = [0, 0, 0, 0, 0, 0, 0, 0] || gs.toList = [0, 0, 0, 0, 0, 0, 0, 1]

/-- Looks a name up where nobody can be asked: only the host's own name is known. -/
def resolveAlone (name : String) : Except String Ip :=
  let failed := "failed to lookup address information: "
  if name = "localhost" then .ok loopback
  else if isHostName name then .error (failed ++ "Temporary failure in name resolution")
  else .error (failed ++ "Name or service not known")

/-- A host cut off from every other: it may listen on its own addresses, but reaches nothing. -/
def isolated : Network where
  resolve := resolveAlone
  connect _ := .error "Network is unreachable (os error 101)"
  listen e :=
    if isLocal e.host then .ok () else .error "Cannot assign requested address (os error 99)"

end Network

end HopTorrent
