import HopTorrent.Socks.Client
import HopTorrent.Stream.Relay

/-!
# Socks/Ingress — a proxy for local clients

A local client that can only be pointed at a proxy is pointed at this one.  Whatever it asks for is
dialed through the chain, its name still unresolved; credentials are accepted unseen.  Reading asks
for exactly the bytes each part needs, so the first byte left unread belongs to the target.
-/

namespace HopTorrent.Socks.Ingress

/-! ## What the ingress says -/

/-- The target was reached. -/
def succeeded : UInt8 := 0x00
/-- The target was not reached. -/
def generalFailure : UInt8 := 0x01
/-- Only connecting is supported. -/
def commandNotSupported : UInt8 := 0x07
/-- The host is of no known kind. -/
def addressNotSupported : UInt8 := 0x08

/-- A reply; the bound address is always the unspecified one. -/
def reply (code : UInt8) : Bytes := [version, code, 0, ipv4, 0, 0, 0, 0, 0, 0]

/-! ## What the client says -/

/-- A fault while the client was heard. -/
def reading (f : Stream.Fault) : Error := during "ingress read failed" f

/-- A fault while the client was answered. -/
def writing (f : Stream.Fault) : Error := during "ingress write failed" f

/-- Answers the client with a refusal. -/
def refuse (answer : Bytes) (why : String) : Exchange String :=
  .send answer writing (.fail (.socks why))

/-- Reads over a name and a password. -/
def skipCredentials (next : Exchange String) : Exchange String :=
  .recvTwo reading fun _ nameLength => .recv nameLength.toNat reading fun _ =>
    .recvOne reading fun passLength => .recv passLength.toNat reading fun _ => next

/-- Chooses among the offered ways to authenticate: none at all if the client agrees. -/
def choose (methods : Bytes) (next : Exchange String) : Exchange String :=
  if methods.contains noAuth then .send [version, noAuth] writing next
  else if methods.contains userPass then
    .send [version, userPass] writing (skipCredentials (.send [authVersion, 0] writing next))
  else refuse [version, rejected] "no acceptable auth method offered"

/-- Reads the port that follows a host. -/
def readPort (host : String) : Exchange String :=
  .recvTwo reading fun high low => .done (host ++ ":" ++ toString (Bytes.toPort high low))

/-- Reads a host of some kind and a port. -/
def readTarget (kind : UInt8) : Exchange String :=
  if kind = ipv4 then .recv 4 reading fun octets => readPort (Ip.ofOctets4 octets).renderHost
  else if kind = ipv6 then .recv 16 reading fun octets => readPort (Ip.ofOctets6 octets).renderHost
  else if kind = domain then
    .recvOne reading fun len => .recv len.toNat reading fun name =>
      match Bytes.ofUtf8? name.toList with
      | some host => readPort host
      | none => .fail (.socks "hostname is not UTF-8")
  else
    refuse (reply addressNotSupported) ("unsupported address type " ++ toString kind.toNat)

/-- Reads the request to connect. -/
def readRequest : Exchange String :=
  .recvFour reading fun v command _ kind =>
    if v ≠ version then .fail (.socks "invalid SOCKS5 version in request")
    else if command ≠ connectCommand then
      refuse (reply commandNotSupported) ("unsupported command " ++ toString command.toNat)
    else readTarget kind

/-- **Hears a client out**: the target it asks for. -/
def accept : Exchange String :=
  .recvTwo reading fun v count =>
    if v ≠ version then .fail (.socks ("unsupported SOCKS version " ++ toString v.toNat))
    else .recv count.toNat reading fun methods => choose methods.toList readRequest

/-! ## Serving a client -/

/-- What came of a client. -/
structure Served where
  /-- The client's connection as it was left. -/
  client : Stream
  /-- The network and target that were dialed. -/
  dialed : Option (String × String)
  /-- The connection to the target as it was left. -/
  target : Option Stream
  /-- Why the client was given up, if it was. -/
  error : Option Error

/-- Connects a client that was heard out; a dialer may never answer. -/
def connect (dial : String → String → Option (Except Error Stream)) (target : String)
    (client : Stream) : Served :=
  let dialed := some ("tcp", target)
  match dial "tcp" target with
  | none => ⟨client, dialed, none, none⟩
  | some (.error e) => ⟨(client.send (reply generalFailure)).2, dialed, none, some e⟩
  | some (.ok outward) =>
    match client.send (reply succeeded) with
    | (some f, client) => ⟨client, dialed, some outward, some (during "connect reply failed" f)⟩
    | (none, client) =>
      let joined := client.relay outward
      ⟨joined.source, dialed, some joined.sink, joined.fault.map fun f => .network f.message⟩

/-- **Serves a client**: dials at most once, and only what the client asked for. -/
def serve (dial : String → String → Option (Except Error Stream)) (client : Stream) : Served :=
  match accept.run client with
  | (.done target, client) => connect dial target client
  | (.failed e, client) => ⟨client, none, none, some e⟩
  | (.pending, client) => ⟨client, none, none, none⟩

end HopTorrent.Socks.Ingress
