import HopTorrent.Address.Ip
import HopTorrent.Address
import HopTorrent.Socks.Credentials

/-!
# Socks/Message — what a SOCKS5 client says

A greeting offers ways to authenticate, a name and a password follow if the proxy asks for them, and
a request names the target: a numeric host by its octets, any other by its name, which only the
proxy resolves.
-/

namespace HopTorrent.Socks

/-- The version of the protocol. -/
def version : UInt8 := 0x05
/-- No authentication. -/
def noAuth : UInt8 := 0x00
/-- Authentication by name and password. -/
def userPass : UInt8 := 0x02
/-- No offered way to authenticate is accepted. -/
def rejected : UInt8 := 0xFF
/-- The version of the authentication by name and password. -/
def authVersion : UInt8 := 0x01
/-- The request to connect. -/
def connectCommand : UInt8 := 0x01
/-- A host of four octets. -/
def ipv4 : UInt8 := 0x01
/-- A host by name. -/
def domain : UInt8 := 0x03
/-- A host of sixteen octets. -/
def ipv6 : UInt8 := 0x04

/-- The greeting: a client with credentials offers both ways to authenticate. -/
def greeting (auth : Option Credentials) : Bytes :=
  match auth with
  | some _ => [version, 2, noAuth, userPass]
  | none => [version, 1, noAuth]

/-- Bytes after their number. -/
def counted (bs : Bytes) : Bytes := UInt8.ofNat bs.length :: bs

/-- A name and a password. -/
def authRequest (c : Credentials) : Bytes :=
  authVersion :: counted (Bytes.utf8 c.username) ++ counted (Bytes.utf8 c.password)

/-- The kind of a host and its bytes, if the host can be named. -/
def hostBytes (host : String) : Except Error Bytes :=
  match Ip.ofChars? host.toList with
  | some (.v4 os) => .ok (ipv4 :: (Ip.v4 os).octets)
  | some (.v6 gs) => .ok (ipv6 :: (Ip.v6 gs).octets)
  | none =>
    if 255 < host.utf8ByteSize then .error (.validation "hostname too long")
    else .ok (domain :: counted (Bytes.utf8 host))

/-- **The request to connect to a target.** -/
def connectRequest (target : String) : Except Error Bytes := do
  let a ← Address.parse target
  let host ← hostBytes a.host
  return [version, connectCommand, 0] ++ host ++ Bytes.ofPort a.port.toNat

end HopTorrent.Socks
