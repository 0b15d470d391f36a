import HopTorrent.Exchange
import HopTorrent.Socks.Message

/-!
# Socks/Client — asking a proxy to connect onward

The dialogue needs nothing but a byte stream, so it can run inside a tunnel that an earlier proxy
opened; that is what lets proxies stack.  It reads exactly the proxy's answers: the first byte left
unread is the first one of the tunnel.
-/

namespace HopTorrent.Socks

/-- A fault while something was being done. -/
def during (what : String) (f : Stream.Fault) : Error := .socks (what ++ ": " ++ f.message)

/-- What the code of a refused request means. -/
def replyMeaning (code : UInt8) : String :=
  match code.toNat with
  | 1 => "general failure"
  | 2 => "connection not allowed by ruleset"
  | 3 => "network unreachable"
  | 4 => "host unreachable"
  | 5 => "connection refused"
  | 6 => "TTL expired"
  | 7 => "command not supported"
  | 8 => "address type not supported"
  | _ => "unknown error"

/-- Reads the bound address, of which nothing is used, and ends. -/
def skipBound (kind : UInt8) : Exchange Unit :=
  let plain := fun f : Stream.Fault => Error.socks f.message
  if kind = ipv4 then .recv 6 plain fun _ => .done ()
  else if kind = ipv6 then .recv 18 plain fun _ => .done ()
  else if kind = domain then
    .recvOne plain fun len => .recv (len.toNat + 2) plain fun _ => .done ()
  else .fail (.socks "invalid SOCKS5 address type")

/-- Sends the request and reads the reply. -/
def request (bytes : Bytes) : Exchange Unit :=
  .send bytes (during "connect request failed") <|
    .recvFour (during "connect response failed") fun v code _ kind =>
      if v ≠ version then .fail (.socks "invalid SOCKS5 version in response")
      else if code ≠ 0 then
        .fail (.socks ("connect failed: " ++ replyMeaning code ++ " (code "
          ++ toString code.toNat ++ ")"))
      else skipBound kind

/-- Sends a name and a password, if they fit, and goes on if they are accepted. -/
def authenticate (c : Credentials) (next : Exchange Unit) : Exchange Unit :=
  if c.fits then
    .send (authRequest c) (during "auth request failed") <|
      .recvTwo (during "auth response failed") fun _ status =>
        if status ≠ 0 then .fail (.socks "SOCKS5 authentication rejected") else next
  else .fail (.validation "invalid SOCKS5 credentials")

/-- The proxy chose a way to authenticate that cannot be gone. -/
def unusable (method : UInt8) : Exchange Unit :=
  if method = rejected then .fail (.socks "no acceptable auth method")
  else .fail (.socks ("unexpected auth method " ++ toString method.toNat))

/-- Goes on in the way that the proxy chose. -/
def proceed (auth : Option Credentials) (bytes : Bytes) (v method : UInt8) : Exchange Unit :=
  if v ≠ version then .fail (.socks "invalid SOCKS5 version in greeting")
  else if method = noAuth then request bytes
  else
    match auth with
    | some c => if method = userPass then authenticate c (request bytes) else unusable method
    | none => unusable method

/-- **Asks the proxy at the other end to connect to a target.**  After success the stream is a
tunnel to the target. -/
def connect (target : String) (auth : Option Credentials) : Exchange Unit :=
  match connectRequest target with
  | .error e => .fail e
  | .ok bytes =>
    .send (greeting auth) (during "greeting failed") <|
      .recvTwo (during "greeting response failed") (proceed auth bytes)

end HopTorrent.Socks
