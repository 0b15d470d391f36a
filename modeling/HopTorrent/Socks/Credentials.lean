import HopTorrent.Text.Hex

/-!
# Socks/Credentials — a name and a password for a proxy

Proxies that isolate streams put streams with distinct credentials on distinct circuits.
-/

namespace HopTorrent.Socks

/-- A name and a password. -/
structure Credentials where
  username : String
  password : String
deriving DecidableEq, Repr

namespace Credentials

/-- Whether both parts have between one and 255 bytes. -/
def fits (c : Credentials) : Bool :=
  let user := c.username.utf8ByteSize
  let pass := c.password.utf8ByteSize
  1 ≤ user && user ≤ 255 && 1 ≤ pass && pass ≤ 255

/-- Credentials made of drawn bytes: eight for the name and eight for the password. -/
def ofRandom (user pass : Vector UInt8 8) : Credentials :=
  ⟨Text.toHex user.toList, Text.toHex pass.toList⟩

end Credentials

end HopTorrent.Socks
