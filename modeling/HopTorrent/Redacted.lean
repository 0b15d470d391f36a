import HopTorrent.Text.Cut
import HopTorrent.Text.Natural

/-!
# Redacted — what may be shown of a secret

Info-hashes, magnets, proxy endpoints and credentials identify what a user downloads and how the
traffic leaves the host.  They are shown only through these functions: a hash by its two ends, a
magnet by its size, a hop by its port, credentials not at all.
-/

namespace HopTorrent.Redacted

/-- The first and last four characters of a hash; a short or a non-ASCII text shows nothing. -/
def hash (s : String) : String :=
  let cs := s.toList
  if s.utf8ByteSize > 12 ∧ cs.all fun c => c.toNat < 128 then
    String.ofList (cs.take 4 ++ "...".toList ++ cs.drop (cs.length - 4))
  else "[REDACTED HASH]"

/-- The size of a magnet in bytes. -/
def magnet (s : String) : String := "[magnet, " ++ toString s.utf8ByteSize ++ " chars]"

/-- The port of an endpoint: the text after its last colon, if that is a port number. -/
def hop (s : String) : String :=
  match Text.cutLast ':' s.toList with
  | some (_, port) =>
    if (Text.natural? Text.max16 port).isSome then "[hop]:" ++ String.ofList port else "[hop]"
  | none => "[hop]"

/-- Nothing of a name and a password. -/
def credentials : String := "Credentials([REDACTED])"

end HopTorrent.Redacted
