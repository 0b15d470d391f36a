import HopTorrent.Bytes
import HopTorrent.Http.Message
import HopTorrent.Text.Cut
import HopTorrent.Text.Hex

/-!
# Http/Routes — which path leads where

A path is cut at its slashes and must match one of seven templates exactly.  The part that names a
transfer may be empty only in front of an action; its escapes are decoded only after it was matched.
-/

namespace HopTorrent.Http

/-! ## Paths -/

/-- What stands in front of a mark, or everything. -/
def upTo (mark : Char) (cs : List Char) : List Char := cs.takeWhile (· ≠ mark)

/-- The path of a request target: without query and fragment, and without scheme and authority. -/
def pathOf (uri : String) : List Char :=
  let cs := upTo '?' (upTo '#' uri.toList)
  match Text.cutFirst ':' cs with
  | some (scheme, '/' :: '/' :: rest) =>
    if scheme.contains '/' then cs
    else
      match rest.dropWhile (· ≠ '/') with
      | [] => ['/']
      | path => path
  | _ => cs

/-- The bytes that escaped text stands for; a percent sign without two digits stands for itself. -/
def unescape : Bytes → Bytes
  | 0x25 :: a :: b :: rest =>
    match Text.ofHexDigits? [Char.ofNat a.toNat, Char.ofNat b.toNat] with
    | some bs => bs ++ unescape rest
    | none => 0x25 :: unescape (a :: b :: rest)
  | b :: rest => b :: unescape rest
  | [] => []

/-- The text that escaped text stands for, if it is valid UTF-8. -/
def decodeSegment (cs : List Char) : Option String :=
  Bytes.ofUtf8? (unescape (Bytes.utf8 (String.ofList cs)))

/-! ## Routes -/

/-- Where a path leads. -/
inductive Route where
  | torrents
  | torrent (id : List Char)
  | pause (id : List Char)
  | resume (id : List Char)
  | settings
  | health
  | cleanup
deriving DecidableEq, Repr

namespace Route

/-- The template a route matches; all requests that match it share one allowance. -/
def template : Route → String
  | torrents => "/api/torrents"
  | torrent _ => "/api/torrents/:info_hash"
  | pause _ => "/api/torrents/:info_hash/pause"
  | resume _ => "/api/torrents/:info_hash/resume"
  | settings => "/api/settings"
  | health => "/api/health"
  | cleanup => "/api/cleanup"

/-- The methods a route answers. -/
def methods : Route → List String
  | torrents => ["GET", "HEAD", "POST"]
  | torrent _ => ["GET", "HEAD", "DELETE"]
  | pause _ | resume _ | cleanup => ["POST"]
  | settings => ["GET", "HEAD", "PUT"]
  | health => ["GET", "HEAD"]

/-- The route below `/api/torrents/`. -/
def ofSegments? : List (List Char) → Option Route
  | [id] => if id.isEmpty then none else some (torrent id)
  | [id, action] =>
    if action = "pause".toList then some (pause id)
    else if action = "resume".toList then some (resume id)
    else none
  | _ => none

/-- **The route of a path.** -/
def ofPath? (path : List Char) : Option Route :=
  match Text.pieces '/' path with
  | [] :: api :: place :: rest =>
    if api ≠ "api".toList then none
    else if place = "torrents".toList then
      if rest.isEmpty then some torrents else ofSegments? rest
    else if !rest.isEmpty then none
    else if place = "settings".toList then some settings
    else if place = "health".toList then some health
    else if place = "cleanup".toList then some cleanup
    else none
  | _ => none

end Route

/-- What shares one allowance when no template is matched. -/
def unmatched : String := "<unmatched>"

/-- What the allowance of a request hangs on. -/
def bucketOf (route : Option Route) : String := (route.map Route.template).getD unmatched

end HopTorrent.Http
