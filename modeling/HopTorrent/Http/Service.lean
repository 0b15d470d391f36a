import HopTorrent.Http.Api
import HopTorrent.Http.Headers
import HopTorrent.Http.MediaType

/-!
# Http/Service — from a request to its response

From the outside in: preflight requests are answered at once; every other response is hardened; each
route template has its own allowance; bodies are limited; only then the request is looked at.
-/

namespace HopTorrent.Http

/-- The largest body accepted, in bytes. -/
def bodyLimit : Nat := 65536

/-- The body of a request, unless it is longer than allowed or than stated. -/
def Request.limitedBody (r : Request) : Option Bytes :=
  let limit := min bodyLimit (r.statedLength.getD bodyLimit)
  if r.body.length ≤ limit then some r.body else none

/-- What a JSON body holds. -/
def Request.jsonBody {α : Type} (r : Request) (read : Bytes → Option (α × Bytes)) : Option α :=
  if (((r.header? "content-type").bind MediaType.parse?).map MediaType.isJson).getD false then
    (r.limitedBody.bind read).map Prod.fst
  else none

/-- What a request leads to. -/
inductive Target where
  | endpoint (e : Endpoint)
  /-- The name of a transfer is no text. -/
  | badPath
  | badBody
  | methodNotAllowed
  | notFound

namespace Target

/-- The endpoint for a transfer named in a path. -/
def named (segment : List Char) (e : String → Endpoint) : Target :=
  match decodeSegment segment with
  | some id => .endpoint (e id)
  | none => .badPath

/-- The endpoint for what a body holds. -/
def ofBody {α : Type} (content : Option α) (e : α → Endpoint) : Target :=
  match content with
  | some a => .endpoint (e a)
  | none => .badBody

/-- What a request on a route leads to. -/
def onRoute (req : Request) : Route → Target
  | .torrents =>
    if req.method = "GET" ∨ req.method = "HEAD" then .endpoint .list
    else if req.method = "POST" then ofBody (req.jsonBody readAdd) .add
    else .methodNotAllowed
  | .torrent id =>
    if req.method = "GET" ∨ req.method = "HEAD" then named id .get
    else if req.method = "DELETE" then named id .delete
    else .methodNotAllowed
  | .pause id => if req.method = "POST" then named id .pause else .methodNotAllowed
  | .resume id => if req.method = "POST" then named id .resume else .methodNotAllowed
  | .settings =>
    if req.method = "GET" ∨ req.method = "HEAD" then .endpoint .getSettings
    else if req.method = "PUT" then ofBody (req.jsonBody readSettings) .putSettings
    else .methodNotAllowed
  | .health =>
    if req.method = "GET" ∨ req.method = "HEAD" then .endpoint .health else .methodNotAllowed
  | .cleanup => if req.method = "POST" then .endpoint .cleanup else .methodNotAllowed

/-- What a request leads to. -/
def ofRequest (req : Request) : Option Route → Target
  | some route => onRoute req route
  | none => .notFound

end Target

namespace Service

variable {σ : Type}

/-- A reply as a response. -/
def respond (r : Reply) : Response := .json r.status r.body.render

/-- The response to a request that is let through. -/
def dispatch (b : Backend σ) (now : Int) (t : Target) : Serving σ Response := do
  match t with
  | .endpoint e => return respond (← Api.perform b now e)
  | .badPath => return .plain 400 "Invalid URL: Invalid UTF-8 in \x60info_hash\x60"
  | .badBody => return respond Api.badBody
  | .methodNotAllowed => return .bare 405
  | .notFound => return .bare 404

/-- Refuses bodies that are too long by their own account. -/
def limited (b : Backend σ) (now : Int) (req : Request) (route : Option Route) :
    Serving σ Response :=
  if bodyLimit < req.statedLength.getD 0 then return .plain 413 "length limit exceeded"
  else dispatch b now (.ofRequest req route)

/-- Refuses requests beyond the allowance of their route. -/
def throttled (b : Backend σ) (now : Int) (req : Request) (route : Option Route) :
    Serving σ Response := do
  let s ← get
  let (allowed, limiter) := s.limiter.allowAt (bucketOf route) now
  set { s with limiter }
  if allowed then limited b now req route
  else return respond (Api.refused 429 "Rate limit exceeded")

/-- **The response to a request.** -/
def handle (b : Backend σ) (now : Int) (req : Request) : Serving σ Response := do
  let route := Route.ofPath? (pathOf req.uri)
  if req.method = "OPTIONS" then
    return sent req.method (withAllow route req.method preflight)
  else
    let r ← throttled b now req route
    return sent req.method (withAllow route req.method (shared (hardened r)))

end Service

end HopTorrent.Http
