import HopTorrent.Http.Routes

/-!
# Http/Headers — what every response carries

Responses may not be cached, framed or interpreted freely, and pages of any origin may read them.  A
preflight request is answered at once, before anything else looks at it, and so without the
hardening.
-/

namespace HopTorrent.Http

/-- Features no page may use. -/
def permissionsPolicy : String :=
  "geolocation=(), microphone=(), camera=(), payment=(), usb=(), magnetometer=(), gyroscope=()"

/-- What a page may load. -/
def contentSecurityPolicy : String :=
  "default-src 'none'; script-src 'self'; connect-src 'self'; img-src 'self' data:; "
    ++ "style-src 'self' 'unsafe-inline';"

/-- The nine hardening fields. -/
def hardening : Headers :=
  [("cache-control", "no-store, no-cache, must-revalidate, private, max-age=0"),
    ("pragma", "no-cache"), ("expires", "0"), ("x-content-type-options", "nosniff"),
    ("x-frame-options", "DENY"), ("x-xss-protection", "0"), ("referrer-policy", "no-referrer"),
    ("permissions-policy", permissionsPolicy),
    ("content-security-policy", contentSecurityPolicy)]

/-- The response hardened, and silent about what serves it. -/
def hardened (r : Response) : Response :=
  ((hardening.foldl (fun r h => r.withHeader h.1 h.2) r).withoutHeader "server").withoutHeader
    "x-powered-by"

/-- The fields that let pages of any origin read the response. -/
def sharing : Headers :=
  [("access-control-allow-origin", "*"),
    ("vary", "origin, access-control-request-method, access-control-request-headers")]

/-- The response readable by pages of any origin. -/
def shared (r : Response) : Response := sharing.foldl (fun r h => r.withHeader h.1 h.2) r

/-- The answer to a preflight request. -/
def preflight : Response :=
  shared ⟨200, [("access-control-allow-methods", "GET,POST,PUT,DELETE,OPTIONS"),
    ("access-control-allow-headers", "content-type,authorization"),
    ("access-control-max-age", "3600")], ""⟩

/-- The response with the methods a route answers, if it does not answer this one. -/
def withAllow (route : Option Route) (method : String) (r : Response) : Response :=
  match route with
  | some route =>
    if route.methods.contains method then r
    else r.withHeader "allow" (String.intercalate "," route.methods)
  | none => r

/-- The response as it is sent: its length stated, its body left out if only the head was asked
for. -/
def sent (method : String) (r : Response) : Response :=
  let r := r.withHeader "content-length" (toString r.body.utf8ByteSize)
  if method = "HEAD" then { r with body := "" } else r

end HopTorrent.Http
