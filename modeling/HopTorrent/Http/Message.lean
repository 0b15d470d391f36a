import HopTorrent.Bytes
import HopTorrent.Text.Natural

/-!
# Http/Message — requests and responses
-/

namespace HopTorrent.Http

/-- Named fields, in order. -/
abbrev Headers := List (String × String)

/-- A request, its body read to the end. -/
structure Request where
  method : String
  uri : String
  headers : Headers
  body : Bytes

/-- A response. -/
structure Response where
  status : Nat
  headers : Headers
  body : String
deriving DecidableEq, Repr

/-- The first value of a field, whatever the case of its name. -/
def Request.header? (r : Request) (name : String) : Option String :=
  (r.headers.find? fun h => h.1.toLower = name).map Prod.snd

/-- The length a request states, if it states a number. -/
def Request.statedLength (r : Request) : Option Nat :=
  (r.header? "content-length").bind fun v => Text.natural? Text.max64 v.toList

/-- The response with a field set. -/
def Response.withHeader (r : Response) (name value : String) : Response :=
  { r with headers := r.headers.filter (fun h => h.1 ≠ name) ++ [(name, value)] }

/-- The response without a field. -/
def Response.withoutHeader (r : Response) (name : String) : Response :=
  { r with headers := r.headers.filter fun h => h.1 ≠ name }

/-- The value of a field. -/
def Response.header? (r : Response) (name : String) : Option String := r.headers.lookup name

/-- A response without a body. -/
def Response.bare (status : Nat) : Response := ⟨status, [], ""⟩

/-- A response in plain text. -/
def Response.plain (status : Nat) (text : String) : Response :=
  ⟨status, [("content-type", "text/plain; charset=utf-8")], text⟩

/-- A response with JSON text. -/
def Response.json (status : Nat) (text : String) : Response :=
  ⟨status, [("content-type", "application/json")], text⟩

end HopTorrent.Http
