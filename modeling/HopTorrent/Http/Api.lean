import HopTorrent.Limiter
import HopTorrent.Chain.Probe
import HopTorrent.Http.Body
import HopTorrent.Http.Message
import HopTorrent.Session.Manager
import HopTorrent.Storage.Database

/-!
# Http/Api — what a request does

A request acts in two atomic sections: one on the sessions, one on the database.  Sections of other
requests may come between.  `act` is the first section and says what is left to do; `finish` is the
second.

Every snapshot a client is shown is also kept in the database.  Error bodies are generic; causes go
to the log.
-/

namespace HopTorrent.Http

/-- What a request asks for. -/
inductive Endpoint where
  | add (magnet : String)
  | list
  | get (id : String)
  | delete (id : String)
  | pause (id : String)
  | resume (id : String)
  | getSettings
  | putSettings (u : SettingsUpdate)
  | health
  | cleanup

/-- What the service is built on. -/
structure Backend (σ : Type) where
  engine : Engine σ
  /-- How long an add waits for metadata, in milliseconds. -/
  metadataTimeout : Nat
  /-- The chain whose health is reported. -/
  prober : Chain.Setup

/-- The state of the service. -/
structure Service (σ : Type) where
  sessions : Sessions σ
  database : Storage.Database
  limiter : Limiter
  /-- How often the transport was dialed. -/
  dials : Nat

/-- An activity of the service. -/
abbrev Serving (σ : Type) := StateM (Service σ)

/-- An answer: a status and a body. -/
structure Reply where
  status : Nat
  body : Json

/-- What is left to do after the section on the sessions. -/
inductive Remainder where
  | answer (r : Reply)
  /-- Keep what is shown. -/
  | keep (views : List Snapshot) (r : Reply)
  /-- Take a removed transfer out of the database. -/
  | forget (id : InfoHash) (r : Reply)
  /-- Forget every transfer, so many sessions having been torn down. -/
  | clear (sessions : Nat)
  | readSettings
  | writeSettings (entries : List (String × String))

namespace Api

variable {σ : Type}

/-! ## Acting on the parts of the service -/

/-- Acts on the sessions. -/
def onSessions {α : Type} (m : Managed σ α) : Serving σ α :=
  modifyGet fun s =>
    let (a, sessions) := m.run s.sessions
    (a, { s with sessions })

/-- Acts on the database. -/
def onDatabase {α : Type} (m : Storage.Statement α) : Serving σ α :=
  modifyGet fun s =>
    let (a, database) := m.run s.database
    (a, { s with database })

/-- Writes a line to the log. -/
def log (l : Log.Line) : Serving σ Unit := onSessions (Session.log l)

/-! ## Answers -/

/-- A success. -/
def ok (body : Json) : Reply := ⟨200, body⟩

/-- A success that only says so. -/
def acknowledged (text : String) : Reply := ok (.object [("message", .text text)])

/-- A refusal. -/
def refused (status : Nat) (text : String) : Reply := ⟨status, .object [("error", .text text)]⟩

/-- There is no such transfer. -/
def notFound : Reply := refused 404 "Torrent not found"

/-- A body that cannot be read. -/
def badBody : Reply := refused 400 "Invalid request body"

/-- The answer to an error; `failure` is shown for those that are the server's own, and their cause
is logged. -/
def failed (failure : String) (e : Error) : Serving σ Reply := do
  match e with
  | .validation _ => return refused 400 "Invalid request"
  | .notFound _ => return notFound
  | _ =>
    log (Log.error failure [("error", e.message), ("detail", e.detail)])
    return refused 500 failure

/-- Goes on with a transfer named in a path.  A malformed name can never be live. -/
def withId (raw : String) (f : InfoHash → Serving σ Remainder) : Serving σ Remainder :=
  match InfoHash.parse raw with
  | .ok id => f id
  | .error _ => return .answer notFound

/-- What is left to do after an operation on a transfer. -/
def after {α : Type} (failure : String) (r : Except Error α) (next : α → Remainder) :
    Serving σ Remainder := do
  match r with
  | .ok a => return next a
  | .error e => return .answer (← failed failure e)

/-! ## The section on the sessions -/

/-- What the health check reports.  The service itself is healthy when it can answer. -/
def healthReply (working : Bool) : Reply :=
  ok (.object [("status", .text "healthy"),
    ("tor", .text (if working then "enabled" else "disabled"))])

/-- Checks the hops, and logs what the check logs. -/
def checkHealth (b : Backend σ) : Serving σ Remainder := do
  let s ← get
  let r := ({ b.prober with offset := s.dials }.probeHops).run 0
  modify fun s => { s with dials := s.dials + (DialCall.ofEvents r.events).length }
  for l in DialEvent.lines r.events do log l
  match r.result with
  | some (_, .ok _) => return .answer (healthReply true)
  | some (_, .error e) =>
    log (Log.warn "Proxy chain not working" [("error", e.message)])
    return .answer (healthReply false)
  | none => return .answer (healthReply false)

/-- **The section on the sessions.** -/
def act (b : Backend σ) (now : Int) : Endpoint → Serving σ Remainder
  | .add magnet => do
    if Text.isBlankText magnet then return .answer (refused 400 "Magnet URI is required")
    let (r, _) ← onSessions (Session.add b.engine b.metadataTimeout magnet now)
    after "Failed to add torrent" r fun id =>
      .answer (ok (.object [("infoHash", .text id.toHex)]))
  | .list => do
    let views ← onSessions (Session.list b.engine now)
    return .keep views (ok (.array (views.map Snapshot.toJson)))
  | .get raw => withId raw fun id => do
    let r ← onSessions (Session.get? b.engine id now)
    after "Failed to get torrent" r fun view => .keep [view] (ok view.toJson)
  | .delete raw => withId raw fun id => do
    let r ← onSessions (Session.remove b.engine id)
    after "Failed to remove torrent" r fun _ => .forget id (acknowledged "Torrent removed")
  | .pause raw => withId raw fun id => do
    let r ← onSessions (Session.pause b.engine id)
    after "Failed to pause torrent" r fun _ => .answer (acknowledged "Torrent paused")
  | .resume raw => withId raw fun id => do
    let r ← onSessions (Session.resume b.engine id)
    after "Failed to resume torrent" r fun _ => .answer (acknowledged "Torrent resumed")
  | .getSettings => return .readSettings
  | .putSettings u => return .writeSettings u.entries
  | .health => checkHealth b
  | .cleanup => do return .clear (← onSessions (Session.shutdown b.engine))

/-! ## The section on the database -/

/-- Keeps what is shown; a failure is only logged. -/
def keep : List Snapshot → Serving σ Unit
  | [] => return
  | view :: views => do
    match ← onDatabase (Storage.Database.save view) with
    | .ok _ => keep views
    | .error e =>
      log (Log.warn "Failed to mirror transfer"
        [Session.hashField view.infoHash, ("error", e.message)])
      keep views

/-- Stores values one after another, up to the first failure. -/
def writeAll : List (String × String) → Serving σ (Except Error Unit)
  | [] => return .ok ()
  | (key, value) :: rest => do
    match ← onDatabase (Storage.Database.setValue key value) with
    | .ok _ => writeAll rest
    | .error e => return .error e

/-- Preferences as an object, ordered by key. -/
def settingsJson (values : List (Setting × String)) : Json :=
  .object ((values.map fun (s, v) => (s.key, Json.text v)).mergeSort fun a b => a.1 ≤ b.1)

/-- **The section on the database.** -/
def finish : Remainder → Serving σ Reply
  | .answer r => return r
  | .keep views r => do
    keep views
    return r
  | .forget id r => do
    match ← onDatabase (Storage.Database.delete id.toHex) with
    | .ok _ => return r
    | .error e =>
      log (Log.error "Failed to delete mirrored torrent"
        [Session.hashField id, ("error", e.message)])
      return r
  | .clear sessions => do
    match ← onDatabase Storage.Database.clear with
    | .error e => failed "Failed to cleanup data" e
    | .ok rows =>
      log (Log.info "Cleanup complete"
        [("sessions", toString sessions), ("rows", toString rows)])
      return acknowledged "All data cleaned"
  | .readSettings => do
    match ← onDatabase Storage.Database.settings with
    | .error e => failed "Failed to load settings" e
    | .ok values => return ok (settingsJson values)
  | .writeSettings entries => do
    match ← writeAll entries with
    | .error e => failed "Failed to update settings" e
    | .ok _ => return acknowledged "Settings updated"

/-- **Does what a request asks for**, nothing else happening meanwhile. -/
def perform (b : Backend σ) (now : Int) (e : Endpoint) : Serving σ Reply := do
  finish (← act b now e)

end Api

end HopTorrent.Http
