import HopTorrent.Configuration.Load
import HopTorrent.Engine.Options
import HopTorrent.Http.Service
import HopTorrent.Network
import HopTorrent.Storage.Tree

/-!
# Server — from the start to the shutdown

Starting loads the settings, makes the data directory, opens the database and forgets the transfers
of an earlier run, and only then listens.  The first step that fails ends the start with its reason.
A shutdown tears down every session and forgets every transfer again, so none outlives the server.
-/

namespace HopTorrent

/-- What the server is given from outside. -/
structure Surroundings extends Configuration.Variables where
  network : Network
  random : Chain.Randomness

/-- What starting and stopping leave behind. -/
structure Host where
  tree : Storage.Tree
  lines : List Log.Line

/-- A step that may fail with a reason. -/
abbrev Hosted := ExceptT String (StateM Host)

/-- A running server. -/
structure Server where
  configuration : Configuration
  backend : Http.Backend Unit
  service : Http.Service Unit

namespace Server

/-- Writes a line to the log. -/
def log (l : Log.Line) : Hosted Unit := modify fun h => { h with lines := h.lines ++ [l] }

/-- Goes on with a result, or fails with a reason. -/
def orFail {ε α : Type} (reason : ε → String) : Except ε α → Hosted α
  | .ok a => return a
  | .error e => throw (reason e)

/-! ## Starting -/

/-- Makes the data directory. -/
def makeDataDir (path : String) : Hosted Unit := do
  let tree ← orFail (fun o => "Failed to create data directory: " ++ o.message)
    ((← get).tree.makeDirectories path)
  modify fun h => { h with tree }

/-- Opens the database. -/
def openDatabase (l : Storage.Location) : Hosted Storage.Database := do
  let (database, tree) ← orFail (fun e => "Failed to open database: " ++ e.message)
    ((← get).tree.openDatabase l)
  modify fun h => { h with tree }
  return database

/-- Writes the database to its place. -/
def saveDatabase (l : Storage.Location) (database : Storage.Database) : Hosted Unit :=
  modify fun h => { h with tree := h.tree.saveDatabase l database }

/-- The line about the transfers of an earlier run. -/
def clearedLine : Except Error Nat → Log.Line
  | .ok rows =>
    Log.info "Cleared mirrored transfers from previous run" [("rows", toString rows)]
  | .error e => Log.error "Failed to clear mirrored transfers" [("error", e.message)]

/-- What the server is built on. -/
def backendOf (c : Configuration) (s : Surroundings) : Http.Backend Unit where
  engine := Engine.unlinked
  metadataTimeout := c.metadataTimeoutSecs * 1000
  prober := ⟨c.chain, c.dialing, s.network.transport, s.random, 0⟩

/-- Warns when others than the host itself may connect. -/
def warnIfOpen (bind : String) : Hosted Unit := do
  if bind.startsWith "0.0.0.0" then
    log (Log.warn
      "Server accessible from network - bind to 127.0.0.1 for localhost only" [])

/-- **Starts the server.** -/
def start (s : Surroundings) (o : CommandLine.Options) : Hosted Server := do
  log (Log.info ("Starting B-2 Torrent server v" ++ CommandLine.version) [])
  let c ← orFail Error.message (Configuration.load s.toVariables o)
  makeDataDir c.dataDir
  let database ← openDatabase c.database
  let (cleared, database) := Storage.Database.clear.run database
  saveDatabase c.database database
  log (clearedLine cleared)
  log (Log.info "Proxy chain configured" [("hops", toString c.chain.length)])
  log Engine.unlinkedNotice
  orFail id (s.network.listenOn c.bind)
  log (Log.info ("Server running on http://" ++ c.bind) [])
  warnIfOpen c.bind
  return ⟨c, backendOf c s, ⟨.initial (), database, .ofPolicy c.limits, 0⟩⟩

/-! ## Running -/

/-- Answers a request. -/
def answer (s : Server) (now : Int) (r : Http.Request) : Http.Response × Server :=
  let (response, service) := (Http.Service.handle s.backend now r).run s.service
  (response, { s with service })

/-! ## Stopping -/

/-- Forgets every transfer. -/
def forget : Http.Serving Unit Nat := do
  let sessions ← Http.Api.onSessions (Session.shutdown Engine.unlinked)
  match ← Http.Api.onDatabase Storage.Database.clear with
  | .ok _ => return sessions
  | .error e =>
    Http.Api.log (Log.error "Failed to clear mirrored transfers on shutdown"
      [("error", e.message)])
    return sessions

/-- **Stops the server.** -/
def stop (s : Server) : Hosted Unit := do
  log (Log.info "Shutdown signal received" [])
  let (sessions, service) := forget.run s.service
  (s.service.sessions.linesSince service.sessions).forM log
  log (Log.info "Shutdown complete" [("sessions", toString sessions)])
  saveDatabase s.configuration.database service.database

end Server

end HopTorrent
