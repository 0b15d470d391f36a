import HopTorrent.Session
import HopTorrent.Text.Blank

/-!
# Session/Manager — the life of a transfer

An add has three parts.  `begin` gives the magnet to the engine; then the add waits for metadata
while anything else may happen; once the wait is over (`resolve`) the add concludes.  Only an add
whose metadata came in time enters its critical section (`commit`), and only there the store
changes.  Every other operation is a critical section of its own.  Where a critical section calls
the engine more than once, each of its steps has a definition (`enter` and `abandon`, `tearDown`).

An error leaves the store as it was.
-/

namespace HopTorrent.Session

variable {σ : Type} (eng : Engine σ)

/-! ## Talking to the engine and the log -/

/-- Records an event. -/
def record (e : SessionEvent) : Managed σ Unit :=
  modify fun s => { s with events := s.events ++ [e] }

/-- Writes a line to the log. -/
def log (l : Log.Line) : Managed σ Unit := record (.logged l)

/-- Performs an operation on a torrent. -/
def perform (op : Operation) (h : Handle) : Managed σ (Except Error Unit) := do
  let s ← get
  let (result, engine) := eng.perform op h s.engine
  set { s with engine }
  record (.performed op h result)
  return result

/-- The field that names a transfer in the log. -/
def hashField (id : InfoHash) : String × String := ("info_hash", id.redacted)

/-- Discards a torrent that never got into the store. -/
def release (h : Handle) (reason : String) : Managed σ Unit := do
  match ← perform eng .dropTorrent h with
  | .ok _ => return
  | .error e =>
    log (Log.warn "Failed to drop unstored torrent"
      [("error", e.message), ("reason", Text.quoted reason)])

/-- No live transfer has this identifier. -/
def notFound (id : InfoHash) : Error := .notFound ("no transfer " ++ id.redacted)

/-! ## Adding -/

/-- An add that waits for metadata. -/
structure Pending where
  handle : Handle
  /-- The trimmed magnet. -/
  magnet : String
deriving DecidableEq, Repr

/-- How the wait for metadata ended. -/
inductive Waited where
  | ready
  | failed (e : Error)
  | timedOut

/-- How long an add waits, and how that ends.  Metadata that comes at the last moment counts. -/
def waitAtMost (timeout : Nat) : Metadata → Nat × Waited
  | .never => (timeout, .timedOut)
  | .after ms result =>
    if ms ≤ timeout then
      match result with
      | .ok _ => (ms, .ready)
      | .error e => (ms, .failed e)
    else (timeout, .timedOut)

/-- Gives a magnet to the engine.  A blank one is refused. -/
def begin (magnet : String) : Managed σ (Except Error Pending) := do
  let trimmed := Text.trim magnet
  if trimmed.isEmpty then return .error (.validation "magnet URI is required")
  let s ← get
  let (result, engine) := eng.addMagnet trimmed s.engine
  set { s with engine }
  record (.added trimmed result)
  return result.map fun h => ⟨h, trimmed⟩

/-- **Where an add changes the store.**  A transfer that is already live keeps running; any other is
started and stored, unless the engine refuses to start it. -/
def enter (p : Pending) (now : Int) : Managed σ (Except Error InfoHash) := do
  let s ← get
  let id := (eng.torrent s.engine p.handle).infoHash
  match s.store.get? id with
  | some live =>
    if live.handle ≠ p.handle then release eng p.handle "duplicate add"
    log (Log.debug "Transfer already managed" [hashField id])
    return .ok id
  | none =>
    match ← perform eng .downloadAll p.handle with
    | .error e => return .error e
    | .ok _ =>
      modify fun s => { s with store := s.store.put id (fresh p.handle p.magnet now) }
      log (Log.info "Transfer added" [hashField id])
      return .ok id

/-- Ends an add whose torrent the engine refused to start. -/
def abandon (p : Pending) (e : Error) : Managed σ (Except Error InfoHash) := do
  release eng p.handle "start failure"
  return .error e

/-- **The critical section of an add.** -/
def commit (p : Pending) (now : Int) : Managed σ (Except Error InfoHash) := do
  match ← enter eng p now with
  | .ok id => return .ok id
  | .error e => abandon eng p e

/-- Notes how a wait for metadata ended by itself; one that was cut off leaves no trace. -/
def resolve (p : Pending) (w : Waited) : Managed σ Unit := do
  match w with
  | .ready => record (.resolved p.handle (.ok ()))
  | .failed e => record (.resolved p.handle (.error e))
  | .timedOut => return

/-- What an add does once its wait is over: it enters its critical section, or discards its
torrent. -/
def conclude (p : Pending) (w : Waited) (now : Int) : Managed σ (Except Error InfoHash) := do
  match w with
  | .ready => commit eng p now
  | .failed e =>
    release eng p.handle "metadata failure"
    return .error e
  | .timedOut =>
    release eng p.handle "metadata timeout"
    log (Log.info "Metadata timeout" [("magnet", Redacted.magnet p.magnet)])
    return .error .metadataTimeout

/-- Ends an add, however its wait for metadata ended. -/
def settle (p : Pending) (w : Waited) (now : Int) : Managed σ (Except Error InfoHash) := do
  resolve p w
  conclude eng p w now

/-- How long a pending add waits, and how that ends. -/
def waiting (timeout : Nat) (p : Pending) : Managed σ (Nat × Waited) := do
  return waitAtMost timeout (eng.metadata (← get).engine p.handle)

/-- **Adds a transfer**, nothing else happening meanwhile: the result, and how long it took. -/
def add (timeout : Nat) (magnet : String) (now : Int) :
    Managed σ (Except Error InfoHash × Nat) := do
  match ← begin eng magnet with
  | .error e => return (.error e, 0)
  | .ok p =>
    let (ms, w) ← waiting eng timeout p
    return (← settle eng p w now, ms)

/-! ## Looking -/

/-- Samples one session and shows it. -/
def look (id : InfoHash) (session : Session) (now : Int) : Managed σ Snapshot := do
  let s ← get
  let t := eng.torrent s.engine session.handle
  let session := session.sampled t now
  set { s with store := s.store.put id session }
  return session.view t id

/-- **Shows one transfer.** -/
def get? (id : InfoHash) (now : Int) : Managed σ (Except Error Snapshot) := do
  match (← get).store.get? id with
  | some session => return .ok (← look eng id session now)
  | none => return .error (notFound id)

/-- Whether a snapshot is listed before another: the newer one, and of two equally old ones the one
with the smaller identifier. -/
def listedBefore (a b : Snapshot) : Bool :=
  a.createdAt > b.createdAt
    || (a.createdAt = b.createdAt && (compare a.infoHash b.infoHash).isLE)

/-- **Shows all transfers**, newest first. -/
def list (now : Int) : Managed σ (List Snapshot) := do
  let s ← get
  let sampled := s.store.mapValues fun _ session =>
    session.sampled (eng.torrent s.engine session.handle) now
  set { s with store := sampled }
  let views := sampled.entries.map fun (id, session) =>
    session.view (eng.torrent s.engine session.handle) id
  return views.mergeSort listedBefore

/-! ## Changing -/

/-- **Removes a transfer.**  If the engine refuses, the session is kept. -/
def remove (id : InfoHash) : Managed σ (Except Error Unit) := do
  match (← get).store.get? id with
  | none => return .error (notFound id)
  | some session =>
    match ← perform eng .dropTorrent session.handle with
    | .error e => return .error e
    | .ok _ =>
      modify fun s => { s with store := s.store.erase id }
      log (Log.info "Transfer removed" [hashField id])
      return .ok ()

/-- Sets the pause flag of a transfer once the engine has done its part. -/
def switch (op : Operation) (paused : Bool) (message : String) (id : InfoHash) :
    Managed σ (Except Error Unit) := do
  match (← get).store.get? id with
  | none => return .error (notFound id)
  | some session =>
    match ← perform eng op session.handle with
    | .error e => return .error e
    | .ok _ =>
      modify fun s => { s with store := s.store.put id { session with paused } }
      log (Log.debug message [hashField id])
      return .ok ()

/-- **Pauses a transfer**: its piece requests are cancelled, the session stays. -/
def pause (id : InfoHash) : Managed σ (Except Error Unit) :=
  switch eng .cancelPieces true "Transfer paused" id

/-- **Resumes a transfer**: every piece is requested again. -/
def resume (id : InfoHash) : Managed σ (Except Error Unit) :=
  switch eng .downloadAll false "Transfer resumed" id

/-- The line on a torrent that the engine refuses to discard while the service goes down. -/
def undropped (id : InfoHash) (e : Error) : Log.Line :=
  Log.error "Failed to drop torrent during shutdown" [hashField id, ("error", e.message)]

/-- The line at the end of a shutdown. -/
def allCleared (count : Nat) : Log.Line :=
  Log.info "All transfers cleared" [("sessions", toString count)]

/-- Takes a session out of the store and discards its torrent while the service goes down. -/
def tearDown (entry : InfoHash × Session) : Managed σ Unit := do
  modify fun s => { s with store := s.store.erase entry.1 }
  match ← perform eng .dropTorrent entry.2.handle with
  | .ok _ => return
  | .error e => log (undropped entry.1 e)

/-- Notes that every session was torn down. -/
def cleared (count : Nat) : Managed σ Unit := log (allCleared count)

/-- **Tears every session down**, in some order and whatever the engine refuses: how many there
were. -/
def shutdown (order : Order := .asPut) : Managed σ Nat := do
  let store := (← get).store
  (order.met store).forM (tearDown eng)
  cleared store.size
  return store.size

end HopTorrent.Session
