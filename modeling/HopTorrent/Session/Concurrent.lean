import HopTorrent.Session.Manager

/-!
# Session/Concurrent — adds that wait side by side

An add holds nothing while it waits for metadata, so any number of adds may wait at once and end in
any order.  `Action` is one step of one operation, up to its next call of the engine; a list of
actions is an interleaving.  Whoever changes the store has it for itself until it is done: while
someone holds the lock, operations that need the store stand still, but adds may still begin, have
their waits ended, and discard their torrents.

`addAll` is the interleaving that a clock makes of adds started together: each ends when its own
wait does, equally due ones in the order they were started.
-/

namespace HopTorrent.Session

variable {σ : Type} (eng : Engine σ)

/-! ## Interleavings -/

/-- One step of one operation.  An add is named by its number among those that got a torrent. -/
inductive Action where
  /-- An add calls the engine. -/
  | begin (magnet : String)
  /-- The wait of an add for metadata ends. -/
  | resolve (i : Nat) (w : Waited)
  /-- An add whose wait is over gets hold of the store, or discards its torrent. -/
  | conclude (i : Nat) (now : Int)
  | get (id : InfoHash) (now : Int)
  | list (now : Int)
  | remove (id : InfoHash)
  | pause (id : InfoHash)
  | resume (id : InfoHash)
  /-- The session met first is torn down; once there is none, the shutdown is over. -/
  | shutdown (order : Order)

/-- How far an add got. -/
inductive Stage where
  /-- It waits for metadata. -/
  | waiting
  /-- Its wait is over; it waits for its turn. -/
  | waited (w : Waited)
  /-- The engine refused to start its torrent, which is still to be discarded. -/
  | failed (e : Error)
  | ended (result : Except Error InfoHash)

/-- An add that got a torrent from the engine. -/
structure Adding where
  pending : Pending
  stage : Stage

/-- Who has the store for itself for more than one step. -/
inductive Holder where
  | add (i : Nat)
  /-- The shutdown, which found so many sessions. -/
  | shutdown (count : Nat)
deriving DecidableEq

/-- The manager with operations under way. -/
structure Concurrent (σ : Type) where
  sessions : Sessions σ
  /-- The adds that got a torrent, in the order they were begun. -/
  adds : List Adding
  lock : Option Holder

namespace Concurrent

/-- No live transfers and no adds. -/
def initial (engine : σ) : Concurrent σ := ⟨.initial engine, [], none⟩

/-- Performs an activity of the manager. -/
def perform {α : Type} (c : Concurrent σ) (m : Managed σ α) : Concurrent σ :=
  { c with sessions := (m.run c.sessions).2 }

/-- Performs an activity that needs the store, unless someone else has it. -/
def exclusively {α : Type} (c : Concurrent σ) (m : Managed σ α) : Concurrent σ :=
  match c.lock with
  | none => c.perform m
  | some _ => c

/-- Takes an add to its next stage. -/
def advance (c : Concurrent σ) (i : Nat) (p : Pending) (stage : Stage) : Concurrent σ :=
  { c with adds := c.adds.set i ⟨p, stage⟩ }

/-- Takes an add one step further once its wait is over. -/
def conclude (c : Concurrent σ) (i : Nat) (now : Int) : Concurrent σ :=
  match c.adds[i]? with
  | some ⟨p, .waited .ready⟩ =>
    match c.lock with
    | none =>
      let (r, sessions) := (Session.enter eng p now).run c.sessions
      match r with
      | .ok id => { c with sessions }.advance i p (.ended (.ok id))
      | .error e => { c with sessions, lock := some (.add i) }.advance i p (.failed e)
    | some _ => c
  | some ⟨p, .waited w⟩ =>
    let (r, sessions) := (Session.conclude eng p w now).run c.sessions
    { c with sessions }.advance i p (.ended r)
  | some ⟨p, .failed e⟩ =>
    let (r, sessions) := (Session.abandon eng p e).run c.sessions
    { c with sessions, lock := none }.advance i p (.ended r)
  | _ => c

/-- Takes a shutdown that found so many sessions one step further. -/
def tearDown (c : Concurrent σ) (order : Order) (count : Nat) : Concurrent σ :=
  match order.met c.sessions.store with
  | entry :: _ => { c.perform (Session.tearDown eng entry) with lock := some (.shutdown count) }
  | [] => { c.perform (Session.cleared count) with lock := none }

/-- Performs one step.  An operation that is not where the step expects it, or that needs the store
while someone else has it, stays as it is. -/
def step (c : Concurrent σ) : Action → Concurrent σ
  | .begin magnet =>
    let (r, sessions) := (Session.begin eng magnet).run c.sessions
    match r with
    | .ok p => { c with sessions, adds := c.adds ++ [⟨p, .waiting⟩] }
    | .error _ => { c with sessions }
  | .resolve i w =>
    match c.adds[i]? with
    | some ⟨p, .waiting⟩ => (c.perform (Session.resolve p w)).advance i p (.waited w)
    | _ => c
  | .conclude i now => c.conclude eng i now
  | .get id now => c.exclusively (Session.get? eng id now)
  | .list now => c.exclusively (Session.list eng now)
  | .remove id => c.exclusively (Session.remove eng id)
  | .pause id => c.exclusively (Session.pause eng id)
  | .resume id => c.exclusively (Session.resume eng id)
  | .shutdown order =>
    match c.lock with
    | none => c.tearDown eng order c.sessions.store.size
    | some (.shutdown count) => c.tearDown eng order count
    | some (.add _) => c

/-- Performs an interleaving. -/
def run (c : Concurrent σ) (actions : List Action) : Concurrent σ := actions.foldl (step eng) c

end Concurrent

/-! ## Adds started together -/

/-- How far an add got. -/
inductive Course where
  /-- It ended. -/
  | ended (result : Except Error InfoHash)
  /-- It waits until a time, and ends then as stated. -/
  | due (millis : Nat) (p : Pending) (w : Waited)

/-- Starts an add; one that need not wait ends at once. -/
def start (timeout : Nat) (now : Int) (magnet : String) : Managed σ Course := do
  match ← begin eng magnet with
  | .error e => return .ended (.error e)
  | .ok p =>
    match ← waiting eng timeout p with
    | (0, w) => return .ended (← settle eng p w now)
    | (ms, w) => return .due ms p w

/-- The adds that wait, by position. -/
def dueOf (adds : List Course) : List (Nat × Nat × Pending × Waited) :=
  adds.zipIdx.filterMap fun
    | (.due ms p w, i) => some (i, ms, p, w)
    | _ => none

/-- **Adds transfers that are started together**, in order: their results, and how long it took
until the last one ended. -/
def addAll (timeout : Nat) (magnets : List String) (now : Int) :
    Managed σ (List (Except Error InfoHash) × Nat) := do
  let started ← magnets.mapM (start eng timeout now)
  let queue := (dueOf started).mergeSort fun a b => a.2.1 ≤ b.2.1
  let late ← queue.mapM fun (i, _, p, w) => do return (i, ← settle eng p w now)
  let results := started.zipIdx.map fun
    | (.ended r, _) => r
    | (.due .., i) => (late.lookup i).getD (.error .metadataTimeout)
  return (results, (queue.map fun e => e.2.1).foldl max 0)

end HopTorrent.Session
