import HopTorrent.Engine
import HopTorrent.Log
import HopTorrent.Table
import HopTorrent.Transfer.Progress
import HopTorrent.Transfer.Rates
import HopTorrent.Transfer.Snapshot

/-!
# Session — the live transfers

A session ties an identifier to a torrent inside the engine.  The store holds the sessions; looking
at one takes a snapshot of the engine's counters and samples its rates.  Whatever is asked of the
engine and whatever is logged is recorded in order.
-/

namespace HopTorrent

/-- One live transfer. -/
structure Session where
  handle : Handle
  /-- The trimmed descriptor it was added with. -/
  magnet : String
  /-- Nanoseconds since the start of 1970. -/
  createdAt : Int
  paused : Bool
  sample : Rates.Sample
deriving DecidableEq, Repr

namespace Session

/-- A new session, not paused and never looked at. -/
def fresh (handle : Handle) (magnet : String) (now : Int) : Session :=
  ⟨handle, magnet, now, false, .initial⟩

/-- The session after its counters were looked at. -/
def sampled (s : Session) (t : Torrent) (now : Int) : Session :=
  { s with sample := s.sample.update t.read t.written now }

/-- What is seen of a session whose counters were just sampled. -/
def view (s : Session) (t : Torrent) (id : InfoHash) : Snapshot where
  infoHash := id
  name := t.name
  totalSize := t.length
  downloaded := t.completed
  uploaded := t.written
  downloadRate := s.sample.rates.download
  uploadRate := s.sample.rates.upload
  progress := Progress.percent t.completed t.length
  status := .infer t.completed t.length s.paused s.sample.rates.upload
  peers := t.peers
  createdAt := s.createdAt
  magnet := s.magnet

end Session

/-- The live transfers by identifier. -/
abbrev Store := Table InfoHash Session

/-- An order in which live transfers are met by whoever goes through all of them.  Only their
identifiers lead to them, so it may be any. -/
structure Session.Order where
  met : Store → List (InfoHash × Session)
  perm : ∀ store, (met store).Perm store.entries

/-- The order in which they came into the store. -/
def Session.Order.asPut : Order := ⟨Table.entries, fun _ => .refl _⟩

/-- Something the manager did that can be seen from outside. -/
inductive SessionEvent where
  /-- A magnet was given to the engine. -/
  | added (magnet : String) (result : Except Error Handle)
  /-- The wait for metadata ended by itself. -/
  | resolved (h : Handle) (result : Except Error Unit)
  /-- An operation was performed on a torrent. -/
  | performed (op : Operation) (h : Handle) (result : Except Error Unit)
  | logged (l : Log.Line)

/-- The log lines that events tell of, in order. -/
def SessionEvent.lines (events : List SessionEvent) : List Log.Line :=
  events.filterMap fun
    | .logged l => some l
    | _ => none

/-- The engine, the live transfers, and what was done so far. -/
structure Sessions (σ : Type) where
  engine : σ
  store : Store
  events : List SessionEvent

/-- The log lines of one state that an earlier one lacks. -/
def Sessions.linesSince {σ : Type} (earlier later : Sessions σ) : List Log.Line :=
  SessionEvent.lines (later.events.drop earlier.events.length)

/-- An activity of the manager. -/
abbrev Managed (σ α : Type) := StateM (Sessions σ) α

namespace Sessions

/-- No live transfers. -/
def initial {σ : Type} (engine : σ) : Sessions σ := ⟨engine, .empty, []⟩

end Sessions

end HopTorrent
