import HopTorrent.Engine
import HopTorrent.Text.Cut

/-!
# Engine/Scripted — an engine that answers as it was told

Each add takes the next reply from a queue.  A reply fails the add, or describes a torrent: its
counters, when its metadata comes, and which operations fail on it.  The identifier is the one
stated or the one at the end of the magnet.
-/

namespace HopTorrent

/-- How one torrent behaves. -/
structure Script where
  name : String
  length : Nat
  completed : Nat
  read : Nat
  written : Nat
  peers : Nat
  metadata : Metadata
  downloadError : Option Error
  cancelError : Option Error
  dropError : Option Error

/-- The answer to an add. -/
inductive Reply where
  | fail (e : Error)
  /-- A torrent, with the identifier stated if there is one; a torrent the engine has under that
  identifier may be given again. -/
  | give (hash : Option String) (reuse : Bool) (script : Script)

/-- The state of a scripted engine. -/
structure Scripted where
  /-- The answers to come. -/
  queue : List Reply
  /-- The torrents made so far. -/
  torrents : List (InfoHash × Script)

namespace Scripted

/-- No answers and no torrents. -/
def empty : Scripted := ⟨[], []⟩

/-- The text after the last colon of a magnet, or all of it. -/
def magnetHash (magnet : String) : String :=
  match Text.cutLast ':' magnet.toList with
  | some (_, hash) => String.ofList hash
  | none => magnet

/-- The first torrent with an identifier. -/
def firstOf (s : Scripted) (id : InfoHash) : Option Handle :=
  s.torrents.findIdx? fun t => t.1 = id

/-- The newest torrent with an identifier. -/
def newestOf (s : Scripted) (id : InfoHash) : Option Handle :=
  (s.torrents.reverse.findIdx? fun t => t.1 = id).map fun i => s.torrents.length - 1 - i

/-- Gives a torrent, a new one unless an old one may serve again. -/
def give (s : Scripted) (id : InfoHash) (reuse : Bool) (script : Script) :
    Except Error Handle × Scripted :=
  match if reuse then s.firstOf id else none with
  | some h => (.ok h, s)
  | none => (.ok s.torrents.length, { s with torrents := s.torrents ++ [(id, script)] })

/-- Answers an add with the next reply. -/
def addMagnet (magnet : String) (s : Scripted) : Except Error Handle × Scripted :=
  match s.queue with
  | [] => (.error (.engine "no reply"), s)
  | .fail e :: queue => (.error e, { s with queue })
  | .give hash reuse script :: queue =>
    match InfoHash.parse (hash.getD (magnetHash magnet)) with
    | .error e => (.error e, { s with queue })
    | .ok id => give { s with queue } id reuse script

/-- The script of a torrent; one that does not exist has no content. -/
def script (s : Scripted) (h : Handle) : InfoHash × Script :=
  s.torrents[h]?.getD
    (⟨Vector.replicate 20 0⟩, ⟨"", 0, 0, 0, 0, 0, .never, none, none, none⟩)

/-- Changes the script of a torrent. -/
def modify (s : Scripted) (h : Handle) (f : Script → Script) : Scripted :=
  { s with torrents := s.torrents.modify h fun (id, t) => (id, f t) }

/-- What an operation comes to. -/
def outcome (failure : Option Error) : Except Error Unit :=
  match failure with
  | some e => .error e
  | none => .ok ()

/-- The engine. -/
def engine : Engine Scripted where
  addMagnet := addMagnet
  torrent s h :=
    let (id, t) := s.script h
    ⟨id, t.name, t.length, t.completed, t.read, t.written, t.peers⟩
  metadata s h := (s.script h).2.metadata
  downloadAll h s := (outcome (s.script h).2.downloadError, s)
  cancelPieces h s := (outcome (s.script h).2.cancelError, s)
  dropTorrent h s := (outcome (s.script h).2.dropError, s)

end Scripted

end HopTorrent
