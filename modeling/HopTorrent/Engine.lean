import HopTorrent.Error
import HopTorrent.InfoHash

/-!
# Engine — what the service asks of a torrent engine

Piece selection, peers, trackers and metadata all live behind these operations.  An engine has a
state of its own; every call may change it and may fail.  A torrent inside the engine is named by a
handle.
-/

namespace HopTorrent

/-- The name of a torrent inside the engine, numbered by creation. -/
abbrev Handle := Nat

/-- What the engine knows of a torrent at one moment. -/
structure Torrent where
  infoHash : InfoHash
  name : String
  /-- Content length in bytes. -/
  length : Nat
  /-- Verified bytes on disk. -/
  completed : Nat
  /-- Payload bytes read from peers. -/
  read : Nat
  /-- Payload bytes written to peers. -/
  written : Nat
  /-- Peers with an open connection. -/
  peers : Nat
deriving DecidableEq, Repr

/-- When the metadata of a torrent comes. -/
inductive Metadata where
  /-- Never: the engine cannot find it. -/
  | never
  /-- After some time, or an error in its place. -/
  | after (millis : Nat) (result : Except Error Unit)

/-- A torrent engine with states of type `σ`. -/
structure Engine (σ : Type) where
  /-- Starts to resolve a magnet.  A torrent the engine already manages may yield the handle it was
  first added with. -/
  addMagnet : String → σ → Except Error Handle × σ
  /-- What is known of a torrent; its identifier means something once the metadata is there. -/
  torrent : σ → Handle → Torrent
  /-- When the metadata of a torrent comes. -/
  metadata : σ → Handle → Metadata
  /-- Requests every piece. -/
  downloadAll : Handle → σ → Except Error Unit × σ
  /-- Cancels the requests for all pieces. -/
  cancelPieces : Handle → σ → Except Error Unit × σ
  /-- Discards everything the engine holds for a torrent. -/
  dropTorrent : Handle → σ → Except Error Unit × σ

/-- An operation of the engine on a torrent. -/
inductive Operation where
  | downloadAll
  | cancelPieces
  | dropTorrent
deriving DecidableEq, Repr

namespace Engine

/-- Performs an operation. -/
def perform {σ : Type} (eng : Engine σ) : Operation → Handle → σ → Except Error Unit × σ
  | .downloadAll => eng.downloadAll
  | .cancelPieces => eng.cancelPieces
  | .dropTorrent => eng.dropTorrent

end Engine

end HopTorrent
