import HopTorrent.Stream

/-!
# Stream/Relay — joining two connections

Whatever either peer sends is passed to the other, in order and without loss; a peer that closes its
side has the other side closed behind what it sent.  A fault in one direction ends both.
-/

namespace HopTorrent.Stream

/-- Two connections after bytes went from one to the other. -/
structure Poured where
  fault : Option Fault
  source : Stream
  sink : Stream
deriving DecidableEq, Repr

/-- Everything the peer sends before it pauses or ends, and the stream after that. -/
def drain (s : Stream) : Bytes × Stream :=
  ((s.feed.takeWhile (!·.isEmpty)).flatten, { s with feed := s.feed.dropWhile (!·.isEmpty) })

/-- What a stream that was drained has come to: closed, broken, or neither yet. -/
def closing (s : Stream) : Except Fault Bool :=
  if s.feed.isEmpty then
    match s.ending with
    | .eof => .ok true
    | .hang => .ok false
    | .reset => .error .reset
    | .afterShutdown => .ok s.shut
  else .ok true

/-- Passes on what one peer sends. -/
def pour (source sink : Stream) : Poured :=
  let (bytes, source) := source.drain
  match sink.send bytes with
  | (some f, sink) => ⟨some f, source, sink⟩
  | (none, sink) =>
    match source.closing with
    | .ok true => ⟨none, source, sink.shutDown⟩
    | .ok false => ⟨none, source, sink⟩
    | .error f => ⟨some f, source, sink⟩

/-- **Joins two connections** until both directions are closed, or one fails, or nothing comes any
more.  The second look at the first peer is for one that waits to be closed before it closes. -/
def relay (a b : Stream) : Poured :=
  let there := pour a b
  if there.fault.isSome then there
  else
    let back := pour there.sink there.source
    if back.fault.isSome then ⟨back.fault, back.sink, back.source⟩ else pour back.sink back.source

end HopTorrent.Stream
