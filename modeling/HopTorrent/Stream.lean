import HopTorrent.Bytes

/-!
# Stream — one end of a connection

What a peer sends arrives in pieces, one read giving at most one piece; what is written is recorded.
A read that wants `n` bytes takes as many pieces as it needs, so the division into pieces decides
nothing: an empty piece alone counts as the end of what was sent.  How long reads, writes and
closing take is part of the stream; only who bounds the time of a dialogue looks at it.
-/

namespace HopTorrent

/-- Why a read or a write failed. -/
inductive Stream.Fault where
  /-- The peer closed its side before all bytes came. -/
  | earlyEof
  /-- The peer broke the connection off. -/
  | reset
  /-- The peer takes no more bytes. -/
  | brokenPipe
  /-- The peer took none of the bytes. -/
  | writeZero
deriving DecidableEq, Repr

/-- The text of a fault. -/
def Stream.Fault.message : Stream.Fault → String
  | earlyEof => "early eof"
  | reset => "connection reset"
  | brokenPipe => "broken pipe"
  | writeZero => "write zero"

/-- What follows the last piece. -/
inductive Stream.Ending where
  /-- The peer closes its side. -/
  | eof
  /-- Nothing, for ever. -/
  | hang
  /-- The peer breaks the connection off. -/
  | reset
  /-- Nothing until this side is closed; then the peer closes its own. -/
  | afterShutdown
deriving DecidableEq, Repr

/-- One end of a connection. -/
structure Stream where
  /-- The pieces still to be read. -/
  feed : List Bytes
  ending : Stream.Ending
  /-- How many more bytes the peer takes; no number means any. -/
  budget : Option Nat
  /-- Whether a peer that takes no more bytes accepts none of them instead of failing. -/
  stalls : Bool
  /-- What was written so far. -/
  wrote : Bytes
  /-- Whether this side was closed. -/
  shut : Bool
  /-- How long each coming read or write takes, and closing after these, in milliseconds; what is
  beyond the list takes no time. -/
  pauses : List Nat := []
deriving DecidableEq, Repr

namespace Stream

/-- What was not read, in one piece. -/
def unread (s : Stream) : Bytes := s.feed.flatten

/-- How long the next read or write takes, or closing if that comes next. -/
def pause (s : Stream) : Nat := s.pauses.headD 0

/-- A feed cut into pieces of `size` bytes; `fuel` bounds their number. -/
def piecesOf (size : Nat) : Nat → Bytes → List Bytes
  | 0, bs => if bs.isEmpty then [] else [bs]
  | fuel + 1, bs => if bs.isEmpty then [] else bs.take size :: piecesOf size fuel (bs.drop size)

/-- A feed as reads of at most `chunk` bytes give it.  Reads of no bytes give nothing at all. -/
def piecesIn (chunk : Option Nat) (bs : Bytes) : List Bytes :=
  match chunk with
  | none => if bs.isEmpty then [] else [bs]
  | some 0 => if bs.isEmpty then [] else [[], bs]
  | some n => piecesOf n bs.length bs

/-- Reads up to `want` bytes, piece by piece: the bytes read and the pieces left. -/
def collect : List Bytes → Nat → Bytes × List Bytes
  | pieces, 0 => ([], pieces)
  | [], _ => ([], [])
  | piece :: pieces, want =>
    if piece.isEmpty then ([], piece :: pieces)
    else if want < piece.length then (piece.take want, piece.drop want :: pieces)
    else
      let (got, rest) := collect pieces (want - piece.length)
      (piece ++ got, rest)

/-- What a read of exactly `n` bytes comes to. -/
inductive Reception (n : Nat) where
  | got (bytes : Vector UInt8 n)
  | fault (f : Fault)
  | pending

/-- What a read comes to once the pieces are used up. -/
def atEnd (s : Stream) (n : Nat) : Reception n :=
  match s.ending with
  | .eof => .fault .earlyEof
  | .hang => .pending
  | .reset => .fault .reset
  | .afterShutdown => if s.shut then .fault .earlyEof else .pending

/-- **Reads exactly `n` bytes.**  A read that fails uses up the bytes that came before. -/
def receive (s : Stream) (n : Nat) : Reception n × Stream :=
  let got := (collect s.feed n).1
  let rest := (collect s.feed n).2
  let after := { s with feed := rest, pauses := s.pauses.tail }
  if h : got.length = n then (.got ⟨got.toArray, by simp [h]⟩, after)
  else if rest.isEmpty then (s.atEnd n, after)
  else (.fault .earlyEof, after)

/-- **Writes all bytes.**  A write that fails has written as much as the peer took. -/
def send (s : Stream) (bs : Bytes) : Option Fault × Stream :=
  let pauses := s.pauses.tail
  match s.budget with
  | none => (none, { s with wrote := s.wrote ++ bs, pauses })
  | some k =>
    if bs.length ≤ k then
      (none, { s with wrote := s.wrote ++ bs, budget := some (k - bs.length), pauses })
    else
      (some (if s.stalls then .writeZero else .brokenPipe),
        { s with wrote := s.wrote ++ bs.take k, budget := some 0, pauses })

/-- Closes this side. -/
def shutDown (s : Stream) : Stream := { s with shut := true }

end Stream

end HopTorrent
