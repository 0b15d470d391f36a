import HopTorrent.Error
import HopTorrent.Stream

/-!
# Exchange — what to send and what to wait for

An exchange is one side of a dialogue over a byte stream, as data: it ends with a result or an
error, or sends bytes and goes on, or waits for a number of bytes and goes on with them.  Running it
over a stream gives its outcome and the stream it leaves behind.
-/

namespace HopTorrent

/-- One side of a dialogue over a byte stream. -/
inductive Exchange (α : Type) where
  | done (a : α)
  | fail (e : Error)
  | send (bytes : Bytes) (onFault : Stream.Fault → Error) (next : Exchange α)
  | recv (n : Nat) (onFault : Stream.Fault → Error) (next : Vector UInt8 n → Exchange α)

namespace Exchange

/-! ## Waiting for a few bytes -/

/-- Waits for one byte. -/
def recvOne {α : Type} (onFault : Stream.Fault → Error) (next : UInt8 → Exchange α) :
    Exchange α :=
  .recv 1 onFault fun r => next r[0]

/-- Waits for two bytes. -/
def recvTwo {α : Type} (onFault : Stream.Fault → Error) (next : UInt8 → UInt8 → Exchange α) :
    Exchange α :=
  .recv 2 onFault fun r => next r[0] r[1]

/-- Waits for four bytes. -/
def recvFour {α : Type} (onFault : Stream.Fault → Error)
    (next : UInt8 → UInt8 → UInt8 → UInt8 → Exchange α) : Exchange α :=
  .recv 4 onFault fun r => next r[0] r[1] r[2] r[3]

/-! ## Running an exchange -/

/-- How an exchange came out. -/
inductive Outcome (α : Type) where
  | done (a : α)
  | failed (e : Error)
  /-- It waits for bytes that never come. -/
  | pending
deriving DecidableEq, Repr

/-- One exchange after another. -/
def bind {α β : Type} (x : Exchange α) (f : α → Exchange β) : Exchange β :=
  match x with
  | done a => f a
  | fail e => .fail e
  | send bs onFault next => .send bs onFault (next.bind f)
  | recv n onFault next => .recv n onFault fun r => (next r).bind f

/-- **Runs an exchange over a stream.** -/
def run {α : Type} : Exchange α → Stream → Outcome α × Stream
  | done a, s => (.done a, s)
  | fail e, s => (.failed e, s)
  | send bs onFault next, s =>
    match s.send bs with
    | (none, s) => next.run s
    | (some f, s) => (.failed (onFault f), s)
  | recv n onFault next, s =>
    match s.receive n with
    | (.got r, s) => (next r).run s
    | (.fault f, s) => (.failed (onFault f), s)
    | (.pending, s) => (.pending, s)

/-! ## Running one exchange after another -/

/-- **The second exchange runs over the stream the first one leaves**, if that came to a result. -/
theorem run_bind {α β : Type} (x : Exchange α) (f : α → Exchange β) (s : Stream) :
    (x.bind f).run s
      = match x.run s with
        | (.done a, s) => (f a).run s
        | (.failed e, s) => (.failed e, s)
        | (.pending, s) => (.pending, s) := by
  induction x generalizing s with
  | done a => rfl
  | fail e => rfl
  | send bs onFault next ih =>
    simp only [bind, run]
    split
    · exact ih _
    · rfl
  | recv n onFault next ih =>
    simp only [bind, run]
    split
    · exact ih _ _
    · rfl
    · rfl

end Exchange

end HopTorrent
