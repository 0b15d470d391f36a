import HopTorrent.Chain.Dialer
import HopTorrent.Chain.Policy
import HopTorrent.Chain.Shuffle

/-!
# Chain/Dial — dialing through a freshly shuffled route, with retries

Each attempt draws an order of the hops, and credentials of its own if streams are isolated.  An
attempt that fails in a way that may pass is repeated after a pause that grows by the same amount
each time; any other failure, and the failure of the last attempt, ends the dial.
-/

namespace HopTorrent.Chain

/-- What is drawn at random: an order and credentials for each attempt. -/
structure Randomness where
  draws : Nat → Draws
  credentials : Nat → Socks.Credentials

/-- Everything a dial depends on besides its target. -/
structure Setup where
  chain : Chain
  policy : Policy
  transport : Transport
  random : Randomness
  /-- How often the transport was dialed before. -/
  offset : Nat

namespace Setup

/-- The route of the `i`-th attempt. -/
def route (s : Setup) (i : Nat) : List String := s.chain.permuted (s.random.draws i)

/-- The credentials of the `i`-th attempt. -/
def auth (s : Setup) (i : Nat) : Option Socks.Credentials :=
  if s.policy.isolateStreams then some (s.random.credentials i) else none

/-- The `i`-th attempt, counted from one, within its time. -/
def attempt (s : Setup) (network address : String) (i : Nat) : Dial Stream :=
  ((Dialer.compose (s.route i) (s.auth i)).dial s.transport (s.offset + (i - 1)) network
    address).timed s.policy.attemptTimeoutMillis

/-- The line for an attempt that succeeded. -/
def established (s : Setup) (i : Nat) : Log.Line :=
  Log.debug "Route established"
    [("attempt", toString i), ("hops", toString (s.route i).length)]

/-- The line for an attempt that failed. -/
def attemptFailed (i budget : Nat) (e : Error) : Log.Line :=
  Log.warn "Dial attempt failed"
    [("attempt", toString i), ("max_attempts", toString budget), ("error", e.message)]

/-- The attempts from the `i`-th on, of which `left` may follow it. -/
def attemptsFrom (s : Setup) (network address : String) (budget : Nat) :
    (left i : Nat) → Dial Stream
  | 0, i => (s.attempt network address i).bind fun
    | .ok stream => Dial.log (s.established i) (.done (.ok stream))
    | .error e =>
      if e.retryable then Dial.log (attemptFailed i budget e) (.done (.error (.dial budget e)))
      else .done (.error e)
  | left + 1, i => (s.attempt network address i).bind fun
    | .ok stream => Dial.log (s.established i) (.done (.ok stream))
    | .error e =>
      if e.retryable then
        Dial.log (attemptFailed i budget e) <|
          .wait (s.policy.backoffMillis * i) fun _ =>
            s.attemptsFrom network address budget left (i + 1)
      else .done (.error e)

/-- **Dials with an explicit number of attempts.** -/
def dialWith (s : Setup) (network address : String) (budget : Nat) : Dial Stream :=
  match budget with
  | 0 => .done (.error (.validation "max_attempts must be at least 1"))
  | left + 1 =>
    match checkNetwork network with
    | .error e => .done (.error e)
    | .ok _ => s.attemptsFrom network address (left + 1) left 1

/-- **Dials with the configured number of attempts.** -/
def dial (s : Setup) (network address : String) : Dial Stream :=
  s.dialWith network address s.policy.maxAttempts

/-- **Dials until cancelled**: from the time of the cancellation on nothing more is done.  A dial
that was cancelled before it began does nothing at all. -/
def dialUntil (s : Setup) (cancelAt : Option Nat) (network address : String) : Dial Stream :=
  match cancelAt with
  | none => s.dial network address
  | some 0 => .done (.error .cancelled)
  | some c => ((s.dial network address).within c).map fun r => r.getD (.error .cancelled)

end Setup

end HopTorrent.Chain
