/-!
# Chain/Policy — how persistently a chain is dialed
-/

namespace HopTorrent.Chain

/-- How persistently a chain is dialed, and what a hop must reach to pass for working. -/
structure Policy where
  /-- Attempts a dial makes. -/
  maxAttempts : Nat
  /-- After the `n`-th failed attempt the dialer pauses `n` times this long. -/
  backoffMillis : Nat
  /-- How long a single attempt may take. -/
  attemptTimeoutMillis : Nat
  /-- The address every hop must reach in a health check. -/
  probeAddress : String
  /-- Whether each attempt uses credentials of its own, and so a circuit of its own. -/
  isolateStreams : Bool
deriving DecidableEq, Repr

/-- The usual port of a SOCKS proxy. -/
def defaultPort : Nat := 9050

/-- Attempts a dial makes by default. -/
def defaultAttempts : Nat := 3

/-- Seconds of the pause after the first failed attempt. -/
def defaultBackoffSecs : Nat := 1

/-- Seconds an attempt may take by default. -/
def defaultAttemptTimeoutSecs : Nat := 60

/-- The address a hop must reach by default. -/
def defaultProbeAddress : String := "1.1.1.1:80"

/-- Three attempts of a minute each, with credentials of their own. -/
def Policy.standard : Policy :=
  ⟨defaultAttempts, defaultBackoffSecs * 1000, defaultAttemptTimeoutSecs * 1000,
    defaultProbeAddress, true⟩

end HopTorrent.Chain
