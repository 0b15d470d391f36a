import HopTorrent.Chain.Dial

/-!
# Chain/Probe — whether the hops work

Two checks exist and they are not interchangeable.  `probeHops` asks each hop on its own to reach
the probe address.  `probeRoute` dials the probe address once through the whole chain.  Hops that
work alone may not accept connections from one another.
-/

namespace HopTorrent.Chain

/-- What the check of the hops found. -/
structure Health where
  hops : Nat
  healthy : Bool
  /-- The first hop that failed. -/
  failedHop : Option Nat
deriving DecidableEq, Repr

namespace Setup

/-- Closes a connection that has served its purpose, in its time. -/
def closing (s : Stream) : Dial Unit :=
  .wait s.pause fun _ => .note (.opened s.shutDown) (.done (.ok ()))

/-- One hop on its own, within the time of an attempt. -/
def probeHop (s : Setup) (index : Nat) (hop : String) : Dial Unit :=
  (((Dialer.hop hop none .base).dial s.transport (s.offset + index) "tcp"
    s.policy.probeAddress).andThen closing).timed s.policy.attemptTimeoutMillis

/-- The line for a hop that failed. -/
def hopUnreachable (index : Nat) (hop : String) (e : Error) : Log.Line :=
  Log.warn "Proxy hop unreachable"
    [("hop", toString index), ("proxy", Redacted.hop hop), ("error", e.message)]

/-- The hops from the `index`-th on, up to the first that fails. -/
def probeFrom (s : Setup) : (index : Nat) → List String → Dial Unit
  | _, [] => .done (.ok ())
  | index, hop :: rest => (s.probeHop index hop).bind fun
    | .ok _ => s.probeFrom (index + 1) rest
    | .error e =>
      Dial.log (hopUnreachable index hop e) (.done (.error (.proxyUnreachable index e.detail)))

/-- **Checks each hop on its own**, in the order of the chain. -/
def probeHops (s : Setup) : Dial Unit := s.probeFrom 0 s.chain.hops

/-- **Dials the probe address once through the whole chain.** -/
def probeRoute (s : Setup) : Dial Unit :=
  (s.dialWith "tcp" s.policy.probeAddress 1).andThen closing

/-- What a check of the hops says about the chain. -/
def healthOf (s : Setup) : Except Error Unit → Health
  | .ok _ => ⟨s.chain.length, true, none⟩
  | .error (.proxyUnreachable hop _) => ⟨s.chain.length, false, some hop⟩
  | .error _ => ⟨s.chain.length, false, none⟩

/-- **The state of the chain**, by its hops. -/
def health (s : Setup) : Timeline DialEvent Health := s.probeHops.map s.healthOf

/-- The line for a check of the whole route. -/
def routeChecked : Except Error Unit → Log.Line
  | .ok _ => Log.info "Composed proxy route verified" []
  | .error e => Log.warn "Composed proxy route check failed" [("error", e.message)]

/-- **Checks the whole route and logs the outcome.** -/
def checkRoute (s : Setup) : Timeline DialEvent Unit :=
  s.probeRoute.bind fun r => .note (.logged (routeChecked r)) (.done ())

end Setup

end HopTorrent.Chain
