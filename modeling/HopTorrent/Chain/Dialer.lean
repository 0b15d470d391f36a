import HopTorrent.Log
import HopTorrent.Socks.Client
import HopTorrent.Timeline

/-!
# Chain/Dialer — reaching an address through proxies

A dialer is the plain transport, or a proxy reached through another dialer and then asked to connect
onward.  Whatever the nesting, the transport is dialed once, at the innermost proxy, and all
handshakes run over that one connection.  There is no way around the proxies.
-/

namespace HopTorrent

/-- How the transport answers a dial. -/
inductive Answer where
  /-- Not at all. -/
  | never
  /-- After some time, with an error or a connection. -/
  | after (millis : Nat) (result : Except Error Stream)

/-- The transport below the first hop: its answer to the `n`-th dial, by network and address. -/
abbrev Transport := Nat → String → String → Answer

/-- What can be seen of a dial. -/
inductive DialEvent where
  /-- The transport was asked for a connection. -/
  | dialed (network address : String)
  /-- The transport gave none. -/
  | refused
  /-- The connection, as it is now. -/
  | opened (s : Stream)
  | logged (l : Log.Line)
deriving DecidableEq, Repr

/-- An activity that may fail. -/
abbrev Dial (α : Type) := Timeline DialEvent (Except Error α)

namespace Dial

/-- Goes on with the result of a success. -/
def andThen {α β : Type} (d : Dial α) (f : α → Dial β) : Dial β :=
  d.bind fun
    | .ok a => f a
    | .error e => .done (.error e)

/-- Writes a line to the log. -/
def log {α : Type} (l : Log.Line) (next : Dial α) : Dial α := .note (.logged l) next

/-- Runs an exchange over a connection, each read and write in its time; the connection after it is
the result. -/
def converse : Exchange Unit → Stream → Dial Stream
  | .done _, s => .done (.ok s)
  | .fail e, _ => .done (.error e)
  | .send bs onFault next, s => .wait s.pause fun _ =>
    match s.send bs with
    | (none, s) => .note (.opened s) (converse next s)
    | (some f, s) => .note (.opened s) (.done (.error (onFault f)))
  | .recv n onFault next, s => .wait s.pause fun _ =>
    match s.receive n with
    | (.got r, s) => .note (.opened s) (converse (next r) s)
    | (.fault f, s) => .note (.opened s) (.done (.error (onFault f)))
    | (.pending, s) => .note (.opened s) .never

/-- Bounds the time of an activity; running out of it is an error. -/
def timed {α : Type} (limit : Nat) (d : Dial α) : Dial α :=
  (d.within limit).map fun r => r.getD (.error .timeout)

end Dial

/-- Only connections that carry a byte stream can pass a proxy. -/
def checkNetwork (network : String) : Except Error Unit :=
  if network = "tcp" ∨ network = "tcp4" ∨ network = "tcp6" then .ok ()
  else .error (.validation ("unsupported network: " ++ network))

/-- A way to reach an address. -/
inductive Dialer where
  /-- The plain transport. -/
  | base
  /-- A proxy, reached through another dialer. -/
  | hop (proxy : String) (auth : Option Socks.Credentials) (inner : Dialer)
deriving DecidableEq, Repr

namespace Dialer

/-- **Reaches an address**: `index` numbers the dial for the transport. -/
def dial (t : Transport) (index : Nat) : Dialer → String → String → Dial Stream
  | base, network, address =>
    .note (.dialed network address) <|
      match t index network address with
      | .never => .never
      | .after ms (.error e) => .wait ms fun _ => .note .refused (.done (.error e))
      | .after ms (.ok s) => .wait ms fun _ => .note (.opened s) (.done (.ok s))
  | hop proxy auth inner, network, address =>
    match checkNetwork network with
    | .error e => .done (.error e)
    | .ok _ => (inner.dial t index network proxy).andThen fun s =>
        Dial.converse (Socks.connect address auth) s

/-- The dialer through all hops of a route: the first hop is reached by the transport, each later
one through those before it. -/
def compose (route : List String) (auth : Option Socks.Credentials) : Dialer :=
  route.foldl (fun inner proxy => .hop proxy auth inner) .base

end Dialer

/-! ## What the transport saw -/

/-- One dial of the transport. -/
structure DialCall where
  network : String
  address : String
  /-- When it was made. -/
  time : Nat
  /-- Whether the transport answered before the dial was given up. -/
  answered : Bool
  /-- The connection as it was left, if there was one. -/
  stream : Option Stream

/-- The dials with one more event, latest dial first. -/
def DialCall.observe (calls : List DialCall) (event : Nat × DialEvent) : List DialCall :=
  match event.2, calls with
  | .dialed network address, calls => ⟨network, address, event.1, false, none⟩ :: calls
  | .refused, c :: calls => { c with answered := true } :: calls
  | .opened s, c :: calls => { c with answered := true, stream := some s } :: calls
  | _, calls => calls

/-- The dials that events tell of, in order. -/
def DialCall.ofEvents (events : List (Nat × DialEvent)) : List DialCall :=
  (events.foldl observe []).reverse

/-- The log lines that events tell of, in order. -/
def DialEvent.lines (events : List (Nat × DialEvent)) : List Log.Line :=
  events.filterMap fun
    | (_, .logged l) => some l
    | _ => none

end HopTorrent
