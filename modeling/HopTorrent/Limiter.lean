import HopTorrent.Table

/-!
# Limiter — how often a route may be used

Each route has a window of its own.  A window opens full at the first use of its route, and opens
again, full, at the first use that comes more than the interval later.  Within a window as many
uses are allowed as the capacity says.  Routes never affect one another.
-/

namespace HopTorrent

/-- How many uses a window allows, and how long it lasts in nanoseconds. -/
structure Limiter.Policy where
  capacity : Nat
  interval : Nat
deriving DecidableEq, Repr

/-- The open window of one route. -/
structure Limiter.Window where
  tokens : Nat
  openedAt : Int
deriving DecidableEq, Repr

/-- The windows of all routes used so far. -/
structure Limiter where
  policy : Limiter.Policy
  windows : Table String Limiter.Window

namespace Limiter

/-- Uses a window allows by default. -/
def defaultCapacity : Nat := 100

/-- Seconds a window lasts by default. -/
def defaultIntervalSecs : Nat := 60

/-- One hundred uses a minute. -/
def Policy.standard : Policy := ⟨defaultCapacity, defaultIntervalSecs * 1000000000⟩

/-- A limiter no route has used. -/
def ofPolicy (p : Policy) : Limiter := ⟨p, .empty⟩

/-- A full window that opens now. -/
def Policy.fullWindow (p : Policy) (now : Int) : Window := ⟨p.capacity, now⟩

/-- The window a use at `now` falls into: the open one, or a full one if that has ended.  A clock
that went back does not end a window. -/
def Policy.windowAt (p : Policy) (open_ : Option Window) (now : Int) : Window :=
  match open_ with
  | none => p.fullWindow now
  | some w => if now - w.openedAt > p.interval then p.fullWindow now else w

/-- One use of a window: whether it is allowed, and the window after it. -/
def Window.use (w : Window) : Bool × Window :=
  if w.tokens > 0 then (true, { w with tokens := w.tokens - 1 }) else (false, w)

/-- **One use of a route**: whether it is allowed, and the limiter after it. -/
def allowAt (l : Limiter) (route : String) (now : Int) : Bool × Limiter :=
  let (allowed, w) := (l.policy.windowAt (l.windows.get? route) now).use
  (allowed, { l with windows := l.windows.put route w })

/-- The uses left in the window of a route; all of them for a route never used. -/
def remaining (l : Limiter) (route : String) : Nat :=
  match l.windows.get? route with
  | some w => w.tokens
  | none => l.policy.capacity

end Limiter

end HopTorrent
