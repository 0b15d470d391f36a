/-!
# Error — what can go wrong

An error has three readings.  `message` is generic and safe to show to anyone.  `detail` carries
the cause and is meant for logs.  `retryable` says whether a dialer may try again after it.
-/

namespace HopTorrent

/-- What can go wrong. -/
inductive Error where
  /-- Input was rejected before anything was done with it. -/
  | validation (detail : String)
  /-- No transfer has the given identifier. -/
  | notFound (detail : String)
  /-- The engine did not produce metadata within the bounded wait. -/
  | metadataTimeout
  /-- A single hop failed its isolated check. -/
  | proxyUnreachable (hop : Nat) (reason : String)
  /-- Every dial attempt through the chain failed. -/
  | dial (attempts : Nat) (last : Error)
  /-- The handshake with a hop failed. -/
  | socks (detail : String)
  /-- The network failed outside a handshake. -/
  | network (detail : String)
  /-- The operation was cancelled by its caller. -/
  | cancelled
  /-- The operation took too long. -/
  | timeout
  /-- The torrent engine reported a failure. -/
  | engine (detail : String)
  /-- The database reported a failure. -/
  | storage (detail : String)
  /-- The configuration could not be built. -/
  | config (detail : String)
deriving DecidableEq, Repr, Inhabited

namespace Error

/-- The generic text: it names no hop, no magnet and no transfer. -/
def message : Error → String
  | validation _ => "invalid request"
  | notFound _ => "transfer not found"
  | metadataTimeout => "timed out waiting for torrent metadata"
  | proxyUnreachable hop _ => "proxy hop " ++ toString hop ++ " unreachable"
  | dial attempts _ => "all " ++ toString attempts ++ " dial attempts failed"
  | socks _ => "socks5 negotiation failed"
  | network _ => "network error"
  | cancelled => "operation cancelled"
  | timeout => "operation timed out"
  | engine _ => "engine error"
  | storage _ => "storage error"
  | config _ => "configuration error"

/-- The text for logs, with the cause. -/
def detail : Error → String
  | validation d | notFound d | socks d | network d | engine d | storage d | config d => d
  | proxyUnreachable hop reason => "hop " ++ toString hop ++ ": " ++ reason
  | dial attempts last => "after " ++ toString attempts ++ " attempts: " ++ last.detail
  | e => e.message

/-- Whether the chain dialer may try again. -/
def retryable : Error → Bool
  | validation _ | notFound _ | cancelled | config _ => false
  | _ => true

/-- The innermost cause: failed dials are unwrapped. -/
def rootCause : Error → Error
  | dial _ last => last.rootCause
  | e => e

/-- The error that directly caused this one. -/
def source? : Error → Option Error
  | dial _ last => some last
  | _ => none

/-- **A root cause is never a failed dial.** -/
theorem rootCause_ne_dial (e : Error) (n : Nat) (last : Error) : e.rootCause ≠ dial n last := by
  induction e with
  | dial _ _ ih => simpa [rootCause] using ih
  | _ => simp [rootCause]

end Error

end HopTorrent
