/-!
# Transfer/Status — where a transfer stands

The status is never stored: it follows at each look from the byte counts, the pause flag and the
upload rate.
-/

namespace HopTorrent

/-- Where a transfer stands. -/
inductive Status where
  /-- Metadata is known, and no verified data yet. -/
  | starting
  /-- Pieces are being fetched. -/
  | downloading
  /-- Piece requests were cancelled by the user. -/
  | paused
  /-- All content is verified. -/
  | completed
  /-- All content is verified, and some of it is being uploaded. -/
  | seeding
deriving DecidableEq, Repr

namespace Status

/-- The name of a status. -/
def name : Status → String
  | starting => "starting"
  | downloading => "downloading"
  | paused => "paused"
  | completed => "completed"
  | seeding => "seeding"

/-- The status with a name. -/
def ofName? (s : String) : Option Status :=
  [starting, downloading, paused, completed, seeding].find? (·.name = s)

/-- Whether all content is present. -/
def isComplete : Status → Bool
  | completed | seeding => true
  | _ => false

/-- The status that byte counts, the pause flag and the upload rate imply. -/
def infer (completed total : Nat) (isPaused : Bool) (uploadRate : Nat) : Status :=
  if 0 < total ∧ total ≤ completed then (if 0 < uploadRate then seeding else .completed)
  else if isPaused then paused
  else if completed = 0 ∨ total = 0 then starting
  else downloading

end Status

end HopTorrent
