import HopTorrent.Binary64

/-!
# Transfer/Progress — how much of a transfer is done, in percent

Content of no length is done to zero percent.  Only content that is complete is done to exactly one
hundred percent: whatever the division returns is held below that.
-/

namespace HopTorrent.Progress

/-- A percentage of content that is not complete: at least zero and below one hundred. -/
def belowHundred (x : Binary64) : Binary64 :=
  (Binary64.clamp .zero .hundred x).min Binary64.hundred.pred

/-- The rounded quotient of two byte counts, in percent. -/
def quotient (completed total : Nat) : Binary64 :=
  ((Binary64.ofNat completed).div (Binary64.ofNat total)).mul .hundred

/-- **How much is done**, in percent. -/
def percent (completed total : Nat) : Binary64 :=
  if total = 0 then .zero
  else if total ≤ completed then .hundred
  else belowHundred (quotient completed total)

end HopTorrent.Progress
