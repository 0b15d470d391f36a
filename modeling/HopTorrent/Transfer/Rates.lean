import HopTorrent.Binary64

/-!
# Transfer/Rates — bytes per second between two looks at the counters

The counters are sampled at most every tenth of a second.  A look in between changes nothing and
returns the rates of the last sample.  A counter that fell gives the rate zero.
-/

namespace HopTorrent

/-- Bytes per second received and sent. -/
structure Rates where
  download : Nat
  upload : Nat
deriving DecidableEq, Repr

namespace Rates

/-- The last sample of a transfer's counters, and the rates found then. -/
structure Sample where
  taken : Option Int
  read : Nat
  written : Nat
  rates : Rates
deriving DecidableEq, Repr

/-- No sample yet. -/
def Sample.initial : Sample := ⟨none, 0, 0, ⟨0, 0⟩⟩

/-- Milliseconds between two samples at least. -/
def minSampleMillis : Nat := 100

/-- A span of nanoseconds in seconds. -/
def secondsOf (nanos : Nat) : Binary64 :=
  (Binary64.ofNat (nanos / 1000000000)).add
    ((Binary64.ofNat (nanos % 1000000000)).div (Binary64.ofNat 1000000000))

/-- Bytes per second, rounded down. -/
def perSecond (bytes nanos : Nat) : Nat := ((Binary64.ofNat bytes).div (secondsOf nanos)).toNat

/-- **One look at the counters**: the sample after it, whose rates are the answer. -/
def Sample.update (s : Sample) (read written : Nat) (now : Int) : Sample :=
  match s.taken with
  | none => ⟨some now, read, written, s.rates⟩
  | some before =>
    let elapsed := (now - before).toNat
    if elapsed / 1000000 < minSampleMillis then s
    else
      ⟨some now, read, written,
        ⟨perSecond (read - s.read) elapsed, perSecond (written - s.written) elapsed⟩⟩

end Rates

end HopTorrent
