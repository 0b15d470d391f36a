import HopTorrent.Chain.Dial

/-!
# Chain/Seed — everything drawn from one number

The numbers come from a counter whose bits are mixed, so any of them can be had without those before
it.  An attempt has numbers of its own for the order of the hops and for its credentials.
-/

namespace HopTorrent.Chain

/-- A number with its bits mixed. -/
def mixed (x : UInt64) : UInt64 :=
  let x := (x ^^^ (x >>> 30)) * 0xBF58476D1CE4E5B9
  let x := (x ^^^ (x >>> 27)) * 0x94D049BB133111EB
  x ^^^ (x >>> 31)

/-- The `n`-th number drawn from a seed. -/
def drawn (seed : UInt64) (n : Nat) : UInt64 := mixed (seed + 0x9E3779B97F4A7C15 * UInt64.ofNat n)

/-- The eight bytes of a number. -/
def octetsOf (x : UInt64) : Vector UInt8 8 :=
  Vector.ofFn fun i => UInt8.ofNat (x.toNat >>> (8 * i.val))

/-- The draws and credentials of all attempts. -/
def Randomness.ofSeed (seed : UInt64) : Randomness where
  draws attempt i :=
    ⟨(drawn (drawn seed (2 * attempt)) i).toNat % (i + 1), Nat.mod_lt _ i.succ_pos⟩
  credentials attempt :=
    let own := drawn seed (2 * attempt + 1)
    .ofRandom (octetsOf (drawn own 0)) (octetsOf (drawn own 1))

end HopTorrent.Chain
