import HopTorrent.Text.Natural

/-!
# Calendar — instants as dates

An instant is a number of nanoseconds since the start of 1970, in the proleptic Gregorian calendar
and without leap seconds.  It is written as year, month, day and time of day in UTC, with a fraction
of zero, three, six or nine digits: as few as keep the instant exact.
-/

namespace HopTorrent.Calendar

/-- Nanoseconds in a second. -/
def nanosPerSecond : Nat := 1000000000

/-- Seconds in a day. -/
def secondsPerDay : Nat := 86400

/-- A day. -/
structure Date where
  year : Int
  month : Nat
  day : Nat
deriving DecidableEq, Repr

/-- The date that is `n` days after the first of January 1970.  Years are counted from March, so
that the leap day comes last; an era has four hundred years. -/
def Date.ofDays (n : Int) : Date :=
  let z := n + 719468
  let era := z.fdiv 146097
  let dayOfEra := (z.fmod 146097).toNat
  let yearOfEra := (dayOfEra - dayOfEra / 1460 + dayOfEra / 36524 - dayOfEra / 146096) / 365
  let dayOfYear := dayOfEra - (365 * yearOfEra + yearOfEra / 4 - yearOfEra / 100)
  let shifted := (5 * dayOfYear + 2) / 153
  let month := if shifted < 10 then shifted + 3 else shifted - 9
  let year : Int := yearOfEra + era * 400
  ⟨if month ≤ 2 then year + 1 else year, month, dayOfYear - (153 * shifted + 2) / 5 + 1⟩

/-- A year: four digits, or a sign and at least four digits outside the years 0 to 9999. -/
def showYear (y : Int) : String :=
  if 0 ≤ y ∧ y ≤ 9999 then Text.padded 4 y.toNat
  else (if y < 0 then "-" else "+") ++ Text.padded 4 y.natAbs

/-- The digits of a fraction of a second, in groups of three, as few as keep it exact. -/
def showFraction (nanos : Nat) : String :=
  if nanos = 0 then ""
  else if nanos % 1000000 = 0 then "." ++ Text.padded 3 (nanos / 1000000)
  else if nanos % 1000 = 0 then "." ++ Text.padded 6 (nanos / 1000)
  else "." ++ Text.padded 9 nanos

/-- The whole seconds of an instant. -/
def seconds (instant : Int) : Int := instant.fdiv nanosPerSecond

/-- The instant at a number of whole seconds. -/
def ofSeconds (s : Int) : Int := s * nanosPerSecond

/-- **An instant as text.** -/
def render (instant : Int) : String :=
  let secs := seconds instant
  let nanos := (instant.fmod nanosPerSecond).toNat
  let date := Date.ofDays (secs.fdiv secondsPerDay)
  let time := (secs.fmod secondsPerDay).toNat
  showYear date.year ++ "-" ++ Text.padded 2 date.month ++ "-" ++ Text.padded 2 date.day ++ "T"
    ++ Text.padded 2 (time / 3600) ++ ":" ++ Text.padded 2 (time / 60 % 60) ++ ":"
    ++ Text.padded 2 (time % 60) ++ showFraction nanos ++ "Z"

end HopTorrent.Calendar
