import HopTorrent.Transfer.Snapshot

/-!
# Storage/Record — a transfer as a row of the database

Counters are stored as signed 64-bit numbers: larger ones are held at the largest, and negative ones
read as zero.  The creation time is stored in whole seconds.  Saving a transfer that is stored keeps
what identifies it — name, size, magnet and creation time — and replaces the rest.
-/

namespace HopTorrent.Storage

/-- The largest stored number. -/
def maxStored : Nat := Nat.pow 2 63 - 1

/-- A counter as it is stored. -/
def toStored (n : Nat) : Int := min n maxStored

/-- A stored number as a counter. -/
def ofStored (i : Int) : Nat := i.toNat

/-- A row: what is stored of a transfer under its identifier. -/
structure Row where
  name : String
  totalSize : Int
  downloaded : Int
  uploaded : Int
  downloadRate : Int
  uploadRate : Int
  progress : Binary64
  status : String
  magnet : String
  /-- Seconds since the start of 1970. -/
  createdAt : Int
deriving DecidableEq, Repr

/-- A percentage as it is stored: zero has no sign, and what is no number is not stored. -/
def storedProgress (x : Binary64) : Option Binary64 :=
  if x.isNaN then none else if x.isFinite ∧ x.significand = 0 then some .zero else some x

/-- The row of a transfer never stored before. -/
def Row.ofSnapshot (s : Snapshot) (progress : Binary64) : Row where
  name := s.name
  totalSize := toStored s.totalSize
  downloaded := toStored s.downloaded
  uploaded := toStored s.uploaded
  downloadRate := toStored s.downloadRate
  uploadRate := toStored s.uploadRate
  progress := progress
  status := s.status.name
  magnet := s.magnet
  createdAt := Calendar.seconds s.createdAt

/-- The row of a stored transfer after another look at it. -/
def Row.updated (r : Row) (s : Snapshot) (progress : Binary64) : Row :=
  { r with
    downloaded := toStored s.downloaded
    uploaded := toStored s.uploaded
    downloadRate := toStored s.downloadRate
    uploadRate := toStored s.uploadRate
    progress := progress
    status := s.status.name }

/-- A stored transfer as it is read back. -/
structure Record where
  infoHash : String
  name : String
  totalSize : Nat
  downloaded : Nat
  uploaded : Nat
  downloadRate : Nat
  uploadRate : Nat
  progress : Binary64
  status : String
  magnet : String
  /-- Nanoseconds since the start of 1970. -/
  createdAt : Int
deriving DecidableEq, Repr

/-- The first and the last second that a date can be given for. -/
def dateRange : Int × Int := (-8334601228800, 8210266876799)

/-- A stored creation time as an instant; one without a date counts as the start of 1970. -/
def instantOf (secs : Int) : Int :=
  if dateRange.1 ≤ secs ∧ secs ≤ dateRange.2 then Calendar.ofSeconds secs else 0

/-- A row as it is read back. -/
def Row.toRecord (id : String) (r : Row) : Record where
  infoHash := id
  name := r.name
  totalSize := ofStored r.totalSize
  downloaded := ofStored r.downloaded
  uploaded := ofStored r.uploaded
  downloadRate := ofStored r.downloadRate
  uploadRate := ofStored r.uploadRate
  progress := r.progress
  status := r.status
  magnet := r.magnet
  createdAt := instantOf r.createdAt

/-- A record as it is written. -/
def Record.toJson (r : Record) : Json :=
  .object [("infoHash", .text r.infoHash), ("name", .text r.name),
    ("totalSize", .nat r.totalSize), ("downloaded", .nat r.downloaded),
    ("uploaded", .nat r.uploaded), ("downloadRate", .nat r.downloadRate),
    ("uploadRate", .nat r.uploadRate), ("progress", .number r.progress),
    ("status", .text r.status), ("magnetUri", .text r.magnet),
    ("createdAt", .text (Calendar.render r.createdAt))]

/-- A counter is read back, or the largest stored number in its place. -/
theorem ofStored_toStored (n : Nat) : ofStored (toStored n) = min n maxStored := by
  simp only [ofStored, toStored]
  omega

end HopTorrent.Storage
