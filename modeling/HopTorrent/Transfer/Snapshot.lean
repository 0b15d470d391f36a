import HopTorrent.Calendar
import HopTorrent.InfoHash
import HopTorrent.Json
import HopTorrent.Transfer.Status

/-!
# Transfer/Snapshot — one transfer as seen at one moment
-/

namespace HopTorrent

/-- One transfer as seen at one moment. -/
structure Snapshot where
  infoHash : InfoHash
  name : String
  totalSize : Nat
  downloaded : Nat
  uploaded : Nat
  downloadRate : Nat
  uploadRate : Nat
  /-- In percent. -/
  progress : Binary64
  status : Status
  peers : Nat
  /-- Nanoseconds since the start of 1970. -/
  createdAt : Int
  /-- The descriptor the transfer was added with. -/
  magnet : String
deriving DecidableEq, Repr

/-- A snapshot as clients see it: everything but the magnet. -/
def Snapshot.toJson (s : Snapshot) : Json :=
  .object [("infoHash", .text s.infoHash.toHex), ("name", .text s.name),
    ("totalSize", .nat s.totalSize), ("downloaded", .nat s.downloaded),
    ("uploaded", .nat s.uploaded), ("downloadRate", .nat s.downloadRate),
    ("uploadRate", .nat s.uploadRate), ("progress", .number s.progress),
    ("status", .text s.status.name), ("peers", .nat s.peers),
    ("createdAt", .text (Calendar.render s.createdAt))]

end HopTorrent
