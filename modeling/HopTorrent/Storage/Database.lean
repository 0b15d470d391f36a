import HopTorrent.Error
import HopTorrent.Settings
import HopTorrent.Storage.Record
import HopTorrent.Table

/-!
# Storage/Database — transfers and settings at rest

A database holds two tables that know nothing of each other.  Opening it makes the tables that are
missing and states the version of their layout.  A table may vanish behind the back of an open
database; statements that need it then fail.
-/

namespace HopTorrent.Storage

/-- The two tables; one that is missing holds nothing, not even no rows. -/
structure Contents where
  transfers : Option (Table String Row)
  settings : Option (Table String String)

/-- A database that nothing was ever stored in. -/
def Contents.blank : Contents := ⟨none, none⟩

/-- The key under which the version of the layout is kept. -/
def versionKey : String := "schema_version"

/-- The version of the layout. -/
def layoutVersion : Nat := 1

/-- The contents right after opening. -/
def Contents.opened (c : Contents) : Contents where
  transfers := some (c.transfers.getD .empty)
  settings := some ((c.settings.getD .empty).put versionKey (toString layoutVersion))

/-- An open database. -/
structure Database where
  contents : Contents
  /-- Whether a table vanished since the last statement. -/
  stale : Bool

/-- A statement changes the database, and fails or has a result. -/
abbrev Statement := StateM Database

namespace Database

/-- Opens a database with the given contents. -/
def ofContents (c : Contents) : Database := ⟨c.opened, false⟩

/-- A new database in memory. -/
def empty : Database := ofContents .blank

/-- Opens the contents once more. -/
def reopened (db : Database) : Database := ofContents db.contents

/-! ## Statements -/

/-- The complaint about a missing table. -/
def missing (table : String) : String := "no such table: " ++ table

/-- The name of the table of transfers. -/
def transfersTable : String := "active_torrents"

/-- The name of the table of settings. -/
def settingsTable : String := "settings"

/-- A statement on the transfers; `doing` introduces its errors. -/
def onTransfers {α : Type} (doing : String)
    (f : Table String Row → Except String (α × Table String Row)) :
    Statement (Except Error α) := do
  let db ← get
  set { db with stale := false }
  match db.contents.transfers with
  | none => return .error (.storage (doing ++ missing transfersTable))
  | some rows =>
    match f rows with
    | .error why => return .error (.storage (doing ++ why))
    | .ok (a, rows) =>
      set (⟨{ db.contents with transfers := some rows }, false⟩ : Database)
      return .ok a

/-- A statement on the settings. -/
def onSettings {α : Type} (f : Table String String → α × Table String String) :
    Statement (Except Error α) := do
  let db ← get
  set { db with stale := false }
  match db.contents.settings with
  | none => return .error (.storage (missing settingsTable))
  | some values =>
    let (a, values) := f values
    set (⟨{ db.contents with settings := some values }, false⟩ : Database)
    return .ok a

/-- The rows with one transfer saved. -/
def saved (s : Snapshot) (rows : Table String Row) : Except String (Unit × Table String Row) :=
  match storedProgress s.progress with
  | none => .error ("NOT NULL constraint failed: " ++ transfersTable ++ ".progress")
  | some progress =>
    let id := s.infoHash.toHex
    match rows.get? id with
    | some r => .ok ((), rows.put id (r.updated s progress))
    | none => .ok ((), rows.put id (.ofSnapshot s progress))

/-- **Saves a transfer.**  What identifies a stored one is kept. -/
def save (s : Snapshot) : Statement (Except Error Unit) :=
  onTransfers "failed to save torrent: " (saved s)

/-- Whether a row is read before another: the newer one.  The query leaves open which of two equally
old rows comes first; the one with the smaller identifier is one of the orders it allows. -/
def readBefore (a b : String × Row) : Bool :=
  a.2.createdAt > b.2.createdAt || (a.2.createdAt = b.2.createdAt && a.1 ≤ b.1)

/-- The rows as they are read. -/
def records (rows : Table String Row) : List Record :=
  (rows.entries.mergeSort readBefore).map fun (id, r) => r.toRecord id

/-- **All stored transfers**, newest first. -/
def all : Statement (Except Error (List Record)) := do
  let doing := if (← get).stale then "failed to read torrents: " else ""
  onTransfers doing fun rows => .ok (records rows, rows)

/-- **Forgets one transfer.** -/
def delete (id : String) : Statement (Except Error Unit) :=
  onTransfers "failed to delete torrent: " fun rows => .ok ((), rows.erase id)

/-- **Forgets all transfers**: how many there were. -/
def clear : Statement (Except Error Nat) :=
  onTransfers "failed to clear active torrents: " fun rows => .ok (rows.size, .empty)

/-- **Sets a value.** -/
def setValue (key value : String) : Statement (Except Error Unit) :=
  onSettings fun values => ((), values.put key value)

/-- **The value under a key.** -/
def value? (key : String) : Statement (Except Error (Option String)) :=
  onSettings fun values => (values.get? key, values)

/-- The values of some preferences, as far as they have one. -/
def valuesOf : List Setting → Statement (Except Error (List (Setting × String)))
  | [] => return .ok []
  | s :: rest => do
    match ← value? s.key with
    | .error e => return .error e
    | .ok v =>
      match ← valuesOf rest with
      | .error e => return .error e
      | .ok vs => return .ok ((v.map fun v => (s, v)).toList ++ vs)

/-- **The preferences that have a value.** -/
def settings : Statement (Except Error (List (Setting × String))) := valuesOf Setting.all

/-! ## Behind the back of an open database -/

/-- Another connection drops a table. -/
def tableDropped (table : String) (db : Database) : Database :=
  if table = transfersTable then ⟨{ db.contents with transfers := none }, true⟩
  else if table = settingsTable then ⟨{ db.contents with settings := none }, true⟩
  else db

/-- Another connection writes a row. -/
def rowWritten (id : String) (r : Row) (db : Database) : Database :=
  { db with contents := { db.contents with
    transfers := db.contents.transfers.map fun rows => rows.put id r } }

end Database

end HopTorrent.Storage
