/-!
# Storage/Location — where the database lives
-/

namespace HopTorrent.Storage

/-- The name of a database file. -/
def defaultName : String := "b2torrent.db"

/-- A file in a directory. -/
def joinPath (dir file : String) : String :=
  if dir.isEmpty then file else if dir.endsWith "/" then dir ++ file else dir ++ "/" ++ file

/-- A file, or memory that is forgotten with the database. -/
structure Location where
  path : String
  inMemory : Bool
deriving DecidableEq, Repr

/-- A file of the usual name in the current directory. -/
def Location.standard : Location := ⟨defaultName, false⟩

end HopTorrent.Storage
