import HopTorrent.Json.Reader
import HopTorrent.Settings

/-!
# Http/Body — request bodies

A request to add a transfer carries a magnet, a request to change settings up to five values.  Both
are records of texts; the bytes behind the record are returned with it.
-/

namespace HopTorrent.Http

/-- The magnet of an add request, empty if it is missing. -/
def readAdd (bs : Bytes) : Option (String × Bytes) :=
  (Json.readRecord ["magnetUri"] false bs).map fun ((fields, _), rest) =>
    (((fields.lookup "magnetUri").bind id).getD "", rest)

/-- The values of a settings request.  As an array it must be complete. -/
def readSettings (bs : Bytes) : Option (SettingsUpdate × Bytes) := do
  let ((fields, isArray), rest) ← Json.readRecord (Setting.all.map Setting.field) true bs
  if isArray ∧ fields.length ≠ Setting.all.length then none
  return (⟨fun s => (fields.lookup s.field).bind id⟩, rest)

/-- What a whole text holds: nothing but blanks may follow. -/
def whole {α : Type} (read : Option (α × Bytes)) : Option α :=
  read.bind fun (a, rest) => if (Json.skipBlanks rest).isEmpty then some a else none

end HopTorrent.Http
