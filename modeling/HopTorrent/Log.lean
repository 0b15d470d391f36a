import HopTorrent.Text.Quoted

/-!
# Log — lines for the operator

A line has a level, a message and named fields in a fixed order.  Whatever identifies a transfer or
a route enters a field only in its redacted form (`Redacted`).
-/

namespace HopTorrent.Log

/-- How serious a line is. -/
inductive Level where
  | error
  | warn
  | info
  | debug
deriving DecidableEq, Repr

/-- The name of a level. -/
def Level.name : Level → String
  | .error => "ERROR"
  | .warn => "WARN"
  | .info => "INFO"
  | .debug => "DEBUG"

/-- How chatty a level is: each level includes those of lower rank. -/
def Level.rank : Level → Nat
  | .error => 1
  | .warn => 2
  | .info => 3
  | .debug => 4

/-- One event. -/
structure Line where
  level : Level
  message : String
  fields : List (String × String)
deriving DecidableEq, Repr

/-- Level, message and fields on one line. -/
def Line.render (l : Line) : String :=
  l.level.name ++ " " ++ l.message
    ++ String.join (l.fields.map fun (key, value) => " " ++ key ++ "=" ++ value)

/-- An error line. -/
def error (message : String) (fields : List (String × String)) : Line :=
  ⟨.error, message, fields⟩

/-- A warning. -/
def warn (message : String) (fields : List (String × String)) : Line := ⟨.warn, message, fields⟩

/-- A line of information. -/
def info (message : String) (fields : List (String × String)) : Line := ⟨.info, message, fields⟩

/-- A line for debugging. -/
def debug (message : String) (fields : List (String × String)) : Line := ⟨.debug, message, fields⟩

end HopTorrent.Log
