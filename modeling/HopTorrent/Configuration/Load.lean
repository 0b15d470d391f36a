import HopTorrent.CommandLine
import HopTorrent.Configuration

/-!
# Configuration/Load — variables and command line together

The variables are read first, then the options replace what they name.  A data directory from the
command line takes the database with it, unless the variable for the database exists.
-/

namespace HopTorrent.Configuration

/-- The variables of a process.  A value that is no text says nothing, but the variable exists. -/
structure Variables where
  lookup : Lookup
  /-- Whether a variable has a value that is no text. -/
  garbled : String → Bool := fun _ => false

/-- Whether a variable exists, whatever its value. -/
def Variables.has (v : Variables) (name : String) : Bool :=
  (v.lookup name).isSome || v.garbled name

/-- The settings with another place to listen. -/
def withBind (bind : Option String) (c : Configuration) : Configuration :=
  match bind with
  | some bind => { c with bind }
  | none => c

/-- The settings with another chain, if hops are given. -/
def withProxies (hops : List String) (c : Configuration) : Except Error Configuration :=
  if hops.isEmpty then .ok c else (Chain.ofHops hops).map fun chain => { c with chain }

/-- The settings with another data directory. -/
def withDataDir (v : Variables) (dir : Option String) (c : Configuration) : Configuration :=
  match dir with
  | none => c
  | some dir =>
    let path := Storage.joinPath dir Storage.defaultName
    { c with
      dataDir := dir
      database := if v.has "B2_DB_PATH" then c.database else { c.database with path } }

/-- **The settings that the variables and the options give.** -/
def load (v : Variables) (o : CommandLine.Options) : Except Error Configuration := do
  let c ← ofLookup v.lookup
  let c ← (c.withBind o.bind).withProxies o.proxies
  return c.withDataDir v o.dataDir

end HopTorrent.Configuration
