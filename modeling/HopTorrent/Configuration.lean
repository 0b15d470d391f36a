import HopTorrent.Chain
import HopTorrent.Chain.Policy
import HopTorrent.Limiter
import HopTorrent.Storage.Location

/-!
# Configuration — the service's settings from named variables

A variable that is missing or blank takes its default.  Numbers and the entries of the chain are
trimmed, everything else is taken as it stands.
-/

namespace HopTorrent

/-- The service's settings. -/
structure Configuration where
  /-- Where to listen. -/
  bind : String
  /-- Where downloads go. -/
  dataDir : String
  chain : Chain
  dialing : Chain.Policy
  /-- How long an add waits for metadata. -/
  metadataTimeoutSecs : Nat
  limits : Limiter.Policy
  database : Storage.Location

namespace Configuration

/-- Where the service listens by default. -/
def defaultBind : String := "127.0.0.1:8080"

/-- Where downloads go by default. -/
def defaultDataDir : String := "./downloads"

/-- Seconds an add waits for metadata by default. -/
def defaultMetadataTimeoutSecs : Nat := 60

/-- The only hop of the default chain. -/
def defaultHop : String := "127.0.0.1:" ++ toString Chain.defaultPort

/-- The variables that are looked at. -/
def variableNames : List String :=
  ["B2_BIND", "B2_DATA_DIR", "B2_PROXY_CHAIN", "B2_DIAL_RETRIES", "B2_PROBE_ADDR",
    "B2_METADATA_TIMEOUT_SECS", "B2_DB_PATH"]

/-- Values of named variables. -/
abbrev Lookup := String → Option String

/-- The value of a variable; a blank one counts as missing. -/
def value? (lookup : Lookup) (name : String) : Option String := (lookup name).bind Text.present?

/-- The number a variable holds, if it is given. -/
def number? (lookup : Lookup) (name : String) (limit : Nat) : Except Error (Option Nat) :=
  match value? lookup name with
  | none => .ok none
  | some raw =>
    match Text.natural? limit (Text.trimBlanks raw.toList) with
    | some n => .ok (some n)
    | none => .error (.config (name ++ " is not a valid number"))

/-- The chain that is named, or the default one. -/
def chainOf (lookup : Lookup) : Except Error Chain :=
  match value? lookup "B2_PROXY_CHAIN" with
  | some list => Chain.parse list
  | none => Chain.ofHops [defaultHop]

/-- How many attempts a dial makes; none at all is refused. -/
def attemptsOf (lookup : Lookup) : Except Error Nat := do
  match ← number? lookup "B2_DIAL_RETRIES" Text.max32 with
  | some 0 => throw (.config "B2_DIAL_RETRIES must be at least 1")
  | some n => return n
  | none => return Chain.defaultAttempts

/-- **The settings that the variables give.** -/
def ofLookup (lookup : Lookup) : Except Error Configuration := do
  let value := value? lookup
  let chain ← chainOf lookup
  let dataDir := (value "B2_DATA_DIR").getD defaultDataDir
  let attempts ← attemptsOf lookup
  let timeout ← number? lookup "B2_METADATA_TIMEOUT_SECS" Text.max64
  return {
    bind := (value "B2_BIND").getD defaultBind
    dataDir
    chain
    dialing := { Chain.Policy.standard with
      maxAttempts := attempts
      probeAddress := (value "B2_PROBE_ADDR").getD Chain.defaultProbeAddress }
    metadataTimeoutSecs := timeout.getD defaultMetadataTimeoutSecs
    limits := .standard
    database :=
      ⟨(value "B2_DB_PATH").getD (Storage.joinPath dataDir Storage.defaultName), false⟩ }

end Configuration

end HopTorrent
