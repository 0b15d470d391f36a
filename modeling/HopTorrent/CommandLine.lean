import HopTorrent.Text.Cut
import HopTorrent.Text.Likeness

/-!
# CommandLine — what the operator asks for

An option has a long and a short name.  A value stands in the next argument, after an equals sign,
or right behind the short name; flags can share one dash.  A value counts only once the next option
or the end is reached, so an unknown argument in between is reported first.
-/

namespace HopTorrent.CommandLine

/-- The program's name. -/
def program : String := "b2torrent"

/-- The program's version. -/
def version : String := "0.1.0"

/-! ## Options -/

/-- An option. -/
inductive Opt where
  | verbose
  | bind
  | proxy
  | dataDir
  | help
  | version
deriving DecidableEq, Repr

namespace Opt

/-- All options, in the order they are listed. -/
def all : List Opt := [verbose, bind, proxy, dataDir, help, version]

/-- The long name. -/
def long : Opt → String
  | verbose => "verbose"
  | bind => "bind"
  | proxy => "proxy"
  | dataDir => "data-dir"
  | help => "help"
  | version => "version"

/-- The short name. -/
def short : Opt → Char
  | verbose => 'v'
  | bind => 'b'
  | proxy => 'p'
  | dataDir => 'd'
  | help => 'h'
  | version => 'V'

/-- What the value is called, if the option takes one. -/
def value? : Opt → Option String
  | bind => some "BIND"
  | proxy => some "PROXIES"
  | dataDir => some "DATA_DIR"
  | _ => none

/-- What the option does. -/
def purpose : Opt → String
  | verbose => "Enable verbose logging"
  | bind => "HTTP listen address (overrides B2_BIND)"
  | proxy =>
    "Proxy hop as host:port; repeat for a longer chain (overrides B2_PROXY_CHAIN)"
  | dataDir => "Download directory (overrides B2_DATA_DIR)"
  | help => "Print help"
  | version => "Print version"

/-- The option as it is written out. -/
def display (o : Opt) : String :=
  "--" ++ o.long ++ (o.value?.map fun v => " <" ++ v ++ ">").getD ""

/-- The option with a long name. -/
def ofLong? (name : List Char) : Option Opt := all.find? fun o => o.long.toList = name

/-- The option with a short name. -/
def ofShort? (c : Char) : Option Opt := all.find? fun o => o.short = c

end Opt

/-- What the options say. -/
structure Options where
  verbose : Bool
  bind : Option String
  /-- The hops, in order. -/
  proxies : List String
  dataDir : Option String
deriving DecidableEq, Repr

/-- No option given. -/
def Options.none : Options := ⟨false, Option.none, [], Option.none⟩

/-! ## Texts -/

/-- A usage line; without options given it names none. -/
def usage (given : List Opt) : String :=
  "Usage: " ++ program ++ " "
    ++ if given.isEmpty then "[OPTIONS]" else String.intercalate " " (given.map Opt.display)

/-- The head of an option's line in the help. -/
def helpHead (o : Opt) : String := "  -" ++ String.ofList [o.short] ++ ", " ++ o.display

/-- The width of the heads of all lines in the help. -/
def helpWidth : Nat := (Opt.all.map fun o => (helpHead o).length).foldl max 0

/-- An option's line in the help. -/
def helpLine (o : Opt) : String :=
  let head := helpHead o
  head ++ String.ofList (List.replicate (helpWidth + 2 - head.length) ' ') ++ o.purpose ++ "\n"

/-- The help. -/
def helpText : String :=
  "B-2 Torrent - torrent downloads through a chain of SOCKS5 proxies\n\n" ++ usage []
    ++ "\n\nOptions:\n" ++ String.join (Opt.all.map helpLine)

/-- The version on a line. -/
def versionText : String := program ++ " " ++ version ++ "\n"

/-- What is wrong with a command line. -/
inductive Misuse where
  /-- Nothing is called that; an option that is may be meant. -/
  | unexpected (argument : String) (similar : Option Opt) (given : List Opt)
  | missingValue (o : Opt)
  | needlessValue (o : Opt) (value : String) (given : List Opt)
  | repeated (o : Opt)
deriving DecidableEq, Repr

namespace Misuse

/-- The options given, and one more. -/
def including (given : List Opt) (o : Opt) : List Opt :=
  if given.contains o then given else given ++ [o]

/-- What is wrong, and how to do it right. -/
def explanation : Misuse → String
  | unexpected arg none given =>
    "unexpected argument '" ++ arg ++ "' found\n\n" ++ usage given ++ "\n"
  | unexpected arg (some o) given =>
    "unexpected argument '" ++ arg ++ "' found\n\n  tip: a similar argument exists: '--" ++ o.long
      ++ "'\n\n" ++ usage (including given o) ++ "\n"
  | missingValue o => "a value is required for '" ++ o.display ++ "' but none was supplied\n"
  | needlessValue o v given =>
    "unexpected value '" ++ v ++ "' for '--" ++ o.long ++ "' found; no more were expected\n\n"
      ++ usage (including given o) ++ "\n"
  | repeated o =>
    "the argument '" ++ o.display ++ "' cannot be used multiple times\n\n" ++ usage [] ++ "\n"

/-- The text of a misuse. -/
def message (m : Misuse) : String :=
  "error: " ++ m.explanation ++ "\nFor more information, try '--help'.\n"

end Misuse

/-- What a command line comes to. -/
inductive Request where
  | run (o : Options)
  | help
  | version
  | misuse (m : Misuse)
deriving DecidableEq, Repr

/-! ## Reading -/

/-- What was read so far. -/
structure Reading where
  options : Options
  /-- The options that counted, each once. -/
  given : List Opt
  /-- An option that does not count yet, and its value if that came. -/
  pending : Option (Opt × Option String)
deriving DecidableEq, Repr

/-- Reading that may end before the last argument. -/
abbrev Step := Except Request Reading

namespace Reading

/-- Nothing read. -/
def start : Reading := ⟨.none, [], none⟩

/-- Ends with a misuse. -/
def fail (m : Misuse) : Step := .error (.misuse m)

/-- Lets an option with a value count. -/
def apply (r : Reading) (o : Opt) (v : String) : Step :=
  let given := Misuse.including r.given o
  match o with
  | .bind =>
    if r.given.contains o then fail (.repeated o)
    else .ok { r with given, options := { r.options with bind := some v } }
  | .proxy =>
    .ok { r with given, options := { r.options with proxies := r.options.proxies ++ [v] } }
  | .dataDir =>
    if r.given.contains o then fail (.repeated o)
    else if v.isEmpty then fail (.missingValue o)
    else .ok { r with given, options := { r.options with dataDir := some v } }
  | _ => .ok r

/-- Lets the pending option count. -/
def settle (r : Reading) : Step :=
  match r.pending with
  | none => .ok r
  | some (o, none) => fail (.missingValue o)
  | some (o, some v) => { r with pending := none }.apply o v

/-- The options that would count if everything pending did. -/
def counted (r : Reading) : List Opt :=
  match r.settle with
  | .ok r => r.given
  | .error _ => r.given

/-- Reads a flag. -/
def flag (r : Reading) (o : Opt) : Step := do
  let r ← r.settle
  match o with
  | .help => .error .help
  | .version => .error .version
  | _ =>
    if r.given.contains o then fail (.repeated o)
    else .ok { r with given := r.given ++ [o], options := { r.options with verbose := true } }

/-- Reads an option that takes a value, which may stand in the same argument. -/
def valued (r : Reading) (o : Opt) (attached : Option String) : Step := do
  let r ← r.settle
  match attached with
  | some v => r.apply o v
  | none => .ok { r with pending := some (o, none) }

/-- Reads an argument after two dashes. -/
def long (r : Reading) (cs : List Char) : Step :=
  let (name, value) := match Text.cutFirst '=' cs with
    | some (name, v) => (name, some (String.ofList v))
    | none => (cs, none)
  match Opt.ofLong? name with
  | none =>
    let similar := (Text.mostLike name (Opt.all.map Opt.long)).bind fun w => Opt.ofLong? w.toList
    fail (.unexpected ("--" ++ String.ofList name) similar r.counted)
  | some o =>
    if o.value?.isSome then r.valued o value
    else
      match value with
      | some v => fail (.needlessValue o v r.given)
      | none => r.flag o

/-- The value behind a short name, an equals sign between them left out. -/
def behind : List Char → Option String
  | [] => none
  | '=' :: cs => some (String.ofList cs)
  | cs => some (String.ofList cs)

/-- Reads short names behind one dash. -/
def shorts (r : Reading) : List Char → Step
  | [] => .ok r
  | c :: cs =>
    match Opt.ofShort? c with
    | none => fail (.unexpected ("-" ++ String.ofList [c]) none [])
    | some o =>
      if o.value?.isSome then r.valued o (behind cs)
      else
        match r.flag o with
        | .ok r => r.shorts cs
        | .error e => .error e

/-- Reads an argument that is no option: it must be a value that an option waits for. -/
def plain (r : Reading) (arg : String) : Step :=
  match r.pending with
  | some (o, none) => .ok { r with pending := some (o, some arg) }
  | _ => fail (.unexpected arg none [])

/-- Reads one argument. -/
def argument (r : Reading) (arg : String) : Step :=
  match arg.toList with
  | '-' :: '-' :: cs => r.long cs
  | '-' :: c :: cs => r.shorts (c :: cs)
  | _ => r.plain arg

/-- Reads all arguments.  Two dashes alone end the options, and nothing may follow them. -/
def arguments (r : Reading) : List String → Step
  | [] => r.settle
  | arg :: rest =>
    if arg = "--" then
      match rest with
      | [] => r.settle
      | next :: _ => fail (.unexpected next none [])
    else
      match r.argument arg with
      | .ok r => r.arguments rest
      | .error e => .error e

end Reading

/-- **What a command line asks for.** -/
def parse (args : List String) : Request :=
  match Reading.start.arguments args with
  | .ok r => .run r.options
  | .error request => request

end HopTorrent.CommandLine
