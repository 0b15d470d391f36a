import HopTorrent.Chain.Seed
import HopTorrent.Log.Filter
import HopTorrent.Server
import Std.Time.DateTime.Timestamp

/-!
# Main — the program

Requests come one on a line of the standard input: method, target and body, a blank between them.
Each is answered with a line of status and body; the end of the input is the signal to stop.  Log
lines go to the standard error.  The file tree is held in memory, so nothing outlives the program.
-/

namespace HopTorrent.Program

/-- The request on a line. -/
def requestOn (line : String) : Http.Request :=
  match Text.cutFirst ' ' line.toList with
  | none => ⟨line, "/", [], []⟩
  | some (method, rest) =>
    let (target, body) := (Text.cutFirst ' ' rest).getD (rest, [])
    let headers := if body.isEmpty then [] else [("content-type", "application/json")]
    ⟨String.ofList method, String.ofList target, headers, Bytes.utf8 (String.ofList body)⟩

/-- Nanoseconds since the start of 1970. -/
def now : IO Int := do return (← Std.Time.Timestamp.now).toNanosecondsSinceUnixEpoch.val

/-- Writes the lines that pass the filter. -/
def report (filter : Log.Filter) (lines : List Log.Line) : IO Unit :=
  (lines.filter filter.admits).forM fun l => IO.eprintln l.render

/-- Answers line after line. -/
partial def answerAll (filter : Log.Filter) (input : IO.FS.Stream) (s : Server) : IO Server := do
  let line ← input.getLine
  if line.isEmpty then return s
  let (response, after) := s.answer (← now) (requestOn line.trimAscii.toString)
  report filter (s.service.sessions.linesSince after.service.sessions)
  IO.println s!"{response.status} {response.body}"
  answerAll filter input after

/-- Starts, answers and stops. -/
def serve (o : CommandLine.Options) : IO UInt32 := do
  let given ← Configuration.variableNames.mapM fun name => return (name, ← IO.getEnv name)
  let filter := Log.Filter.chosen o.verbose (← IO.getEnv Log.Filter.variableName)
  let seed := UInt64.ofNat (← IO.rand 0 (Nat.pow 2 64 - 1))
  let around : Surroundings :=
    { lookup := fun name => (given.lookup name).join
      network := .isolated
      random := .ofSeed seed }
  let here := (← IO.currentDir).toString.splitOn "/"
  let tree : Storage.Tree := ⟨.empty, here.filter (!·.isEmpty)⟩
  let (started, host) := (Server.start around o).run.run ⟨tree, []⟩
  report filter host.lines
  match started with
  | .error why =>
    IO.eprintln s!"Error: {why}"
    return 1
  | .ok server =>
    let server ← answerAll filter (← IO.getStdin) server
    let (_, host) := server.stop.run.run ⟨host.tree, []⟩
    report filter host.lines
    return 0

end HopTorrent.Program

/-- The program. -/
def main (args : List String) : IO UInt32 := do
  match HopTorrent.CommandLine.parse args with
  | .help =>
    IO.print HopTorrent.CommandLine.helpText
    return 0
  | .version =>
    IO.print HopTorrent.CommandLine.versionText
    return 0
  | .misuse m =>
    IO.eprint m.message
    return 2
  | .run o => HopTorrent.Program.serve o
