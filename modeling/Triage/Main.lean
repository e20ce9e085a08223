import Triage.DaemonTool
import Triage.ReportTool

/-!
# The program

With `daemon` as its first word the program serves reports; any other words are
those of the report tool. All that happens here is that variables and files are
read and that results are printed: what they are is decided by `ReportTool.run`
and `DaemonTool.run`. No server can be reached from here, so that a daemon ends
with its first report, before it ever waits.
-/

namespace Triage.Program

open CommandLine

def variableNames : List String :=
  ["TRIAGE_ORG_DATA_URL", "TRIAGE_TEAM_DATA", "TRIAGE_TEAM_OVERRIDE", "TRIAGE_TEST_BUG_DATA",
    "TRIAGE_CI_URL", "TRIAGE_SLO_OUTPUT", "BUGZILLA_ENDPOINT", "BUGZILLA_KEY_FILE",
    "SLACK_TOKEN_FILE"]

def readEnvironment : IO Environment :=
  variableNames.filterMapM fun name => return (← IO.getEnv name).map (name, ·)

/-- Whatever may be the path of a file: words, what follows their equals signs, and variables. -/
def paths (words : List String) (env : Environment) : List String :=
  words ++ words.map (fun w => String.ofList ((w.toList.dropWhile (· ≠ '=')).drop 1)) ++ env.map (·.2)

def readFile? (path : String) : IO (Option (String × ByteArray)) := do
  match ← (IO.FS.readBinFile path).toBaseIO with
  | .ok bytes => return some (path, bytes)
  | .error _ => return none

def readFiles (words : List String) (env : Environment) : IO Files := do
  return .ofList (← (paths words env).filterMapM readFile?)

def writeFiles (old new : Files) : IO Unit := do
  for (path, bytes) in new.contents.entries do
    if (old.contents.get? path).all fun o => o.toList != bytes.toList then
      IO.FS.writeBinFile path bytes

def stamp : String := "1970-01-01T00:00:00Z"

/-- The pages that a search for bugs may take, and the moments that a daemon may serve. -/
def bound : Nat := 0x100000

def report (name : String) (o : Outcome) : IO UInt32 := do
  IO.print o.stdout
  match o with
  | .failure _ cause => IO.eprintln ("Error: " ++ cause.message)
  | .usage => IO.eprintln ("error: these are not arguments of " ++ name)
  | .information .version => IO.println (name ++ " 0.3.1")
  | .information _ => IO.println ("Usage: " ++ name ++ " [OPTIONS]")
  | _ => pure ()
  return o.status.toUInt32

def runReportTool (words : List String) : IO UInt32 := do
  let env ← readEnvironment
  let files ← readFiles words env
  let (o, _) := Http.run Http.unreachable (ReportTool.run words env files bound)
  report "bugtool" o

def runDaemon (words : List String) : IO UInt32 := do
  let env ← readEnvironment
  let files ← readFiles words env
  let ((o, after), _) :=
    Http.run Http.unreachable (DaemonTool.run words env files bound bound stamp none)
  writeFiles files after
  report "triaged" o

end Triage.Program

def main (words : List String) : IO UInt32 :=
  match words with
  | "daemon" :: rest => Triage.Program.runDaemon rest
  | words => Triage.Program.runReportTool words
