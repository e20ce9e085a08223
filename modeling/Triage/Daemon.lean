import Triage.Files
import Triage.Json.Printer
import Triage.Reconciler.Loops
import Triage.Slo.Json
import Triage.Snapshot.Json

/-!
# Serving reports

While the refresh loops run, every report that is announced is written to a file,
if one is given. A report that cannot be written is passed over. The first failure
of a loop ends all of them.

A report is first written to a file of another extension and then moved onto its
place, so that whoever reads the place finds a whole report.
-/

namespace Triage

inductive WriteError where
  | write (path : String) (cause : IoError)
  | replace (path : String) (cause : IoError)
  deriving DecidableEq, Repr

namespace ReportFile

def text (stamp : String) (report : Snapshot Slo.Report) : String :=
  (report.toJson Slo.Report.toJson stamp).pretty

def draftPath (path : String) : String := Path.withExtension path "tmp"

/-- The files after a report is written, and what went wrong if it was not. -/
def write (fs : Files) (path stamp : String) (report : Snapshot Slo.Report) :
    Except WriteError Unit × Files :=
  match fs.write (draftPath path) (text stamp report).toUTF8 with
  | .error cause => (.error (.write (draftPath path) cause), fs)
  | .ok drafted =>
    match drafted.rename (draftPath path) path with
    | .error cause => (.error (.replace path cause), drafted)
    | .ok fs => (.ok (), fs)

end ReportFile

structure Daemon where
  loops : Loops
  reconciler : Reconciler
  files : Files
  output : Option String
  /-- The generation of the last report that was noticed. -/
  seen : Nat := 0
  /-- The failure that ended the loops. -/
  stopped : Option SourceError := none

namespace Daemon

/-- Starts to serve. Nothing comes of it when the loops cannot be started. -/
def start? (r : Reconciler) (i : Intervals) (now : Nat) (files : Files) (output : Option String) :
    Option Daemon :=
  (Loops.start? i now).map fun loops => {
    loops := loops
    reconciler := r
    files := files
    output := output
    seen := r.published }

def notice (stamp : String) (d : Daemon) : Daemon :=
  if d.reconciler.published = d.seen then d
  else
    let files := match d.output with
      | some path => (ReportFile.write d.files path stamp d.reconciler.results).2
      | none => d.files
    { d with files := files, seen := d.reconciler.published }

/-- Notices the first failure of a loop; all loops end with it. -/
def settle (d : Daemon) : Daemon :=
  match d.stopped, d.loops.errors with
  | none, e :: _ => { d with stopped := some e, loops := { d.loops with waiting := [] } }
  | _, _ => d

variable {m : Type → Type} [Monad m]

def moment (s : Sources m) (stamp : String) (now : Nat) (d : Daemon) : m Daemon := do
  let (loops, reconciler) ← Loops.tickAll s now d.loops d.reconciler
  return (notice stamp { d with loops := loops, reconciler := reconciler }).settle

/-- At most `fuel` moments up to `horizon`, and none once `enough` holds. -/
def advanceWithin (s : Sources m) (stamp : String) (enough : Daemon → Bool) (horizon : Nat) :
    Nat → Daemon → m Daemon
  | 0, d => return d
  | fuel + 1, d =>
    if enough d then return d
    else match d.loops.nextDue? horizon with
      | none => return { d with loops := { d.loops with now := horizon } }
      | some due => do advanceWithin s stamp enough horizon fuel (← d.moment s stamp due)

def advance (s : Sources m) (stamp : String) (milliseconds : Nat) (d : Daemon) : m Daemon :=
  if milliseconds = 0 then return d
  else
    let horizon := d.loops.now + milliseconds
    advanceWithin s stamp (fun _ => false) horizon (d.loops.moments horizon + 1) d

/-- The messages of a failure that ended the loops, outermost first. -/
def stopMessages (e : SourceError) : List String :=
  "Reconciliation stopped" :: e.message?.toList

end Daemon

end Triage
