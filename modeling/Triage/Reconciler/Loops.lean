import Triage.Reconciler

/-!
# Refresh loops

Every kind of data is refreshed again and again by a loop of its own. Loops wait
for their next refresh in the order in which they began to wait; of those that
are due at one moment the first in this order comes first. A loop ends at its
first failure, which is reported.

Time is counted in milliseconds, though only the end of the clock depends on the
unit. The clock moves from one due refresh to the next, so a refresh takes place
exactly when it is due. That a timer is first due at its start and then once per
period, and that timers due at one moment fire in the order in which they wait, is
assumed of the runtime.
-/

namespace Triage

structure Loops where
  intervals : Intervals
  /-- The moment up to which refreshes have taken place. -/
  now : Nat
  waiting : List (Refresh × Nat)
  /-- The failures of loops that ended, oldest first. -/
  errors : List SourceError := []

namespace Loops

/-- The end of the clock: moments are counted in signed 64-bit seconds. -/
def endOfClock : Nat := 0x8000000000000000 * 1000

/-- A moment later than another; there is none past the end of the clock. -/
def later? (clockEnd now period : Nat) : Option Nat :=
  if now + period < clockEnd then some (now + period) else none

/-- Starts the loops on a clock. The directory and the bugs are first due after one
interval, the report at once. Nothing comes of it when a first moment is past the end
of the clock. -/
def startOn? (clockEnd : Nat) (i : Intervals) (now : Nat) : Option Loops := do
  let directory ← later? clockEnd now i.directory
  let bugs ← later? clockEnd now i.bugs
  some {
    intervals := i
    now := now
    waiting := [(.directory, directory), (.bugs, bugs), (.results, now)] }

def start? (i : Intervals) (now : Nat) : Option Loops := startOn? endOfClock i now

def finished (l : Loops) (kind : Refresh) : Bool := !l.waiting.any (·.1 == kind)

/-- The next moment at which a loop is due, if it is not after `horizon`. -/
def nextDue? (l : Loops) (horizon : Nat) : Option Nat :=
  ((l.waiting.map (·.2)).filter (· ≤ horizon)).min?

variable {m : Type → Type} [Monad m]

/-- The refresh of one loop at a moment, after which it waits again or ends. -/
def tick (s : Sources m) (moment : Nat) (kind : Refresh) (l : Loops) (r : Reconciler) :
    m (Loops × Reconciler) := do
  match ← r.refresh s kind with
  | (.ok _, r) =>
    return ({ l with waiting := l.waiting ++ [(kind, moment + l.intervals.period kind)] }, r)
  | (.error e, r) => return ({ l with errors := l.errors ++ [e] }, r)

def tickEach (s : Sources m) (moment : Nat) :
    List (Refresh × Nat) → Loops → Reconciler → m (Loops × Reconciler)
  | [], l, r => return (l, r)
  | (kind, _) :: rest, l, r => do
    let (l, r) ← tick s moment kind l r
    tickEach s moment rest l r

def tickAll (s : Sources m) (moment : Nat) (l : Loops) (r : Reconciler) : m (Loops × Reconciler) :=
  let due := l.waiting.filter (·.2 == moment)
  let rest := l.waiting.filter (·.2 != moment)
  tickEach s moment due { l with now := moment, waiting := rest } r

def momentsOf (i : Intervals) (horizon : Nat) : List (Refresh × Nat) → Nat
  | [] => 0
  | (kind, due) :: rest =>
    (if due ≤ horizon then (horizon - due) / i.period kind + 1 else 0) + momentsOf i horizon rest

/-- The most moments at which a loop can be due up to `horizon`. -/
def moments (l : Loops) (horizon : Nat) : Nat := momentsOf l.intervals horizon l.waiting

/-- At most `fuel` moments up to `horizon`. -/
def advanceWithin (s : Sources m) (horizon : Nat) :
    Nat → Loops → Reconciler → m (Loops × Reconciler)
  | 0, l, r => return (l, r)
  | fuel + 1, l, r =>
    match l.nextDue? horizon with
    | none => return ({ l with now := horizon }, r)
    | some moment => do
      let (l, r) ← tickAll s moment l r
      advanceWithin s horizon fuel l r

def runTo (s : Sources m) (horizon : Nat) (l : Loops) (r : Reconciler) : m (Loops × Reconciler) :=
  advanceWithin s horizon (l.moments horizon + 1) l r

/-- Lets time pass. No refresh takes place while none does. -/
def advance (s : Sources m) (milliseconds : Nat) (l : Loops) (r : Reconciler) :
    m (Loops × Reconciler) :=
  if milliseconds = 0 then return (l, r) else runTo s (l.now + milliseconds) l r

end Loops

end Triage
