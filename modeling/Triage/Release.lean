import Triage.Text.Digits
import Triage.Text.Search

/-!
# Releases

A release with the target versions that belong to it. A release is active while
it has a target other than a z-stream (`4.5.z`), and its version is the first
two numbers of its name.
-/

namespace Triage

structure Milestones where
  start : String := ""
  featureComplete : String := ""
  codeFreeze : String := ""
  ga : String := ""
  deriving DecidableEq, Repr

structure Release where
  name : String := ""
  targets : List String := []
  milestones : Option Milestones := none
  deriving DecidableEq, Repr

structure Version where
  major : Nat
  minor : Nat
  deriving DecidableEq, Repr

namespace Version

def text (v : Version) : String :=
  String.ofList (Text.digits v.major ++ '.' :: Text.digits v.minor)

def le (v w : Version) : Bool := v.major < w.major || (v.major == w.major && v.minor ≤ w.minor)

def least? : List Version → Option Version
  | [] => none
  | v :: rest =>
    match least? rest with
    | some w => some (if v.le w then v else w)
    | none => some v

end Version

namespace Release

def isZStream (target : String) : Bool := ".z".toList.isSuffixOf target.toList

/-- Whether every target is a z-stream one, which holds of a release without targets too. -/
def isZStreamOnly (r : Release) : Bool := r.targets.all isZStream

def versionPart? (part : List Char) : Option Nat := Text.unsigned? Word.greatest32 part

def version? (r : Release) : Option Version :=
  match Text.splitOn '.' r.name.toList with
  | major :: minor :: _ => do
    let major ← versionPart? major
    let minor ← versionPart? minor
    some ⟨major, minor⟩
  | _ => none

/-- The least version of the active releases that have one. -/
def currentVersion? (releases : List Release) : Option Version :=
  Version.least? ((releases.filter (!·.isZStreamOnly)).filterMap version?)

end Release

end Triage
