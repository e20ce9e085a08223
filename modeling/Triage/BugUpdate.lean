import Triage.Bug

/-!
# Updates

A change to one bug. What is not set is left alone; a resolution and a comment
go to the tracker but do not show in the record.
-/

namespace Triage

structure KeywordChange where
  add : List String := []
  remove : List String := []
  deriving DecidableEq, Repr

structure BugUpdate where
  status : Option String := none
  resolution : Option String := none
  targetRelease : Option String := none
  keywords : Option KeywordChange := none
  whiteboard : Option String := none
  comment : Option String := none
  deriving DecidableEq, Repr

namespace BugUpdate

def ofStatus (status : String) : BugUpdate := { status := some status }

def addKeyword (u : BugUpdate) (keyword : String) : BugUpdate :=
  let k := u.keywords.getD {}
  { u with keywords := some { k with add := k.add ++ [keyword] } }

def removeKeyword (u : BugUpdate) (keyword : String) : BugUpdate :=
  let k := u.keywords.getD {}
  { u with keywords := some { k with remove := k.remove ++ [keyword] } }

def withComment (u : BugUpdate) (body : String) : BugUpdate := { u with comment := some body }

def appendNew (keywords : List String) (keyword : String) : List String :=
  if keywords.contains keyword then keywords else keywords ++ [keyword]

/-- Removes keywords, then adds those that are missing. -/
def changeKeywords (k : KeywordChange) (keywords : List String) : List String :=
  k.add.foldl appendNew (keywords.filter fun x => !k.remove.contains x)

def applyTo (u : BugUpdate) (b : Bug) : Bug :=
  { b with
    status := u.status.getD b.status
    targetReleases := match u.targetRelease with
      | some target => [target]
      | none => b.targetReleases
    whiteboard := u.whiteboard.getD b.whiteboard
    keywords := match u.keywords with
      | some k => changeKeywords k b.keywords
      | none => b.keywords }

end BugUpdate

end Triage
