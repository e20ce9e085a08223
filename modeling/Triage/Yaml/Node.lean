import Triage.SortedMap
import Triage.Yaml.Token

/-!
# Nodes

The structure of a YAML text. A reference stays a number, so that a collection may
refer to itself; a tree holds what the numbers stand for.
-/

namespace Triage.Yaml

inductive Node where
  | scalar (text : String) (style : Style) (tag : Option String)
  | sequence (items : List Node)
  | mapping (entries : List (Node × Node))
  | reference (number : Nat)

/-- What the aliases of a text stand for. -/
abbrev Anchors := SortedMap Nat Node

structure Tree where
  root : Node
  anchors : Anchors

def Node.empty : Node := .scalar "" .plain none

def Node.follow (anchors : Anchors) (n : Node) : Node :=
  match n with
  | reference number => (anchors.get? number).getD n
  | n => n

end Triage.Yaml
