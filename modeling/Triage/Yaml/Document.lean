import Triage.Document
import Triage.Yaml.Node.Grammar
import Triage.Yaml.Number

/-!
# Records in YAML

How typed parts are read from a node. A string is any scalar as it is written.
Numbers and truth values are plain scalars, or literal ones with the tag of their
kind. Where a collection or a record is expected, an empty plain scalar is an
empty one. A record is a mapping only.
-/

namespace Triage.Yaml

structure View where
  anchors : Anchors
  node : Node

namespace View

def content (v : View) : Node := v.node.follow v.anchors

def part (v : View) (n : Node) : View := { v with node := n }

def text? (v : View) : Option String :=
  match v.content with
  | .scalar text _ _ => some text
  | _ => none

/-- The text of a scalar that may be other than a string: a plain one, or a literal one
with the given tag. -/
def typedText? (v : View) (tag : String) : Option String :=
  match v.content with
  | .scalar text .plain _ => some text
  | .scalar text .literal (some t) => if t = "tag:yaml.org,2002:" ++ tag then some text else none
  | _ => none

def flag? (v : View) : Option Bool := do
  let text ← v.typedText? "bool"
  if ["true", "True", "TRUE"].contains text then some true
  else if ["false", "False", "FALSE"].contains text then some false
  else none

def natural? (v : View) : Option Nat := (v.typedText? "int").bind Yaml.natural?

def single? (v : View) : Option Binary32 :=
  ((v.typedText? "float").bind Yaml.double?).map (·.convert Binary.single)

/-- Whether the node may stand for an empty collection. -/
def isEmptyScalar (v : View) : Bool :=
  match v.content with
  | .scalar text .plain _ => text.isEmpty
  | _ => false

def items? (v : View) : Option (List View) :=
  match v.content with
  | .sequence items => some (items.map v.part)
  | _ => if v.isEmptyScalar then some [] else none

def entries? (v : View) : Option (List (String × View)) :=
  match v.content with
  | .mapping entries => entries.mapM fun (key, value) => (v.part key).text?.map (·, v.part value)
  | _ => if v.isEmptyScalar then some [] else none

def fields? (names : List String) (v : View) : Option (String → Option View) := do
  let entries ← v.entries?
  if names.all fun n => entries.countP (·.1 == n) ≤ 1 then some fun n => entries.lookup n else none

def isNull (v : View) : Bool :=
  match v.content with
  | .scalar text .plain none => ["", "~", "null", "Null", "NULL"].contains text
  | .scalar text .plain (some tag) =>
    tag = "tag:yaml.org,2002:null" && ["~", "null", "Null", "NULL"].contains text
  | _ => false

instance : Document View where
  text? := text?
  flag? := flag?
  natural? := natural?
  single? := single?
  items? := items?
  entries? := entries?
  fields? := fields?
  isNull := isNull

end View

def View.ofText? (text : String) : Option View :=
  (Tree.ofText? text).map fun t => { anchors := t.anchors, node := t.root }

end Triage.Yaml
