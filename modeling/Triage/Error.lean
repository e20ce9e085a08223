import Triage.Text.Quoted

/-!
# What can be wrong with a configuration

Causes as data; `message` is the one place that knows their wording. Causes
that come from a document or a file system have no wording of their own.
-/

namespace Triage

inductive IoError where
  | notFound
  | invalidData
  | isDirectory
  /-- The operation is not offered, with the reason. -/
  | permissionDenied (reason : String)
  deriving DecidableEq, Repr

inductive ConfigError where
  | missingField (field context : String)
  | duplicateTeam (name : String)
  /-- No release has a version and a target that is not a z-stream one. -/
  | noActiveRelease (names : List String)
  | invalidValue (field reason : String)
  | yaml
  | json
  | io (cause : IoError)
  deriving DecidableEq, Repr

namespace ConfigError

def message? : ConfigError → Option String
  | missingField field context => some ("missing required field `" ++ field ++ "` in " ++ context)
  | duplicateTeam name => some ("duplicate team name: " ++ name)
  | noActiveRelease names =>
    some ("no release found that has a x.y.0 target version: ["
      ++ String.intercalate ", " (names.map Text.quoted) ++ "]")
  | invalidValue field reason => some ("invalid value for `" ++ field ++ "`: " ++ reason)
  | yaml | json | io _ => none

end ConfigError

end Triage
