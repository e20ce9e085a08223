import Triage.Error
import Triage.OrgConfig.Json
import Triage.OrgConfig.Reading
import Triage.Yaml.Document

/-!
# Configurations as text

A configuration is written in JSON, in either form, or in YAML, in the stored form.
-/

namespace Triage

inductive TextFormat where
  | json
  | yaml
  deriving DecidableEq, Repr

namespace OrgConfig

def ofYamlText? (text : String) : Option OrgConfig := (Yaml.View.ofText? text).bind read?

def ofText (format : TextFormat) (text : String) : Except ConfigError OrgConfig :=
  match format with
  | .json => (ofJsonText? text).elim (.error .json) .ok
  | .yaml => (ofYamlText? text).elim (.error .yaml) .ok

end OrgConfig

end Triage
