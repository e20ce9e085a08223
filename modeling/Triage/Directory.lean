import Triage.Error
import Triage.OrgConfig.Json
import Triage.Sha256

/-!
# The team directory

A loaded configuration: ignored teams are dropped, and no two of the others
share a name. The order of the teams is the one in which ownership is decided.

`Directory.load` refuses a configuration at its first fault; `keptTeams` says
which fault that is.
-/

namespace Triage

structure Directory where
  title : String
  teams : List Team
  releases : List Release
  /-- Obligations of every team without its own, by metric. -/
  slo : SortedMap String Obligation
  names_nodup : (teams.map (·.name)).Nodup

namespace Directory

/-- The directory without teams, which no configuration loads to by itself. -/
def empty : Directory := ⟨"", [], [], .empty, .nil⟩

instance : Inhabited Directory := ⟨empty⟩

/-- The teams that are not ignored, or the first fault: a nameless team, one
without components, or one whose name was `seen` before. -/
def keptTeams (seen : List String) : List Team → Except ConfigError (List Team)
  | [] => .ok []
  | t :: rest =>
    if t.name = "" then .error (.missingField "name" "team entry")
    else if t.isIgnored then keptTeams seen rest
    else if t.components = [] then
      .error (.missingField "components" ("team " ++ Text.quoted t.name))
    else if t.name ∈ seen then .error (.duplicateTeam t.name)
    else match keptTeams (t.name :: seen) rest with
      | .ok teams => .ok (t :: teams)
      | .error e => .error e

theorem keptTeams_nodup {seen : List String} {l teams : List Team}
    (h : keptTeams seen l = .ok teams) :
    (teams.map (·.name)).Nodup ∧ ∀ t ∈ teams, t.name ∉ seen := by
  induction l generalizing seen teams with
  | nil => cases h; exact ⟨.nil, by simp⟩
  | cons t rest ih =>
    simp only [keptTeams] at h
    split at h
    · cases h
    split at h
    · exact ih h
    split at h
    · cases h
    split at h
    · cases h
    rename_i hseen
    split at h
    · rename_i kept hk
      cases h
      obtain ⟨hn, hs⟩ := ih hk
      refine ⟨List.nodup_cons.mpr ⟨?_, hn⟩, ?_⟩
      · intro hm
        obtain ⟨u, hu, he⟩ := List.mem_map.mp hm
        exact hs u hu (by rw [he]; exact List.mem_cons_self)
      · intro u hu
        rcases List.mem_cons.mp hu with rfl | hu
        · exact hseen
        · exact fun hm => hs u hu (List.mem_cons_of_mem _ hm)
    · cases h

def load (c : OrgConfig) : Except ConfigError Directory :=
  if c.teams = [] then .error (.missingField "Teams" "org configuration")
  else match h : keptTeams [] c.teams with
    | .error e => .error e
    | .ok teams =>
      if c.releases.any (·.name == "") then .error (.missingField "name" "release entry")
      else .ok ⟨c.title, teams, c.releases, c.slo, (keptTeams_nodup h).1⟩

def toConfig (d : Directory) : OrgConfig := ⟨d.title, d.teams, d.releases, d.slo⟩

instance : DecidableEq Directory := fun a b =>
  if h : a.toConfig = b.toConfig then
    .isTrue (by cases a; cases b; simp only [toConfig, OrgConfig.mk.injEq] at h; simp [h])
  else .isFalse fun e => h (e ▸ rfl)

def ofJsonText (text : String) : Except ConfigError Directory :=
  match OrgConfig.ofJsonText? text with
  | some c => load c
  | none => .error .json

/-- The directory of a JSON text in the stored form. Whatever is wrong counts as the text's fault. -/
def ofStoredText (text : String) : Except ConfigError Directory :=
  match (Json.read? text).bind OrgConfig.read? with
  | some c => (load c).mapError fun _ => .json
  | none => .error .json

def team? (d : Directory) (name : String) : Option Team := d.teams.find? (·.name == name)

def order (d : Directory) : List String := d.teams.map (·.name)

def teamNames (d : Directory) : List String := d.order.mergeSort

/-- The least version that is still developed. -/
def currentVersion (d : Directory) : Except ConfigError String :=
  match Release.currentVersion? d.releases with
  | some v => .ok v.text
  | none => .error (.noActiveRelease (d.releases.map (·.name)))

def releaseOf (version : String) : String := version ++ ".0"

def currentRelease (d : Directory) : Except ConfigError String :=
  d.currentVersion.map releaseOf

def storage (d : Directory) : String := d.toConfig.toJson.compact

def digest (d : Directory) : String := Sha256.hex d.storage.toUTF8.toList

end Directory

end Triage
