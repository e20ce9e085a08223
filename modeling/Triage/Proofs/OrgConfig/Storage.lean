import Triage.OrgConfig.Json
import Triage.Proofs.Json.Records
import Triage.Proofs.OrgConfig.Reading

/-!
# The storage form is read back

Every part of a configuration is read back from its storage form, provided that
no listed scope is the fallback tag alone (`Scope.Canonical`) and every
obligation's count is read back from its own digits. The first holds of
whatever was read, since such a list is read as the fallback scope.

The storage form is not of the keyed form: it has `Teams`, never `teams`.
-/

namespace Triage

open Json (Stores Field present)

/-- The count is read back from its printed digits. -/
def Obligation.CountReadsBack (o : Obligation) : Prop :=
  (Json.read? (Json.ofSingle o.count).compact).bind Json.single? = some o.count

instance (o : Obligation) : Decidable o.CountReadsBack := inferInstanceAs (Decidable (_ = _))

structure Team.Storable (t : Team) : Prop where
  scopes : t.ScopesCanonical
  counts : ∀ o ∈ t.slo.values, o.CountReadsBack

section Parts

variable {n : Nat}

theorem Scope.Canonical.stores {s : Scope} (h : s.Canonical) :
    Stores (n + 1) Scope.read? s.toJson s := by
  obtain ⟨hlegible, hread⟩ := Json.stores_strings (n := n) s.toList
  refine ⟨hlegible, ?_⟩
  rw [read?, toJson, hread, Option.map_some, h]

-- ---------------------------------------------------------------------------
-- Obligations
-- ---------------------------------------------------------------------------

def Obligation.fields (o : Obligation) : List Field :=
  [⟨true, "count", .ofSingle o.count⟩, ⟨o.perMember, "perMember", .bool true⟩]

theorem Obligation.toJson_eq (o : Obligation) : o.toJson = .object (present o.fields) := by
  simp [toJson, present, fields, Json.member, Json.memberIf]

theorem Obligation.CountReadsBack.stores {o : Obligation} (h : o.CountReadsBack) :
    Stores (n + 1) Obligation.read? o.toJson o := by
  have hcount : Field.Holds n Document.single? (.zero false) o.count
      ⟨true, "count", .ofSingle o.count⟩ := Json.holds_written (Json.stores_single h)
  have hmember : Field.Holds n Document.flag? false o.perMember
      ⟨o.perMember, "perMember", .bool true⟩ := by
    refine ⟨fun hw => ?_, id⟩
    rw [show o.perMember = true from hw]
    exact Json.stores_true
  have hn : (o.fields.map (·.key)).Nodup := by simp [fields]
  rw [toJson_eq]
  refine ⟨Json.legible_present ?_, ?_⟩
  · intro f hf
    simp only [fields, List.mem_cons, List.not_mem_nil, or_false] at hf
    rcases hf with rfl | rfl
    exacts [hcount.legible, hmember.legible]
  · rw [read?, Json.fields?_present hn]
    simp [hcount.defaulted? hn (by simp [fields]), hmember.defaulted? hn (by simp [fields])]

theorem stores_obligations {m : SortedMap String Obligation}
    (h : ∀ o ∈ m.values, o.CountReadsBack) :
    Stores (n + 2) Obligation.readMap? (.ofMap Obligation.toJson m) m :=
  Json.stores_map fun o ho => (h o ho).stores

-- ---------------------------------------------------------------------------
-- Teams
-- ---------------------------------------------------------------------------

def Team.fields (t : Team) : List Field :=
  [⟨true, "name", .string t.name⟩,
    ⟨t.slackChannel != "", "slack_chan", .string t.slackChannel⟩,
    ⟨t.lead != "", "lead", .string t.lead⟩,
    ⟨!t.managers.isEmpty, "managers", .ofStrings t.managers⟩,
    ⟨t.group != "", "group", .string t.group⟩,
    ⟨true, "components", .ofStrings t.components⟩,
    ⟨!t.subcomponents.isEmpty, "subcomponents", .ofMap Scope.toJson t.subcomponents⟩,
    ⟨t.memberCount != 0, "memberCount", .ofNat t.memberCount.toNat⟩,
    ⟨!t.slo.isEmpty, "slo", .ofMap Obligation.toJson t.slo⟩]

theorem Team.toJson_eq (t : Team) : t.toJson = .object (present t.fields) := by
  simp [toJson, present, fields, Json.member, Json.memberIf]

theorem Team.Storable.stores {t : Team} (h : t.Storable) :
    Stores (n + 3) Team.read? t.toJson t := by
  have hname : Field.Holds (n + 2) Document.text? "" t.name ⟨true, "name", .string t.name⟩ :=
    Json.holds_written (Json.stores_string _)
  have hslack : Field.Holds (n + 2) Document.text? "" t.slackChannel
      ⟨t.slackChannel != "", "slack_chan", .string t.slackChannel⟩ := Json.holds_text _
  have hlead : Field.Holds (n + 2) Document.text? "" t.lead
      ⟨t.lead != "", "lead", .string t.lead⟩ := Json.holds_text _
  have hmanagers : Field.Holds (n + 2) Document.strings? [] t.managers
      ⟨!t.managers.isEmpty, "managers", .ofStrings t.managers⟩ :=
    Json.holds_list (Json.stores_strings _)
  have hgroup : Field.Holds (n + 2) Document.text? "" t.group
      ⟨t.group != "", "group", .string t.group⟩ := Json.holds_text _
  have hcomponents : Field.Holds (n + 2) Document.strings? [] t.components
      ⟨true, "components", .ofStrings t.components⟩ :=
    Json.holds_written (Json.stores_strings _)
  have hscopes : Field.Holds (n + 2) (Document.map? Scope.read?) .empty t.subcomponents
      ⟨!t.subcomponents.isEmpty, "subcomponents", .ofMap Scope.toJson t.subcomponents⟩ :=
    Json.holds_map (Json.stores_map fun s hs => (h.scopes s hs).stores)
  have hmembers : Field.Holds (n + 2) Document.uint32? 0 t.memberCount
      ⟨t.memberCount != 0, "memberCount", .ofNat t.memberCount.toNat⟩ :=
    ⟨fun _ => Json.stores_ofNat _, fun hw => by simpa using hw⟩
  have hslo : Field.Holds (n + 2) Obligation.readMap? .empty t.slo
      ⟨!t.slo.isEmpty, "slo", .ofMap Obligation.toJson t.slo⟩ :=
    Json.holds_map (stores_obligations h.counts)
  have hn : (t.fields.map (·.key)).Nodup := by simp [fields]
  rw [toJson_eq]
  refine ⟨Json.legible_present ?_, ?_⟩
  · intro f hf
    simp only [fields, List.mem_cons, List.not_mem_nil, or_false] at hf
    rcases hf with rfl | rfl | rfl | rfl | rfl | rfl | rfl | rfl | rfl
    exacts [hname.legible, hslack.legible, hlead.legible, hmanagers.legible, hgroup.legible,
      hcomponents.legible, hscopes.legible, hmembers.legible, hslo.legible]
  · rw [read?, Json.fields?_present hn]
    simp [hname.defaulted? hn (by simp [fields]), hslack.defaulted? hn (by simp [fields]),
      hlead.defaulted? hn (by simp [fields]), hmanagers.defaulted? hn (by simp [fields]),
      hgroup.defaulted? hn (by simp [fields]), hcomponents.defaulted? hn (by simp [fields]),
      hscopes.defaulted? hn (by simp [fields]), hmembers.defaulted? hn (by simp [fields]),
      hslo.defaulted? hn (by simp [fields])]

-- ---------------------------------------------------------------------------
-- Releases
-- ---------------------------------------------------------------------------

def Milestones.fields (m : Milestones) : List Field :=
  [⟨m.start != "", "start", .string m.start⟩,
    ⟨m.featureComplete != "", "feature_complete", .string m.featureComplete⟩,
    ⟨m.codeFreeze != "", "code_freeze", .string m.codeFreeze⟩,
    ⟨m.ga != "", "ga", .string m.ga⟩]

theorem Milestones.toJson_eq (m : Milestones) : m.toJson = .object (present m.fields) := by
  simp [toJson, present, fields, Json.memberIf]

theorem Milestones.stores (m : Milestones) : Stores (n + 1) Milestones.read? m.toJson m := by
  have htext : ∀ key s, Field.Holds n Document.text? "" s ⟨s != "", key, .string s⟩ :=
    fun _ _ => Json.holds_text _
  have hn : (m.fields.map (·.key)).Nodup := by simp [fields]
  rw [toJson_eq]
  refine ⟨Json.legible_present ?_, ?_⟩
  · intro f hf
    simp only [fields, List.mem_cons, List.not_mem_nil, or_false] at hf
    rcases hf with rfl | rfl | rfl | rfl <;> exact (htext _ _).legible
  · rw [read?, Json.fields?_present hn]
    simp [(htext "start" m.start).defaulted? hn (by simp [fields]),
      (htext "feature_complete" m.featureComplete).defaulted? hn (by simp [fields]),
      (htext "code_freeze" m.codeFreeze).defaulted? hn (by simp [fields]),
      (htext "ga" m.ga).defaulted? hn (by simp [fields])]

def Release.fields (r : Release) : List Field :=
  [⟨true, "name", .string r.name⟩,
    ⟨true, "targets", .ofStrings r.targets⟩,
    ⟨r.milestones.isSome, "milestones", .ofOption Milestones.toJson r.milestones⟩]

theorem Release.toJson_eq (r : Release) : r.toJson = .object (present r.fields) := by
  rw [toJson, fields]
  cases r.milestones <;> simp [present, Json.member, Json.memberIf, Json.ofOption]

theorem Release.stores (r : Release) : Stores (n + 2) Release.read? r.toJson r := by
  have hname : Field.Holds (n + 1) Document.text? "" r.name ⟨true, "name", .string r.name⟩ :=
    Json.holds_written (Json.stores_string _)
  have htargets : Field.Holds (n + 1) Document.strings? [] r.targets
      ⟨true, "targets", .ofStrings r.targets⟩ := Json.holds_written (Json.stores_strings _)
  have hmilestones : Field.Holds (n + 1) (Document.optional? Milestones.read?) none r.milestones
      ⟨r.milestones.isSome, "milestones", .ofOption Milestones.toJson r.milestones⟩ := by
    refine Json.holds_optional (fun m _ => m.stores) fun m _ => ?_
    rw [m.toJson_eq]
    rfl
  have hn : (r.fields.map (·.key)).Nodup := by simp [fields]
  rw [toJson_eq]
  refine ⟨Json.legible_present ?_, ?_⟩
  · intro f hf
    simp only [fields, List.mem_cons, List.not_mem_nil, or_false] at hf
    rcases hf with rfl | rfl | rfl
    exacts [hname.legible, htargets.legible, hmilestones.legible]
  · rw [read?, Json.fields?_present hn]
    simp [hname.defaulted? hn (by simp [fields]), htargets.defaulted? hn (by simp [fields]),
      hmilestones.defaulted? hn (by simp [fields])]

end Parts

-- ---------------------------------------------------------------------------
-- Configurations
-- ---------------------------------------------------------------------------

namespace OrgConfig

structure Storable (c : OrgConfig) : Prop where
  teams : ∀ t ∈ c.teams, t.Storable
  counts : ∀ o ∈ c.slo.values, o.CountReadsBack

variable {c : OrgConfig}

def fields (c : OrgConfig) : List Field :=
  [⟨c.title != "", "OrgTitle", .string c.title⟩,
    ⟨true, "Teams", .array (c.teams.map Team.toJson)⟩,
    ⟨!c.releases.isEmpty, "Releases", .array (c.releases.map Release.toJson)⟩,
    ⟨!c.slo.isEmpty, "slo", .ofMap Obligation.toJson c.slo⟩]

theorem toJson_eq (c : OrgConfig) : c.toJson = .object (present c.fields) := by
  simp [toJson, present, fields, Json.member, Json.memberIf]

theorem keys_nodup (c : OrgConfig) : (c.fields.map (·.key)).Nodup := by simp [fields]

theorem Storable.stores (h : c.Storable) {n : Nat} :
    Stores (n + 5) OrgConfig.read? c.toJson c := by
  have htitle : Field.Holds (n + 4) Document.text? "" c.title
      ⟨c.title != "", "OrgTitle", .string c.title⟩ := Json.holds_text _
  have hteams : Field.Holds (n + 4) (Document.list? Team.read?) [] c.teams
      ⟨true, "Teams", .array (c.teams.map Team.toJson)⟩ :=
    Json.holds_written (Json.stores_list fun t ht => (h.teams t ht).stores)
  have hreleases : Field.Holds (n + 4) (Document.list? Release.read?) [] c.releases
      ⟨!c.releases.isEmpty, "Releases", .array (c.releases.map Release.toJson)⟩ :=
    Json.holds_list (Json.stores_list fun r _ => r.stores)
  have hslo : Field.Holds (n + 4) Obligation.readMap? .empty c.slo
      ⟨!c.slo.isEmpty, "slo", .ofMap Obligation.toJson c.slo⟩ :=
    Json.holds_map (stores_obligations h.counts)
  have hn := c.keys_nodup
  rw [toJson_eq]
  refine ⟨Json.legible_present ?_, ?_⟩
  · intro f hf
    simp only [fields, List.mem_cons, List.not_mem_nil, or_false] at hf
    rcases hf with rfl | rfl | rfl | rfl
    exacts [htitle.legible, hteams.legible, hreleases.legible, hslo.legible]
  · rw [read?, Json.fields?_present hn]
    simp [htitle.defaulted? hn (by simp [fields]), hteams.defaulted? hn (by simp [fields]),
      hreleases.defaulted? hn (by simp [fields]), hslo.defaulted? hn (by simp [fields])]

/-- The storage form has no member for the teams of the keyed form. -/
theorem keyed_read?_toJson (c : OrgConfig) : KeyedOrgConfig.read? c.toJson.reread = none := by
  have habsent : Json.lookupReread c.fields "teams" = none := by
    rw [Json.lookupReread, Json.lookup_present_of_notMem (by simp [fields])]
    rfl
  rw [toJson_eq, KeyedOrgConfig.read?, Json.fields?_present c.keys_nodup]
  simp [Document.required?, habsent]

theorem Storable.read?_compact (h : c.Storable) :
    Json.read? c.toJson.compact = some c.toJson.reread :=
  (h.stores (n := 122)).legible.read?_compact

theorem Storable.ofJsonText?_compact (h : c.Storable) :
    ofJsonText? c.toJson.compact = some c := by
  have hstores : Stores 127 OrgConfig.read? c.toJson c := h.stores
  rw [ofJsonText?, h.read?_compact, Option.bind_some, ofJson?,
    if_pos hstores.legible.sound_reread, keyed_read?_toJson, hstores.read_eq]
  rfl

end OrgConfig

end Triage
