import Triage.Directory.Ownership
import Triage.Proofs.Directory.Storage

/-!
# The keyed form and the stored form

A keyed configuration lists its teams and releases by key, in any order
(`KeyedOrgConfig.Entries`). When every entry has its key as name or no name at
all, it is loaded as the stored form that lists the same entries sorted by name,
whatever is wrong with them: the entries come out of the map in the order of
their keys, and the keys have become their names.
-/

namespace Triage

-- ---------------------------------------------------------------------------
-- Sorted by name
-- ---------------------------------------------------------------------------

section Sorted

variable {α : Type} (name : α → String) {l l' : List α}

theorem eq_mergeSort_of_pairwise_lt (hl : l.Pairwise (name · < name ·)) (hp : l.Perm l') :
    l = l'.mergeSort (fun x y => name x ≤ name y) := by
  have hnames : (l.map name).Nodup := by
    rw [List.Nodup, List.pairwise_map]
    refine hl.imp fun hlt he => ?_
    exact String.lt_irrefl _ (he ▸ hlt)
  have hsorted : (l'.mergeSort (fun x y => name x ≤ name y)).Pairwise (name · ≤ name ·) := by
    have htrans (x y z : α) (hxy : decide (name x ≤ name y)) (hyz : decide (name y ≤ name z)) :
        decide (name x ≤ name z) := by
      simp only [decide_eq_true_eq] at *
      exact String.le_trans hxy hyz
    have htotal (x y : α) : decide (name x ≤ name y) || decide (name y ≤ name x) := by
      simpa using String.le_total (name x) (name y)
    exact (List.pairwise_mergeSort htrans htotal l').imp of_decide_eq_true
  refine List.Perm.eq_of_pairwise ?_ (hl.imp Std.le_of_lt) hsorted
    (hp.trans (List.mergeSort_perm l' _).symm)
  intro x y hx hy hxy hyx
  have hy : y ∈ l := hp.mem_iff.mpr ((List.mergeSort_perm l' _).mem_iff.mp hy)
  exact List.inj_on_of_nodup_map hnames hx hy (String.le_antisymm hxy hyx)

theorem values_named (rename : String → α → α) (hrename : ∀ key x, name (rename key x) = key)
    (hself : ∀ x, rename (name x) x = x) {entries : List (String × α)}
    (hkeys : (entries.map (·.1)).Nodup)
    (hnamed : ∀ e ∈ entries, name e.2 = e.1 ∨ name e.2 = "") :
    ((SortedMap.ofList entries).mapValues fun key x =>
        if name x = "" then rename key x else x).values =
      (entries.map fun e => rename e.1 e.2).mergeSort (fun x y => name x ≤ name y) := by
  have hperm := SortedMap.entries_ofList_perm hkeys
  have hvalues : ((SortedMap.ofList entries).mapValues fun key x =>
      if name x = "" then rename key x else x).values =
        (SortedMap.ofList entries).entries.map fun e => rename e.1 e.2 := by
    simp only [SortedMap.values, SortedMap.mapValues, List.map_map]
    refine List.map_congr_left fun e he => ?_
    rcases hnamed e (hperm.mem_iff.mp he) with hname | hname
    · by_cases hempty : name e.2 = ""
      · simp [hempty]
      · simp only [Function.comp_apply, hempty, ↓reduceIte]
        rw [← hname, hself]
    · simp [hname]
  rw [hvalues]
  refine eq_mergeSort_of_pairwise_lt name ?_ (hperm.map _)
  rw [List.pairwise_map]
  simpa only [hrename] using (SortedMap.ofList entries).sorted

end Sorted

-- ---------------------------------------------------------------------------
-- Written entries
-- ---------------------------------------------------------------------------

def Document.pairs? {δ α : Type} [Document δ] (value : δ → Option α) (d : δ) :
    Option (List (String × α)) :=
  (entries? d).bind fun entries => entries.mapM fun (key, v) => (value v).map (key, ·)

theorem Document.map?_eq {δ α : Type} [Document δ] (value : δ → Option α) (d : δ) :
    map? value d = (pairs? value d).map SortedMap.ofList := by
  rw [pairs?, Option.map_eq_bind, Option.bind_assoc]
  rfl

namespace KeyedOrgConfig

/-- A keyed configuration as it is written, its entries in the order of the document. -/
structure Entries where
  title : String := ""
  teams : List (String × Team)
  releases : List (String × Release) := []
  slo : SortedMap String Obligation := .empty
  deriving DecidableEq

namespace Entries

open Document (required? defaulted? text? pairs?)

variable {δ : Type} [Document δ]

def config (w : Entries) : KeyedOrgConfig where
  title := w.title
  teams := .ofList w.teams
  releases := .ofList w.releases
  slo := w.slo

/-- The stored form that lists the same entries, each under its key as name, sorted by name. -/
def sortedByName (w : Entries) : OrgConfig where
  title := w.title
  teams := (w.teams.map fun e => { e.2 with name := e.1 }).mergeSort fun t u => t.name ≤ u.name
  releases :=
    (w.releases.map fun e => { e.2 with name := e.1 }).mergeSort fun r s => r.name ≤ s.name
  slo := w.slo

def read? (d : δ) : Option Entries := do
  let get ← Document.fields? ["orgTitle", "teams", "releases", "slo"] d
  some {
    title := ← defaulted? get "orgTitle" "" text?
    teams := ← required? get "teams" (pairs? Team.read?)
    releases := ← defaulted? get "releases" [] (pairs? Release.read?)
    slo := ← defaulted? get "slo" .empty Obligation.readMap? }

def ofJsonText? (text : String) : Option Entries :=
  (Json.read? text).bind fun v => if v.sound then read? v else none

theorem read?_eq (d : δ) : KeyedOrgConfig.read? d = (read? d).map config := by
  have hrequired (get : String → Option δ) :
      required? get "teams" (Document.map? Team.read?) =
        (required? get "teams" (pairs? Team.read?)).map .ofList := by
    cases h : get "teams" <;> simp [required?, h, Document.map?_eq]
  have hdefaulted (get : String → Option δ) :
      defaulted? get "releases" .empty (Document.map? Release.read?) =
        (defaulted? get "releases" [] (pairs? Release.read?)).map .ofList := by
    cases h : get "releases" <;> simp [defaulted?, h, Document.map?_eq, SortedMap.ofList]
  simp [KeyedOrgConfig.read?, read?, hrequired, hdefaulted, Option.map_bind, Option.bind_map,
    Function.comp_def, config]

-- ---------------------------------------------------------------------------
-- The same content in both forms
-- ---------------------------------------------------------------------------

/-- No key is written twice, and no entry has a name other than its key. -/
structure Consistent (w : Entries) : Prop where
  teams_nodup : (w.teams.map (·.1)).Nodup
  releases_nodup : (w.releases.map (·.1)).Nodup
  teams_named : ∀ e ∈ w.teams, e.2.name = e.1 ∨ e.2.name = ""
  releases_named : ∀ e ∈ w.releases, e.2.name = e.1 ∨ e.2.name = ""

structure Reorders (w' w : Entries) : Prop where
  title : w'.title = w.title
  teams : w'.teams.Perm w.teams
  releases : w'.releases.Perm w.releases
  slo : w'.slo = w.slo

theorem Consistent.toOrgConfig_config {w : Entries} (h : w.Consistent) :
    w.config.toOrgConfig = w.sortedByName := by
  have hteams := values_named Team.name (fun key t => { t with name := key })
    (fun _ _ => rfl) (fun _ => rfl) h.teams_nodup h.teams_named
  have hreleases := values_named Release.name (fun key r => { r with name := key })
    (fun _ _ => rfl) (fun _ => rfl) h.releases_nodup h.releases_named
  rw [toOrgConfig, sortedByName, ← hteams, ← hreleases]
  rfl

theorem Reorders.config_eq {w' w : Entries} (h : w'.Reorders w) (hw : w.Consistent) :
    w'.config = w.config := by
  rw [config, config, h.title, h.slo, SortedMap.ofList_perm hw.teams_nodup h.teams,
    SortedMap.ofList_perm hw.releases_nodup h.releases]

theorem ofJsonText?_eq {text : String} {w : Entries} (h : ofJsonText? text = some w) :
    OrgConfig.ofJsonText? text = some w.config.toOrgConfig := by
  obtain ⟨v, hv, hw⟩ := Option.bind_eq_some_iff.mp h
  split at hw
  · rename_i hsound
    simp [OrgConfig.ofJsonText?, hv, OrgConfig.ofJson?, hsound, read?_eq, hw]
  · cases hw

end Entries

end KeyedOrgConfig

namespace Directory

open KeyedOrgConfig (Entries)

/-- However its entries are ordered, a keyed configuration loads to the directory,
or is refused with the cause, of the stored form with the same entries sorted by
name, and so is a text that lists them; the owners are the same as well. -/
theorem load_keyed {w written : Entries} (hw : w.Consistent) (horder : written.Reorders w) :
    load written.config.toOrgConfig = load w.sortedByName ∧
    (∀ text, Entries.ofJsonText? text = some written → ofJsonText text = load w.sortedByName) ∧
    ∀ d d', load written.config.toOrgConfig = .ok d → load w.sortedByName = .ok d' →
      ∀ component subcomponent, d.owner component subcomponent = d'.owner component subcomponent := by
  have hform : written.config.toOrgConfig = w.sortedByName := by
    rw [horder.config_eq hw, hw.toOrgConfig_config]
  refine ⟨congrArg load hform, fun text htext => ?_, fun d d' hd hd' _ _ => ?_⟩
  · rw [ofJsonText, Entries.ofJsonText?_eq htext, hform]
  · rw [hform, hd'] at hd
    cases hd
    rfl

def shuffledText : String :=
  "\x7b\"teams\":\x7b\"Storage\":\x7b\"components\":[\"Storage\",\"Node\"]\x7d," ++
    "\"Old\":\x7b\"name\":\"Old\",\"components\":[\"!!IGNORE!!\"]\x7d," ++
    "\"Node\":\x7b\"name\":\"Node\",\"components\":[\"Node\"]\x7d\x7d," ++
    "\"releases\":\x7b\"4.9\":\x7b\x7d,\"4.10\":\x7b\"name\":\"4.10\"\x7d\x7d\x7d"

def shuffledEntries : Entries where
  teams := [
    ("Storage", { components := ["Storage", "Node"] }),
    ("Old", { name := "Old", components := ["!!IGNORE!!"] }),
    ("Node", { name := "Node", components := ["Node"] })]
  releases := [("4.9", {}), ("4.10", { name := "4.10" })]

theorem load_keyed_shuffled :
    let w : Entries := {
      teams := shuffledEntries.teams.reverse
      releases := shuffledEntries.releases.reverse }
    w.Consistent ∧ shuffledEntries.Reorders w ∧
      Entries.ofJsonText? shuffledText = some shuffledEntries ∧
      ∃ d, load w.sortedByName = .ok d ∧ ofJsonText shuffledText = .ok d ∧
        d.order = ["Node", "Storage"] ∧ d.releases.map (·.name) = ["4.10", "4.9"] ∧
        d.owner "Node" "Kubelet" = "Node" := by
  intro w
  have hw : w.Consistent := ⟨by decide, by decide, by decide, by decide⟩
  have horder : shuffledEntries.Reorders w :=
    ⟨rfl, (List.reverse_perm _).symm, (List.reverse_perm _).symm, rfl⟩
  have hread : Entries.ofJsonText? shuffledText = some shuffledEntries := by decide +kernel
  obtain ⟨hform, htext, -⟩ := load_keyed hw horder
  let d : Directory := {
    title := ""
    teams := [
      { name := "Node", components := ["Node"] },
      { name := "Storage", components := ["Storage", "Node"] }]
    releases := [{ name := "4.10" }, { name := "4.9" }]
    slo := .empty
    names_nodup := by decide }
  have hload : load shuffledEntries.config.toOrgConfig = .ok d := by decide
  have hsorted : load w.sortedByName = .ok d := hform.symm.trans hload
  exact ⟨hw, horder, hread, d, hsorted, (htext _ hread).trans hsorted, by decide, by decide,
    by decide⟩

end Directory

end Triage
