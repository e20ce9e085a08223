import Triage.Proofs.Directory.Load
import Triage.Proofs.Text

/-!
# The current version

Releases are worked on while they have a target that is not a z-stream one, and
some of them bear two numbers as the first parts of their name: these offer a
version (`Release.Offers`). The current version is the least of those offered,
whatever stands between them; without any there is none, and all names are reported.
-/

namespace Triage

-- ---------------------------------------------------------------------------
-- The order of versions
-- ---------------------------------------------------------------------------

namespace Version

variable {u v w : Version} {l : List Version}

theorem le_iff : v.le w = true ↔ v.major < w.major ∨ (v.major = w.major ∧ v.minor ≤ w.minor) := by
  simp [le]

theorem le_refl (v : Version) : v.le v = true :=
  le_iff.mpr (.inr ⟨rfl, Nat.le_refl _⟩)

theorem le_trans (h : u.le v = true) (h' : v.le w = true) : u.le w = true := by
  rw [le_iff] at h h' ⊢
  omega

theorem le_of_not_le (h : ¬ v.le w = true) : w.le v = true := by
  rw [le_iff] at h ⊢
  omega

theorem le_antisymm (h : v.le w = true) (h' : w.le v = true) : v = w := by
  rw [le_iff] at h h'
  cases v
  cases w
  simp only [mk.injEq] at h h' ⊢
  omega

theorem least?_eq_none_iff : least? l = none ↔ l = [] := by
  cases l with
  | nil => simp [least?]
  | cons v rest =>
    rw [least?]
    split <;> simp

theorem least?_spec (h : least? l = some v) : v ∈ l ∧ ∀ w ∈ l, v.le w = true := by
  induction l generalizing v with
  | nil => cases h
  | cons x rest ih =>
    rw [least?] at h
    split at h
    · rename_i w hw
      obtain ⟨hmem, hleast⟩ := ih hw
      cases h
      split
      · rename_i hxw
        exact ⟨List.mem_cons_self, List.forall_mem_cons.mpr
          ⟨le_refl x, fun u hu => le_trans hxw (hleast u hu)⟩⟩
      · rename_i hxw
        exact ⟨List.mem_cons_of_mem _ hmem, List.forall_mem_cons.mpr ⟨le_of_not_le hxw, hleast⟩⟩
    · rename_i hnone
      cases h
      rw [least?_eq_none_iff.mp hnone]
      exact ⟨List.mem_singleton.mpr rfl, List.forall_mem_singleton.mpr (le_refl x)⟩

theorem least?_eq_some_iff : least? l = some v ↔ v ∈ l ∧ ∀ w ∈ l, v.le w = true := by
  refine ⟨least?_spec, fun ⟨hmem, hleast⟩ => ?_⟩
  cases hl : least? l with
  | none =>
    rw [least?_eq_none_iff.mp hl] at hmem
    cases hmem
  | some u =>
    obtain ⟨humem, huleast⟩ := least?_spec hl
    rw [le_antisymm (huleast v hmem) (hleast u humem)]

theorem text_eq (v : Version) : v.text = toString v.major ++ "." ++ toString v.minor := by
  rw [← String.toList_inj]
  simp [text, Text.digits, Nat.repr]

end Version

-- ---------------------------------------------------------------------------
-- Releases that offer a version
-- ---------------------------------------------------------------------------

namespace Release

variable {r : Release} {releases : List Release} {v : Version} {part : List Char} {n : Nat}

/-- Some target of the release does not end in `.z`. -/
def Active (r : Release) : Prop := ∃ target ∈ r.targets, ¬ ".z".toList <:+ target.toList

/-- The part of a name is an unsigned number of 32 bits, which may begin with a plus
and with zeros. -/
def Denotes (part : List Char) (n : Nat) : Prop :=
  ∃ digits, (part = digits ∨ part = '+' :: digits) ∧ Text.Spells digits n ∧ n < UInt32.size

/-- The first two parts of the name, as points divide it, are the numbers of the version. -/
def Names (r : Release) (v : Version) : Prop :=
  ∃ major minor rest, r.name.toList.splitOn '.' = major :: minor :: rest ∧
    Denotes major v.major ∧ Denotes minor v.minor

def Offers (releases : List Release) (v : Version) : Prop :=
  ∃ r ∈ releases, r.Active ∧ r.Names v

theorem isZStreamOnly_eq_false_iff : r.isZStreamOnly = false ↔ r.Active := by
  simp [isZStreamOnly, isZStream, Active]

theorem versionPart?_eq_some_iff : versionPart? part = some n ↔ Denotes part n := by
  have hbound : n ≤ Word.greatest32 ↔ n < UInt32.size := by
    simp only [Word.greatest32, UInt32.size]
    omega
  rw [versionPart?, Text.unsigned?_eq_some_iff, Denotes, hbound]

theorem version?_eq_some_iff : r.version? = some v ↔ r.Names v := by
  rw [version?, Text.splitOn_eq, Names]
  constructor
  · intro h
    split at h
    · rename_i major minor rest hparts
      simp only [Option.bind_eq_bind, Option.bind_eq_some_iff, Option.some.injEq] at h
      obtain ⟨x, hx, y, hy, rfl⟩ := h
      exact ⟨major, minor, rest, hparts, versionPart?_eq_some_iff.mp hx,
        versionPart?_eq_some_iff.mp hy⟩
    · cases h
  · rintro ⟨major, minor, rest, hparts, hmajor, hminor⟩
    rw [hparts]
    simp [versionPart?_eq_some_iff.mpr hmajor, versionPart?_eq_some_iff.mpr hminor]

theorem mem_filterMap_version?_iff :
    v ∈ (releases.filter (!·.isZStreamOnly)).filterMap version? ↔ Offers releases v := by
  simp [Offers, isZStreamOnly_eq_false_iff, version?_eq_some_iff, and_assoc]

theorem currentVersion?_eq_some_iff : currentVersion? releases = some v ↔
    Offers releases v ∧ ∀ w, Offers releases w →
      v.major < w.major ∨ (v.major = w.major ∧ v.minor ≤ w.minor) := by
  simp only [currentVersion?, Version.least?_eq_some_iff, mem_filterMap_version?_iff,
    Version.le_iff]

theorem currentVersion?_eq_none_iff :
    currentVersion? releases = none ↔ ∀ v, ¬ Offers releases v := by
  rw [currentVersion?, Version.least?_eq_none_iff, List.eq_nil_iff_forall_not_mem]
  simp only [mem_filterMap_version?_iff]

end Release

-- ---------------------------------------------------------------------------
-- The directory
-- ---------------------------------------------------------------------------

namespace Directory

variable (d : Directory)

theorem currentVersion_eq_ok_iff {text : String} : d.currentVersion = .ok text ↔
    ∃ v, Release.currentVersion? d.releases = some v ∧ text = v.text := by
  rw [currentVersion]
  cases Release.currentVersion? d.releases <;> simp [eq_comm]

theorem currentVersion_eq_error_iff {e : ConfigError} : d.currentVersion = .error e ↔
    Release.currentVersion? d.releases = none ∧
      e = .noActiveRelease (d.releases.map (·.name)) := by
  rw [currentVersion]
  cases Release.currentVersion? d.releases <;> simp [eq_comm]

/-- There is a current version exactly when a release offers one. It is the least
that is offered, and the current release is its target; without any the names of
all releases are reported, in order. -/
theorem currentVersion_outcome :
    ((∃ text, d.currentVersion = .ok text) ↔ ∃ r ∈ d.releases, r.Active ∧ ∃ v, r.Names v) ∧
    (∀ text, d.currentVersion = .ok text ↔ ∃ v, Release.Offers d.releases v ∧
      (∀ w, Release.Offers d.releases w →
        v.major < w.major ∨ (v.major = w.major ∧ v.minor ≤ w.minor)) ∧
      text = toString v.major ++ "." ++ toString v.minor) ∧
    (∀ e, d.currentVersion = .error e ↔
      (∀ v, ¬ Release.Offers d.releases v) ∧ e = .noActiveRelease (d.releases.map (·.name))) ∧
    (∀ text, d.currentRelease = .ok text ↔
      ∃ version, d.currentVersion = .ok version ∧ text = version ++ ".0") ∧
    ∀ e, d.currentRelease = .error e ↔ d.currentVersion = .error e := by
  refine ⟨?_, fun text => ?_, fun e => ?_, fun text => ?_, fun e => ?_⟩
  · simp only [currentVersion_eq_ok_iff]
    constructor
    · rintro ⟨-, v, hv, -⟩
      obtain ⟨r, hr, hactive, hnames⟩ := (Release.currentVersion?_eq_some_iff.mp hv).1
      exact ⟨r, hr, hactive, v, hnames⟩
    · rintro ⟨r, hr, hactive, v, hnames⟩
      cases hcurrent : Release.currentVersion? d.releases with
      | some w => exact ⟨_, w, rfl, rfl⟩
      | none =>
        have hnone := Release.currentVersion?_eq_none_iff.mp hcurrent v
        exact absurd ⟨r, hr, hactive, hnames⟩ hnone
  · simp only [currentVersion_eq_ok_iff, Release.currentVersion?_eq_some_iff, Version.text_eq,
      and_assoc]
  · rw [currentVersion_eq_error_iff, Release.currentVersion?_eq_none_iff]
  · rw [currentRelease, map_eq_ok_iff]
    simp only [releaseOf, eq_comm (a := text)]
  · rw [currentRelease, map_eq_error_iff]

-- Numbers are compared as such, and only by the releases that are active.
example :
    currentVersion ⟨"", [], [
      { name := "4.10", targets := ["4.10.0"] }, { name := "4.5", targets := ["4.5.z"] },
      { name := "+4.09.2", targets := ["4.9.z", "4.9.0"] }, { name := "next", targets := ["5.0"] },
      { name := "4.1" }], .empty, .nil⟩ = .ok "4.9" := by
  decide

end Directory

end Triage
