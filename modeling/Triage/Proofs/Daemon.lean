import Triage.Daemon

/-!
# Report files

A report is written beside its file, as a draft, and then moved onto it. Nothing but
the two places changes (`Files.SameExcept`), and the file itself is either left alone
or holds the whole report (`ReportFile.Written`). The place of the draft is not
spared: what was there is lost, and the draft stays when it cannot be moved. What one
report keeps, a daemon keeps for as long as it runs (`Daemon.Served`).
-/

namespace Triage

-- ---------------------------------------------------------------------------
-- Places that a change leaves alone
-- ---------------------------------------------------------------------------

namespace Files

/-- Folders and files are the same, those that one of the paths names excepted. -/
structure SameExcept (paths : List String) (fs fs' : Files) : Prop where
  folders : fs'.folders = fs.folders
  contents : ∀ place, (∀ path ∈ paths, place? path ≠ some place) →
    fs'.contents.get? place = fs.contents.get? place

section Changes

variable {fs fs' fs'' : Files} {path source place : String} {bytes : ByteArray}
variable {paths : List String}

theorem SameExcept.refl (paths : List String) (fs : Files) : SameExcept paths fs fs :=
  ⟨rfl, fun _ _ => rfl⟩

theorem SameExcept.trans (h : SameExcept paths fs fs') (h' : SameExcept paths fs' fs'') :
    SameExcept paths fs fs'' where
  folders := h'.folders.trans h.folders
  contents place hplace := (h'.contents place hplace).trans (h.contents place hplace)

theorem SameExcept.mono {more : List String} (h : SameExcept paths fs fs')
    (hpaths : ∀ path ∈ paths, path ∈ more) : SameExcept more fs fs' where
  folders := h.folders
  contents place hplace := h.contents place fun path hpath => hplace path (hpaths path hpath)

theorem place?_of_target (h : fs.target path = .ok place) : place? path = some place := by
  unfold target at h
  split at h
  · cases h
  · rename_i hplace
    split at h
    · cases h
    · split at h
      · cases h
        exact hplace
      · cases h

theorem get?_without (m : SortedMap String ByteArray) (key other : String) :
    (without m key).get? other = if other = key then none else m.get? other := by
  apply Option.ext
  intro value
  rw [← SortedMap.mem_entries_iff, without, List.mem_filter, SortedMap.mem_entries_iff]
  by_cases h : other = key <;> simp [h]

theorem read_eq_ok (h : fs.read path = .ok bytes) :
    ∃ place, place? path = some place ∧ fs.contents.get? place = some bytes := by
  unfold read at h
  split at h
  · cases h
  · rename_i place hplace
    split at h
    · rename_i bytes' hbytes
      cases h
      exact ⟨place, hplace, hbytes⟩
    · cases h

theorem write_eq_ok (h : fs.write path bytes = .ok fs') :
    ∃ place, place? path = some place ∧ fs'.contents.get? place = some bytes ∧
      SameExcept [path] fs fs' := by
  simp only [write, bind, Except.bind] at h
  split at h
  · cases h
  · rename_i place htarget
    cases h
    have hplace := place?_of_target htarget
    refine ⟨place, hplace, ?_, rfl, ?_⟩
    · simp [SortedMap.get?_insert]
    · intro other hother
      have hne : other ≠ place := by
        rintro rfl
        exact hother path List.mem_cons_self hplace
      simp [SortedMap.get?_insert, hne]

theorem rename_eq_ok (h : fs.rename source path = .ok fs') :
    ∃ old place bytes, place? source = some old ∧ place? path = some place ∧
      fs.contents.get? old = some bytes ∧ fs'.contents.get? place = some bytes ∧
      (old ≠ place → fs'.contents.get? old = none) ∧ SameExcept [source, path] fs fs' := by
  simp only [rename, bind, Except.bind] at h
  split at h
  · cases h
  rename_i bytes hread
  obtain ⟨old, hold, hbytes⟩ := read_eq_ok hread
  split at h
  · cases h
  rename_i place htarget
  have hplace := place?_of_target htarget
  rw [hold] at h
  cases h
  refine ⟨old, place, bytes, hold, hplace, hbytes, ?_, ?_, rfl, ?_⟩
  · simp [SortedMap.get?_insert]
  · intro hne
    simp [SortedMap.get?_insert, get?_without, hne]
  · intro other hother
    have hne : other ≠ old := by
      rintro rfl
      exact hother source List.mem_cons_self hold
    have hne' : other ≠ place := by
      rintro rfl
      exact hother path (List.mem_cons_of_mem _ List.mem_cons_self) hplace
    simp [SortedMap.get?_insert, get?_without, hne, hne']

end Changes

end Files

-- ---------------------------------------------------------------------------
-- One report
-- ---------------------------------------------------------------------------

namespace ReportFile

def bytes (stamp : String) (report : Snapshot Slo.Report) : ByteArray :=
  (text stamp report).toUTF8

/-- What becomes of the files when a report is written: it is in its place and no draft is
left, or there is no draft of it, or the draft could not be moved and stays. -/
inductive Written (fs : Files) (path stamp : String) (report : Snapshot Slo.Report) :
    Except WriteError Unit × Files → Prop
  | replaced {fs' : Files} {draft place : String}
      (hdraft : Files.place? (draftPath path) = some draft)
      (hplace : Files.place? path = some place)
      (hcontents : fs'.contents.get? place = some (bytes stamp report))
      (hmoved : draft ≠ place → fs'.contents.get? draft = none)
      (hsame : Files.SameExcept [draftPath path, path] fs fs') :
      Written fs path stamp report (.ok (), fs')
  | undrafted (cause : IoError) :
      Written fs path stamp report (.error (.write (draftPath path) cause), fs)
  | stranded {fs' : Files} {draft : String} (cause : IoError)
      (hdraft : Files.place? (draftPath path) = some draft)
      (hcontents : fs'.contents.get? draft = some (bytes stamp report))
      (hsame : Files.SameExcept [draftPath path] fs fs') :
      Written fs path stamp report (.error (.replace path cause), fs')

section Writing

variable {fs : Files} {path stamp place : String} {report : Snapshot Slo.Report}

theorem written (fs : Files) (path stamp : String) (report : Snapshot Slo.Report) :
    Written fs path stamp report (write fs path stamp report) := by
  unfold write
  split
  · exact .undrafted _
  · rename_i drafted hdrafted
    obtain ⟨draft, hdraft, hcontents, hsame⟩ := Files.write_eq_ok hdrafted
    split
    · exact .stranded _ hdraft hcontents hsame
    · rename_i fs' hmoved
      obtain ⟨old, place, moved, hold, hplace, hread, hcontents', hnone, hsame'⟩ :=
        Files.rename_eq_ok hmoved
      obtain rfl : draft = old := Option.some.inj (hdraft.symm.trans hold)
      obtain rfl : bytes stamp report = moved := Option.some.inj (hcontents.symm.trans hread)
      exact .replaced hdraft hplace hcontents' hnone ((hsame.mono (by simp)).trans hsame')

theorem Written.sameExcept {outcome : Except WriteError Unit × Files}
    (h : Written fs path stamp report outcome) :
    Files.SameExcept [draftPath path, path] fs outcome.2 := by
  cases h with
  | replaced _ _ _ _ hsame => exact hsame
  | undrafted _ => exact .refl _ fs
  | stranded _ _ _ hsame => exact hsame.mono (by simp)

/-- The file is left alone or holds the whole report, also where it is its own draft. -/
theorem Written.whole {outcome : Except WriteError Unit × Files}
    (h : Written fs path stamp report outcome) (hplace : Files.place? path = some place) :
    outcome.2.contents.get? place = fs.contents.get? place ∨
      outcome.2.contents.get? place = some (bytes stamp report) := by
  cases h with
  | replaced _ hplace' hcontents _ _ =>
    obtain rfl : place = _ := Option.some.inj (hplace.symm.trans hplace')
    exact .inr hcontents
  | undrafted _ => exact .inl rfl
  | @stranded fs' draft _ hdraft hcontents hsame =>
    by_cases hown : draft = place
    · subst hown
      exact .inr hcontents
    · refine .inl (hsame.contents place fun path' hpath' => ?_)
      obtain rfl := List.mem_singleton.mp hpath'
      rw [hdraft]
      exact fun he => hown (Option.some.inj he)

theorem write_eq_ok {draft : String} (hdraft : fs.target (draftPath path) = .ok draft)
    (hplace : fs.target path = .ok place) :
    ∃ fs', write fs path stamp report = (.ok (), fs') := by
  let drafted : Files := { fs with contents := fs.contents.insert draft (bytes stamp report) }
  have hdrafted : fs.write (draftPath path) (text stamp report).toUTF8 = .ok drafted := by
    rw [Files.write, hdraft]
    rfl
  have hread : drafted.read (draftPath path) = .ok (bytes stamp report) := by
    simp [Files.read, drafted, Files.place?_of_target hdraft, SortedMap.get?_insert]
  have htarget : drafted.target path = .ok place := hplace
  let replaced : Files := { drafted with
    contents := (Files.without drafted.contents draft).insert place (bytes stamp report) }
  have hreplaced : drafted.rename (draftPath path) path = .ok replaced := by
    simp only [Files.rename, hread, htarget, Files.place?_of_target hdraft, bind, Except.bind]
    rfl
  refine ⟨replaced, ?_⟩
  unfold write
  rw [hdrafted]
  dsimp only
  rw [hreplaced]

theorem Written.draft_gone {fs' : Files} {draft : String}
    (h : Written fs path stamp report (.ok (), fs'))
    (hdraft : Files.place? (draftPath path) = some draft) (hne : Files.place? path ≠ some draft) :
    fs'.contents.get? draft = none := by
  cases h with
  | replaced hdraft' hplace _ hmoved _ =>
    obtain rfl : draft = _ := Option.some.inj (hdraft.symm.trans hdraft')
    exact hmoved fun he => hne (he ▸ hplace)

end Writing

end ReportFile

-- ---------------------------------------------------------------------------
-- All reports of a daemon
-- ---------------------------------------------------------------------------

namespace Daemon

/-- The second files come of the first by reports written one after the other. -/
inductive Served (output : Option String) (stamp : String) (fs : Files) : Files → Prop
  | idle : Served output stamp fs fs
  | report {fs' : Files} {path : String} (h : Served output stamp fs fs')
      (hpath : output = some path) (report : Snapshot Slo.Report) :
      Served output stamp fs (ReportFile.write fs' path stamp report).2

section Serving

variable {output : Option String} {stamp : String} {fs fs' fs'' : Files} {path place : String}

theorem Served.trans (h : Served output stamp fs fs') (h' : Served output stamp fs' fs'') :
    Served output stamp fs fs'' := by
  induction h' with
  | idle => exact h
  | report _ hpath report ih => exact .report ih hpath report

theorem Served.eq_of_none (h : Served none stamp fs fs') : fs' = fs := by
  cases h with
  | idle => rfl
  | report _ hpath _ => cases hpath

theorem Served.sameExcept (h : Served (some path) stamp fs fs') :
    Files.SameExcept [ReportFile.draftPath path, path] fs fs' := by
  induction h with
  | idle => exact .refl _ fs
  | @report fs' _ _ hpath report ih =>
    cases hpath
    exact ih.trans (ReportFile.written fs' path stamp report).sameExcept

theorem Served.whole (h : Served (some path) stamp fs fs')
    (hplace : Files.place? path = some place) :
    fs'.contents.get? place = fs.contents.get? place ∨
      ∃ report, fs'.contents.get? place = some (ReportFile.bytes stamp report) := by
  induction h with
  | idle => exact .inl rfl
  | @report fs' _ _ hpath report ih =>
    cases hpath
    obtain hkept | hnew := (ReportFile.written fs' path stamp report).whole hplace
    · rw [hkept]
      exact ih
    · exact .inr ⟨report, hnew⟩

@[simp] theorem output_settle (d : Daemon) : d.settle.output = d.output := by
  unfold settle
  split <;> rfl

@[simp] theorem files_settle (d : Daemon) : d.settle.files = d.files := by
  unfold settle
  split <;> rfl

@[simp] theorem output_notice (stamp : String) (d : Daemon) :
    (notice stamp d).output = d.output := by
  unfold notice
  split <;> rfl

theorem notice_served (stamp : String) (d : Daemon) :
    Served d.output stamp d.files (notice stamp d).files := by
  unfold notice
  split
  · exact .idle
  · cases houtput : d.output with
    | none => exact .idle
    | some path =>
      dsimp only
      exact .report .idle rfl _

end Serving

section Runs

variable {σ : Type} (s : Sources (StateM σ)) (stamp : String)

theorem moment_run (now : Nat) (d : Daemon) (w : σ) :
    ∃ d' w', (moment s stamp now d).run w = (d', w') ∧ d'.output = d.output ∧
      Served d.output stamp d.files d'.files := by
  rcases hrun : (Loops.tickAll s now d.loops d.reconciler).run w with ⟨⟨loops, reconciler⟩, w'⟩
  let d₁ : Daemon := { d with loops := loops, reconciler := reconciler }
  refine ⟨(notice stamp d₁).settle, w', ?_, ?_, ?_⟩
  · rw [moment, StateT.run_bind, hrun]
    rfl
  · simp [d₁]
  · rw [files_settle]
    exact notice_served stamp d₁

theorem advanceWithin_run (enough : Daemon → Bool) (horizon fuel : Nat) (d : Daemon) (w : σ) :
    ∃ d' w', (advanceWithin s stamp enough horizon fuel d).run w = (d', w') ∧
      d'.output = d.output ∧ Served d.output stamp d.files d'.files := by
  -- the output never changes, so what two moments write goes to the same file
  induction fuel generalizing d w with
  | zero => exact ⟨d, w, rfl, rfl, .idle⟩
  | succ fuel ih =>
    rw [advanceWithin]
    split
    · exact ⟨d, w, rfl, rfl, .idle⟩
    · split
      · exact ⟨{ d with loops := { d.loops with now := horizon } }, w, rfl, rfl, .idle⟩
      · rename_i due _
        obtain ⟨d₁, w₁, hmoment, houtput₁, hserved₁⟩ := moment_run s stamp due d w
        obtain ⟨d', w', hrest, houtput, hserved⟩ := ih d₁ w₁
        refine ⟨d', w', ?_, houtput.trans houtput₁, hserved₁.trans (houtput₁ ▸ hserved)⟩
        rw [StateT.run_bind, hmoment]
        exact hrest

/-- However long a daemon runs and whatever its sources answer, it changes no file but its
draft and its output, and the output is as it was or a whole report. -/
theorem advance_files (milliseconds : Nat) (d : Daemon) (w : σ) {d' : Daemon} {w' : σ}
    (h : (advance s stamp milliseconds d).run w = (d', w')) :
    match d.output with
    | none => d'.files = d.files
    | some path =>
      Files.SameExcept [ReportFile.draftPath path, path] d.files d'.files ∧
        ∀ place, Files.place? path = some place →
          d'.files.contents.get? place = d.files.contents.get? place ∨
            ∃ report, d'.files.contents.get? place = some (ReportFile.bytes stamp report) := by
  have hserved : Served d.output stamp d.files d'.files := by
    unfold advance at h
    split at h
    · cases h
      exact .idle
    · obtain ⟨_, _, hrun, -, hserved⟩ := advanceWithin_run s stamp (fun _ => false)
        (d.loops.now + milliseconds) (d.loops.moments (d.loops.now + milliseconds) + 1) d w
      cases hrun.symm.trans h
      exact hserved
  cases houtput : d.output with
  | none =>
    rw [houtput] at hserved
    exact hserved.eq_of_none
  | some path =>
    rw [houtput] at hserved
    exact ⟨hserved.sameExcept, fun _ hplace => hserved.whole hplace⟩

end Runs

end Daemon

end Triage
