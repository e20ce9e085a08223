import Mathlib.Data.List.Forall2
import Mathlib.Data.List.Induction
import Triage.Csv
import Triage.Proofs.Text

/-!
# Reading tables

A reader of lines of fields between commas, as spreadsheets have them: a field
that begins with a quote goes on to the next quote that is not doubled, and
commas and line breaks in it are text. A line ends with a line feed, a carriage
return or both.

Quotes elsewhere are a matter of taste. A strict reader refuses a quote inside a
field that has none around it, text behind a closing quote, and quotes that are
not closed; the other one takes them as text.
-/

namespace Triage.Csv

inductive Place where
  | lineStart
  | returned
  | fieldStart
  | bare
  | quoted
  /-- Behind a quote in a quoted field: the last one, or the first of two. -/
  | closed
  deriving DecidableEq, Repr

structure Reader where
  place : Place := .lineStart
  field : List Char := []
  line : List (List Char) := []
  lines : List (List (List Char)) := []

namespace Reader

def endField (r : Reader) : Reader :=
  { r with place := .fieldStart, field := [], line := r.line ++ [r.field] }

def endLine (r : Reader) (place : Place) : Reader where
  place := place
  lines := r.lines ++ [r.line ++ [r.field]]

def push (r : Reader) (place : Place) (c : Char) : Reader :=
  { r with place, field := r.field ++ [c] }

def outside (r : Reader) (c : Char) (other : Option Reader) : Option Reader :=
  if c = ',' then some r.endField
  else if c = '\n' then some (r.endLine .lineStart)
  else if c = '\r' then some (r.endLine .returned)
  else other

def step (strict : Bool) (r : Reader) (c : Char) : Option Reader :=
  match r.place with
  | .returned => if c = '\n' then some { r with place := .lineStart } else opening
  | .lineStart | .fieldStart => opening
  | .bare => r.outside c (if strict && c = '"' then none else some (r.push .bare c))
  | .quoted => some (if c = '"' then { r with place := .closed } else r.push .quoted c)
  | .closed =>
    if c = '"' then some (r.push .quoted c)
    else r.outside c (if strict then none else some (r.push .bare c))
where
  opening := r.outside c (some (if c = '"' then { r with place := .quoted } else r.push .bare c))

/-- The lines when the text has ended; the last one need not be ended by a break. -/
def finish (strict : Bool) (r : Reader) : Option (List (List (List Char))) :=
  match r.place with
  | .lineStart | .returned => some r.lines
  | .quoted => if strict then none else some (r.endLine .lineStart).lines
  | .fieldStart | .bare | .closed => some (r.endLine .lineStart).lines

def run (strict : Bool) (r : Reader) : List Char → Option (List (List (List Char)))
  | [] => r.finish strict
  | c :: rest => (r.step strict c).bind fun r => run strict r rest

def ready (line : List (List Char)) (lines : List (List (List Char))) : Reader where
  place := if line.isEmpty then .lineStart else .fieldStart
  line := line
  lines := lines

end Reader

def read (strict : Bool) (text : String) : Option (List (List String)) :=
  ((Reader.ready [] []).run strict text.toList).map fun lines => lines.map (·.map String.ofList)

theorem read_eq_some_iff {strict : Bool} {text : String} {records : List (List String)} :
    read strict text = some records ↔
      (Reader.ready [] []).run strict text.toList = some (records.map (·.map String.toList)) := by
  have hinverse (lines : List (List (List Char))) :
      (lines.map (·.map String.ofList)).map (·.map String.toList) = lines := by
    simp [Function.comp_def]
  have hinverse' (records : List (List String)) :
      (records.map (·.map String.toList)).map (·.map String.ofList) = records := by
    simp [Function.comp_def]
  rw [read, Option.map_eq_some_iff]
  constructor
  · rintro ⟨lines, hrun, rfl⟩
    rw [hrun, hinverse]
  · intro hrun
    exact ⟨_, hrun, hinverse' records⟩

example : read true "a,\"b, \"\"c\"\"\"\r\n\n,d" = some [["a", "b, \"c\""], [""], ["", "d"]] := by
  decide +kernel

-- ---------------------------------------------------------------------------
-- Written fields
-- ---------------------------------------------------------------------------

def Plain (strict : Bool) (c : Char) : Prop :=
  c ≠ ',' ∧ c ≠ '\n' ∧ c ≠ '\r' ∧ (strict = true → c ≠ '"')

structure Bare (strict : Bool) (text : List Char) : Prop where
  plain : ∀ c ∈ text, Plain strict c
  head : text.head? ≠ some '"'

/-- The text is read as the field, wherever it stands and whichever way it ends. -/
def ReadsAs (strict : Bool) (text value : List Char) : Prop :=
  ∀ line lines rest,
    (Reader.ready line lines).run strict (text ++ ',' :: rest) =
      (Reader.ready (line ++ [value]) lines).run strict rest ∧
    (Reader.ready line lines).run strict (text ++ '\n' :: rest) =
      (Reader.ready [] (lines ++ [line ++ [value]])).run strict rest

namespace Reader

variable {strict : Bool} {place : Place} {field text : List Char} {line : List (List Char)}
  {lines : List (List (List Char))} {rest : List Char} {c : Char}

theorem run_cons (r : Reader) : run strict r (c :: rest) = (step strict r c).bind (run strict · rest) :=
  rfl

theorem step_ready (c : Char) :
    step strict (ready line lines) c = (ready line lines).outside c
      (some (if c = '"' then ⟨.quoted, [], line, lines⟩ else ⟨.bare, [c], line, lines⟩)) := by
  cases line <;> simp [ready, step, step.opening, push]

theorem step_bare (h : Plain strict c) :
    step strict ⟨.bare, field, line, lines⟩ c = some ⟨.bare, field ++ [c], line, lines⟩ := by
  obtain ⟨hcomma, hfeed, hreturn, hquote⟩ := h
  cases strict <;> simp_all [step, outside, push]

theorem run_bare (h : ∀ c ∈ text, Plain strict c) :
    run strict ⟨.bare, field, line, lines⟩ (text ++ rest) =
      run strict ⟨.bare, field ++ text, line, lines⟩ rest := by
  induction text generalizing field with
  | nil => simp
  | cons c text ih =>
    obtain ⟨hc, htext⟩ := List.forall_mem_cons.mp h
    simp [run_cons, step_bare hc, ih htext]

theorem run_quoted :
    run strict ⟨.quoted, field, line, lines⟩ (doubleQuotes text ++ '"' :: rest) =
      run strict ⟨.closed, field ++ text, line, lines⟩ rest := by
  induction text generalizing field with
  | nil => simp [doubleQuotes, run_cons, step]
  | cons c text ih =>
    rw [doubleQuotes, List.flatMap_cons, ← doubleQuotes]
    by_cases hc : c = '"' <;> simp [hc, run_cons, step, push, ih]

theorem run_end (hquoted : place ≠ .quoted) (hreturned : place ≠ .returned) :
    run strict ⟨place, field, line, lines⟩ (',' :: rest) =
      run strict (ready (line ++ [field]) lines) rest ∧
    run strict ⟨place, field, line, lines⟩ ('\n' :: rest) =
      run strict (ready [] (lines ++ [line ++ [field]])) rest := by
  cases place <;>
    simp_all [run_cons, step, step.opening, outside, endField, endLine, ready]

end Reader

section Written

variable {strict : Bool}

theorem Bare.of_not_mem {text : List Char} (hcomma : ',' ∉ text) (hfeed : '\n' ∉ text)
    (hreturn : '\r' ∉ text) (hquote : '"' ∉ text) : Bare strict text where
  plain c hc := by
    refine ⟨?_, ?_, ?_, fun _ => ?_⟩ <;> rintro rfl <;> contradiction
  head h := hquote (List.mem_of_mem_head? h)

theorem Bare.readsAs {text : List Char} (h : Bare strict text) : ReadsAs strict text text := by
  intro line lines rest
  cases text with
  | nil =>
    refine Reader.run_end ?_ ?_ <;> split <;> simp
  | cons c text =>
    obtain ⟨hc, htext⟩ := List.forall_mem_cons.mp h.plain
    have hquote : c ≠ '"' := fun he => h.head (by simp [he])
    have hopen (rest : List Char) : (Reader.ready line lines).run strict (c :: text ++ rest) =
        Reader.run strict ⟨.bare, c :: text, line, lines⟩ rest := by
      simp [Reader.run_cons, Reader.step_ready, Reader.outside, hc.1, hc.2.1, hc.2.2.1, hquote,
        Reader.run_bare htext]
    rw [hopen, hopen]
    exact Reader.run_end (by simp) (by simp)

theorem readsAs_quoted (value : List Char) :
    ReadsAs strict ('"' :: doubleQuotes value ++ ['"']) value := by
  intro line lines rest
  have hopen (rest : List Char) :
      (Reader.ready line lines).run strict ('"' :: doubleQuotes value ++ ['"'] ++ rest) =
        Reader.run strict ⟨.closed, value, line, lines⟩ rest := by
    simp [Reader.run_cons, Reader.step_ready, Reader.outside, Reader.run_quoted]
  rw [hopen, hopen]
  exact Reader.run_end (by simp) (by simp)

/-- What is written with quotes where it needs them is read back. -/
theorem readsAs_field {value : String} (hfeed : '\n' ∉ value.toList) (hreturn : '\r' ∉ value.toList) :
    ReadsAs strict (field value).toList value.toList := by
  rw [field]
  split
  · simpa using readsAs_quoted value.toList
  · rename_i hplain
    simp only [Bool.or_eq_true, List.contains_iff_mem, not_or] at hplain
    exact (Bare.of_not_mem hplain.1 hfeed hreturn hplain.2).readsAs

theorem readsAs_number (n : Nat) : ReadsAs strict (number n).toList (toString n).toList := by
  have htext : (toString n).toList = Text.digits n := String.toList_ofList
  rw [number, String.toList_ofList, htext]
  refine (Bare.of_not_mem ?_ ?_ ?_ ?_).readsAs <;> exact Text.not_mem_digits (by decide) n

theorem run_line {fields : List String} {values : List (List Char)} {before : List (List Char)}
    {lines : List (List (List Char))} {rest : List Char}
    (h : List.Forall₂ (ReadsAs strict) (fields.map String.toList) values) (hne : fields ≠ []) :
    (Reader.ready before lines).run strict ((line fields).toList ++ rest) =
      (Reader.ready [] (lines ++ [before ++ values])).run strict rest := by
  induction fields generalizing values before with
  | nil => contradiction
  | cons f fields ih =>
    obtain ⟨value, values, hf, hfields, rfl⟩ := List.forall₂_cons_left_iff.mp h
    cases fields with
    | nil =>
      obtain rfl := List.forall₂_nil_left_iff.mp hfields
      simpa [line] using (hf before lines rest).2
    | cons g fields =>
      have hline : (line (f :: g :: fields)).toList =
          f.toList ++ ',' :: (line (g :: fields)).toList := by
        simp [line, String.intercalate_cons_cons]
      rw [hline, List.append_assoc, List.cons_append, (hf before lines _).1,
        ih hfields (List.cons_ne_nil _ _), List.append_assoc, List.singleton_append]

end Written

-- ---------------------------------------------------------------------------
-- What was read stays
-- ---------------------------------------------------------------------------

namespace Reader

/-- The records begin with all that was read, the open field included. -/
def Extends (r : Reader) (records : List (List (List Char))) : Prop :=
  ∃ more fields after,
    records = r.lines ++ (r.line ++ (r.field ++ more) :: fields) :: after

/-- As `Extends`; where no line is begun, the records begin with the lines. -/
def Keeps (r : Reader) (records : List (List (List Char))) : Prop :=
  match r.place with
  | .lineStart | .returned => r.lines <+: records
  | .fieldStart | .bare | .quoted | .closed => r.Extends records

variable {strict : Bool} {r r' : Reader} {c : Char} {records : List (List (List Char))}

theorem Extends.keeps (h : r.Extends records) : r.Keeps records := by
  have hprefix : r.lines <+: records := by
    obtain ⟨more, fields, after, rfl⟩ := h
    exact List.prefix_append _ _
  rw [Keeps]
  split <;> assumption

theorem step_cases (h : step strict r c = some r') :
    r' = r.endField ∨
    (r' = r.endLine .lineStart ∨ r' = r.endLine .returned) ∨
    (r' = r.push .bare c ∨ r' = r.push .quoted c) ∨
    (r' = { r with place := .quoted } ∨ r' = { r with place := .closed }) ∨
    (r.place = .returned ∧ r' = { r with place := .lineStart }) := by
  obtain ⟨place, field, line, lines⟩ := r
  cases place <;> grind [step, step.opening, outside]

theorem Keeps.of_step (h : step strict r c = some r') (hkeeps : r'.Keeps records) :
    r.Keeps records := by
  obtain rfl | (rfl | rfl) | (rfl | rfl) | (rfl | rfl) | ⟨hplace, rfl⟩ := step_cases h
  · obtain ⟨more, fields, after, rfl⟩ := hkeeps
    exact Extends.keeps ⟨[], more :: fields, after, by simp [endField]⟩
  · obtain ⟨after, rfl⟩ := hkeeps
    exact Extends.keeps ⟨[], [], after, by simp [endLine]⟩
  · obtain ⟨after, rfl⟩ := hkeeps
    exact Extends.keeps ⟨[], [], after, by simp [endLine]⟩
  · obtain ⟨more, fields, after, rfl⟩ := hkeeps
    exact Extends.keeps ⟨c :: more, fields, after, by simp [push]⟩
  · obtain ⟨more, fields, after, rfl⟩ := hkeeps
    exact Extends.keeps ⟨c :: more, fields, after, by simp [push]⟩
  · exact Extends.keeps hkeeps
  · exact Extends.keeps hkeeps
  · simpa [Keeps, hplace] using hkeeps

theorem keeps_of_finish (h : r.finish strict = some records) : r.Keeps records := by
  obtain ⟨place, field, line, lines⟩ := r
  cases place with
  | lineStart | returned =>
    obtain rfl : lines = records := by simpa [finish] using h
    exact List.prefix_rfl
  | fieldStart | bare | quoted | closed =>
    obtain rfl : lines ++ [line ++ [field]] = records := by simp_all [finish, endLine]
    exact ⟨[], [], [], by simp⟩

theorem run_keeps {text : List Char} (h : run strict r text = some records) : r.Keeps records := by
  induction text generalizing r with
  | nil => exact keeps_of_finish h
  | cons c rest ih =>
    obtain ⟨r', hstep, hrun⟩ := Option.bind_eq_some_iff.mp h
    exact (ih hrun).of_step hstep

-- ---------------------------------------------------------------------------
-- Texts that are read as they stand
-- ---------------------------------------------------------------------------

variable {place : Place} {field text rest first : List Char} {line fields : List (List Char)}
  {lines after : List (List (List Char))}

theorem prefix_of_run (hplace : place = .bare ∨ place = .quoted)
    (h : run strict ⟨place, field, [], lines⟩ rest = some (lines ++ (first :: fields) :: after)) :
    field <+: first := by
  have hkeeps := run_keeps h
  have hextends : Extends ⟨place, field, [], lines⟩ (lines ++ (first :: fields) :: after) := by
    rcases hplace with rfl | rfl <;> exact hkeeps
  obtain ⟨more, fields', after', heq⟩ := hextends
  simp at heq
  exact ⟨more, heq.1.1.symm⟩

theorem eq_of_run_end (hplace : place = .lineStart ∨ place = .bare ∨ place = .closed)
    (hend : c = ',' ∨ c = '\n' ∨ c = '\r')
    (h : run strict ⟨place, field, [], lines⟩ (c :: rest) =
      some (lines ++ (first :: fields) :: after)) : first = field := by
  obtain ⟨r, hstep, hrun⟩ := Option.bind_eq_some_iff.mp h
  have hkeeps := run_keeps hrun
  have hr : r = endField ⟨place, field, [], lines⟩ ∨
      r = endLine ⟨place, field, [], lines⟩ .lineStart ∨
      r = endLine ⟨place, field, [], lines⟩ .returned := by
    rcases hplace with rfl | rfl | rfl <;> rcases hend with rfl | rfl | rfl <;>
      simp_all [step, step.opening, outside]
  obtain rfl | rfl | rfl := hr
  · obtain ⟨more, fields', after', heq⟩ := hkeeps
    simp [endField] at heq
    exact heq.1.1
  · obtain ⟨after', heq⟩ := hkeeps
    simp [endLine] at heq
    exact heq.1.1.symm
  · obtain ⟨after', heq⟩ := hkeeps
    simp [endLine] at heq
    exact heq.1.1.symm

theorem plain_of_run (h : run strict ⟨.bare, field, [], lines⟩ (text ++ ',' :: rest) =
      some (lines ++ ((field ++ text) :: fields) :: after)) : ∀ c ∈ text, Plain strict c := by
  induction text generalizing field with
  | nil => simp
  | cons c text ih =>
    have hend : ¬ (c = ',' ∨ c = '\n' ∨ c = '\r') := fun hend => by
      simpa using eq_of_run_end (.inr (.inl rfl)) hend h
    have hquote : strict = true → c ≠ '"' := by
      rintro rfl rfl
      simp [run_cons, step, outside] at h
    have hc : Plain strict c := by simp_all [Plain]
    have hrest : run strict ⟨.bare, field ++ [c], [], lines⟩ (text ++ ',' :: rest) =
        some (lines ++ ((field ++ [c] ++ text) :: fields) :: after) := by
      simpa [run_cons, step_bare hc] using h
    exact List.forall_mem_cons.mpr ⟨hc, ih hrest⟩

theorem eq_quote_of_run (hplace : place = .bare ∨ place = .quoted)
    (h : run strict ⟨place, field ++ [c], [], lines⟩ rest =
      some (lines ++ ((field ++ '"' :: first) :: fields) :: after)) : c = '"' := by
  simpa [List.prefix_append_right_inj] using prefix_of_run hplace h

theorem reopened_of_run (h : run strict ⟨.closed, field, [], lines⟩ text =
      some (lines ++ ((field ++ '"' :: first) :: fields) :: after)) :
    ∃ rest, text = '"' :: rest ∧ run strict ⟨.quoted, field ++ ['"'], [], lines⟩ rest =
      some (lines ++ ((field ++ '"' :: first) :: fields) :: after) := by
  cases text with
  | nil => simp [run, finish, endLine] at h
  | cons c rest =>
    by_cases hc : c = '"'
    · subst hc
      exact ⟨rest, rfl, h⟩
    have hend : ¬ (c = ',' ∨ c = '\n' ∨ c = '\r') := fun hend => by
      simpa using eq_of_run_end (.inr (.inr rfl)) hend h
    simp only [not_or] at hend
    cases strict with
    | true => simp [run_cons, step, outside, hc, hend] at h
    | false =>
      have hstep : step false ⟨.closed, field, [], lines⟩ c =
          some ⟨.bare, field ++ [c], [], lines⟩ := by simp [step, outside, push, hc, hend]
      rw [run_cons, hstep] at h
      exact absurd (eq_quote_of_run (.inl rfl) h) hc

theorem doubled_of_run (h : run strict ⟨.quoted, field, [], lines⟩ text =
      some (lines ++ ((field ++ '"' :: first) :: fields) :: after)) :
    ∃ rest, text = '"' :: '"' :: rest ∧ run strict ⟨.quoted, field ++ ['"'], [], lines⟩ rest =
      some (lines ++ ((field ++ '"' :: first) :: fields) :: after) := by
  cases text with
  | nil => cases strict <;> simp [run, finish, endLine] at h
  | cons c rest =>
    by_cases hc : c = '"'
    · subst hc
      obtain ⟨rest, rfl, hrun⟩ := reopened_of_run h
      exact ⟨rest, rfl, hrun⟩
    · have hstep : step strict ⟨.quoted, field, [], lines⟩ c =
          some ⟨.quoted, field ++ [c], [], lines⟩ := by simp [step, push, hc]
      rw [run_cons, hstep] at h
      exact absurd (eq_quote_of_run (.inr rfl) h) hc

/-- A field that begins with a quote is not read as it stands: its leading quotes would
have to be doubled, and those again. -/
theorem run_quoted_ne (n : Nat) : run strict ⟨.quoted, field, [], lines⟩ (text ++ ',' :: rest) ≠
    some (lines ++ ((field ++ '"' :: (List.replicate n '"' ++ text)) :: fields) :: after) := by
  intro h
  induction text using List.twoStepInduction generalizing field n with
  | nil | singleton =>
    obtain ⟨rest', htext, -⟩ := doubled_of_run h
    simp at htext
  | cons_cons c d text ih _ =>
    obtain ⟨rest', htext, hrun⟩ := doubled_of_run h
    simp at htext
    obtain ⟨rfl, rfl, rfl⟩ := htext
    refine ih (n + 1) (hrun.trans ?_)
    have hshift (m : Nat) (l : List Char) :
        List.replicate m '"' ++ '"' :: l = List.replicate (m + 1) '"' ++ l := by
      simp [List.replicate_succ']
    simp [hshift, List.replicate_succ]

end Reader

theorem bare_of_run {strict : Bool} {text rest : List Char} {fields : List (List Char)}
    {lines after : List (List (List Char))}
    (h : (Reader.ready [] lines).run strict (text ++ ',' :: rest) =
      some (lines ++ (text :: fields) :: after)) : Bare strict text := by
  match text with
  | [] => exact ⟨by simp, by simp⟩
  | c :: text =>
    have hend : ¬ (c = ',' ∨ c = '\n' ∨ c = '\r') := fun hend => by
      simpa using Reader.eq_of_run_end (.inl rfl) hend h
    have hquote : c ≠ '"' := by
      rintro rfl
      exact Reader.run_quoted_ne 0 h
    simp only [not_or] at hend
    have hstep : (Reader.ready [] lines).step strict c = some ⟨.bare, [c], [], lines⟩ := by
      simp [Reader.step_ready, Reader.outside, hquote, hend]
    rw [List.cons_append, Reader.run_cons, hstep] at h
    have hplain : Plain strict c := ⟨hend.1, hend.2.1, hend.2.2, fun _ => hquote⟩
    exact ⟨List.forall_mem_cons.mpr ⟨hplain, Reader.plain_of_run h⟩, by simpa using hquote⟩

end Triage.Csv
