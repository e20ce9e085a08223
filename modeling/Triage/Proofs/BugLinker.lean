import Triage.BugLinker
import Triage.Proofs.Text

/-!
# Links are read back

The address of a link ends in the ids that it asks for, and `ofUrl?` reads them from
the address alone: as decimal numbers between encoded commas, behind the last `v1=`.
What the tracker's own address holds is all one, since no id has a letter of the key.
So two links agree exactly when the trackers and the ids do (`url_eq_iff`), and two
trackers agree exactly when their addresses do up to the slashes at the end.
-/

namespace Triage.BugLinker

-- ---------------------------------------------------------------------------
-- Reading addresses
-- ---------------------------------------------------------------------------

/-- The parts of a text between encoded commas; there is always one. -/
def commaParts : List Char → List (List Char)
  | [] => [[]]
  | '%' :: '2' :: 'C' :: rest => [] :: commaParts rest
  | c :: rest => (commaParts rest).modifyHead (c :: ·)

def readId? (part : List Char) : Option UInt64 :=
  (Text.unsigned? Word.greatest64 part).map UInt64.ofNat

def readIds? (value : List Char) : Option (List UInt64) :=
  if value = [] then some [] else (commaParts value).mapM readId?

/-- The text behind the last place of the mark. -/
def behindLast? (mark : List Char) : List Char → Option (List Char)
  | [] => none
  | c :: rest => (behindLast? mark rest).or ((c :: rest).dropPrefix? mark)

def value? (url : String) : Option (List Char) := behindLast? "v1=".toList url.toList

def ofUrl? (url : String) : Option (List UInt64) := (value? url).bind readIds?

-- ---------------------------------------------------------------------------
-- Parts between commas
-- ---------------------------------------------------------------------------

section Parts

variable {part : List Char} {parts : List (List Char)}

theorem commaParts_cons {c : Char} (hc : c ≠ '%') (rest : List Char) :
    commaParts (c :: rest) = (commaParts rest).modifyHead (c :: ·) := by
  rw [commaParts.eq_def]
  split
  · rename_i he
    cases he
  · rename_i he
    exact absurd (List.cons.inj he).1 hc
  · rename_i he
    cases he
    rfl

theorem commaParts_eq_singleton (h : '%' ∉ part) : commaParts part = [part] := by
  induction part with
  | nil => rfl
  | cons c rest ih =>
    obtain ⟨hc, hrest⟩ := List.ne_and_not_mem_of_not_mem_cons h
    rw [commaParts_cons (Ne.symm hc), ih hrest, List.modifyHead_cons]

theorem commaParts_append (h : '%' ∉ part) (rest : List Char) :
    commaParts (part ++ "%2C".toList ++ rest) = part :: commaParts rest := by
  induction part with
  | nil => rfl
  | cons c part ih =>
    obtain ⟨hc, hpart⟩ := List.ne_and_not_mem_of_not_mem_cons h
    rw [List.cons_append, List.cons_append, commaParts_cons (Ne.symm hc), ih hpart,
      List.modifyHead_cons]

theorem commaParts_intercalate (hne : parts ≠ []) (h : ∀ part ∈ parts, '%' ∉ part) :
    commaParts ("%2C".toList.intercalate parts) = parts := by
  induction parts with
  | nil => exact absurd rfl hne
  | cons part parts ih =>
    obtain ⟨hpart, hparts⟩ := List.forall_mem_cons.mp h
    cases parts with
    | nil => rw [List.intercalate_singleton, commaParts_eq_singleton hpart]
    | cons next more =>
      rw [List.intercalate_cons_cons, commaParts_append hpart, ih (List.cons_ne_nil _ _) hparts]

end Parts

-- ---------------------------------------------------------------------------
-- Ids
-- ---------------------------------------------------------------------------

section Ids

variable {ids : List UInt64}

def idParts (ids : List UInt64) : List (List Char) := ids.map fun id => Text.digits id.toNat

theorem toList_joinIds (ids : List UInt64) :
    (joinIds ids).toList = "%2C".toList.intercalate (idParts ids) := by
  simp [joinIds, idParts, String.toList_intercalate, Function.comp_def]

theorem joinIds_eq_nil_iff : (joinIds ids).toList = [] ↔ ids = [] := by
  rw [toList_joinIds, idParts]
  cases ids with
  | nil => simp
  | cons id rest =>
    have hdigits : Text.digits id.toNat ≠ [] := (Text.spells_digits _).ne_nil
    cases rest with
    | nil => simp [hdigits]
    | cons next more => simp [List.intercalate_cons_cons]

theorem commaParts_joinIds (h : ids ≠ []) : commaParts (joinIds ids).toList = idParts ids := by
  rw [toList_joinIds]
  refine commaParts_intercalate (by simpa [idParts] using h) fun part hpart => ?_
  obtain ⟨id, -, rfl⟩ := List.mem_map.mp hpart
  exact Text.not_mem_digits (by decide) _

theorem readId?_digits (id : UInt64) : readId? (Text.digits id.toNat) = some id := by
  have hfits : id.toNat ≤ Word.greatest64 := Nat.le_of_lt_succ id.toNat_lt
  have hread : Text.unsigned? Word.greatest64 (Text.digits id.toNat) = some id.toNat :=
    Text.unsigned?_eq_some_iff.mpr ⟨_, .inl rfl, Text.spells_digits _, hfits⟩
  rw [readId?, hread, Option.map_some, UInt64.ofNat_toNat]

theorem mapM_readId?_idParts (ids : List UInt64) : (idParts ids).mapM readId? = some ids := by
  have hread : (readId? ∘ fun id => Text.digits id.toNat) = some := funext readId?_digits
  rw [idParts, List.mapM_map, hread]
  simpa using List.mapM_pure (m := Option) (l := ids) (f := id)

theorem readIds?_joinIds (ids : List UInt64) : readIds? (joinIds ids).toList = some ids := by
  rw [readIds?]
  split
  · rename_i hnil
    rw [joinIds_eq_nil_iff.mp hnil]
  · rename_i hnil
    rw [commaParts_joinIds (mt joinIds_eq_nil_iff.mpr hnil), mapM_readId?_idParts]

end Ids

-- ---------------------------------------------------------------------------
-- The last place of a key
-- ---------------------------------------------------------------------------

section Last

variable {c : Char} {more text value : List Char}

theorem behindLast?_eq_none (h : c ∉ text) : behindLast? (c :: more) text = none := by
  induction text with
  | nil => rfl
  | cons d rest ih =>
    obtain ⟨hd, hrest⟩ := List.ne_and_not_mem_of_not_mem_cons h
    rw [behindLast?, ih hrest, Option.none_or]
    simp [List.dropPrefix?, Ne.symm hd]

theorem behindLast?_append {mark : List Char} (before : List Char)
    (h : behindLast? mark text = some value) : behindLast? mark (before ++ text) = some value := by
  induction before with
  | nil => exact h
  | cons d before ih => rw [List.cons_append, behindLast?, ih, Option.some_or]

/-- A mark whose first character does not come again is the last one. -/
theorem behindLast?_mark (before : List Char) (hmore : c ∉ more) (hvalue : c ∉ value) :
    behindLast? (c :: more) (before ++ (c :: more ++ value)) = some value := by
  refine behindLast?_append before ?_
  -- The mark does not begin again inside itself or behind itself.
  have hnone : behindLast? (c :: more) (more ++ value) = none :=
    behindLast?_eq_none (by simp [hmore, hvalue])
  rw [List.cons_append, behindLast?, hnone, Option.none_or, List.dropPrefix?_eq_some_iff]
  exact ⟨c :: more, rfl, beq_self_eq_true _⟩

end Last

-- ---------------------------------------------------------------------------
-- Whole addresses
-- ---------------------------------------------------------------------------

section Addresses

variable {l l' : BugLinker} {ids ids' : List UInt64}

theorem v_not_mem_joinIds (ids : List UInt64) : 'v' ∉ (joinIds ids).toList := by
  refine Text.not_mem_intercalate (by decide) fun part hpart => ?_
  obtain ⟨id, -, rfl⟩ := List.mem_map.mp hpart
  rw [String.toList_ofList]
  exact Text.not_mem_digits (by decide) _

theorem value?_url (l : BugLinker) (ids : List UInt64) :
    value? (l.url ids) = some (joinIds ids).toList := by
  have hurl : (l.url ids).toList =
      (l.endpoint.toList ++ "/buglist.cgi?f1=bug_id&o1=anyexact&".toList) ++
        ("v1=".toList ++ (joinIds ids).toList) := by
    simp [url]
  rw [value?, hurl]
  exact behindLast?_mark _ (by decide) (v_not_mem_joinIds ids)

theorem ofUrl?_url (l : BugLinker) (ids : List UInt64) : ofUrl? (l.url ids) = some ids := by
  rw [ofUrl?, value?_url, Option.bind_some, readIds?_joinIds]

-- The tracker's address may hold a key and ids of its own.
example : ofUrl? "http://bz/?v1=7/buglist.cgi?f1=bug_id&o1=anyexact&v1=10%2C2" = some [10, 2] := by
  decide +kernel

theorem url_eq_iff : l.url ids = l'.url ids' ↔ l = l' ∧ ids = ids' := by
  constructor
  · intro h
    have hids : ids = ids' := by
      apply Option.some.inj
      rw [← l.ofUrl?_url, h, l'.ofUrl?_url]
    subst hids
    -- Both addresses now end alike, so they begin alike.
    simp only [url, String.append_left_inj] at h
    exact ⟨congrArg mk h, rfl⟩
  · rintro ⟨rfl, rfl⟩
    rfl

end Addresses

-- ---------------------------------------------------------------------------
-- Slashes
-- ---------------------------------------------------------------------------

def slashes (n : Nat) : String := String.ofList (List.replicate n '/')

section Slashes

variable {endpoint endpoint' : String}

theorem eq_append_slashes {base after : List Char} (h : endpoint.toList = base ++ after)
    (hafter : ∀ c ∈ after, (c == '/') = true) :
    endpoint = String.ofList base ++ slashes after.length := by
  have hslashes : after = List.replicate after.length '/' :=
    List.eq_replicate_of_mem fun c hc => eq_of_beq (hafter c hc)
  rw [slashes, ← hslashes, ← String.ofList_append, ← h, String.ofList_toList]

theorem forall_mem_slashes (n : Nat) : ∀ c ∈ (slashes n).toList, (c == '/') = true := by
  intro c hc
  rw [slashes, String.toList_ofList] at hc
  exact beq_iff_eq.mpr (List.eq_of_mem_replicate hc)

/-- Trackers are the same when their addresses are, up to the slashes at the end. -/
theorem ofEndpoint_eq_iff : ofEndpoint endpoint = ofEndpoint endpoint' ↔
    ∃ base n n', endpoint = base ++ slashes n ∧ endpoint' = base ++ slashes n' := by
  have htrim : ofEndpoint endpoint = ofEndpoint endpoint' ↔
      Text.trimRight (· == '/') endpoint.toList = Text.trimRight (· == '/') endpoint'.toList := by
    simp [ofEndpoint, Text.trimEnd, String.ofList_inj]
  rw [htrim, Text.trimRight_eq_iff]
  constructor
  · rintro ⟨base, after, after', h, h', hafter, hafter'⟩
    exact ⟨_, _, _, eq_append_slashes h hafter, eq_append_slashes h' hafter'⟩
  · rintro ⟨base, n, n', rfl, rfl⟩
    exact ⟨base.toList, _, _, String.toList_append, String.toList_append,
      forall_mem_slashes n, forall_mem_slashes n'⟩

end Slashes

/-- The ids of a link are read back from its address, in order and whatever the tracker's
own address is. So links are the same only with the same ids, and only of trackers whose
addresses differ in nothing but the slashes at the end. -/
theorem url_determines :
    (∀ (l : BugLinker) (ids : List UInt64), ∃ value,
      l.url ids = l.endpoint ++ "/buglist.cgi?f1=bug_id&o1=anyexact&v1=" ++ String.ofList value ∧
        value? (l.url ids) = some value ∧ readIds? value = some ids) ∧
    (∀ (l l' : BugLinker) (ids ids' : List UInt64),
      l.url ids = l'.url ids' ↔ l = l' ∧ ids = ids') ∧
    ∀ (endpoint endpoint' : String) (ids ids' : List UInt64),
      (ofEndpoint endpoint).url ids = (ofEndpoint endpoint').url ids' ↔
        (∃ base n n', endpoint = base ++ slashes n ∧ endpoint' = base ++ slashes n') ∧
          ids = ids' := by
  refine ⟨fun l ids => ?_, fun _ _ _ _ => url_eq_iff, fun endpoint endpoint' ids ids' => ?_⟩
  · refine ⟨(joinIds ids).toList, ?_, l.value?_url ids, readIds?_joinIds ids⟩
    rw [url, String.ofList_toList]
  · rw [url_eq_iff, ofEndpoint_eq_iff]

end Triage.BugLinker
