import Mathlib.Data.List.TakeWhile
import Triage.Proofs.Binary
import Triage.Proofs.Json.Records
import Triage.Proofs.Json.Start
import Triage.Settings.Org

/-!
# Settings of the team data, read from any text

A number of seconds has a span of time unless it is `2 ^ 64` or above; a negative one
has the empty span (`Timeout.ofDouble?_eq_none_iff`). So reading settings crashes on a
text exactly when the parts before its timeout are as they should be (`Reaches`) and
the timeout is that long.
-/

namespace Triage

-- ---------------------------------------------------------------------------
-- Spans of time
-- ---------------------------------------------------------------------------

namespace Timeout

theorem ofDouble?_eq_none_iff (x : Binary64) : ofDouble? x = none ↔ x.AtLeast (2 ^ 64) := by
  match x with
  | .finite true m e =>
    have hvalue : Binary.value true m e < 2 ^ 64 :=
      lt_of_le_of_lt (Binary.value_nonpos m e) (by norm_num)
    simpa [ofDouble?, Binary.AtLeast] using hvalue
  | .finite false m e =>
    have hden : (0 : ℚ) < (Binary.quotient m e).2 := by exact_mod_cast Binary.quotient_snd_pos m e
    have hfits : (Binary.quotient m e).1 < (Word.greatest64 + 1) * (Binary.quotient m e).2 ↔
        Binary.value false m e < 2 ^ 64 := by
      have hcast (m n : Nat) : (m : ℚ) < n ↔ m < n := Nat.cast_lt
      rw [← Binary.quotient_eq_value, div_lt_iff₀ hden, ← hcast]
      norm_num [Word.greatest64]
    rw [ofDouble?, Binary.AtLeast, ← not_lt, ← hfits]
    dsimp only
    split <;> simp_all
  | .infinity true => simp [ofDouble?, Binary.AtLeast]
  | .infinity false => simp [ofDouble?, Binary.AtLeast]
  | .nan => simp [ofDouble?, Binary.AtLeast]

/-- The span has the nanoseconds nearest to a number of seconds, none for one below zero. -/
def Nearest (t : Timeout) : Binary64 → Prop
  | .finite s m e => |(t.nanoseconds : ℚ) - max 0 (Binary.value s m e) * second| ≤ 1 / 2
  | _ => t.nanoseconds = 0

theorem nearest_of_ofDouble? {x : Binary64} {t : Timeout} (h : ofDouble? x = some t) :
    t.Nearest x := by
  match x with
  | .finite true m e =>
    cases h
    rw [Nearest, max_eq_left (Binary.value_nonpos m e)]
    norm_num
  | .finite false m e =>
    rw [ofDouble?] at h
    dsimp only at h
    split at h
    · cases h
      have hnearest := Binary.abs_divNearest_sub_le ((Binary.quotient m e).1 * second)
        (Binary.quotient_snd_pos m e)
      rw [Nat.cast_mul, mul_div_right_comm, Binary.quotient_eq_value] at hnearest
      rwa [Nearest, max_eq_right (Binary.value_nonneg m e)]
    · cases h
  | .infinity true => cases h; rfl
  | .nan => cases h; rfl

end Timeout

-- ---------------------------------------------------------------------------
-- The parts before a timeout
-- ---------------------------------------------------------------------------

namespace OrgSettings

inductive MaybeText : Json → Prop
  | null : MaybeText .null
  | text (s : String) : MaybeText (.string s)

def earlier : List String := ["url", "path", "overlay"]

/-- In a value that is read part by part this timeout is reached: no other one was before it,
and each field before it is there once at most and, unless left out of an object, null or a
text. -/
inductive Reaches : Json → Json → Prop
  | named {before after : List (String × Json)} {t : Json} (hnew : ∀ m ∈ before, m.1 ≠ "timeout")
      (honce : ∀ name ∈ earlier, Json.countKey name before ≤ 1)
      (htext : ∀ name ∈ earlier, ∀ v, before.lookup name = some v → MaybeText v) :
      Reaches (.object (before ++ ("timeout", t) :: after)) t
  | placed {url path overlay t : Json} {rest : List Json} (hurl : MaybeText url)
      (hpath : MaybeText path) (hoverlay : MaybeText overlay) :
      Reaches (.array (url :: path :: overlay :: t :: rest)) t

section Parts

variable {v before t : Json} {members : List (String × Json)} {items : List Json}

theorem optional_text_isSome_iff :
    (Document.optional? Json.text? v).isSome = true ↔ MaybeText v := by
  constructor
  · intro h
    cases v with
    | null => exact .null
    | string s => exact .text s
    | _ => cases h
  · rintro (_ | s)
    · rfl
    · rfl

section Fields

variable {get : String → Option Json} {timeout : (String → Option Json) → Option Timeout}

theorem readWith?_parts {s : OrgSettings} (h : readWith? v timeout = some s) :
    ∃ get, v.fields? fieldNames = some get ∧
      (∀ name ∈ earlier, (v.nullable? get name Json.text?).isSome = true) ∧
      timeout get = some s.timeout := by
  obtain ⟨get, hget, h⟩ := Option.bind_eq_some_iff.mp h
  obtain ⟨url, hurl, h⟩ := Option.bind_eq_some_iff.mp h
  obtain ⟨path, hpath, h⟩ := Option.bind_eq_some_iff.mp h
  obtain ⟨overlay, hoverlay, h⟩ := Option.bind_eq_some_iff.mp h
  obtain ⟨t, ht, ⟨⟩⟩ := Option.bind_eq_some_iff.mp h
  refine ⟨get, hget, ?_, ht⟩
  simp only [earlier, List.forall_mem_cons, hurl, hpath, hoverlay, Option.isSome_some]
  simp

theorem readWith?_isSome (hget : v.fields? fieldNames = some get)
    (hearlier : ∀ name ∈ earlier, (v.nullable? get name Json.text?).isSome = true) {t : Timeout}
    (ht : timeout get = some t) : (readWith? v timeout).isSome = true := by
  simp only [earlier, List.forall_mem_cons, Option.isSome_iff_exists] at hearlier
  obtain ⟨⟨url, hurl⟩, ⟨path, hpath⟩, ⟨overlay, hoverlay⟩, -⟩ := hearlier
  simp [readWith?, hget, hurl, hpath, hoverlay, ht]

end Fields

theorem fields?_object {names : List String}
    (h : ∀ name ∈ names, Json.countKey name members ≤ 1) :
    (Json.object members).fields? names = some fun name => members.lookup name :=
  if_pos (List.all_eq_true.mpr fun name hname => decide_eq_true (h name hname))

theorem fields?_object_eq_some {names : List String} {get : String → Option Json}
    (h : (Json.object members).fields? names = some get) :
    (∀ name ∈ names, Json.countKey name members ≤ 1) ∧ get = fun name => members.lookup name := by
  rw [Json.fields?, Option.ite_none_right_eq_some] at h
  obtain ⟨hcount, ⟨⟩⟩ := h
  exact ⟨fun name hname => of_decide_eq_true (List.all_eq_true.mp hcount name hname), rfl⟩

theorem nullable?_object_isSome_iff {get : String → Option Json} {name : String} :
    ((Json.object members).nullable? get name Json.text?).isSome = true ↔
      ∀ v, get name = some v → MaybeText v := by
  cases hget : get name with
  | none => simp [Json.nullable?, hget]
  | some w => simp [Json.nullable?, hget, optional_text_isSome_iff]

theorem nullable?_array_isSome_iff {get : String → Option Json} {name : String} {w : Json}
    (hget : get name = some w) :
    ((Json.array items).nullable? get name Json.text?).isSome = true ↔ MaybeText w := by
  rw [Json.nullable?, hget]
  exact optional_text_isSome_iff

theorem untilTimeout?_object_iff :
    untilTimeout? (.object members) = some (before, t) ↔
      ∃ named after, members = named ++ ("timeout", t) :: after ∧
        (∀ m ∈ named, m.1 ≠ "timeout") ∧ before = .object named := by
  constructor
  · intro h
    rw [untilTimeout?] at h
    split at h
    · rename_i name u after hdrop
      cases h
      obtain rfl : name = "timeout" := by
        have hhead := List.head_dropWhile_not (fun m : String × Json => m.1 != "timeout")
          (by rw [hdrop]; exact List.cons_ne_nil _ _)
        simpa [hdrop] using hhead
      refine ⟨_, after, ?_, fun m hm => ?_, rfl⟩
      · rw [← hdrop, List.takeWhile_append_dropWhile]
      · simpa using List.mem_takeWhile_imp hm
    · cases h
  · rintro ⟨named, after, rfl, hnew, rfl⟩
    have hpass : ∀ m ∈ named, (m.1 != "timeout") = true := fun m hm => by simpa using hnew m hm
    rw [untilTimeout?, List.dropWhile_append_of_pos hpass, List.takeWhile_append_of_pos hpass]
    simp

theorem mem_fieldNames_iff {name : String} :
    name ∈ fieldNames ↔ name ∈ earlier ∨ name = "timeout" := by
  simp [fieldNames, earlier, or_assoc]

theorem Reaches.of_earlier {get : String → Option Json} {url path overlay : Json}
    {rest : List Json} (hurl : get "url" = some url) (hpath : get "path" = some path)
    (hoverlay : get "overlay" = some overlay)
    (h : ∀ name ∈ earlier, ((Json.array items).nullable? get name Json.text?).isSome = true) :
    Reaches (.array (url :: path :: overlay :: t :: rest)) t := by
  simp only [earlier, List.forall_mem_cons] at h
  exact .placed ((nullable?_array_isSome_iff hurl).mp h.1)
    ((nullable?_array_isSome_iff hpath).mp h.2.1) ((nullable?_array_isSome_iff hoverlay).mp h.2.2.1)

theorem reaches_iff :
    Reaches v t ↔ ∃ before, untilTimeout? v = some (before, t) ∧
      (readWith? before fun _ => some ⟨0⟩).isSome = true := by
  constructor
  · intro h
    cases h with
    | @named named after _ hnew honce htext =>
      have hcount : ∀ name ∈ fieldNames, Json.countKey name named ≤ 1 := fun name hname => by
        obtain hname | rfl := mem_fieldNames_iff.mp hname
        · exact honce name hname
        · simp [Json.countKey_eq_zero_iff.mpr hnew]
      exact ⟨.object named, untilTimeout?_object_iff.mpr ⟨named, after, rfl, hnew, rfl⟩,
        readWith?_isSome (fields?_object hcount)
          (fun name hname => nullable?_object_isSome_iff.mpr (htext name hname)) rfl⟩
    | @placed url path overlay _ rest hurl hpath hoverlay =>
      refine ⟨.array [url, path, overlay], rfl, readWith?_isSome rfl ?_ rfl⟩
      simp only [earlier, List.forall_mem_cons]
      exact ⟨(nullable?_array_isSome_iff rfl).mpr hurl, (nullable?_array_isSome_iff rfl).mpr hpath,
        (nullable?_array_isSome_iff rfl).mpr hoverlay, by simp⟩
  · rintro ⟨before, hbefore, hread⟩
    obtain ⟨s, hs⟩ := Option.isSome_iff_exists.mp hread
    obtain ⟨get, hget, hearlier, -⟩ := readWith?_parts hs
    cases v with
    | object members =>
      obtain ⟨named, after, rfl, hnew, rfl⟩ := untilTimeout?_object_iff.mp hbefore
      obtain ⟨hcount, rfl⟩ := fields?_object_eq_some hget
      exact .named hnew (fun name hname => hcount name (mem_fieldNames_iff.mpr (.inl hname)))
        fun name hname => nullable?_object_isSome_iff.mp (hearlier name hname)
    | array items =>
      match items with
      | url :: path :: overlay :: u :: rest =>
        cases hbefore
        obtain rfl := Option.some.inj hget
        exact .of_earlier rfl rfl rfl hearlier
      | [] | [_] | [_, _] | [_, _, _] => cases hbefore
    | _ => cases hbefore

theorem double?_eq_some_iff {x : Binary64} :
    t.double? = some x ↔ ∃ n, t = .number n ∧ n.toDouble = x := by
  cases t with
  | number n => simp [Json.double?]
  | _ => simp [Json.double?]

theorem overflows_iff :
    overflows v = true ↔ ∃ n, Reaches v (.number n) ∧ n.toDouble.AtLeast (2 ^ 64) := by
  have hlong (t : Json) : (t.double?.any fun x => (Timeout.ofDouble? x).isNone) = true ↔
      ∃ n, t = .number n ∧ n.toDouble.AtLeast (2 ^ 64) := by
    simp only [Option.any_eq_true, double?_eq_some_iff, Option.isNone_iff_eq_none,
      Timeout.ofDouble?_eq_none_iff]
    constructor
    · rintro ⟨_, ⟨n, rfl, rfl⟩, hn⟩
      exact ⟨n, rfl, hn⟩
    · rintro ⟨n, rfl, hn⟩
      exact ⟨_, ⟨n, rfl, rfl⟩, hn⟩
  simp only [reaches_iff]
  rw [overflows]
  cases huntil : untilTimeout? v with
  | none => simp
  | some reached =>
    obtain ⟨before, t⟩ := reached
    simp only [Bool.and_eq_true, hlong, Option.some.injEq, Prod.mk.injEq]
    constructor
    · rintro ⟨⟨n, rfl, hn⟩, hread⟩
      exact ⟨n, ⟨before, ⟨rfl, rfl⟩, hread⟩, hn⟩
    · rintro ⟨n, ⟨_, ⟨rfl, rfl⟩, hread⟩, hn⟩
      exact ⟨⟨n, rfl, hn⟩, hread⟩

/-- The timeout of settings is the one that is reached. -/
theorem reaches_of_ofJson? {s : OrgSettings} (h : ofJson? v = some s) :
    ∃ n, Reaches v (.number n) ∧ Timeout.ofDouble? n.toDouble = some s.timeout := by
  obtain ⟨get, hget, hearlier, ht⟩ := readWith?_parts h
  obtain ⟨t, hlookup, ht⟩ := Option.bind_eq_some_iff.mp ht
  obtain ⟨x, hx, ht⟩ := Option.bind_eq_some_iff.mp ht
  obtain ⟨n, rfl, rfl⟩ := double?_eq_some_iff.mp hx
  refine ⟨n, ?_, ht⟩
  cases v with
  | object members =>
    obtain ⟨hcount, rfl⟩ := fields?_object_eq_some hget
    obtain ⟨named, after, rfl, hnew⟩ := List.lookup_eq_some_iff.mp hlookup
    refine .named (fun m hm => ?_) (fun name hname => ?_) fun name hname v hv => ?_
    · exact (bne_iff_ne.mp (hnew m hm)).symm
    · have hle := hcount name (mem_fieldNames_iff.mpr (.inl hname))
      rw [Json.countKey, List.countP_append] at hle
      exact (Nat.le_add_right _ _).trans hle
    · refine nullable?_object_isSome_iff.mp (hearlier name hname) v ?_
      rw [List.lookup_append, hv]
      rfl
  | array items =>
    obtain _ | ⟨url, _ | ⟨path, _ | ⟨overlay, _ | ⟨t, _ | ⟨_, rest⟩⟩⟩⟩⟩ := items
    case cons.cons.cons.cons.nil =>
      obtain rfl := Option.some.inj hget
      obtain rfl := Option.some.inj hlookup
      exact .of_earlier rfl rfl rfl hearlier
    case cons.cons.cons.cons.cons =>
      rw [Json.fields?, Option.ite_none_right_eq_some] at hget
      have hlen := hget.1
      simp only [List.length_cons, fieldNames, List.length_nil] at hlen
      omega
    -- An array of fewer items has no timeout.
    all_goals
      obtain rfl := Option.some.inj hget
      cases hlookup
  | _ => cases hget

end Parts

-- ---------------------------------------------------------------------------
-- Texts
-- ---------------------------------------------------------------------------

section Texts

variable {text : String} {v : Json}

theorem ofText_eq_crash_iff :
    ofText text = .crash ↔ ∃ v n, Json.readStart? text = some v ∧ Reaches v (.number n) ∧
      n.toDouble.AtLeast (2 ^ 64) := by
  have hany : (Json.readStart? text).any overflows = true ↔
      ∃ v n, Json.readStart? text = some v ∧ Reaches v (.number n) ∧
        n.toDouble.AtLeast (2 ^ 64) := by
    simp only [Option.any_eq_true, overflows_iff, exists_and_left]
  rw [← hany, ofText]
  split
  · simp_all
  · cases (Json.read? text).bind ofJson? <;> simp_all

theorem Reaches.readStart? {t : Json} (h : Reaches v t) (hread : Json.read? text = some v) :
    Json.readStart? text = some v := by
  have hv : v ≠ .void := by
    rintro rfl
    cases h
  obtain hstart | ⟨-, hitems, hmembers⟩ := Json.readStart?_of_read? hread hv
  · exact hstart
  · cases h with
    | named => cases hmembers
    | placed => cases hitems

theorem exists_of_ofText {s : OrgSettings} (h : ofText text = .ok s) :
    ∃ v, Json.read? text = some v ∧ ofJson? v = some s := by
  rw [ofText] at h
  split at h
  · cases h
  · cases hread : (Json.read? text).bind ofJson? with
    | none =>
      rw [hread] at h
      cases h
    | some s' =>
      rw [hread] at h
      cases h
      exact Option.bind_eq_some_iff.mp hread

end Texts

/-- Reading settings crashes on a text exactly when a timeout of `2 ^ 64` seconds or above is
reached in it, whatever follows; in a text that holds a value with a meaning, when the value
has such a timeout there. In every other case there are settings or an error, and settings
have the time nearest to the timeout, none at all if it is below zero. -/
theorem ofText_outcomes (text : String) :
    (ofText text = .crash ↔ ∃ v n, Json.readStart? text = some v ∧ Reaches v (.number n) ∧
      n.toDouble.AtLeast (2 ^ 64)) ∧
    (∀ v, Json.read? text = some v → v ≠ .void →
      (ofText text = .crash ↔ ∃ n, Reaches v (.number n) ∧ n.toDouble.AtLeast (2 ^ 64))) ∧
    ∀ s, ofText text = .ok s → ∃ v n, Json.read? text = some v ∧ Reaches v (.number n) ∧
      ¬ n.toDouble.AtLeast (2 ^ 64) ∧ s.timeout.Nearest n.toDouble := by
  refine ⟨ofText_eq_crash_iff, fun v hread hv => ?_, fun s hs => ?_⟩
  · rw [ofText_eq_crash_iff]
    constructor
    · rintro ⟨w, n, hstart, hreaches, hn⟩
      obtain hsame | ⟨hnone, -, -⟩ := Json.readStart?_of_read? hread hv
      · obtain rfl := Option.some.inj (hsame.symm.trans hstart)
        exact ⟨n, hreaches, hn⟩
      · rw [hnone] at hstart
        cases hstart
    · rintro ⟨n, hreaches, hn⟩
      exact ⟨v, n, hreaches.readStart? hread, hreaches, hn⟩
  · obtain ⟨v, hread, hjson⟩ := exists_of_ofText hs
    obtain ⟨n, hreaches, ht⟩ := reaches_of_ofJson? hjson
    refine ⟨v, n, hread, hreaches, fun hn => ?_, Timeout.nearest_of_ofDouble? ht⟩
    rw [(Timeout.ofDouble?_eq_none_iff _).mpr hn] at ht
    cases ht

/-- Settings with a timeout of `10 ^ 30` seconds are well formed, and crash the reader. -/
theorem ofText_overflow :
    (Json.read? "\x7b\"url\":\"http://o\",\"path\":null,\"timeout\":1e30\x7d").isSome ∧
    ofText "\x7b\"url\":\"http://o\",\"path\":null,\"timeout\":1e30\x7d" = .crash := by
  decide +kernel

end OrgSettings

end Triage
