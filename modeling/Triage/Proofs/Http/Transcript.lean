import Triage.Http

/-!
# What went over the wire

The record of a client holds its requests without their answers; beside the
server that gave them it is a transcript of both. `Runs P x` says what a client
comes to together with the transcript of its run, on every server, and is put
together from the parts of the client.
-/

namespace Triage.Http

inductive Exchange where
  | answered (r : Request) (answer : Option Response)
  | waited (seconds : Nat)
  deriving DecidableEq, Repr

/-- What a client did, with the answers of a server that had some requests before. -/
def transcript (server : Server) : List Request → List Event → List Exchange
  | _, [] => []
  | had, .sent r :: rest =>
    .answered r (server (had ++ [r])) :: transcript server (had ++ [r]) rest
  | had, .waited seconds :: rest => .waited seconds :: transcript server had rest

theorem requests_append (log made : List Event) :
    requests (log ++ made) = requests log ++ requests made :=
  List.filterMap_append

theorem transcript_append (server : Server) (had : List Request) (made rest : List Event) :
    transcript server had (made ++ rest) =
      transcript server had made ++ transcript server (had ++ requests made) rest := by
  induction made generalizing had with
  | nil => simp [transcript, requests]
  | cons event made ih =>
    cases event with
    | sent r => simp [transcript, ih, requests, Event.request?]
    | waited seconds =>
      have hmade : requests (.waited seconds :: made) = requests made := rfl
      simp [transcript, ih, hmade]

-- ---------------------------------------------------------------------------
-- Runs of a client
-- ---------------------------------------------------------------------------

/-- On every server, and after every record, `P` holds of what the client gives and of
the transcript of what it does. -/
def Runs {α : Type} (P : α → List Exchange → Prop) (x : NetM α) : Prop :=
  ∀ server log, ∃ made, ((x.run server).run log).2 = log ++ made ∧
    P ((x.run server).run log).1 (transcript server (requests log) made)

section Runs

variable {α β : Type} {P : α → List Exchange → Prop} {x : NetM α}

theorem Runs.imp {Q : α → List Exchange → Prop} (hx : Runs P x) (h : ∀ a t, P a t → Q a t) :
    Runs Q x := by
  intro server log
  obtain ⟨made, hlog, hmade⟩ := hx server log
  exact ⟨made, hlog, h _ _ hmade⟩

theorem runs_pure {a : α} (h : P a []) : Runs P (pure a) := by
  intro server log
  exact ⟨[], (List.append_nil _).symm, h⟩

/-- What follows a part of a client is judged by the transcript with that part before it. -/
theorem Runs.bind {Q : β → List Exchange → Prop} {f : α → NetM β} (hx : Runs P x)
    (hf : ∀ a, Runs (fun b t' => ∀ t, P a t → Q b (t ++ t')) (f a)) : Runs Q (x >>= f) := by
  intro server log
  have hrun : ((x >>= f).run server).run log =
      ((f ((x.run server).run log).1).run server).run ((x.run server).run log).2 := rfl
  obtain ⟨made, hlog, hmade⟩ := hx server log
  obtain ⟨rest, hlog', hrest⟩ := hf ((x.run server).run log).1 server (log ++ made)
  rw [requests_append] at hrest
  refine ⟨made ++ rest, ?_, ?_⟩ <;> rw [hrun, hlog]
  · rw [hlog', List.append_assoc]
  · rw [transcript_append]
    exact hrest _ hmade

theorem runs_wait (seconds : Nat) : Runs (fun _ t => t = [.waited seconds]) (wait seconds) := by
  intro server log
  exact ⟨[.waited seconds], rfl, rfl⟩

/-- A request that cannot be sent has no answer, and does not show in the transcript. -/
inductive Sends (r : Request) : Option Response → List Exchange → Prop
  | unsendable (h : r.isValid = false) : Sends r none []
  | answered {answer : Option Response} (h : r.isValid = true) :
      Sends r answer [.answered r answer]

theorem runs_send (r : Request) : Runs (Sends r) (send r) := by
  intro server log
  cases hvalid : r.isValid with
  | false =>
    refine ⟨[], ?_, ?_⟩ <;> rw [send, hvalid]
    · exact (List.append_nil _).symm
    · exact .unsendable hvalid
  | true =>
    refine ⟨[.sent r], ?_, ?_⟩ <;> rw [send, hvalid]
    · rfl
    · have hrequests : requests (log ++ [.sent r]) = requests log ++ [r] := requests_append _ _
      rw [transcript, ← hrequests]
      exact .answered hvalid

end Runs

-- ---------------------------------------------------------------------------
-- Answers by address
-- ---------------------------------------------------------------------------

def Exchange.answerFrom? (url : String) : Exchange → Option (Option Response)
  | answered r answer => if r.url = url then some answer else none
  | waited _ => none

def answers (url : String) (t : List Exchange) : List (Option Response) :=
  t.filterMap (Exchange.answerFrom? url)

section Answers

variable {url : String} {t t' : List Exchange} {r : Request}
  {answer : Option Response} {seconds : Nat}

@[simp] theorem answers_nil : answers url [] = [] := rfl

@[simp] theorem answers_append : answers url (t ++ t') = answers url t ++ answers url t' :=
  List.filterMap_append

@[simp] theorem answers_answered :
    answers url (.answered r answer :: t) =
      if r.url = url then answer :: answers url t else answers url t := by
  by_cases h : r.url = url <;> simp [answers, Exchange.answerFrom?, h]

@[simp] theorem answers_waited : answers url (.waited seconds :: t) = answers url t := rfl

end Answers

theorem append_eq_append_cons_iff {ε : Type} {t t' before later : List ε} {e : ε} :
    t ++ t' = before ++ e :: later ↔
      (∃ mid, t = before ++ e :: mid ∧ later = mid ++ t') ∨
        ∃ mid, before = t ++ mid ∧ t' = mid ++ e :: later := by
  rw [List.append_eq_append_iff]
  constructor
  · rintro (⟨mid, hbefore, ht'⟩ | ⟨mid, ht, hmid⟩)
    · exact .inr ⟨mid, hbefore, ht'⟩
    · cases mid with
      | nil => exact .inr ⟨[], by simpa using ht.symm, hmid.symm⟩
      | cons first mid =>
        obtain ⟨rfl, hlater⟩ := List.cons.inj hmid
        exact .inl ⟨mid, ht, hlater⟩
  · rintro (⟨mid, rfl, rfl⟩ | ⟨mid, rfl, rfl⟩)
    · exact .inr ⟨e :: mid, rfl, rfl⟩
    · exact .inl ⟨mid, rfl, rfl⟩

end Triage.Http
