import Triage.Http

/-!
# The requests a client makes

`Only P x` bounds what a client can do without looking at any server: whatever
it is answered, `P` holds of every request that it adds to the record. The bound
of a program is put together from those of its parts.
-/

namespace Triage.Http

/-- On every server, and after every record, the client adds only requests of which `P` holds. -/
def Only {α : Type} (P : Request → Prop) (x : NetM α) : Prop :=
  ∀ server log, ∃ made, (∀ r ∈ made, P r) ∧
    requests ((x.run server).run log).2 = requests log ++ made

section Only

variable {α β : Type} {P : Request → Prop} {x : NetM α} {r : Request}

theorem Only.run (hx : Only P x) (server : Server) : ∀ r ∈ requests (Http.run server x).2, P r := by
  obtain ⟨made, hmade, hlog⟩ := hx server []
  rw [Http.run, hlog]
  exact hmade

theorem only_pure (a : α) : Only P (pure a) := by
  intro server log
  exact ⟨[], by simp, (List.append_nil _).symm⟩

theorem Only.bind {f : α → NetM β} (hx : Only P x) (hf : ∀ a, Only P (f a)) :
    Only P (x >>= f) := by
  intro server log
  obtain ⟨first, hfirst, hlog⟩ := hx server log
  obtain ⟨rest, hrest, hlog'⟩ :=
    hf ((x.run server).run log).1 server ((x.run server).run log).2
  refine ⟨first ++ rest, fun r hr => ?_, ?_⟩
  · exact (List.mem_append.mp hr).elim (hfirst r) (hrest r)
  · rw [← List.append_assoc, ← hlog, ← hlog']
    rfl

theorem only_wait (seconds : Nat) : Only P (wait seconds) := by
  intro server log
  refine ⟨[], by simp, ?_⟩
  exact List.filterMap_append

theorem only_send (h : P r) : Only P (send r) := by
  intro server log
  rw [send]
  cases r.isValid with
  | true => exact ⟨[r], by simpa using h, List.filterMap_append⟩
  | false => exact ⟨[], by simp, (List.append_nil _).symm⟩

theorem only_mapM {f : α → NetM β} (hf : ∀ a, Only P (f a)) (l : List α) :
    Only P (l.mapM f) := by
  induction l with
  | nil => exact only_pure []
  | cons a rest ih =>
    rw [List.mapM_cons]
    exact (hf a).bind fun b => ih.bind fun bs => only_pure (b :: bs)

theorem only_foldlM {f : β → α → NetM β} (hf : ∀ b a, Only P (f b a)) (l : List α) (b : β) :
    Only P (l.foldlM f b) := by
  induction l generalizing b with
  | nil => exact only_pure b
  | cons a rest ih =>
    rw [List.foldlM_cons]
    exact (hf b a).bind ih

end Only

end Triage.Http
