import Mathlib.Data.List.Basic
import Mathlib.Tactic.Common

/-!
# Calls of threads

The log of a system of threads holds what is seen of each of them. `Calls` says that the events of
a thread are whole calls, followed by the beginning of one that is still in progress; a step of one
thread keeps this for all of them (`calls_set`) if its events continue the call that the thread is
in.
-/

namespace SprdHal.Lib

variable {ε π : Type}

/-- The events of one thread. -/
def eventsOf (t : Nat) (log : List (Nat × ε)) : List ε :=
  log.filterMap fun e => if e.1 = t then some e.2 else none

theorem eventsOf_append (t : Nat) (log log' : List (Nat × ε)) :
    eventsOf t (log ++ log') = eventsOf t log ++ eventsOf t log' := List.filterMap_append

theorem eventsOf_map_self (t : Nat) (ev : List ε) : eventsOf t (ev.map (t, ·)) = ev := by
  induction ev with
  | nil => rfl
  | cons e ev ih =>
    simp only [eventsOf, List.map_cons, List.filterMap_cons, if_true]
    exact congrArg (e :: ·) ih

theorem eventsOf_map_of_ne {t t' : Nat} (ev : List ε) (h : t ≠ t') :
    eventsOf t' (ev.map (t, ·)) = [] := by
  simp [eventsOf, h]

/-- Whole calls, and what is seen so far of the last one. -/
def Calls (whole : List ε → Prop) (events begun : List ε) : Prop :=
  ∃ calls : List (List ε), (∀ c ∈ calls, whole c) ∧ events = calls.flatten ++ begun

namespace Calls

variable {whole : List ε → Prop} {events begun begun' ev : List ε}

theorem nil : Calls whole [] [] := ⟨[], by simp, rfl⟩

/-- The events complete the call in progress. -/
theorem of_whole (h : whole (begun ++ ev)) : Calls whole (begun ++ ev) [] :=
  ⟨[begun ++ ev], fun _ hc => List.mem_singleton.mp hc ▸ h, by simp⟩

/-- The events are part of the call in progress. -/
theorem of_part (h : begun ++ ev = begun') : Calls whole (begun ++ ev) begun' := ⟨[], by simp, h⟩

theorem append (h : Calls whole events begun) (hev : Calls whole (begun ++ ev) begun') :
    Calls whole (events ++ ev) begun' := by
  obtain ⟨calls, hwhole, heq⟩ := h
  obtain ⟨more, hmore, heq'⟩ := hev
  refine ⟨calls ++ more, fun c hc => (List.mem_append.mp hc).elim (hwhole c) (hmore c), ?_⟩
  rw [heq, List.append_assoc, heq', List.flatten_append, List.append_assoc]

end Calls

variable {whole : List ε → Prop} {begun : π → List ε} {threads : List π} {log : List (Nat × ε)}
  {t : Nat} {pc pc' : π} {ev : List ε}

/-- **A step of one thread.** -/
theorem calls_set (h : ∀ t pc, threads[t]? = some pc → Calls whole (eventsOf t log) (begun pc))
    (ht : threads[t]? = some pc) (hev : Calls whole (begun pc ++ ev) (begun pc')) :
    ∀ t' pc₁, (threads.set t pc')[t']? = some pc₁ →
      Calls whole (eventsOf t' (log ++ ev.map (t, ·))) (begun pc₁) := by
  intro t' pc₁ ht'
  rw [eventsOf_append]
  by_cases hne : t = t'
  · subst hne
    rw [List.getElem?_set_self (List.getElem?_eq_some_iff.mp ht).1] at ht'
    obtain rfl : pc' = pc₁ := Option.some.inj ht'
    rw [eventsOf_map_self]
    exact (h t pc ht).append hev
  · rw [List.getElem?_set_ne hne] at ht'
    rw [eventsOf_map_of_ne ev hne, List.append_nil]
    exact h t' pc₁ ht'

/-- What a step of one thread does to the number of threads at some places. -/
theorem countP_set_add (p : π → Bool) (ht : threads[t]? = some pc) (pc' : π) :
    (threads.set t pc').countP p + (p pc).toNat = threads.countP p + (p pc').toNat := by
  obtain ⟨hlt, hget⟩ := List.getElem?_eq_some_iff.mp ht
  have hset := List.countP_set (p := p) (a := pc') hlt
  rw [hget] at hset
  have hpos : p pc = true → 0 < threads.countP p := fun hp =>
    List.countP_pos_iff.mpr ⟨pc, List.mem_of_getElem? ht, hp⟩
  rw [hset]
  cases hp : p pc <;> cases hp' : p pc' <;>
    simp only [hp, Bool.toNat_true, Bool.toNat_false, Bool.false_eq_true, if_true, if_false,
      forall_const] at hpos ⊢ <;> omega

end SprdHal.Lib
