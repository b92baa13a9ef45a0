import Mathlib.Data.List.Nodup
import Mathlib.Tactic.Common

/-!
# Lists of records with distinct keys

Where the keys of a list are distinct, a key names one of its records: up to order the list is the
record and the rest (`Keyed.perm_cons`), and changing the record of a key changes that one only
(`Keyed.modify_perm`).
-/

namespace SprdHal.Lib.Keyed

variable {α κ : Type} [DecidableEq κ] {key : α → κ} {l : List α} {x y : α}

/-- The record of a key. -/
def find (key : α → κ) (l : List α) (k : κ) : Option α := l.find? (key · = k)

/-- The records of the other keys. -/
def others (key : α → κ) (l : List α) (k : κ) : List α := l.filter (key · ≠ k)

/-- The record of a key is changed. -/
def modify (key : α → κ) (f : α → α) (l : List α) (k : κ) : List α :=
  l.map fun x => if key x = k then f x else x

theorem find_some {k : κ} (h : find key l k = some x) : x ∈ l ∧ key x = k :=
  ⟨List.mem_of_find?_eq_some h, of_decide_eq_true (List.find?_some (p := (key · = k)) h)⟩

theorem find_eq (h : (l.map key).Nodup) (hx : x ∈ l) : find key l (key x) = some x := by
  cases hfind : find key l (key x) with
  | none =>
    have hnone := List.find?_eq_none.mp hfind x hx
    exact absurd (decide_eq_true rfl) hnone
  | some y =>
    obtain ⟨hy, hkey⟩ := find_some hfind
    rw [List.inj_on_of_nodup_map h hy hx hkey]

theorem mem_others (h : (l.map key).Nodup) (hx : x ∈ l) :
    y ∈ others key l (key x) ↔ y ∈ l ∧ y ≠ x := by
  rw [others, List.mem_filter, decide_eq_true_iff]
  exact and_congr_right fun hy => not_congr ⟨List.inj_on_of_nodup_map h hy hx, fun heq => heq ▸ rfl⟩

theorem others_nodup (h : (l.map key).Nodup) (k : κ) : ((others key l k).map key).Nodup :=
  h.sublist (List.filter_sublist.map _)

/-- **A record and the rest.** -/
theorem perm_cons (h : (l.map key).Nodup) (hx : x ∈ l) : l.Perm (x :: others key l (key x)) := by
  induction l with
  | nil => exact absurd hx List.not_mem_nil
  | cons y l ih =>
    obtain ⟨hy, hl⟩ := List.nodup_cons.mp h
    rcases List.mem_cons.mp hx with rfl | hx
    · have hall : others key l (key x) = l := by
        refine List.filter_eq_self.mpr fun z hz => decide_eq_true fun heq => hy ?_
        exact List.mem_map.mpr ⟨z, hz, heq⟩
      have hhead : others key (x :: l) (key x) = others key l (key x) := by simp [others]
      rw [hhead, hall]
    · have hne : key y ≠ key x := fun heq => hy (List.mem_map.mpr ⟨x, hx, heq.symm⟩)
      have hhead : others key (y :: l) (key x) = y :: others key l (key x) := by
        simp [others, hne]
      rw [hhead]
      exact ((ih hl hx).cons y).trans (.swap x y _)

/-- **Changing a record.** -/
theorem modify_perm (h : (l.map key).Nodup) (hx : x ∈ l) (f : α → α) :
    (modify key f l (key x)).Perm (f x :: others key l (key x)) := by
  have hmap := (perm_cons h hx).map fun y => if key y = key x then f y else y
  have hothers : (others key l (key x)).map (fun y => if key y = key x then f y else y) =
      others key l (key x) := by
    refine (List.map_congr_left fun y hy => ?_).trans (List.map_id _)
    exact if_neg (of_decide_eq_true (List.mem_filter.mp hy).2)
  rwa [List.map_cons, if_pos rfl, hothers] at hmap

/-- A change that keeps a field. -/
theorem map_modify {β : Type} {g : α → β} {f : α → α} (hf : ∀ y, g (f y) = g y) (k : κ) :
    (modify key f l k).map g = l.map g := by
  rw [modify, List.map_map]
  refine List.map_congr_left fun y _ => ?_
  simp only [Function.comp_apply]
  split
  · exact hf y
  · rfl

end SprdHal.Lib.Keyed
