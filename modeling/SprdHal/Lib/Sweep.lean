import Mathlib.Data.List.Basic
import Mathlib.Data.List.FinRange
import Mathlib.Data.List.OfFn
import Mathlib.Logic.Function.Basic
import Mathlib.Tactic.Common
import SprdHal.Lib.Machine

/-!
# Sweeps over a sheet

A sweep visits the cells of a sheet in groups of `n`, one cell for each of `n` lanes. Each lane
reads its cell, takes a step and writes its output back. A sheet keeps the list of the cells written
so far. Where no cell is visited twice, a lane writes what its step function makes of the cells it
found (`sweep_lane`).
-/

namespace SprdHal.Lib

/-- A machine with one output at each step. -/
def mealy {σ α β : Type} (step : σ → α → σ × β) : Machine σ α β where
  step s a := ((step s a).1, [(step s a).2])

section Mealy

variable {σ τ α β : Type} {f : σ → α → σ × β} {g : τ → α → τ × β}

/-- **Two machines step by step.** Related machines have the same outputs exactly if the second runs
through acceptable inputs only, where an input is acceptable if both answer it alike and then stay
related. -/
theorem mealy_outputs_eq_iff {R : σ → τ → Prop} {ok : τ → α → Prop}
    (hout : ∀ s t a, R s t → ((f s a).2 = (g t a).2 ↔ ok t a))
    (hstep : ∀ s t a, R s t → ok t a → R (f s a).1 (g t a).1) :
    ∀ (as : List α) (s : σ) (t : τ), R s t →
      (((mealy f).run s as).2 = ((mealy g).run t as).2 ↔ (mealy g).Admits ok t as) := by
  intro as
  induction as with
  | nil => exact fun _ _ _ => ⟨fun _ => trivial, fun _ => rfl⟩
  | cons a as ih =>
    intro s t hR
    have hcons : ((mealy f).run s (a :: as)).2 = ((mealy g).run t (a :: as)).2 ↔
        (f s a).2 = (g t a).2 ∧
          ((mealy f).run (f s a).1 as).2 = ((mealy g).run (g t a).1 as).2 :=
      List.cons_eq_cons
    rw [hcons, hout s t a hR]
    exact and_congr_right fun hok => ih _ _ (hstep s t a hR hok)

end Mealy

/-- Cells with their contents, and the cells written so far. -/
structure Sheet (ι α : Type) where
  cells : ι → α
  written : List ι

section Sweep

variable {ι α σ : Type} [DecidableEq ι] {n : Nat}

namespace Sheet

def put (c : Sheet ι α) (i : ι) (a : α) : Sheet ι α :=
  ⟨Function.update c.cells i a, c.written ++ [i]⟩

/-- The cells of a group are written in the order of the lanes. -/
def putAll (c : Sheet ι α) (group : Fin n → ι) (out : Fin n → α) : Sheet ι α :=
  (List.finRange n).foldl (fun c j => c.put (group j) (out j)) c

end Sheet

/-- A lane of the sweep in state `s j` takes the step `step` at its cell of each group. -/
def sweep (step : σ → α → σ × α) : (Fin n → σ) → List (Fin n → ι) → Sheet ι α → Sheet ι α
  | _, [], c => c
  | s, group :: groups, c =>
    sweep step (fun j => (step (s j) (c.cells (group j))).1) groups
      (c.putAll group fun j => (step (s j) (c.cells (group j))).2)

/-- All cells of the groups in the order in which they are visited. -/
def visited (groups : List (Fin n → ι)) : List ι := groups.flatMap List.ofFn

variable {step : σ → α → σ × α} {group : Fin n → ι} {groups : List (Fin n → ι)} {c : Sheet ι α}

theorem foldl_put_written (js : List (Fin n)) (out : Fin n → α) (c : Sheet ι α) :
    (js.foldl (fun c j => c.put (group j) (out j)) c).written = c.written ++ js.map group := by
  induction js generalizing c with
  | nil => simp
  | cons j js ih =>
    rw [List.foldl_cons, ih, List.map_cons, Sheet.put, List.append_assoc, List.singleton_append]

theorem foldl_put_cells_of_ne {i : ι} (js : List (Fin n)) (out : Fin n → α) (c : Sheet ι α)
    (h : ∀ j ∈ js, group j ≠ i) :
    (js.foldl (fun c j => c.put (group j) (out j)) c).cells i = c.cells i := by
  induction js generalizing c with
  | nil => rfl
  | cons j js ih =>
    rw [List.foldl_cons, ih _ fun j' hj' => h j' (List.mem_cons_of_mem _ hj')]
    exact Function.update_of_ne (h j List.mem_cons_self).symm _ _

theorem putAll_written (c : Sheet ι α) (out : Fin n → α) :
    (c.putAll group out).written = c.written ++ List.ofFn group := by
  unfold Sheet.putAll
  rw [foldl_put_written, List.ofFn_eq_map]

theorem putAll_cells_of_notMem {i : ι} (h : i ∉ List.ofFn group) (out : Fin n → α) :
    (c.putAll group out).cells i = c.cells i := by
  refine foldl_put_cells_of_ne _ _ _ fun j _ heq => h ?_
  rw [← heq]
  exact List.mem_ofFn.mpr ⟨j, rfl⟩

theorem putAll_cells_self (h : Function.Injective group) (out : Fin n → α) (j : Fin n) :
    (c.putAll group out).cells (group j) = out j := by
  unfold Sheet.putAll
  obtain ⟨as, bs, hsplit⟩ := List.append_of_mem (List.mem_finRange j)
  have hnodup : (as ++ j :: bs).Nodup := hsplit ▸ List.nodup_finRange n
  have hbs : j ∉ bs := ((List.nodup_append.mp hnodup).2.1.notMem)
  rw [hsplit, List.foldl_append, List.foldl_cons, foldl_put_cells_of_ne]
  · exact Function.update_self _ _ _
  · rintro j' hj' heq
    exact hbs (h heq ▸ hj')

theorem sweep_written (s : Fin n → σ) (groups : List (Fin n → ι)) (c : Sheet ι α) :
    (sweep step s groups c).written = c.written ++ visited groups := by
  induction groups generalizing s c with
  | nil => simp [sweep, visited]
  | cons group groups ih =>
    rw [sweep, ih, putAll_written, visited, visited, List.flatMap_cons, List.append_assoc]

/-- A sweep leaves the other cells alone. -/
theorem sweep_cells_of_notMem (s : Fin n → σ) {i : ι} (h : i ∉ visited groups) :
    (sweep step s groups c).cells i = c.cells i := by
  induction groups generalizing s c with
  | nil => rfl
  | cons group groups ih =>
    rw [visited, List.flatMap_cons, List.mem_append, not_or] at h
    rw [sweep, ih _ h.2, putAll_cells_of_notMem h.1]

/-- What was written before does not matter. -/
theorem sweep_cells_congr (s : Fin n → σ) {c c' : Sheet ι α} (h : c.cells = c'.cells) :
    (sweep step s groups c).cells = (sweep step s groups c').cells := by
  have hput : ∀ (js : List (Fin n)) (group : Fin n → ι) (out : Fin n → α) {c c' : Sheet ι α},
      c.cells = c'.cells → (js.foldl (fun c j => c.put (group j) (out j)) c).cells =
        (js.foldl (fun c j => c.put (group j) (out j)) c').cells := by
    intro js group out
    induction js with
    | nil => exact fun h => h
    | cons j js ih =>
      intro c c' h
      refine ih ?_
      simp only [Sheet.put, h]
  induction groups generalizing s c c' with
  | nil => exact h
  | cons group groups ih =>
    rw [sweep, sweep, h]
    exact ih _ (hput _ _ _ h)

omit [DecidableEq ι] in
/-- Where no cell is visited twice, the first group is written once and not read again. -/
theorem visited_cons_nodup (h : (visited (group :: groups)).Nodup) :
    Function.Injective group ∧ (visited groups).Nodup ∧ ∀ j, group j ∉ visited groups := by
  rw [visited, List.flatMap_cons, List.nodup_append] at h
  refine ⟨List.nodup_ofFn.mp h.1, h.2.1, fun j hj => ?_⟩
  exact h.2.2 _ (List.mem_ofFn.mpr ⟨j, rfl⟩) _ hj rfl

omit [DecidableEq ι] in
theorem mem_visited_of_mem {g : Fin n → ι} (hg : g ∈ groups) (j : Fin n) : g j ∈ visited groups :=
  List.mem_flatMap.mpr ⟨g, hg, List.mem_ofFn.mpr ⟨j, rfl⟩⟩

/-- The groups behind the first find their cells as they were. -/
theorem putAll_cells_rest (h : (visited (group :: groups)).Nodup) (out : Fin n → α) (j : Fin n) :
    groups.map (fun g => (c.putAll group out).cells (g j)) = groups.map fun g => c.cells (g j) := by
  refine List.map_congr_left fun g hg => putAll_cells_of_notMem (fun hmem => ?_) _
  obtain ⟨j', hj'⟩ := List.mem_ofFn.mp hmem
  exact (visited_cons_nodup h).2.2 j' (hj' ▸ mem_visited_of_mem hg j)

/-- **Lanes are independent.** -/
theorem sweep_lane (s : Fin n → σ) (h : (visited groups).Nodup) (j : Fin n) :
    groups.map (fun g => (sweep step s groups c).cells (g j)) =
      ((mealy step).run (s j) (groups.map fun g => c.cells (g j))).2 := by
  induction groups generalizing s c with
  | nil => rfl
  | cons group groups ih =>
    obtain ⟨hinj, hnodup, hfirst⟩ := visited_cons_nodup h
    rw [sweep, List.map_cons, ih _ hnodup, sweep_cells_of_notMem _ (hfirst j),
      putAll_cells_self hinj, putAll_cells_rest h, List.map_cons, Machine.run_cons]
    rfl

/-- What every step does to its cell, the sweep does to every cell that it visits. -/
theorem sweep_rel {Inv : σ → Prop} {rel : α → α → Prop} {s : Fin n → σ} (hs : ∀ j, Inv (s j))
    (hinv : ∀ s a, Inv s → Inv (step s a).1) (hrel : ∀ s a, Inv s → rel a (step s a).2)
    (h : (visited groups).Nodup) {i : ι} (hi : i ∈ visited groups) :
    rel (c.cells i) ((sweep step s groups c).cells i) := by
  induction groups generalizing s c with
  | nil => exact absurd hi List.not_mem_nil
  | cons group groups ih =>
    obtain ⟨hinj, hnodup, hfirst⟩ := visited_cons_nodup h
    rw [sweep]
    by_cases hrest : i ∈ visited groups
    · have hout : i ∉ List.ofFn group := by
        intro hmem
        obtain ⟨j, rfl⟩ := List.mem_ofFn.mp hmem
        exact hfirst j hrest
      rw [← putAll_cells_of_notMem hout fun j => (step (s j) (c.cells (group j))).2]
      exact ih (fun j => hinv (s j) _ (hs j)) hnodup hrest
    · rw [visited, List.flatMap_cons, List.mem_append] at hi
      obtain ⟨j, rfl⟩ := List.mem_ofFn.mp (hi.resolve_right hrest)
      rw [sweep_cells_of_notMem _ hrest, putAll_cells_self hinj]
      exact hrel _ _ (hs j)

end Sweep

end SprdHal.Lib
