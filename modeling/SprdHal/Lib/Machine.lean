import Mathlib.Data.List.Basic
import Mathlib.Tactic.Common

/-!
# Machines and their runs

A machine consumes inputs one at a time and emits a list of outputs at each step. `Machine.run`
feeds it a whole input history, `Machine.Admits` says that every input of the history is acceptable
in the state in which it is fed, and `Machine.run_induction` is the invariant rule: what every
admissible step preserves holds, with the outputs so far, after every admissible history.
-/

namespace SprdHal.Lib

/-- A state machine with outputs. -/
structure Machine (σ ι ε : Type) where
  step : σ → ι → σ × List ε

namespace Machine

variable {σ ι ε : Type} (m : Machine σ ι ε)

/-- The final state and all outputs of an input history. -/
def run (s : σ) : List ι → σ × List ε
  | [] => (s, [])
  | i :: is => ((run (m.step s i).1 is).1, (m.step s i).2 ++ (run (m.step s i).1 is).2)

@[simp] theorem run_nil (s : σ) : m.run s [] = (s, []) := rfl

theorem run_cons (s : σ) (i : ι) (is : List ι) :
    m.run s (i :: is) =
      ((m.run (m.step s i).1 is).1, (m.step s i).2 ++ (m.run (m.step s i).1 is).2) := rfl

theorem run_append (s : σ) (a b : List ι) :
    m.run s (a ++ b) = ((m.run (m.run s a).1 b).1, (m.run s a).2 ++ (m.run (m.run s a).1 b).2) := by
  induction a generalizing s with
  | nil => simp
  | cons i a ih => simp only [List.cons_append, run_cons, ih, List.append_assoc]

/-- Every input of the history is acceptable where it is fed. -/
def Admits (ok : σ → ι → Prop) (s : σ) : List ι → Prop
  | [] => True
  | i :: is => ok s i ∧ Admits ok (m.step s i).1 is

instance Admits.decidable (ok : σ → ι → Prop) [∀ s i, Decidable (ok s i)] :
    ∀ (s : σ) (is : List ι), Decidable (m.Admits ok s is)
  | _, [] => isTrue trivial
  | s, i :: is =>
    have := Admits.decidable ok (m.step s i).1 is
    inferInstanceAs (Decidable (ok s i ∧ m.Admits ok (m.step s i).1 is))

/-- **The invariant rule.** -/
theorem run_induction {ok : σ → ι → Prop} {P : σ → List ε → Prop}
    (hstep : ∀ s log i, P s log → ok s i → P (m.step s i).1 (log ++ (m.step s i).2)) :
    ∀ (is : List ι) (s : σ) (log : List ε), P s log → m.Admits ok s is →
      P (m.run s is).1 (log ++ (m.run s is).2) := by
  intro is
  induction is with
  | nil => intro s log h _; simpa using h
  | cons i is ih =>
    intro s log h hadm
    rw [run_cons, ← List.append_assoc]
    exact ih _ _ (hstep s log i h hadm.1) hadm.2

theorem Admits.mono {m : Machine σ ι ε} {ok ok' : σ → ι → Prop} (h : ∀ s i, ok s i → ok' s i) :
    ∀ {is : List ι} {s : σ}, m.Admits ok s is → m.Admits ok' s is := by
  intro is
  induction is with
  | nil => exact fun _ => trivial
  | cons i is ih => exact fun hadm => ⟨h _ _ hadm.1, ih hadm.2⟩

theorem admits_append {ok : σ → ι → Prop} (s : σ) (a b : List ι) :
    m.Admits ok s (a ++ b) ↔ m.Admits ok s a ∧ m.Admits ok (m.run s a).1 b := by
  induction a generalizing s with
  | nil => exact (and_iff_right trivial).symm
  | cons i a ih =>
    rw [List.cons_append, run_cons]
    simp only [Admits, ih, and_assoc]

theorem Admits.and {m : Machine σ ι ε} {ok ok' : σ → ι → Prop} {is : List ι} {s : σ}
    (h : m.Admits ok s is) (h' : m.Admits ok' s is) :
    m.Admits (fun s i => ok s i ∧ ok' s i) s is := by
  induction is generalizing s with
  | nil => trivial
  | cons i is ih => exact ⟨⟨h.1, h'.1⟩, ih h.2 h'.2⟩

theorem admits_true (s : σ) (is : List ι) : m.Admits (fun _ _ => True) s is := by
  induction is generalizing s with
  | nil => trivial
  | cons i is ih => exact ⟨trivial, ih _⟩

/-- What every step preserves holds after every history. -/
theorem run_invariant {P : σ → Prop} (hstep : ∀ s i, P s → P (m.step s i).1) :
    ∀ (is : List ι) (s : σ), P s → P (m.run s is).1 := by
  intro is
  induction is with
  | nil => exact fun s h => h
  | cons i is ih => exact fun s h => ih _ (hstep s i h)

/-- **Safe outputs and admissible histories.** Where an acceptable input is one whose outputs are
safe, the histories of legal inputs with safe outputs are the admissible ones. -/
theorem outputs_safe_iff_of_legal {legal ok : σ → ι → Prop} {P : σ → Prop} {safe : ε → Prop}
    (hout : ∀ s i, P s → legal s i → ((∀ e ∈ (m.step s i).2, safe e) ↔ ok s i))
    (hstep : ∀ s i, P s → legal s i → ok s i → P (m.step s i).1) :
    ∀ (is : List ι) (s : σ), P s → m.Admits legal s is →
      ((∀ e ∈ (m.run s is).2, safe e) ↔ m.Admits ok s is) := by
  intro is
  induction is with
  | nil =>
    intro s _ _
    exact ⟨fun _ => trivial, fun _ e he => absurd he List.not_mem_nil⟩
  | cons i is ih =>
    rintro s hP ⟨hlegal, hrest⟩
    simp only [run_cons, List.mem_append, or_imp, forall_and, Admits]
    constructor
    · rintro ⟨hnow, hlater⟩
      have hok := (hout s i hP hlegal).mp hnow
      exact ⟨hok, (ih _ (hstep s i hP hlegal hok) hrest).mp hlater⟩
    · rintro ⟨hok, hadm⟩
      exact ⟨(hout s i hP hlegal).mpr hok, (ih _ (hstep s i hP hlegal hok) hrest).mpr hadm⟩

/-- The same where every input is legal. -/
theorem outputs_safe_iff {ok : σ → ι → Prop} {P : σ → Prop} {safe : ε → Prop}
    (hout : ∀ s i, P s → ((∀ e ∈ (m.step s i).2, safe e) ↔ ok s i))
    (hstep : ∀ s i, P s → ok s i → P (m.step s i).1) (is : List ι) (s : σ) (hP : P s) :
    (∀ e ∈ (m.run s is).2, safe e) ↔ m.Admits ok s is :=
  m.outputs_safe_iff_of_legal (fun s i hP _ => hout s i hP) (fun s i hP _ => hstep s i hP) is s hP
    (m.admits_true s is)

/-- **Good states and admissible histories.** Where, among the states of an invariant that every
legal step preserves, an acceptable input is one that leads from a good state to a good state, the
legal histories that pass good states only are the admissible ones. -/
theorem good_iff_of_legal {legal ok : σ → ι → Prop} {P good : σ → Prop}
    (hinv : ∀ s i, P s → legal s i → P (m.step s i).1)
    (hstep : ∀ s i, P s → legal s i → good s → (good (m.step s i).1 ↔ ok s i)) :
    ∀ (is : List ι) (s : σ), P s → good s → m.Admits legal s is →
      ((∀ pre, pre <+: is → good (m.run s pre).1) ↔ m.Admits ok s is) := by
  intro is
  induction is with
  | nil =>
    intro s _ hs _
    refine ⟨fun _ => trivial, fun _ pre hpre => ?_⟩
    rwa [List.prefix_nil.mp hpre]
  | cons i is ih =>
    rintro s hP hs ⟨hlegal, hrest⟩
    have hP' := hinv s i hP hlegal
    constructor
    · intro hall
      have hnext : good (m.step s i).1 := hall [i] ⟨is, rfl⟩
      refine ⟨(hstep s i hP hlegal hs).mp hnext, (ih _ hP' hnext hrest).mp fun pre hpre => ?_⟩
      exact hall (i :: pre) (List.cons_prefix_cons.mpr ⟨rfl, hpre⟩)
    · rintro ⟨hok, hadm⟩ pre hpre
      rcases pre with _ | ⟨j, pre⟩
      · exact hs
      · obtain ⟨rfl, htail⟩ := List.cons_prefix_cons.mp hpre
        exact (ih _ hP' ((hstep s j hP hlegal hs).mpr hok) hrest).mpr hadm pre htail

/-- The same where every input is legal. -/
theorem good_iff_of_invariant {ok : σ → ι → Prop} {P good : σ → Prop}
    (hinv : ∀ s i, P s → P (m.step s i).1)
    (hstep : ∀ s i, P s → good s → (good (m.step s i).1 ↔ ok s i)) (is : List ι) (s : σ) (hP : P s)
    (hgood : good s) :
    (∀ pre, pre <+: is → good (m.run s pre).1) ↔ m.Admits ok s is :=
  m.good_iff_of_legal (fun s i hP _ => hinv s i hP) (fun s i hP _ => hstep s i hP) is s hP hgood
    (m.admits_true s is)

/-- The same without an invariant. -/
theorem states_good_iff {ok : σ → ι → Prop} {good : σ → Prop}
    (hstep : ∀ s i, good s → (good (m.step s i).1 ↔ ok s i)) (is : List ι) (s : σ) (hgood : good s) :
    (∀ pre, pre <+: is → good (m.run s pre).1) ↔ m.Admits ok s is :=
  m.good_iff_of_invariant (P := fun _ => True) (fun _ _ _ => trivial) (fun s i _ => hstep s i) is s
    trivial hgood

end Machine

end SprdHal.Lib
