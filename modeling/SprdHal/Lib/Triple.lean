import Mathlib.Tactic.Common

/-!
# Triples for programs that may stop early

A program changes a state and returns a value, or stops with an error and leaves the state as it is
then. `Triple P x Q E` says what holds afterwards in both cases. Programs are put together with
`Triple.bind`, and a loop keeps what each of its rounds keeps (`Triple.foldlM`).
-/

namespace SprdHal.Lib

variable {ε σ α β : Type}

/-- From a state with `P`, the program returns a value and a state with `Q`, or stops in a state
with `E`. -/
def Triple (P : σ → Prop) (x : EStateM ε σ α) (Q : α → σ → Prop) (E : σ → Prop) : Prop :=
  ∀ s, P s → match x s with
    | .ok a s' => Q a s'
    | .error _ s' => E s'

namespace Triple

variable {P P' : σ → Prop} {Q Q' : α → σ → Prop} {R : β → σ → Prop} {E : σ → Prop}
  {x : EStateM ε σ α} {f : α → EStateM ε σ β}

theorem pure {a : α} (h : ∀ s, P s → Q a s) : Triple P (pure a : EStateM ε σ α) Q E := h

theorem throw {e : ε} (h : ∀ s, P s → E s) : Triple P (throw e : EStateM ε σ α) Q E := h

theorem modify {g : σ → σ} {Q : Unit → σ → Prop} (h : ∀ s, P s → Q () (g s)) :
    Triple P (modify g : EStateM ε σ Unit) Q E := h

theorem get {Q : σ → σ → Prop} (h : ∀ s, P s → Q s s) : Triple P (get : EStateM ε σ σ) Q E := h

theorem bind (hx : Triple P x Q E) (hf : ∀ a, Triple (Q a) (f a) R E) : Triple P (x >>= f) R E := by
  intro s hs
  have hafter := hx s hs
  show match EStateM.bind x f s with
    | .ok b s' => R b s'
    | .error _ s' => E s'
  unfold EStateM.bind
  cases hxs : x s with
  | ok a s' =>
    rw [hxs] at hafter
    exact hf a s' hafter
  | error e s' =>
    rw [hxs] at hafter
    exact hafter

theorem mono (hx : Triple P x Q E) (hP : ∀ s, P' s → P s) (hQ : ∀ a s, Q a s → Q' a s) :
    Triple P' x Q' E := by
  intro s hs
  have hafter := hx s (hP s hs)
  cases hxs : x s with
  | ok a s' =>
    rw [hxs] at hafter
    exact hQ a s' hafter
  | error e s' =>
    rw [hxs] at hafter
    exact hafter

/-- What does not depend on the state. -/
theorem of_imp {c : Prop} (h : c → Triple P x Q E) : Triple (fun s => P s ∧ c) x Q E :=
  fun s hs => h hs.2 s hs.1

/-- Both branches of a test. -/
theorem ite {c : Prop} [Decidable c] {y : EStateM ε σ α} (hx : Triple P x Q E)
    (hy : Triple P y Q E) : Triple P (if c then x else y) Q E := by
  split
  · exact hx
  · exact hy

/-- **Loops**: what every round keeps is kept. -/
theorem foldlM {γ : Type} {g : β → γ → EStateM ε σ β}
    (h : ∀ b c, Triple P (g b c) (fun _ => P) E) (l : List γ) (b : β) :
    Triple P (l.foldlM g b) (fun _ => P) E := by
  induction l generalizing b with
  | nil => exact fun s hs => hs
  | cons c l ih =>
    rw [List.foldlM_cons]
    exact bind (h b c) fun b' => ih b'

end Triple

end SprdHal.Lib
