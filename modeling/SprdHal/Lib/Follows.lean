import Mathlib.Tactic.Common

/-!
# Programs that follow a pure one

What a program returns, or the error it stops with, may be that of a pure program, except that it
may stop earlier, with one particular error, where a resource is missing. `Follows` says so. Where
no resource is ever missing (`plenty`) the program does as the pure one does (`Follows.of_plenty`), and
in any case an error other than the particular one is an error of the pure program
(`Follows.error`).
-/

namespace SprdHal.Lib

variable {ε σ α β γ δ : Type}

/-- The result of a pure program, with a state. -/
def withState (r : Except ε β) (s : σ) : EStateM.Result ε σ β :=
  match r with
  | .ok b => .ok b s
  | .error e => .error e s

/-- The program follows `r`, a returned value being seen through `g`; it may stop early with `early`
if it does not have plenty. -/
def Follows (plenty : σ → Prop) (early : ε) (g : α → β) (x : EStateM ε σ α) (r : Except ε β) :
    Prop :=
  ∀ s, (∃ s', (plenty s → plenty s') ∧ EStateM.map g x s = withState r s') ∨
    (¬plenty s ∧ ∃ s', x s = .error early s')

namespace Follows

variable {plenty : σ → Prop} {early : ε} {g : α → β} {g' : γ → δ} {x : EStateM ε σ α}
  {r : Except ε β} {f : α → EStateM ε σ γ} {h : β → Except ε δ}

theorem map_ok {a : α} {s s' : σ} (hx : x s = .ok a s') : EStateM.map g x s = .ok (g a) s' := by
  rw [EStateM.map, hx]

theorem map_error {e : ε} {s s' : σ} (hx : x s = .error e s') :
    EStateM.map g x s = .error e s' := by
  rw [EStateM.map, hx]

/-- What the program does where it follows. -/
theorem cases (hx : Follows plenty early g x r) (s : σ) :
    (∃ a s', x s = .ok a s' ∧ r = .ok (g a) ∧ (plenty s → plenty s')) ∨
      (∃ e s', x s = .error e s' ∧ r = .error e ∧ (plenty s → plenty s')) ∨
      (¬plenty s ∧ ∃ s', x s = .error early s') := by
  rcases hx s with ⟨s', hkeep, heq⟩ | hearly
  · cases hxs : x s with
    | ok a t =>
      rw [map_ok hxs] at heq
      cases r with
      | ok b =>
        obtain ⟨rfl, rfl⟩ := EStateM.Result.ok.inj heq
        exact Or.inl ⟨a, t, rfl, rfl, hkeep⟩
      | error e => cases heq
    | error e t =>
      rw [map_error hxs] at heq
      cases r with
      | ok b => cases heq
      | error e' =>
        obtain ⟨rfl, rfl⟩ := EStateM.Result.error.inj heq
        exact Or.inr (Or.inl ⟨e, t, rfl, rfl, hkeep⟩)
  · exact Or.inr (Or.inr hearly)

theorem of_ok (hx : ∀ s, ∃ a s', x s = .ok a s' ∧ r = .ok (g a) ∧ (plenty s → plenty s')) :
    Follows plenty early g x r := by
  intro s
  obtain ⟨a, s', hxs, rfl, hkeep⟩ := hx s
  exact Or.inl ⟨s', hkeep, map_ok hxs⟩

theorem pure (a : α) : Follows plenty early g (pure a) (.ok (g a)) :=
  of_ok fun s => ⟨a, s, rfl, rfl, id⟩

theorem throw (e : ε) : Follows plenty early g (throw e : EStateM ε σ α) (.error e) :=
  fun s => Or.inl ⟨s, id, rfl⟩

theorem modify {u : σ → σ} {g : Unit → β} (hu : ∀ s, plenty s → plenty (u s)) :
    Follows plenty early g (modify u : EStateM ε σ Unit) (.ok (g ())) :=
  of_ok fun s => ⟨(), u s, rfl, rfl, hu s⟩

theorem bind (hx : Follows plenty early g x r)
    (hf : ∀ a, Follows plenty early g' (f a) (h (g a))) :
    Follows plenty early g' (x >>= f) (r >>= h) := by
  intro s
  have hbind : (x >>= f) s = EStateM.bind x f s := rfl
  rcases hx.cases s with ⟨a, t, hxs, rfl, hkeep⟩ | ⟨e, t, hxs, rfl, hkeep⟩ | ⟨hno, t, hxs⟩
  · have hgo : (x >>= f) s = f a t := by rw [hbind, EStateM.bind, hxs]
    have hpure : (Except.ok (g a) >>= h) = h (g a) := rfl
    rw [hpure]
    rcases (hf a).cases t with ⟨c, t', hfs, hr, hkeep'⟩ | ⟨e, t', hfs, hr, hkeep'⟩ | ⟨hno, t', hfs⟩
    · rw [hr]
      exact Or.inl ⟨t', hkeep' ∘ hkeep, map_ok (hgo.trans hfs)⟩
    · rw [hr]
      exact Or.inl ⟨t', hkeep' ∘ hkeep, map_error (hgo.trans hfs)⟩
    · exact Or.inr ⟨fun hs => hno (hkeep hs), t', hgo.trans hfs⟩
  · have hgo : (x >>= f) s = .error e t := by rw [hbind, EStateM.bind, hxs]
    exact Or.inl ⟨t, hkeep, map_error hgo⟩
  · have hgo : (x >>= f) s = .error early t := by rw [hbind, EStateM.bind, hxs]
    exact Or.inr ⟨hno, t, hgo⟩

/-- A program that goes on with something else that it knows. -/
theorem bind_pure (hx : Follows plenty early g x r) {k : α → γ} {u : γ → β}
    (hk : ∀ a, u (k a) = g a) : Follows plenty early u (x >>= fun a => Pure.pure (k a)) r := by
  have hsame : (r >>= fun b => .ok b) = r := by cases r <;> rfl
  rw [← hsame]
  refine bind hx fun a => ?_
  rw [← hk a]
  exact pure (k a)

theorem ite {c : Prop} [Decidable c] {y : EStateM ε σ α} {r' : Except ε β}
    (hx : Follows plenty early g x r) (hy : Follows plenty early g y r') :
    Follows plenty early g (if c then x else y) (if c then r else r') := by
  split
  · exact hx
  · exact hy

/-- Two ways that make no difference to the pure program. -/
theorem ite_same {c : Prop} [Decidable c] {y : EStateM ε σ α} (hx : Follows plenty early g x r)
    (hy : Follows plenty early g y r) : Follows plenty early g (if c then x else y) r := by
  split
  · exact hx
  · exact hy

/-- **Loops**: round by round. -/
theorem foldlM {ι : Type} {step : α → ι → EStateM ε σ α} {pstep : β → ι → Except ε β}
    (hstep : ∀ a i, Follows plenty early g (step a i) (pstep (g a) i)) (is : List ι) (a : α) :
    Follows plenty early g (is.foldlM step a) (is.foldlM pstep (g a)) := by
  induction is generalizing a with
  | nil => exact pure a
  | cons i is ih =>
    rw [List.foldlM_cons, List.foldlM_cons]
    exact bind (hstep a i) ih

/-- With plenty, the program does as the pure one does. -/
theorem of_plenty (hx : Follows plenty early g x r) {s : σ} (hs : plenty s) :
    ∃ s', EStateM.map g x s = withState r s' := by
  rcases hx s with ⟨s', -, heq⟩ | ⟨hno, -⟩
  · exact ⟨s', heq⟩
  · exact absurd hs hno

/-- Errors but the early one are those of the pure program. -/
theorem error (hx : Follows plenty early g x r) {e : ε} (he : e ≠ early) {s s' : σ}
    (hxs : x s = .error e s') : r = .error e := by
  rcases hx.cases s with ⟨a, t, hok, -, -⟩ | ⟨e', t, herr, hr, -⟩ | ⟨-, t, hearly⟩
  · cases hxs.symm.trans hok
  · obtain ⟨rfl, -⟩ := EStateM.Result.error.inj (hxs.symm.trans herr)
    exact hr
  · exact absurd (EStateM.Result.error.inj (hxs.symm.trans hearly)).1 he

end Follows

end SprdHal.Lib
