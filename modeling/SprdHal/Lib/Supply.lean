import Mathlib.Data.List.Basic
import Mathlib.Tactic.Common

/-!
# Programs that draw from a supply

A supply answers one request after the other; what is not in it is granted. `Draws` says of a program
that it succeeds exactly if a pure program does and the first `n` requests are granted, and that it has
made `n` requests then.
-/

namespace SprdHal.Lib

/-- The first `n` requests are granted. -/
def Enough (n : Nat) (supply : List Bool) : Prop := ∀ m ∈ supply.take n, m = true

instance (n : Nat) (supply : List Bool) : Decidable (Enough n supply) :=
  inferInstanceAs (Decidable (∀ m ∈ supply.take n, m = true))

theorem enough_zero (ms : List Bool) : Enough 0 ms := fun _ h => by cases h

theorem enough_add (n k : Nat) (ms : List Bool) :
    Enough (n + k) ms ↔ Enough n ms ∧ Enough k (ms.drop n) := by
  simp only [Enough, List.take_add, List.mem_append, or_imp, forall_and]

theorem enough_one (ms : List Bool) : Enough 1 ms ↔ ms.head? ≠ some false := by
  cases ms with
  | nil => simp [Enough]
  | cons m ms => simp [Enough]

variable {ε σ α β γ δ : Type}

/-- The program succeeds with a value that is seen through `g` as the value of `r`, after `n` requests,
or it fails because `r` does or a request is refused. -/
def Draws (supply : σ → List Bool) (g : α → β) (x : EStateM ε σ α) (r : Except ε β) (n : Nat) :
    Prop :=
  ∀ s, (Enough n (supply s) ∧ ∃ a s', x s = .ok a s' ∧ r = .ok (g a) ∧ supply s' = (supply s).drop n) ∨
    (((∃ e, r = .error e) ∨ ¬Enough n (supply s)) ∧ ∃ e s', x s = .error e s')

namespace Draws

variable {supply : σ → List Bool} {g : α → β} {g' : γ → δ} {x : EStateM ε σ α} {r : Except ε β}
  {f : α → EStateM ε σ γ} {h : β → Except ε δ} {n k : Nat}

theorem pure (a : α) : Draws supply g (pure a : EStateM ε σ α) (.ok (g a)) 0 :=
  fun s => Or.inl ⟨enough_zero _, a, s, rfl, rfl, rfl⟩

theorem throw (e : ε) : Draws supply g (throw e : EStateM ε σ α) (.error e) n :=
  fun s => Or.inr ⟨Or.inl ⟨e, rfl⟩, e, s, rfl⟩

theorem modify {u : σ → σ} {g : Unit → β} (hu : ∀ s, supply (u s) = supply s) :
    Draws supply g (modify u : EStateM ε σ Unit) (.ok (g ())) 0 :=
  fun s => Or.inl ⟨enough_zero _, (), u s, rfl, rfl, hu s⟩

theorem bind (hx : Draws supply g x r n)
    (hf : ∀ a, r = .ok (g a) → Draws supply g' (f a) (h (g a)) k) :
    Draws supply g' (x >>= f) (r >>= h) (n + k) := by
  intro s
  have hbind : (x >>= f) s = EStateM.bind x f s := rfl
  rcases hx s with ⟨hn, a, t, hxs, rfl, hsupply⟩ | ⟨hno, e, t, hxs⟩
  · have hgo : (x >>= f) s = f a t := by rw [hbind, EStateM.bind, hxs]
    have hpure : (Except.ok (g a) >>= h) = h (g a) := rfl
    rw [hpure, hgo, enough_add, ← hsupply, and_iff_right hn]
    rcases hf a rfl t with ⟨hk, b, t', hfs, hr, hsupply'⟩ | hfail
    · refine Or.inl ⟨hk, b, t', hfs, hr, ?_⟩
      rw [hsupply', hsupply, List.drop_drop]
    · exact Or.inr hfail
  · have hgo : (x >>= f) s = .error e t := by rw [hbind, EStateM.bind, hxs]
    refine Or.inr ⟨?_, e, t, hgo⟩
    rcases hno with ⟨e', rfl⟩ | hno
    · exact Or.inl ⟨e', rfl⟩
    · exact Or.inr fun hall => hno ((enough_add n k _).mp hall).1

/-- **Loops** that make the same number of requests in every round. -/
theorem foldlM {ι : Type} {step : α → ι → EStateM ε σ α} {pstep : β → ι → Except ε β}
    (hstep : ∀ a i, Draws supply g (step a i) (pstep (g a) i) n) (is : List ι) (a : α) :
    Draws supply g (is.foldlM step a) (is.foldlM pstep (g a)) (is.length * n) := by
  induction is generalizing a with
  | nil =>
    rw [List.length_nil, Nat.zero_mul]
    exact pure a
  | cons i is ih =>
    rw [List.foldlM_cons, List.foldlM_cons, List.length_cons, Nat.succ_mul, Nat.add_comm]
    exact bind (hstep a i) fun a' _ => ih a'

/-- The program succeeds if `r` does and its requests are granted. -/
theorem ok_iff (hx : Draws supply g x r n) (s : σ) :
    (∃ a s', x s = .ok a s') ↔ (∃ b, r = .ok b) ∧ Enough n (supply s) := by
  rcases hx s with ⟨hn, a, t, hxs, hr, -⟩ | ⟨hno, e, t, hxs⟩
  · exact iff_of_true ⟨a, t, hxs⟩ ⟨⟨g a, hr⟩, hn⟩
  · refine iff_of_false ?_ ?_
    · rintro ⟨a, t', hok⟩
      cases hxs.symm.trans hok
    · rintro ⟨⟨b, rfl⟩, hn⟩
      rcases hno with ⟨e', he'⟩ | hno
      · cases he'
      · exact hno hn

end Draws

end SprdHal.Lib
