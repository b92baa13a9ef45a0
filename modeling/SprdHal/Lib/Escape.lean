import Mathlib.Data.List.Basic
import Mathlib.Data.List.Count
import Mathlib.Tactic.Common

/-!
# Escaping

Some symbols of an alphabet are special and must not occur in the body of a frame. Each is sent as
the escape symbol followed by its mask, which is not special. `stuff` is the encoding of a string;
the codecs that produce or undo it are compared with it symbol by symbol, with `stuff_special` and
`stuff_plain`.
-/

namespace SprdHal.Lib

/-- Special symbols and the way they are sent. -/
structure Escape (α : Type) where
  special : α → Bool
  esc : α
  mask : α → α
  special_esc : special esc = true
  special_mask : ∀ b, special b = true → special (mask b) = false
  mask_mask : ∀ b, special b = true → mask (mask b) = b

namespace Escape

variable {α : Type} (e : Escape α)

def code (b : α) : List α := if e.special b then [e.esc, e.mask b] else [b]

def stuff (p : List α) : List α := p.flatMap e.code

@[simp] theorem stuff_nil : e.stuff [] = [] := rfl

theorem stuff_cons (b : α) (p : List α) : e.stuff (b :: p) = e.code b ++ e.stuff p := rfl

variable {e} {b : α}

theorem stuff_special (hb : e.special b = true) (p : List α) :
    e.stuff (b :: p) = e.esc :: e.mask b :: e.stuff p := by
  rw [stuff_cons, code, if_pos hb]
  rfl

theorem stuff_plain (hb : e.special b = false) (p : List α) :
    e.stuff (b :: p) = b :: e.stuff p := by
  rw [stuff_cons, code, if_neg (Bool.not_eq_true _ ▸ hb)]
  rfl

/-- Every special symbol costs one symbol more. -/
theorem length_stuff (p : List α) : (e.stuff p).length = p.length + p.countP e.special := by
  induction p with
  | nil => rfl
  | cons b p ih =>
    cases hb : e.special b with
    | true =>
      rw [stuff_special hb, List.countP_cons_of_pos hb]
      simp only [List.length_cons, ih]
      omega
    | false =>
      rw [stuff_plain hb, List.countP_cons_of_neg (Bool.not_eq_true _ ▸ hb)]
      simp only [List.length_cons, ih]
      omega

/-- Only the escape symbol is special in an encoded string. -/
theorem special_of_mem_stuff {p : List α} {c : α} (hc : c ∈ e.stuff p) (hs : e.special c = true) :
    c = e.esc := by
  induction p with
  | nil => cases hc
  | cons b p ih =>
    cases hb : e.special b with
    | true =>
      rw [stuff_special hb, List.mem_cons, List.mem_cons] at hc
      rcases hc with hc | rfl | hc
      · exact hc
      · rw [e.special_mask b hb] at hs
        cases hs
      · exact ih hc
    | false =>
      rw [stuff_plain hb, List.mem_cons] at hc
      rcases hc with rfl | hc
      · rw [hb] at hs
        cases hs
      · exact ih hc

/-! ## Undoing it -/

section Unstuff

variable [DecidableEq α] (e)

/-- The string that was encoded; an escape symbol at the end stands for nothing. -/
def unstuff : List α → Option (List α)
  | [] => some []
  | [b] => if b = e.esc then none else some [b]
  | b :: c :: p =>
    if b = e.esc then (unstuff p).map (e.mask c :: ·) else (unstuff (c :: p)).map (b :: ·)

theorem unstuff_stuff (p : List α) : e.unstuff (e.stuff p) = some p := by
  have hplain : ∀ {b : α}, e.special b = false → b ≠ e.esc := fun h he => by
    rw [he, e.special_esc] at h
    cases h
  induction p with
  | nil => rfl
  | cons b p ih =>
    cases hb : e.special b with
    | true => rw [stuff_special hb, unstuff, if_pos rfl, ih, e.mask_mask b hb, Option.map_some]
    | false =>
      rw [stuff_plain hb]
      cases hp : e.stuff p with
      | nil =>
        rw [hp] at ih
        rw [unstuff, if_neg (hplain hb)]
        cases ih
        rfl
      | cons c q => rw [unstuff, if_neg (hplain hb), ← hp, ih, Option.map_some]

/-- A string that has an escape symbol is longer than what it encodes. -/
theorem length_of_unstuff {p q : List α} (h : e.unstuff p = some q) :
    q.length ≤ p.length ∧ (e.esc ∈ p → q.length < p.length) := by
  fun_induction unstuff e p generalizing q with
  | case1 => cases h; simp
  | case2 => cases h
  | case3 b hb => cases h; simp [Ne.symm hb]
  | case4 c p ih =>
    obtain ⟨r, hr, rfl⟩ := Option.map_eq_some_iff.mp h
    have := (ih hr).1
    simp only [List.length_cons]
    omega
  | case5 b c p hb ih =>
    obtain ⟨r, hr, rfl⟩ := Option.map_eq_some_iff.mp h
    obtain ⟨hle, hlt⟩ := ih hr
    rw [List.length_cons, List.length_cons]
    refine ⟨by omega, fun hmem => ?_⟩
    have := hlt ((List.mem_cons.mp hmem).resolve_left (Ne.symm hb))
    omega

/-- The strings that encode themselves. -/
theorem unstuff_eq_self_iff (p : List α) : e.unstuff p = some p ↔ e.esc ∉ p := by
  refine ⟨fun h hmem => Nat.lt_irrefl _ ((e.length_of_unstuff h).2 hmem), fun h => ?_⟩
  fun_induction unstuff e p with
  | case1 => rfl
  | case2 => exact absurd List.mem_cons_self h
  | case3 => rfl
  | case4 => exact absurd List.mem_cons_self h
  | case5 b c p hb ih => rw [ih fun hm => h (List.mem_cons_of_mem _ hm), Option.map_some]

end Unstuff

end Escape

end SprdHal.Lib
