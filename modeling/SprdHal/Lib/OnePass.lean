import Mathlib.Data.List.Infix
import Mathlib.Tactic.Common

/-!
# A matcher that does not look back

A pattern is looked for in one pass: the matcher counts the characters of the pattern that it has
seen, and at a character that does not continue the pattern it begins anew behind that character.
It finds the pattern exactly if what stands before one of its occurrences is made of pieces that
each break off a beginning of the pattern (`onePass_iff`).
-/

namespace SprdHal.Lib

section OnePass

variable {α : Type} [DecidableEq α]

/-- The pattern is found in what follows its first `pos` characters. -/
def onePass (pat : List α) : Nat → List α → Bool
  | _, [] => false
  | pos, c :: cs =>
    if pat[pos]? = some c then
      if pos + 1 = pat.length then true else onePass pat (pos + 1) cs
    else onePass pat 0 cs

omit [DecidableEq α] in
/-- A text that a one-pass matcher leaves behind: beginnings of the pattern, each with a character
behind it that does not continue the pattern. -/
inductive BrokenOff (pat : List α) : List α → Prop
  | nil : BrokenOff pat []
  | piece (k : Nat) (c : α) (rest : List α) : k < pat.length → pat[k]? ≠ some c →
      BrokenOff pat rest → BrokenOff pat (pat.take k ++ c :: rest)

omit [DecidableEq α] in
/-- The pattern occurs behind pieces that break off. -/
def OccursApart (pat text : List α) : Prop :=
  ∃ pre post, text = pre ++ pat ++ post ∧ BrokenOff pat pre

omit [DecidableEq α] in
theorem OccursApart.isInfix {pat text : List α} (h : OccursApart pat text) : pat <:+: text := by
  obtain ⟨pre, post, rfl, -⟩ := h
  exact ⟨pre, post, rfl⟩

variable {pat : List α}

/-- What a matcher finds occurs apart. -/
theorem occursApart_of_onePass {text : List α} {pos : Nat} (hpos : pos < pat.length)
    (h : onePass pat pos text = true) : OccursApart pat (pat.take pos ++ text) := by
  induction text generalizing pos with
  | nil => exact nomatch h
  | cons c cs ih =>
    unfold onePass at h
    split at h
    · rename_i hc
      obtain ⟨hlt, hget⟩ := List.getElem?_eq_some_iff.mp hc
      have htake : pat.take (pos + 1) ++ cs = pat.take pos ++ c :: cs := by
        rw [List.take_add_one, hc]
        simp
      rw [← htake]
      split at h
      · rename_i hend
        refine ⟨[], cs, ?_, .nil⟩
        rw [hend, List.take_length, List.nil_append]
      · exact ih (by omega) h
    · rename_i hc
      obtain ⟨pre, post, htext, hbroken⟩ := ih (Nat.zero_lt_of_lt hpos) h
      refine ⟨pat.take pos ++ c :: pre, post, ?_, .piece pos c pre hpos hc hbroken⟩
      rw [List.take_zero, List.nil_append] at htext
      rw [htext]
      simp only [List.append_assoc, List.cons_append]

/-- The matcher takes the characters that continue the pattern. -/
theorem onePass_take (k pos : Nat) (h : pos + k < pat.length) (text : List α) :
    onePass pat pos ((pat.drop pos).take k ++ text) = onePass pat (pos + k) text := by
  induction k generalizing pos with
  | zero => rfl
  | succ k ih =>
    have hlt : pos < pat.length := by omega
    have hdrop : pat.drop pos = pat[pos] :: pat.drop (pos + 1) := List.drop_eq_getElem_cons hlt
    have hnext := ih (pos + 1) (by omega)
    rw [hdrop, List.take_succ_cons, List.cons_append, onePass,
      if_pos (List.getElem?_eq_getElem hlt), if_neg (by omega), hnext]
    congr 1
    omega

/-- A piece that breaks off is left behind. -/
theorem onePass_piece {k : Nat} {c : α} (hk : k < pat.length) (hc : pat[k]? ≠ some c)
    (text : List α) : onePass pat 0 (pat.take k ++ c :: text) = onePass pat 0 text := by
  have h := onePass_take k 0 (by rw [Nat.zero_add]; exact hk) (c :: text)
  rw [List.drop_zero, Nat.zero_add] at h
  rw [h, onePass, if_neg hc]

theorem onePass_self (hpat : pat ≠ []) (post : List α) : onePass pat 0 (pat ++ post) = true := by
  have hlen : 0 < pat.length := List.length_pos_iff.mpr hpat
  have hlast : pat.length - 1 < pat.length := by omega
  have h := @onePass_take _ _ pat (pat.length - 1) 0 (by omega)
    (pat[pat.length - 1] :: post)
  rw [List.drop_zero, Nat.zero_add, onePass, if_pos (List.getElem?_eq_getElem hlast),
    if_pos (by omega)] at h
  rw [← h]
  congr 1
  have hsplit : pat.take (pat.length - 1) ++ [pat[pat.length - 1]] = pat := by
    rw [List.take_append_getElem hlast, Nat.sub_add_cancel hlen, List.take_length]
  conv_lhs => rw [← hsplit]
  rw [List.append_assoc, List.singleton_append]

/-- **One pass.** The matcher finds the pattern exactly where it occurs behind pieces that break
off. -/
theorem onePass_iff (hpat : pat ≠ []) {text : List α} :
    onePass pat 0 text = true ↔ OccursApart pat text := by
  constructor
  · intro h
    have := occursApart_of_onePass (List.length_pos_iff.mpr hpat) h
    rwa [List.take_zero, List.nil_append] at this
  · rintro ⟨pre, post, rfl, hbroken⟩
    induction hbroken with
    | nil =>
      rw [List.nil_append]
      exact onePass_self hpat post
    | piece k c rest hk hc _ ih =>
      rw [List.append_assoc, List.append_assoc, List.cons_append, onePass_piece hk hc,
        ← List.append_assoc]
      exact ih

/-- Characters that the pattern lacks do not help. -/
theorem onePass_append_foreign {c : α} (hc : c ∉ pat) (n pos : Nat) (text : List α) :
    onePass pat pos (text ++ List.replicate n c) = onePass pat pos text := by
  have hforeign : ∀ k : Nat, pat[k]? ≠ some c := fun k h => hc (List.mem_of_getElem? h)
  induction text generalizing pos with
  | nil =>
    rw [List.nil_append]
    induction n generalizing pos with
    | zero => rfl
    | succ n ih =>
      have hstep : onePass pat pos (c :: List.replicate n c) = onePass pat 0 (List.replicate n c) :=
        if_neg (hforeign pos)
      rw [List.replicate_succ, hstep, ih]
      rfl
  | cons d ds ih =>
    rw [List.cons_append]
    unfold onePass
    split
    · split
      · rfl
      · exact ih _
    · exact ih _

end OnePass

end SprdHal.Lib
