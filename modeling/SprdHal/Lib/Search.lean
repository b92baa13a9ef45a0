import Mathlib.Data.List.Infix
import Mathlib.Tactic.Common

/-!
# Searching a text (`strstr`)

A pointer to a place in a text is the rest of the text from there on. A pattern that lacks a
character is searched on both sides of it separately (`occurs_append_cons`), a pattern with one
separator can also lie across a separator of the text (`occurs_across`), and a pattern is found at
its first occurrence (`strstr_first`).
-/

namespace SprdHal.Lib

section Search

variable {α : Type} [DecidableEq α]

/-- The text from the first occurrence of a pattern on. -/
def strstr (pat : List α) : List α → Option (List α)
  | [] => if pat = [] then some [] else none
  | c :: cs => if pat.isPrefixOf (c :: cs) then some (c :: cs) else strstr pat cs

/-- `strstr` does not return a null pointer. -/
def occurs (pat text : List α) : Bool := (strstr pat text).isSome

/-- The entry of the first key that occurs in a text. -/
def firstKey {β : Type} : List (List α × β) → List α → Option β
  | [], _ => none
  | k :: ks, text => if occurs k.1 text then some k.2 else firstKey ks text

theorem occurs_iff {pat text : List α} : occurs pat text = true ↔ pat <:+: text := by
  induction text with
  | nil => simp [occurs, strstr, apply_ite Option.isSome]
  | cons c cs ih =>
    rw [List.infix_cons_iff, ← ih]
    unfold occurs
    rw [strstr]
    split
    · next h => simp [List.isPrefixOf_iff_prefix.1 h]
    · next h => simp [mt List.isPrefixOf_iff_prefix.2 h]

theorem occurs_eq_false {pat text : List α} : occurs pat text = false ↔ ¬ pat <:+: text := by
  rw [← occurs_iff, Bool.not_eq_true]

/-- A pattern with a character that the text lacks. -/
theorem occurs_foreign {pat text : List α} {c : α} (hp : c ∈ pat) (ht : c ∉ text) :
    occurs pat text = false :=
  occurs_eq_false.2 fun h => ht (h.subset hp)

omit [DecidableEq α] in
theorem prefix_append_cons {pat a b : List α} {c : α} (hc : c ∉ pat) :
    pat <+: a ++ c :: b ↔ pat <+: a := by
  constructor
  · intro h
    induction a generalizing pat with
    | nil =>
      cases pat with
      | nil => exact List.nil_prefix
      | cons x xs =>
        have hx : x = c := (List.cons_prefix_cons.1 h).1
        exact absurd (List.mem_cons.2 (.inl hx.symm)) hc
    | cons d ds ih =>
      cases pat with
      | nil => exact List.nil_prefix
      | cons x xs =>
        obtain ⟨rfl, hxs⟩ := List.cons_prefix_cons.1 h
        exact List.cons_prefix_cons.2 ⟨rfl, ih (fun hm => hc (List.mem_cons_of_mem _ hm)) hxs⟩
  · intro h
    exact h.trans (List.prefix_append _ _)

omit [DecidableEq α] in
theorem infix_append_cons {pat a b : List α} {c : α} (hc : c ∉ pat) :
    pat <:+: a ++ c :: b ↔ pat <:+: a ∨ pat <:+: b := by
  induction a with
  | nil =>
    have h : pat <+: c :: b ↔ pat <+: [] := prefix_append_cons (a := []) hc
    rw [List.nil_append, List.infix_cons_iff, h, List.prefix_nil, List.infix_nil]
  | cons d ds ih =>
    rw [List.cons_append, List.infix_cons_iff, ih, List.infix_cons_iff, ← List.cons_append,
      prefix_append_cons hc, or_assoc]

/-- **A pattern does not lie across a character that it lacks.** -/
theorem occurs_append_cons {pat a b : List α} {c : α} (hc : c ∉ pat) :
    occurs pat (a ++ c :: b) = (occurs pat a || occurs pat b) := by
  rw [Bool.eq_iff_iff, Bool.or_eq_true]
  simpa only [occurs_iff] using infix_append_cons hc

omit [DecidableEq α] in
theorem prefix_append_sep {x y a b : List α} {sep : α} (hx : sep ∉ x) (ha : sep ∉ a) :
    x ++ sep :: y <+: a ++ sep :: b ↔ x = a ∧ y <+: b := by
  induction x generalizing a with
  | nil =>
    cases a with
    | nil => simp
    | cons d ds =>
      have hd : sep ≠ d := fun h => ha (by simp [h])
      simp [List.cons_prefix_cons, hd]
  | cons c cs ih =>
    cases a with
    | nil =>
      have hc : c ≠ sep := fun h => hx (by simp [h])
      simp [List.cons_prefix_cons, hc]
    | cons d ds =>
      have hcs : sep ∉ cs := fun h => hx (List.mem_cons_of_mem _ h)
      have hds : sep ∉ ds := fun h => ha (List.mem_cons_of_mem _ h)
      rw [List.cons_append, List.cons_append, List.cons_prefix_cons, ih hcs hds, List.cons.injEq,
        and_assoc]

/-- **A pattern with a separator lies across the first separator of a text or behind it.** -/
theorem occurs_across {x y a b : List α} {sep : α} (hx : sep ∉ x) (ha : sep ∉ a) :
    occurs (x ++ sep :: y) (a ++ sep :: b) = true ↔
      (x <:+ a ∧ y <+: b) ∨ occurs (x ++ sep :: y) b = true := by
  rw [occurs_iff, occurs_iff]
  induction a with
  | nil =>
    rw [List.nil_append, List.infix_cons_iff, List.suffix_nil]
    have h : x ++ sep :: y <+: sep :: b ↔ x = [] ∧ y <+: b := prefix_append_sep (a := []) hx ha
    rw [h]
  | cons d ds ih =>
    have hds : sep ∉ ds := fun h => ha (List.mem_cons_of_mem _ h)
    rw [List.cons_append, List.infix_cons_iff, ih hds, ← List.cons_append,
      prefix_append_sep hx ha, List.suffix_cons_iff, or_and_right, or_assoc]

/-- Nothing of a pattern lies across the first separator of a text. -/
theorem occurs_behind {x y a b : List α} {sep : α} (hx : sep ∉ x) (ha : sep ∉ a)
    (h : ¬ (x <:+ a ∧ y <+: b)) :
    occurs (x ++ sep :: y) (a ++ sep :: b) = occurs (x ++ sep :: y) b := by
  rw [Bool.eq_iff_iff, occurs_across hx ha, or_iff_right h]

theorem strstr_prefix {pat b : List α} : strstr pat (pat ++ b) = some (pat ++ b) := by
  have h : pat.isPrefixOf (pat ++ b) = true :=
    List.isPrefixOf_iff_prefix.2 (List.prefix_append _ _)
  generalize pat ++ b = t at h
  cases t with
  | nil => simp [strstr, List.prefix_nil.1 (List.isPrefixOf_iff_prefix.1 h)]
  | cons c cs => rw [strstr, if_pos h]

/-- **A pattern is found where it starts, if no part of it completes an earlier one.** -/
theorem strstr_first {pat a b : List α} (hpat : pat ≠ [])
    (h : occurs pat (a ++ pat.dropLast) = false) :
    strstr pat (a ++ (pat ++ b)) = some (pat ++ b) := by
  induction a with
  | nil => exact strstr_prefix
  | cons c cs ih =>
    rw [occurs_eq_false, List.cons_append, List.infix_cons_iff, not_or] at h
    have hstart : ¬ pat <+: c :: (cs ++ (pat ++ b)) := by
      intro hp
      -- the first characters of `c :: cs ++ pat` alone decide, and they end before its last one
      refine h.1 (List.prefix_of_prefix_length_le hp ?_ ?_)
      · refine List.cons_prefix_cons.2 ⟨rfl, ?_⟩
        exact (List.prefix_append_right_inj cs).2
          ((List.dropLast_prefix pat).trans (List.prefix_append pat b))
      · have hlen := List.length_pos_iff.2 hpat
        simp only [List.length_cons, List.length_append, List.length_dropLast]
        omega
    rw [List.cons_append, strstr, if_neg (mt List.isPrefixOf_iff_prefix.1 hstart)]
    exact ih (occurs_eq_false.2 h.2)

/-- Two texts in which the same keys occur. -/
theorem firstKey_congr {β : Type} {keys : List (List α × β)} {t t' : List α}
    (h : ∀ k ∈ keys, occurs k.1 t = occurs k.1 t') : firstKey keys t = firstKey keys t' := by
  induction keys with
  | nil => rfl
  | cons k ks ih =>
    obtain ⟨hk, hks⟩ := List.forall_mem_cons.1 h
    rw [firstKey, firstKey, hk, ih hks]

theorem firstKey_eq_none {β : Type} {keys : List (List α × β)} {t : List α}
    (h : ∀ k ∈ keys, occurs k.1 t = false) : firstKey keys t = none := by
  induction keys with
  | nil => rfl
  | cons k ks ih =>
    obtain ⟨hk, hks⟩ := List.forall_mem_cons.1 h
    rw [firstKey, hk, ih hks]
    rfl

end Search

end SprdHal.Lib
