import Mathlib.Data.List.Basic
import Mathlib.Data.List.Range
import Mathlib.Tactic.Common

/-!
# Scratch buffers for texts

A buffer that takes one text after the other keeps what an earlier text has left behind the end of a
shorter one. `reused` is a buffer that is cleared in its first characters only between two texts, and
`staleText` what the text in it goes on with.
-/

namespace SprdHal.Lib

/-- The character that ends a text. -/
def nul : Char := '\x00'

/-- A text of C: no character in it ends it. -/
abbrev CString := { t : List Char // nul ∉ t }

/-- The text in a buffer. -/
def cText (buf : List Char) : List Char := buf.takeWhile fun c => decide (c ≠ nul)

/-- `strncpy` with the length of the text: no end is written behind it. -/
def copyOver (buf text : List Char) : List Char := text ++ buf.drop text.length

/-- `memset` of the first characters. -/
def clearFront (n : Nat) (buf : List Char) : List Char := List.replicate n nul ++ buf.drop n

/-- The text up to a character and the text behind it. -/
def cutAt (c : Char) (t : List Char) : Option (List Char × List Char) :=
  if c ∈ t then some (t.takeWhile (fun d => decide (d ≠ c)), (t.dropWhile fun d => decide (d ≠ c)).tail)
  else none

section Cut

variable {c : Char} {t front rest : List Char}

theorem cutAt_append (h : c ∉ front) (rest : List Char) :
    cutAt c (front ++ c :: rest) = some (front, rest) := by
  have hall : ∀ d ∈ front, decide (d ≠ c) = true := fun d hd =>
    decide_eq_true fun heq => h (heq ▸ hd)
  unfold cutAt
  rw [if_pos (List.mem_append_right _ List.mem_cons_self), List.takeWhile_append_of_pos hall,
    List.dropWhile_append_of_pos hall, List.takeWhile_cons, List.dropWhile_cons,
    if_neg (by simp), if_neg (by simp), List.append_nil, List.tail_cons]

theorem cutAt_eq_none : cutAt c t = none ↔ c ∉ t := by
  unfold cutAt
  split <;> simp_all

/-- The two parts make up the text. -/
theorem cutAt_eq_some (h : cutAt c t = some (front, rest)) : t = front ++ c :: rest ∧ c ∉ front := by
  have hmem : c ∈ t := by
    by_contra hc
    rw [cutAt_eq_none.mpr hc] at h
    cases h
  obtain ⟨a, b, rfl, ha⟩ := List.eq_append_cons_of_mem hmem
  rw [cutAt_append ha] at h
  cases h
  exact ⟨rfl, ha⟩

theorem cutAt_of_mem (h : c ∈ t) : ∃ front rest, cutAt c t = some (front, rest) ∧
    t = front ++ c :: rest ∧ c ∉ front := by
  obtain ⟨a, b, rfl, ha⟩ := List.eq_append_cons_of_mem h
  exact ⟨a, b, cutAt_append ha b, rfl, ha⟩

end Cut

/-! ## One text after the other -/

/-- A buffer that takes the texts of a list, the latest first, and is cleared in front after each. -/
def reused (size cleared : Nat) : List (List Char) → List Char
  | [] => List.replicate size nul
  | text :: earlier => clearFront cleared (copyOver (reused size cleared earlier) text)

/-- The character that the latest of the texts that are long enough has at a position. -/
def behind : List (List Char) → Nat → Option Char
  | [], _ => none
  | text :: earlier, p => if p < text.length then text[p]? else behind earlier p

/-- What earlier texts have left from the `n`-th character on. -/
def staleText (size cleared : Nat) (earlier : List (List Char)) (n : Nat) : List Char :=
  if n < cleared then [] else (List.range' n (size - n)).filterMap (behind earlier)

/-- Texts that fit into a buffer together with the character that ends them. -/
def Fit (size : Nat) (texts : List (List Char)) : Prop := ∀ t ∈ texts, t.length < size ∧ nul ∉ t

section Reused

variable {size cleared n p : Nat} {text : List Char} {earlier : List (List Char)}

theorem Fit.cons (h : text.length < size) (hnul : nul ∉ text) (hfit : Fit size earlier) :
    Fit size (text :: earlier) :=
  List.forall_mem_cons.mpr ⟨⟨h, hnul⟩, hfit⟩

theorem cText_copyOver {buf : List Char} (hnul : nul ∉ text) :
    cText (copyOver buf text) = text ++ cText (buf.drop text.length) :=
  List.takeWhile_append_of_pos fun _ hd => decide_eq_true fun heq => hnul (heq ▸ hd)

theorem length_reused (hc : cleared ≤ size) (hfit : Fit size earlier) :
    (reused size cleared earlier).length = size := by
  induction earlier with
  | nil => exact List.length_replicate
  | cons text earlier ih =>
    have hlen := (List.forall_mem_cons.mp hfit).1.1
    simp only [reused, clearFront, copyOver, List.length_append, List.length_replicate,
      List.length_drop, ih (List.forall_mem_cons.mp hfit).2]
    omega

/-- The front of the buffer is cleared. -/
theorem getElem?_reused_front (hc : cleared ≤ size) (hp : p < cleared) :
    (reused size cleared earlier)[p]? = some nul := by
  cases earlier with
  | nil => rw [reused, List.getElem?_replicate, if_pos (by omega)]
  | cons text earlier =>
    rw [reused, clearFront, List.getElem?_append_left (by rw [List.length_replicate]; exact hp),
      List.getElem?_replicate, if_pos hp]

/-- Behind it the latest text that is long enough has its characters. -/
theorem getElem?_reused_behind (hc : cleared ≤ p) (hp : p < size) (hfit : Fit size earlier) :
    (reused size cleared earlier)[p]? = some ((behind earlier p).getD nul) := by
  induction earlier with
  | nil => rw [reused, List.getElem?_replicate, if_pos hp]; rfl
  | cons text earlier ih =>
    have hrest := ih (List.forall_mem_cons.mp hfit).2
    rw [reused, clearFront, List.getElem?_append_right (by rw [List.length_replicate]; exact hc),
      List.length_replicate, List.getElem?_drop, Nat.add_sub_cancel' hc, copyOver, behind]
    split
    · next hlt =>
      rw [List.getElem?_append_left hlt, List.getElem?_eq_getElem hlt]
      rfl
    · next hge =>
      rw [List.getElem?_append_right (Nat.le_of_not_lt hge), List.getElem?_drop,
        Nat.add_sub_cancel' (Nat.le_of_not_lt hge), hrest]

theorem behind_ne_nul (hfit : Fit size earlier) {c : Char} (h : behind earlier p = some c) :
    c ≠ nul := by
  induction earlier with
  | nil => cases h
  | cons text earlier ih =>
    rw [behind] at h
    split at h
    · rintro rfl
      exact (List.forall_mem_cons.mp hfit).1.2 (List.mem_of_getElem? h)
    · exact ih (List.forall_mem_cons.mp hfit).2 h

/-- Nothing is left behind the longest of the texts. -/
theorem behind_succ (h : behind earlier p = none) : behind earlier (p + 1) = none := by
  induction earlier with
  | nil => rfl
  | cons text earlier ih =>
    rw [behind] at h ⊢
    split at h
    · next hlt =>
      rw [List.getElem?_eq_getElem hlt] at h
      cases h
    · next hge =>
      rw [if_neg (by omega)]
      exact ih h

theorem behind_of_le (h : behind earlier p = none) {q : Nat} (hq : p ≤ q) :
    behind earlier q = none :=
  Nat.le_induction h (fun _ _ ih => behind_succ ih) q hq

theorem filterMap_behind (h : behind earlier n = none) (k : Nat) :
    (List.range' n k).filterMap (behind earlier) = [] := by
  refine List.filterMap_eq_nil_iff.mpr fun q hq => behind_of_le h ?_
  exact (List.mem_range'_1.mp hq).1

/-- The text in a reused buffer from behind its front on. -/
theorem cText_drop_behind (hc : cleared ≤ size) (hfit : Fit size earlier) (k : Nat)
    (hn : cleared ≤ n) (hk : n + k = size) : cText ((reused size cleared earlier).drop n) =
      (List.range' n k).filterMap (behind earlier) := by
  have hlen := length_reused hc hfit
  induction k generalizing n with
  | zero =>
    rw [List.drop_eq_nil_of_le (by omega)]
    rfl
  | succ k ih =>
    have hlt : n < (reused size cleared earlier).length := by omega
    have hget := getElem?_reused_behind hn (by omega) hfit
    rw [List.getElem?_eq_getElem hlt] at hget
    rw [List.drop_eq_getElem_cons hlt, Option.some.inj hget, cText, List.takeWhile_cons]
    cases hbehind : behind earlier n with
    | none =>
      rw [filterMap_behind hbehind]
      exact if_neg (by simp)
    | some c =>
      have hne := behind_ne_nul hfit hbehind
      rw [List.range'_succ, List.filterMap_cons, hbehind, Option.getD_some,
        if_pos (decide_eq_true hne), ← ih (by omega) (by omega)]
      rfl

/-- **What is left behind a text.** The text in the buffer goes on with what longer texts have left
there, unless it ends where the buffer is cleared. -/
theorem cText_drop_reused (hc : cleared ≤ size) (hfit : Fit size earlier) (hn : n ≤ size) :
    cText ((reused size cleared earlier).drop n) = staleText size cleared earlier n := by
  unfold staleText
  split
  · next hlt =>
    have hget := @getElem?_reused_front size cleared n earlier hc hlt
    have hlt' : n < (reused size cleared earlier).length := by
      rw [length_reused hc hfit]
      omega
    rw [List.getElem?_eq_getElem hlt'] at hget
    rw [List.drop_eq_getElem_cons hlt', Option.some.inj hget, cText, List.takeWhile_cons,
      if_neg (by simp)]
  · next hge => exact cText_drop_behind hc hfit (size - n) (Nat.le_of_not_lt hge) (by omega)

/-- The text in the buffer once a new text has been copied to it. -/
theorem cText_reused (hc : cleared ≤ size) (hfit : Fit size earlier) (hlen : text.length ≤ size)
    (hnul : nul ∉ text) : cText (copyOver (reused size cleared earlier) text) =
      text ++ staleText size cleared earlier text.length := by
  rw [cText_copyOver hnul, cText_drop_reused hc hfit hlen]

theorem behind_last (hfit : Fit size earlier) (hp : size ≤ p + 1) : behind earlier p = none := by
  induction earlier with
  | nil => rfl
  | cons text earlier ih =>
    have hlen := (List.forall_mem_cons.mp hfit).1.1
    rw [behind, if_neg (by omega)]
    exact ih (List.forall_mem_cons.mp hfit).2

/-- The character that ends the text still fits. -/
theorem length_staleText_lt (hfit : Fit size earlier) (hn : n < size) (cleared : Nat) :
    n + (staleText size cleared earlier n).length < size := by
  unfold staleText
  split
  · exact hn
  · obtain ⟨k, rfl⟩ := Nat.exists_eq_add_of_lt hn
    have hlast : behind earlier (n + k) = none := behind_last hfit (Nat.le_refl _)
    have hsplit : List.range' n (n + k + 1 - n) = List.range' n k ++ [n + k] := by
      rw [Nat.add_assoc, Nat.add_sub_cancel_left, List.range'_concat, Nat.one_mul]
    rw [hsplit, List.filterMap_append, List.length_append, List.filterMap_cons, hlast]
    have hle := List.length_filterMap_le (behind earlier) (List.range' n k)
    rw [List.length_range'] at hle
    exact Nat.lt_succ_of_le (Nat.add_le_add_left hle n)

/-- The first character left behind. -/
theorem head?_staleText (hn : n < size) :
    (staleText size cleared earlier n).head? = if n < cleared then none else behind earlier n := by
  unfold staleText
  split
  · rfl
  · obtain ⟨k, hk⟩ := Nat.exists_eq_succ_of_ne_zero (Nat.sub_ne_zero_of_lt hn)
    cases hbehind : behind earlier n with
    | none =>
      rw [filterMap_behind hbehind]
      rfl
    | some c =>
      rw [hk, List.range'_succ, List.filterMap_cons, hbehind]
      rfl

end Reused

end SprdHal.Lib
