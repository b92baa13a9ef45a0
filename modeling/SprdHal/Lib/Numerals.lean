import Mathlib.Algebra.Ring.Int.Defs
import Mathlib.Algebra.Ring.Nat
import Mathlib.Data.Nat.Init
import Mathlib.Tactic.Common

/-!
# Numbers in a text (`strtol`, `atoi`, `sprintf`)

`readInt` is the number that a text begins with, without a bound; `strtol` keeps it in a `long` of
32 bits and reads 0 where there is none. What `sprintf` writes is read back whatever follows it
(`readInt_toDigits`, `readInt_hex`).
-/

namespace SprdHal.Lib

/-- `isspace`. -/
def isSpace (c : Char) : Bool := c = ' ' || ('\t' ≤ c && c ≤ '\r')

/-- The value of a digit, and 36 for a character that is no digit in any base up to 16. -/
def digitVal (c : Char) : Nat :=
  if '0' ≤ c ∧ c ≤ '9' then c.toNat - '0'.toNat
  else if 'a' ≤ c ∧ c ≤ 'f' then c.toNat - 'a'.toNat + 10
  else if 'A' ≤ c ∧ c ≤ 'F' then c.toNat - 'A'.toNat + 10
  else 36

def isDigitIn (base : Nat) (c : Char) : Bool := digitVal c < base

def digitsValue (base : Nat) (ds : List Char) : Nat :=
  ds.foldl (fun n c => n * base + digitVal c) 0

/-- The prefix that a number in base 16 can have. -/
def skipHexPrefix : List Char → List Char
  | '0' :: 'x' :: t => t
  | '0' :: 'X' :: t => t
  | t => t

def unsignedText (base : Nat) (t : List Char) : List Char :=
  (if base = 16 then skipHexPrefix t else t).takeWhile (isDigitIn base)

def unsignedInt (base : Nat) (t : List Char) : Option Int :=
  if unsignedText base t = [] then none else some (digitsValue base (unsignedText base t))

def signedInt (base : Nat) : List Char → Option Int
  | '-' :: t => (unsignedInt base t).map (- ·)
  | '+' :: t => unsignedInt base t
  | t => unsignedInt base t

/-- The number at the beginning of a text. -/
def readInt (base : Nat) (t : List Char) : Option Int := signedInt base (t.dropWhile isSpace)

/-- What a `long` can hold of a number. -/
def clampLong (i : Int) : Int := max (-2 ^ 31) (min i (2 ^ 31 - 1))

def strtol (base : Nat) (t : List Char) : Int := clampLong ((readInt base t).getD 0)

def atoi (t : List Char) : Int := strtol 10 t

/-- The conversion of an `int` to a `short`. -/
def toShort (i : Int) : Int := i.bmod (2 ^ 16)

theorem clampLong_of_lt {n : Nat} (h : n < 2 ^ 31) : clampLong n = n := by
  unfold clampLong
  omega

theorem toShort_of_lt {n : Nat} (h : n < 2 ^ 15) : toShort n = n := by
  unfold toShort
  rw [Int.bmod_eq_of_le] <;> omega

theorem digitVal_digitChar_all : ∀ d < 16, digitVal d.digitChar = d := by decide

theorem digitVal_digitChar {d : Nat} (h : d < 16) : digitVal d.digitChar = d :=
  digitVal_digitChar_all d h

section Digits

variable {b : Nat} (hb : 1 < b) (hb' : b ≤ 16)

include hb hb'

theorem isDigitIn_toDigits (n : Nat) : ∀ c ∈ Nat.toDigits b n, isDigitIn b c = true := by
  induction n using Nat.strong_induction_on with
  | _ n ih =>
    intro c hc
    rw [Nat.toDigits_eq_if hb] at hc
    unfold isDigitIn
    split at hc
    · next hn =>
      rw [List.mem_singleton.1 hc, digitVal_digitChar (Nat.lt_of_lt_of_le hn hb'), decide_eq_true_iff]
      exact hn
    · next hn =>
      rcases List.mem_append.1 hc with h | h
      · exact ih _ (Nat.div_lt_self (by omega) hb) c h
      · have hmod : n % b < b := Nat.mod_lt _ (by omega)
        rw [List.mem_singleton.1 h, digitVal_digitChar (Nat.lt_of_lt_of_le hmod hb'), decide_eq_true_iff]
        exact hmod

theorem digitsValue_toDigits (n : Nat) : digitsValue b (Nat.toDigits b n) = n := by
  induction n using Nat.strong_induction_on with
  | _ n ih =>
    rw [Nat.toDigits_eq_if hb]
    split
    · next hn => simp [digitsValue, digitVal_digitChar (Nat.lt_of_lt_of_le hn hb')]
    · next hn =>
      have hmod : n % b < b := Nat.mod_lt _ (by omega)
      have hdiv : digitsValue b (Nat.toDigits b (n / b)) = n / b :=
        ih _ (Nat.div_lt_self (by omega) hb)
      unfold digitsValue at hdiv ⊢
      rw [List.foldl_append, hdiv, List.foldl_cons, List.foldl_nil,
        digitVal_digitChar (Nat.lt_of_lt_of_le hmod hb')]
      exact Nat.div_add_mod' n b

/-- The digits of a number end where they end in the text. -/
theorem takeWhile_toDigits (n : Nat) {c : Char} (hc : isDigitIn b c = false) (t : List Char) :
    (Nat.toDigits b n ++ c :: t).takeWhile (isDigitIn b) = Nat.toDigits b n := by
  rw [List.takeWhile_append_of_pos (isDigitIn_toDigits hb hb' n), List.takeWhile_cons, hc]
  simp

end Digits

theorem isDigitIn_of_ten {c : Char} (h : isDigitIn 10 c = true) : isDigitIn 16 c = true := by
  unfold isDigitIn at *
  rw [decide_eq_true_iff] at *
  omega

theorem isSpace_of_digit {b : Nat} (hb : b ≤ 16) {c : Char} (h : isDigitIn b c = true) :
    isSpace c = false := by
  have h0 : '0'.toNat = 48 := rfl
  have ha : 'a'.toNat = 97 := rfl
  have hA : 'A'.toNat = 65 := rfl
  have hspace : ' '.toNat = 32 := rfl
  have hr : '\r'.toNat = 13 := rfl
  have hlow : 48 ≤ c.toNat := by
    unfold isDigitIn digitVal at h
    simp only [decide_eq_true_eq, Char.le_def, UInt32.le_iff_toNat_le, Char.toNat_val] at h
    split at h <;> first | omega | (split at h <;> first | omega | (split at h <;> omega))
  unfold isSpace
  rw [Bool.or_eq_false_iff, Bool.and_eq_false_iff, decide_eq_false_iff_not, decide_eq_false_iff_not,
    decide_eq_false_iff_not]
  refine ⟨?_, .inr ?_⟩
  · rintro rfl
    omega
  · rw [Char.le_def, UInt32.le_iff_toNat_le, Char.toNat_val, Char.toNat_val]
    omega

/-- A number without a sign. -/
theorem readInt_of_digit {b : Nat} (hb : b ≤ 16) {c : Char} (h : isDigitIn b c = true)
    (t : List Char) : readInt b (c :: t) = unsignedInt b (c :: t) := by
  rw [readInt, List.dropWhile_cons, isSpace_of_digit hb h, if_neg Bool.false_ne_true]
  unfold signedInt
  split
  · next heq =>
    rw [(List.cons.inj heq).1] at h
    exact absurd (of_decide_eq_true h) (Nat.not_lt.2 (Nat.le_trans hb (by decide)))
  · next heq =>
    rw [(List.cons.inj heq).1] at h
    exact absurd (of_decide_eq_true h) (Nat.not_lt.2 (Nat.le_trans hb (by decide)))
  · rfl

/-- **A number written in base 16 with its prefix is read back.** -/
theorem readInt_hex (n : Nat) {c : Char} (hc : isDigitIn 16 c = false) (t : List Char) :
    readInt 16 ('0' :: 'x' :: (Nat.toDigits 16 n ++ c :: t)) = some (n : Int) := by
  rw [readInt_of_digit (by decide) (by decide), unsignedInt, unsignedText, if_pos rfl, skipHexPrefix,
    takeWhile_toDigits (by decide) (by decide) n hc, if_neg Nat.toDigits_ne_nil,
    digitsValue_toDigits (by decide) (by decide)]

end SprdHal.Lib
