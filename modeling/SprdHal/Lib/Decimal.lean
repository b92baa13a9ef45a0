import SprdHal.Lib.Numerals

/-!
# Decimal numbers in a text of any base

`strtol` with the base 0 takes the base from the text. `intText` writes a number in base 10, with a
sign if it is negative; it is read back (`strtolAuto_intText`), and a positive one whatever follows
it that is no digit (`strtolAuto_append_iff`).
-/

namespace SprdHal.Lib

/-- The base that the prefix of a number stands for. -/
def baseOf : List Char → Nat
  | '0' :: 'x' :: _ | '0' :: 'X' :: _ => 16
  | '0' :: _ => 8
  | _ => 10

def signedIntAuto : List Char → Option Int
  | '-' :: t => (unsignedInt (baseOf t) t).map (- ·)
  | '+' :: t => unsignedInt (baseOf t) t
  | t => unsignedInt (baseOf t) t

/-- `strtol` with the base 0. -/
def strtolAuto (t : List Char) : Int := clampLong ((signedIntAuto (t.dropWhile isSpace)).getD 0)

/-- A number in base 10. -/
def intText (i : Int) : List Char :=
  if i < 0 then '-' :: Nat.toDigits 10 i.natAbs else Nat.toDigits 10 i.natAbs

theorem clampLong_of_abs {i : Int} (h : i.natAbs < 2 ^ 31) : clampLong i = i := by
  unfold clampLong
  omega

/-- The first digit of a number is 0 for the number 0 only. -/
theorem toDigits_head {n : Nat} (hn : 0 < n) :
    ∃ d ds, Nat.toDigits 10 n = d :: ds ∧ d ≠ '0' ∧ isDigitIn 10 d = true := by
  induction n using Nat.strong_induction_on with
  | _ n ih =>
    rw [Nat.toDigits_eq_if (by decide)]
    split
    · next hlt =>
      have hdigit : ∀ m < 10, 0 < m → m.digitChar ≠ '0' ∧ isDigitIn 10 m.digitChar = true := by
        decide
      exact ⟨_, [], rfl, hdigit n hlt hn⟩
    · next hge =>
      obtain ⟨d, ds, hds, hd⟩ := ih (n / 10) (Nat.div_lt_self hn (by decide)) (by omega)
      exact ⟨d, ds ++ [(n % 10).digitChar], by rw [hds, List.cons_append], hd⟩

theorem baseOf_of_ne {d : Char} (hd : d ≠ '0') (t : List Char) : baseOf (d :: t) = 10 := by
  unfold baseOf
  split
  · next heq => exact absurd (List.cons.inj heq).1 hd
  · next heq => exact absurd (List.cons.inj heq).1 hd
  · next heq => exact absurd (List.cons.inj heq).1 hd
  · rfl

theorem unsignedInt_toDigits {n : Nat} (hn : 0 < n) (t : List Char) :
    unsignedInt (baseOf (Nat.toDigits 10 n ++ t)) (Nat.toDigits 10 n ++ t) =
      some (digitsValue 10 (Nat.toDigits 10 n ++ t.takeWhile (isDigitIn 10)) : Int) := by
  obtain ⟨d, ds, hds, hd, -⟩ := toDigits_head hn
  have hbase : baseOf (Nat.toDigits 10 n ++ t) = 10 := by
    rw [hds, List.cons_append, baseOf_of_ne hd]
  have htext : unsignedText 10 (Nat.toDigits 10 n ++ t) =
      Nat.toDigits 10 n ++ t.takeWhile (isDigitIn 10) := by
    rw [unsignedText, if_neg (by decide),
      List.takeWhile_append_of_pos (isDigitIn_toDigits (by decide) (by decide) n)]
  rw [hbase, unsignedInt, htext, if_neg (by rw [hds]; exact List.cons_ne_nil _ _)]

theorem signedIntAuto_of_digit {d : Char} (hd : isDigitIn 10 d = true) (t : List Char) :
    signedIntAuto ((d :: t).dropWhile isSpace) = unsignedInt (baseOf (d :: t)) (d :: t) := by
  rw [List.dropWhile_cons, isSpace_of_digit (by decide) hd, if_neg Bool.false_ne_true]
  unfold signedIntAuto
  split
  · next heq =>
    rw [(List.cons.inj heq).1] at hd
    exact absurd hd (by decide)
  · next heq =>
    rw [(List.cons.inj heq).1] at hd
    exact absurd hd (by decide)
  · rfl

/-- A positive number, with what follows it. -/
theorem strtolAuto_toDigits {n : Nat} (hn : 0 < n) (t : List Char) :
    strtolAuto (Nat.toDigits 10 n ++ t) =
      clampLong (digitsValue 10 (Nat.toDigits 10 n ++ t.takeWhile (isDigitIn 10))) := by
  obtain ⟨d, ds, hds, -, hd⟩ := toDigits_head hn
  have hread := unsignedInt_toDigits hn t
  rw [hds, List.cons_append] at hread
  rw [strtolAuto, hds, List.cons_append, signedIntAuto_of_digit hd, hread]
  rfl

/-- **A number is read back.** -/
theorem strtolAuto_intText {i : Int} (h : i.natAbs < 2 ^ 31) : strtolAuto (intText i) = i := by
  unfold intText
  have hdigits := digitsValue_toDigits (b := 10) (by decide) (by decide) i.natAbs
  split
  · next hneg =>
    have hread := unsignedInt_toDigits (n := i.natAbs) (by omega) []
    rw [List.takeWhile_nil, List.append_nil, hdigits] at hread
    have hsigned : signedIntAuto (('-' :: Nat.toDigits 10 i.natAbs).dropWhile isSpace) =
        (unsignedInt (baseOf (Nat.toDigits 10 i.natAbs)) (Nat.toDigits 10 i.natAbs)).map (- ·) :=
      rfl
    rw [strtolAuto, hsigned, hread]
    have hval : -((i.natAbs : Nat) : Int) = i := by omega
    show clampLong (-((i.natAbs : Nat) : Int)) = i
    rw [hval, clampLong_of_abs h]
  · next hpos =>
    rcases Nat.eq_zero_or_pos i.natAbs with hzero | hn
    · rw [hzero]
      obtain rfl := Int.natAbs_eq_zero.mp hzero
      decide
    · have hread := strtolAuto_toDigits hn []
      rw [List.append_nil, List.takeWhile_nil, List.append_nil, hdigits] at hread
      have hval : ((i.natAbs : Nat) : Int) = i := by omega
      rw [hread, hval, clampLong_of_abs h]

theorem digitsValue_foldl_le (ds : List Char) (n : Nat) :
    n ≤ ds.foldl (fun n c => n * 10 + digitVal c) n := by
  induction ds generalizing n with
  | nil => exact Nat.le_refl n
  | cons c ds ih =>
    have hstep : n ≤ n * 10 + digitVal c := by omega
    exact Nat.le_trans hstep (ih _)

/-- **What follows a number.** A positive number is read back exactly if no digit follows it. -/
theorem strtolAuto_append_iff {n : Nat} (hn : 0 < n) (hlt : n < 2 ^ 31 - 1) (t : List Char) :
    strtolAuto (Nat.toDigits 10 n ++ t) = n ↔ ∀ c ∈ t.head?, isDigitIn 10 c = false := by
  have hdigits := digitsValue_toDigits (b := 10) (by decide) (by decide) n
  rw [strtolAuto_toDigits hn]
  cases t with
  | nil =>
    rw [List.takeWhile_nil, List.append_nil, hdigits, clampLong_of_lt (by omega)]
    exact iff_of_true rfl nofun
  | cons c t =>
    simp only [List.head?_cons, Option.mem_some_iff, forall_eq']
    rw [List.takeWhile_cons]
    cases hc : isDigitIn 10 c with
    | false =>
      rw [if_neg Bool.false_ne_true, List.append_nil, hdigits, clampLong_of_lt (by omega)]
      exact iff_of_true rfl rfl
    | true =>
      rw [if_pos rfl]
      have hbig : n * 10 ≤ digitsValue 10 (Nat.toDigits 10 n ++ c :: t.takeWhile (isDigitIn 10)) := by
        unfold digitsValue at hdigits ⊢
        rw [List.foldl_append, hdigits, List.foldl_cons]
        exact Nat.le_trans (Nat.le_add_right _ _) (digitsValue_foldl_le _ _)
      refine iff_of_false (fun heq => ?_) (by decide)
      unfold clampLong at heq
      omega

end SprdHal.Lib
