import SprdHal.Audio.RecLcf

/-!
# The F1F1 filter of `Rec_Filter_CalcF1f1Coeffs` (`aud_filter_calc.c`)

`Rec_Filter_CalcF1f1Coeffs` designs the filter of `Rec_Filter_CalcLCF` with words of 16 and 32
bits, and does not check the gains. From place 1886 of 2048 on, the tangent of a pole does not fit
16 bits. Where it comes out close to -4096, the coefficients A are too large: `Clash` lists the
places that this happens for.
-/

namespace SprdHal.Audio

open SprdHal.Lib Calc

/-- The coefficients of `Rec_Filter_CalcF1f1Coeffs` by its tangents and gains. -/
def f1f1Words (F1_wp_Q F2_wp_Q F1_G0_Q F1_G1_Q F2_G0_Q F2_G1_Q : Int) : Calc IirPara := do
  let F1_W := asr (← int32 (F1_G0_Q * F1_wp_Q)) 12
  let F2_W := asr (← int32 (F2_G0_Q * F2_wp_Q)) 12
  let hsb_b0 ← int32 (F1_G1_Q * F2_G1_Q)
  let hsb_b1 ← int32 ((← int32 (F1_W * F2_G1_Q)) + (← int32 (F2_W * F1_G1_Q)))
  let hsb_b2 ← int32 (F1_W * F2_W)
  let hsa_a0 : Int := 2 ^ 24
  let hsa_a1 ← int32 ((← int32 (F1_wp_Q + F2_wp_Q)) * 2 ^ 12)
  let hsa_a2 ← int32 (F1_wp_Q * F2_wp_Q)
  let dividor := asr (← int32 ((← int32 (hsa_a0 + hsa_a1)) + hsa_a2)) 12
  let b0 ← quot (← int32 ((← int32 (hsb_b0 + hsb_b1)) + hsb_b2)) dividor
  let b1 ← quot (← int32 ((← int32 (hsb_b2 - hsb_b0)) * 2)) dividor
  let b2 ← quot (← int32 ((← int32 (hsb_b0 - hsb_b1)) + hsb_b2)) dividor
  let a1 ← quot (← int32 ((← int32 (hsa_a2 - hsa_a0)) * 2)) dividor
  let a2 ← quot (← int32 ((← int32 (hsa_a0 - hsa_a1)) + hsa_a2)) dividor
  let B0 ← store16 (clip b0)
  let B1 ← store16 (clip b1)
  let B2 ← store16 (clip b2)
  let A1 ← store16 a1
  let A2 ← store16 a2
  pure ⟨B0, B1, B2, 4096, A1, A2⟩

/-- The coefficients of `Rec_Filter_CalcF1f1Coeffs` for frequencies that are accepted. -/
def f1f1Coeffs (p : LcfF1f1Param) (Qf1fp Qf2fp : Int) : Calc IirPara := do
  let F1_wp_Q ← int16 (← wpOf Qf1fp)
  let F2_wp_Q ← int16 (← wpOf Qf2fp)
  let F1_G0_Q ← gainQ p.f1_g0
  let F1_G1_Q ← gainQ p.f1_g1
  let F2_G0_Q ← gainQ p.f2_g0
  let F2_G1_Q ← gainQ p.f2_g1
  f1f1Words F1_wp_Q F2_wp_Q F1_G0_Q F1_G1_Q F2_G0_Q F2_G1_Q

/-- `Rec_Filter_CalcF1f1Coeffs` -/
def recFilterCalcF1f1Coeffs (p : LcfF1f1Param) (fs : Int32) (filterPara : IirPara) :
    Calc (Bool × IirPara) :=
  if fs.toInt ≤ 0 then pure (false, filterPara)
  else do
    let Qf1fp ← poleQ p.f1_fp fs
    if Qf1fp.tdiv 2 ≥ 2048 then pure (false, filterPara)
    else do
      let Qf2fp ← poleQ p.f2_fp fs
      if Qf2fp.tdiv 2 ≥ 2048 then pure (false, filterPara)
      else do
        let para ← f1f1Coeffs p Qf1fp Qf2fp
        pure (true, para)

/-! ## The tangents that 16 bits do not hold -/

/-- The places at which the tangent, in 16 bits, is within 850 of -4096. -/
def isPole (i : Nat) : Bool := i == 1960 || i == 1961 || i == 1962 || i == 2006

/-- The other pairs of places whose coefficients are too large: for the greater place of a pair,
the ranges of the smaller one. -/
def strayRows : List (Nat × List (Nat × Nat)) :=
  [(1955, [(1954, 1955)]), (1956, [(1952, 1956)]), (1957, [(1949, 1957)]), (1958, [(1941, 1958)]),
   (1959, [(1886, 1959)]), (1963, [(1933, 1959), (1963, 1963)]),
   (1964, [(1955, 1959), (1963, 1964)]), (1965, [(1958, 1959), (1963, 1963)]),
   (1966, [(1959, 1959)]), (1994, [(1959, 1959)]), (1995, [(1959, 1959)]), (1996, [(1959, 1959)]),
   (1997, [(1959, 1959)]), (1998, [(1959, 1959)]), (1999, [(1959, 1959)]), (2000, [(1959, 1959)]),
   (2001, [(1959, 1959), (1963, 1963)]), (2002, [(1958, 1959), (1963, 1963)]),
   (2003, [(1958, 1959), (1963, 1963)]), (2004, [(1956, 1959), (1963, 1963)]),
   (2005, [(1949, 1959), (1963, 1964), (2004, 2005)]), (2007, [(1959, 1959)]),
   (2016, [(1959, 1959)]), (2017, [(1959, 1959)]), (2018, [(1959, 1959), (1963, 1963)]),
   (2019, [(1958, 1959), (1963, 1963)]),
   (2020, [(1886, 1959), (1963, 1966), (1994, 2005), (2007, 2007), (2016, 2020)]),
   (2025, [(1959, 1959), (2020, 2020)]), (2026, [(1959, 1959), (1963, 1963), (2020, 2020)]),
   (2027, [(1950, 1959), (1963, 1964), (2004, 2005), (2020, 2020), (2027, 2027)]),
   (2030, [(1959, 1959), (2020, 2020)]), (2031, [(1958, 1959), (1963, 1963), (2020, 2020)]),
   (2034, [(1956, 1959), (1963, 1963), (2005, 2005), (2020, 2020), (2027, 2027)]),
   (2036, [(1957, 1959), (1963, 1963), (2005, 2005), (2020, 2020), (2027, 2027)]),
   (2041, [(1958, 1959), (1963, 1963), (2020, 2020)]), (2042, [(1959, 1959), (2020, 2020)]),
   (2043, [(1959, 1959), (2020, 2020)]), (2045, [(1959, 1959), (2020, 2020)]),
   (2046, [(1932, 1959), (1963, 1965), (2001, 2005), (2018, 2020), (2026, 2027), (2031, 2031),
    (2034, 2034), (2036, 2036), (2041, 2041), (2046, 2046)])]

/-- A pair of `strayRows`, the greater place first. -/
def stray (i j : Nat) : Bool :=
  match strayRows.find? fun row => row.1.beq i with
  | some row => row.2.any fun range => range.1.ble j && j.ble range.2
  | none => false

/-- Places of the two poles for which A does not fit 16 bits. -/
def Clash (i j : Nat) : Prop := isPole i = true ∨ isPole j = true ∨ stray i j = true ∨ stray j i = true

/-- The places whose tangent is negative in 16 bits, and how far below zero it is. -/
def negatives : List (Nat × Nat) :=
  [(1886, 32734), (1887, 32535), (1888, 32319), (1889, 32115), (1890, 31893), (1891, 31684),
   (1892, 31457), (1893, 31242), (1894, 31009), (1895, 30789), (1896, 30550), (1897, 30323),
   (1898, 30078), (1899, 29846), (1900, 29593), (1901, 29357), (1902, 29096), (1903, 28853),
   (1904, 28584), (1905, 28334), (1906, 28060), (1907, 27801), (1908, 27520), (1909, 27255),
   (1910, 26963), (1911, 26691), (1912, 26393), (1913, 26110), (1914, 25803), (1915, 25515),
   (1916, 25195), (1917, 24898), (1918, 24571), (1919, 24265), (1920, 23926), (1921, 23610),
   (1922, 23262), (1923, 22936), (1924, 22577), (1925, 22238), (1926, 21867), (1927, 21519),
   (1928, 21136), (1929, 20777), (1930, 20381), (1931, 20006), (1932, 19597), (1933, 19212),
   (1934, 18788), (1935, 18389), (1936, 17950), (1937, 17537), (1938, 17082), (1939, 16654),
   (1940, 16182), (1941, 15738), (1942, 15248), (1943, 14787), (1944, 14278), (1945, 13760),
   (1946, 13271), (1947, 12731), (1948, 12223), (1949, 11662), (1950, 11133), (1951, 10548),
   (1952, 9997), (1953, 9388), (1954, 8814), (1955, 8178), (1956, 7579), (1957, 6916),
   (1958, 6293), (1959, 5600), (1960, 4945), (1961, 4220), (1962, 3478), (1963, 2776),
   (1964, 1998), (1965, 1266), (1966, 450), (1994, 32182), (1995, 30243), (1996, 28390),
   (1997, 26298), (1998, 24296), (1999, 22032), (2000, 19862), (2001, 17405), (2002, 14844),
   (2003, 12368), (2004, 9573), (2005, 6865), (2006, 3801), (2007, 836), (2016, 29722),
   (2017, 24145), (2018, 18182), (2019, 12300), (2020, 5462), (2025, 29976), (2026, 19041),
   (2027, 7024), (2030, 30775), (2031, 12654), (2034, 9761), (2036, 11387), (2041, 15113),
   (2042, 22774), (2043, 31778), (2045, 21366), (2046, 2786)]

/-- The divisor by two tangents. -/
def wordDivisor (a b : Int) : Int := (16777216 + (a + b) * 4096 + a * b) / 4096

/-- A1 by two tangents. -/
def wordA1 (a b : Int) : Int := (((a * b - 16777216) * 2).bmod 4294967296).tdiv (wordDivisor a b)

/-- A2 by two tangents. -/
def wordA2 (a b : Int) : Int := (16777216 - (a + b) * 4096 + a * b).tdiv (wordDivisor a b)

/-- A1 and A2 fit 16 bits. -/
def Fits (a b : Int) : Prop :=
  (-32768 ≤ wordA1 a b ∧ wordA1 a b < 32768) ∧ -32768 ≤ wordA2 a b ∧ wordA2 a b < 32768

/-- A quotient of naturals, with a sign, fits 16 bits. -/
def quotientFits (n d : Nat) (negative : Bool) : Bool :=
  (n / d).ble (bif negative then 32768 else 32767)

/-- `Fits` for tangents below zero, with natural numbers. -/
def negativesFit (a b : Nat) : Bool :=
  bif Nat.ble 4096 a then
    bif Nat.ble 4096 b then
      quotientFits ((a * b - 16777216) * 2) ((a - 4096) * (b - 4096) / 4096) false &&
        quotientFits ((a + 4096) * (b + 4096)) ((a - 4096) * (b - 4096) / 4096) false
    else
      quotientFits ((a * b - 16777216) * 2) (((a - 4096) * (4096 - b) + 4095) / 4096) true &&
        quotientFits ((16777216 - a * b) * 2) (((a - 4096) * (4096 - b) + 4095) / 4096) false &&
        quotientFits ((a + 4096) * (b + 4096)) (((a - 4096) * (4096 - b) + 4095) / 4096) true
  else
    bif Nat.ble 4096 b then
      quotientFits ((a * b - 16777216) * 2) (((4096 - a) * (b - 4096) + 4095) / 4096) true &&
        quotientFits ((16777216 - a * b) * 2) (((4096 - a) * (b - 4096) + 4095) / 4096) false &&
        quotientFits ((a + 4096) * (b + 4096)) (((4096 - a) * (b - 4096) + 4095) / 4096) true
    else
      quotientFits ((16777216 - a * b) * 2) ((4096 - a) * (4096 - b) / 4096) true &&
        quotientFits ((a + 4096) * (b + 4096)) ((4096 - a) * (4096 - b) / 4096) false

/-- The divisor by two tangents below zero is not zero. -/
def negativesDivide (a b : Nat) : Bool :=
  Nat.ble 4096 ((a - 4096 + (4096 - a)) * (b - 4096 + (4096 - b)))

/-- The designs of a place and the places up to it do what `stray` and `isPole` say. -/
def agrees (x : Nat × Nat) : Bool :=
  negatives.all fun y => x.1.blt y.1 ||
    negativesDivide x.2 y.2 &&
      negativesFit x.2 y.2 != (isPole x.1 || isPole y.1 || stray x.1 y.1)

theorem all_agrees_split (n : Nat) (l : List (Nat × Nat)) :
    l.all agrees = ((l.take n).all agrees && (l.drop n).all agrees) := by
  rw [← List.all_append, List.take_append_drop]

/-- All that is evaluated of the places: the tangents from place 1886 on, the pairs of `strayRows`,
which are places of `negatives`, the greater one first, and the sizes of the tangents. -/
theorem negatives_evaluated :
    negatives.all agrees = true ∧
    ((List.range' 1886 162).zip (List.zipWith (fun n d => n * 4096 / d)
        ((cosTable.drop 1).take 162).reverse ((cosTable.drop 1886).take 162))).filterMap
      (fun x => if 32768 ≤ x.2 % 65536 then some (x.1, 65536 - x.2 % 65536) else none)
      = negatives ∧
    (strayRows.all fun row =>
      (negatives.any fun x => x.1.beq row.1) && row.2.all fun range => range.2.ble row.1 &&
        (List.range' range.1 (range.2 + 1 - range.1)).all fun j =>
          negatives.any fun x => x.1.beq j) = true ∧
    (negatives.all fun x => x.2.ble 32768 &&
      bif isPole x.1 then x.2.beq 4945 || x.2.beq 4220 || x.2.beq 3478 || x.2.beq 3801
      else Nat.ble 5462 x.2 || x.2.ble 2786) = true := by
  refine ⟨?_, by decide +kernel, by decide +kernel, by decide +kernel⟩
  -- in four parts of about as many pairs: the kernel keeps what it has evaluated of a part
  rw [all_agrees_split 38, all_agrees_split 16 (negatives.drop 38),
    all_agrees_split 12 ((negatives.drop 38).drop 16), Bool.and_eq_true, Bool.and_eq_true,
    Bool.and_eq_true]
  exact ⟨by decide +kernel, by decide +kernel, by decide +kernel, by decide +kernel⟩

/-! ## Words that wrap -/

section Wrapping

variable {α : Type}

/-- A value that wraps does not put a design out of order by itself. -/
theorem inOrder_bind {t : Calc α} {a : α} {β : Type} (hval : t.val = some a)
    (hfaults : ∀ f ∈ t.faults, f = .overflow ∨ f = .narrowed) (f : α → Calc β) :
    InOrder (t >>= f) ↔ InOrder (f a) := by
  rw [bind_of_val hval]
  refine ⟨fun h => ⟨h.1, fun k hk => h.2 k (List.mem_append_right _ hk)⟩,
    fun h => ⟨h.1, fun k hk => ?_⟩⟩
  rcases List.mem_append.mp hk with hk | hk
  · exact hfaults k hk
  · exact h.2 k hk

theorem inOrder_int32 (x : Int) (f : Int → Calc α) :
    InOrder (int32 x >>= f) ↔ InOrder (f (x.bmod 4294967296)) := by
  refine inOrder_bind rfl (fun k hk => .inl ?_) f
  rw [int32, word] at hk
  split at hk
  · cases hk
  · exact List.mem_singleton.mp hk

theorem inOrder_int16 (x : Int) (f : Int → Calc α) :
    InOrder (int16 x >>= f) ↔ InOrder (f (x.bmod 65536)) := by
  refine inOrder_bind rfl (fun k hk => .inr ?_) f
  rw [int16, word] at hk
  split at hk
  · cases hk
  · exact List.mem_singleton.mp hk

theorem inOrder_quot {x y : Int} (hy : y ≠ 0) (f : Int → Calc α) :
    InOrder (quot x y >>= f) ↔ InOrder (f ((x.tdiv y).bmod 4294967296)) := by
  rw [quot, if_neg hy]
  exact inOrder_int32 _ f

theorem inOrder_store16 (x : Int) (f : Int → Calc α) :
    InOrder (store16 x >>= f) ↔ (-32768 ≤ x ∧ x < 32768) ∧ InOrder (f (x.bmod 65536)) := by
  by_cases hx : -32768 ≤ x ∧ x < 32768
  · rw [store16_eq_pure hx, pure_bind, Int.bmod_eq_of_le (by omega) (by omega)]
    exact (and_iff_right hx).symm
  · refine iff_of_false (fun h => ?_) (fun h => hx h.1)
    have hmem : Fault.stored ∈ (store16 x >>= f).faults :=
      mem_faults_bind_left ((faults_word hx).symm ▸ List.mem_singleton_self _) f
    rcases h.2 _ hmem with h | h <;> cases h

theorem clip_mem (x : Int) : -32768 ≤ clip x ∧ clip x < 32768 := by
  unfold clip
  split
  · omega
  · split <;> omega

/-- What 16 bits hold is not changed by 32, at the greatest magnitude either. -/
theorem fits_bmod_iff {x : Int} (h : -2147483648 ≤ x ∧ x ≤ 2147483648) :
    -32768 ≤ x.bmod 4294967296 ∧ x.bmod 4294967296 < 32768 ↔ -32768 ≤ x ∧ x < 32768 := by
  by_cases hlast : x = 2147483648
  · subst hlast
    decide
  · rw [Int.bmod_eq_of_le (by omega) (by omega)]

end Wrapping

/-- The product of two words of 16 bits. -/
theorem mul_words {a b : Int} (ha : -32768 ≤ a ∧ a < 32768) (hb : -32768 ≤ b ∧ b < 32768) :
    -1073741824 ≤ a * b ∧ a * b ≤ 1073741824 := by
  rcases Int.le_total 0 b with h | h
  · exact mul_mem (x := a) (m := 32768) (y := b) (n := 32768) (by omega) (by omega)
  · have := mul_mem (x := a) (m := 32768) (y := -b) (n := 32768) (by omega) (by omega)
    rw [Int.mul_neg] at this
    omega

/-- The words of `Rec_Filter_CalcF1f1Coeffs` are in order if and only if A fits. -/
theorem inOrder_f1f1Words {a b : Int} (ha : -32768 ≤ a ∧ a < 32768) (hb : -32768 ≤ b ∧ b < 32768)
    (hd : wordDivisor a b ≠ 0) (g₁₀ g₁₁ g₂₀ g₂₁ : Int) :
    InOrder (f1f1Words a b g₁₀ g₁₁ g₂₀ g₂₁) ↔ Fits a b := by
  have hab := mul_words ha hb
  have hasr : asr ((2 : Int) ^ 24 + (a + b) * 2 ^ 12 + a * b) 12 = wordDivisor a b := rfl
  rw [f1f1Words]
  iterate 7 rw [inOrder_int32]
  rw [int32_eq_pure (by omega), pure_bind, int32_eq_pure (by omega), pure_bind,
    int32_eq_pure (by omega), pure_bind, int32_eq_pure (by omega), pure_bind,
    int32_eq_pure (by omega), pure_bind, hasr]
  -- B, whatever it wraps to
  iterate 3 rw [inOrder_int32, inOrder_int32, inOrder_quot hd]
  -- A
  rw [int32_eq_pure (by omega), pure_bind, inOrder_int32, inOrder_quot hd,
    int32_eq_pure (by omega), pure_bind, int32_eq_pure (by omega), pure_bind, inOrder_quot hd]
  rw [store16_eq_pure (clip_mem _), pure_bind, store16_eq_pure (clip_mem _), pure_bind,
    store16_eq_pure (clip_mem _), pure_bind, inOrder_store16, inOrder_store16]
  have hle : ∀ x : Int, -2147483648 ≤ x ∧ x ≤ 2147483648 →
      -2147483648 ≤ x.tdiv (wordDivisor a b) ∧ x.tdiv (wordDivisor a b) ≤ 2147483648 := by
    intro x hx
    have := Int.natAbs_tdiv_le_natAbs x (wordDivisor a b)
    omega
  have hA1 : -2147483648 ≤ wordA1 a b ∧ wordA1 a b ≤ 2147483648 := by
    have hlo := Int.le_bmod (x := (a * b - 16777216) * 2) (m := 4294967296) (by decide)
    have hhi := Int.bmod_lt (x := (a * b - 16777216) * 2) (m := 4294967296) (by decide)
    exact hle _ (by omega)
  have hA2 : -2147483648 ≤ wordA2 a b ∧ wordA2 a b ≤ 2147483648 := hle _ (by omega)
  exact and_congr (fits_bmod_iff hA1) ((and_congr (fits_bmod_iff hA2)
    (iff_true_intro (inOrder_pure _))).trans (and_iff_left trivial))

/-! ## The tangents in 16 bits -/

/-- The tangent of a place, as 16 bits hold it. -/
def narrow (i : Nat) : Int := (gama i : Int).bmod 65536

theorem narrow_eq (i : Nat) : narrow i = (gama i : Int).bmod 65536 := rfl

theorem narrow_mem (i : Nat) : -32768 ≤ narrow i ∧ narrow i < 32768 := by
  have hlo := Int.le_bmod (x := (gama i : Int)) (m := 65536) (by decide)
  have hhi := Int.bmod_lt (x := (gama i : Int)) (m := 65536) (by decide)
  rw [narrow_eq]
  omega

theorem narrow_of_lt {i : Nat} (h : i ≤ 1885) : narrow i = gama i := by
  have := gama_le h (by decide)
  have := gama_1885
  rw [narrow_eq, Int.bmod_eq_of_le (by omega) (by omega)]

theorem mem_negatives_iff {i m : Nat} : (i, m) ∈ negatives ↔
    (1886 ≤ i ∧ i ≤ 2047) ∧ 32768 ≤ gama i % 65536 ∧ m = 65536 - gama i % 65536 := by
  have hlen := length_cosTable
  have hget : ∀ k (hk : k < 162), ((List.range' 1886 162).zip
      (List.zipWith (fun n d => n * 4096 / d) ((cosTable.drop 1).take 162).reverse
        ((cosTable.drop 1886).take 162)))[k]? = some (1886 + k, gama (1886 + k)) := by
    intro k hk
    rw [List.getElem?_eq_getElem (by simp [hlen]; omega), List.getElem_zip, List.getElem_zipWith,
      List.getElem_reverse, List.getElem_take, List.getElem_drop, List.getElem_take,
      List.getElem_drop, List.getElem_range']
    have hplace : 1 + ((List.take 162 (List.drop 1 cosTable)).length - 1 - k)
        = 2048 - (1886 + k) := by
      simp [hlen]
      omega
    simp only [hplace, Nat.one_mul]
    rw [gama_eq, List.getElem_eq_getD 0, List.getElem_eq_getD 0]
  rw [← negatives_evaluated.2.1, List.mem_filterMap]
  constructor
  · rintro ⟨x, hx, hsome⟩
    obtain ⟨k, hk⟩ := List.mem_iff_getElem?.mp hx
    have hklt : k < 162 := by
      have := (List.getElem?_eq_some_iff.mp hk).1
      simpa [hlen] using this
    rw [hget k hklt, Option.some.injEq] at hk
    subst hk
    split at hsome
    · rename_i hge
      simp only [Option.some.injEq, Prod.mk.injEq] at hsome
      obtain ⟨rfl, rfl⟩ := hsome
      exact ⟨⟨by omega, by omega⟩, hge, rfl⟩
    · cases hsome
  · rintro ⟨⟨hlo, hhi⟩, hge, rfl⟩
    have hk := hget (i - 1886) (by omega)
    rw [show 1886 + (i - 1886) = i by omega] at hk
    exact ⟨_, List.mem_of_getElem? hk, if_pos hge⟩

/-- A tangent that is negative in 16 bits is in the table. -/
theorem narrow_of_mem {i m : Nat} (h : (i, m) ∈ negatives) : narrow i = -(m : Int) ∧ 0 < m := by
  obtain ⟨-, hge, rfl⟩ := mem_negatives_iff.mp h
  have hmod := Nat.mod_lt (gama i) (show 0 < 65536 by decide)
  rw [narrow_eq, Int.bmod_def]
  omega

theorem mem_of_narrow {i : Nat} (hi : i ≤ 2047) (h : narrow i < 0) :
    ∃ m, (i, m) ∈ negatives := by
  rcases Nat.lt_or_ge i 1886 with hlt | hge
  · rw [narrow_of_lt (by omega)] at h
    omega
  · refine ⟨_, mem_negatives_iff.mpr ⟨⟨hge, hi⟩, ?_, rfl⟩⟩
    rw [narrow_eq, Int.bmod_def] at h
    split at h <;> omega

/-! ## Tangents that fit -/

theorem wordDivisor_comm (a b : Int) : wordDivisor a b = wordDivisor b a := by
  rw [wordDivisor, wordDivisor, Int.add_comm a b, Int.mul_comm a b]

theorem fits_comm (a b : Int) : Fits a b ↔ Fits b a := by
  rw [Fits, Fits, wordA1, wordA1, wordA2, wordA2, wordDivisor_comm a b, Int.add_comm a b,
    Int.mul_comm a b]

/-- A wrapped value is not greater than the value. -/
theorem bmod_mem {x m : Int} (h : -m ≤ x ∧ x ≤ m) :
    -m ≤ x.bmod 4294967296 ∧ x.bmod 4294967296 ≤ m := by
  have hlo := Int.le_bmod (x := x) (m := 4294967296) (by decide)
  have hhi := Int.bmod_lt (x := x) (m := 4294967296) (by decide)
  by_cases hx : -2147483648 ≤ x ∧ x < 2147483648
  · rw [Int.bmod_eq_of_le (by omega) (by omega)]
    exact h
  · omega

/-- Bounds of both numerators by the divisor are enough. -/
theorem fits_of_bounds {a b d : Int} (hd : d = wordDivisor a b) (hne : d ≠ 0)
    (h₁ : -(32767 * |d|) ≤ (a * b - 16777216) * 2 ∧ (a * b - 16777216) * 2 ≤ 32767 * |d|)
    (h₂ : -(32767 * |d|) ≤ 16777216 - (a + b) * 4096 + a * b ∧
      16777216 - (a + b) * 4096 + a * b ≤ 32767 * |d|) : Fits a b := by
  have hquot : ∀ x : Int, -(32767 * |d|) ≤ x ∧ x ≤ 32767 * |d| →
      -32767 ≤ x.tdiv d ∧ x.tdiv d ≤ 32767 := by
    intro x hx
    rcases lt_or_gt_of_ne hne with hneg | hpos
    · rw [abs_of_neg hneg] at hx
      have := tdiv_mem (y := -d) (by omega) hx
      rw [Int.tdiv_neg] at this
      omega
    · rw [abs_of_pos hpos] at hx
      exact tdiv_mem hpos hx
  rw [Fits, wordA1, wordA2, ← hd]
  have hA1 := hquot _ (bmod_mem h₁)
  have hA2 := hquot _ h₂
  omega

theorem fits_of_nonneg (a b : Nat) : wordDivisor a b ≠ 0 ∧ Fits a b := by
  obtain ⟨hq₁, hq₂⟩ := f1f1_sum_mem a b
  obtain ⟨hD, -⟩ := f1f1Divisor_spec a b
  have hdiv : (f1f1Divisor a b : Int) = wordDivisor a b := by
    rw [f1f1Divisor, wordDivisor]
    norm_cast
  have hpos : (0 : Int) < f1f1Divisor a b := by omega
  refine ⟨by omega, fits_of_bounds hdiv (by omega) ?_ ?_⟩
  · rw [abs_of_pos hpos]
    push_cast at hq₁
    omega
  · rw [abs_of_pos hpos]
    push_cast at hq₂
    omega

theorem wordDivisor_spec (a b : Int) : 4096 * wordDivisor a b ≤ (4096 + a) * (4096 + b) ∧
    (4096 + a) * (4096 + b) < 4096 * wordDivisor a b + 4096 := by
  have hprod : 16777216 + (a + b) * 4096 + a * b = (4096 + a) * (4096 + b) := by ring
  rw [wordDivisor, hprod]
  omega

/-- A tangent that is not negative fits with one that is far enough from -4096. -/
theorem fits_of_far {a b : Int} (ha : 0 ≤ a) (hb : b ≤ -5462 ∨ -2786 ≤ b ∧ b < 0) :
    wordDivisor a b ≠ 0 ∧ Fits a b := by
  obtain ⟨hlo, hhi⟩ := wordDivisor_spec a b
  generalize hd : wordDivisor a b = d at hlo hhi
  rcases hb with hb | ⟨hb, hneg⟩
  · -- below -4096: the divisor is negative, and rounded away from zero
    have hx : 1366 * (4096 + a) ≤ (4096 + a) * (-4096 - b) := by nlinarith
    have hv : 4096 * (-4096 - b) ≤ (4096 + a) * (-4096 - b) := by nlinarith
    have hprod : (4096 + a) * (4096 + b) = -((4096 + a) * (-4096 - b)) := by ring
    have hdneg : d < 0 := by linarith
    refine ⟨hdneg.ne, fits_of_bounds hd.symm hdneg.ne ?_ ?_⟩
    · rw [abs_of_neg hdneg]
      constructor <;> linarith
    · rw [abs_of_neg hdneg]
      constructor <;> linarith
  · -- above -4096: the divisor is positive, and rounded towards zero
    have hcorner : 0 ≤ a * (4096 + b - 1310) := mul_nonneg ha (by omega)
    have hover : 0 ≤ a * -b := mul_nonneg ha (by omega)
    have hdpos : 0 < d := by linarith
    refine ⟨hdpos.ne', fits_of_bounds hd.symm hdpos.ne' ?_ ?_⟩
    · rw [abs_of_pos hdpos]
      constructor <;> linarith
    · rw [abs_of_pos hdpos]
      constructor <;> linarith

theorem not_fits_of_bound {a b d : Int} (hd : d = wordDivisor a b) (hne : d ≠ 0)
    (hword : -2147483648 ≤ (a * b - 16777216) * 2)
    (h : 32769 * |d| ≤ -((a * b - 16777216) * 2)) : ¬Fits a b := by
  have hnonneg := abs_nonneg d
  rintro ⟨⟨hlo, hhi⟩, -⟩
  rw [wordA1, ← hd, Int.bmod_eq_of_le (by omega) (by omega)] at hlo hhi
  rcases lt_or_gt_of_ne hne with hneg | hpos
  · rw [abs_of_neg hneg] at h
    have hle := Int.tdiv_le_tdiv (c := -d) (by omega) h
    rw [Int.mul_tdiv_cancel _ (by omega), Int.neg_tdiv_neg] at hle
    omega
  · rw [abs_of_pos hpos] at h
    have hle := Int.tdiv_le_tdiv hpos h
    rw [Int.mul_tdiv_cancel _ hne, Int.neg_tdiv] at hle
    omega

/-- A tangent that is not negative does not fit with one close to -4096. -/
theorem not_fits_of_near {a b : Int} (ha : 0 ≤ a ∧ a < 32768)
    (hb : b = -4945 ∨ b = -4220 ∨ b = -3478 ∨ b = -3801) :
    wordDivisor a b ≠ 0 ∧ ¬Fits a b := by
  obtain ⟨hlo, hhi⟩ := wordDivisor_spec a b
  generalize hd : wordDivisor a b = d at hlo hhi
  rcases hb with rfl | rfl | rfl | rfl
  · have hneg : d < 0 := by omega
    refine ⟨hneg.ne, not_fits_of_bound hd.symm hneg.ne (by omega) ?_⟩
    rw [abs_of_neg hneg]
    omega
  · have hneg : d < 0 := by omega
    refine ⟨hneg.ne, not_fits_of_bound hd.symm hneg.ne (by omega) ?_⟩
    rw [abs_of_neg hneg]
    omega
  · have hpos : 0 < d := by omega
    refine ⟨hpos.ne', not_fits_of_bound hd.symm hpos.ne' (by omega) ?_⟩
    rw [abs_of_pos hpos]
    omega
  · have hpos : 0 < d := by omega
    refine ⟨hpos.ne', not_fits_of_bound hd.symm hpos.ne' (by omega) ?_⟩
    rw [abs_of_pos hpos]
    omega

/-! ## Two tangents below zero -/

theorem quotientFits_pos {n d : Nat} : quotientFits n d false = true ↔
    -32768 ≤ ((n : Int)).tdiv d ∧ ((n : Int)).tdiv d < 32768 := by
  rw [quotientFits, cond_false, Nat.ble_eq, ← Int.ofNat_tdiv]
  generalize n / d = x
  omega

theorem quotientFits_neg {n d : Nat} : quotientFits n d true = true ↔
    -32768 ≤ -((n : Int)).tdiv d ∧ -((n : Int)).tdiv d < 32768 := by
  rw [quotientFits, cond_true, Nat.ble_eq, ← Int.ofNat_tdiv]
  generalize n / d = x
  omega

theorem wordDivisor_neg (a b : Nat) :
    wordDivisor (-a) (-b) = (4096 - (a : Int)) * (4096 - b) / 4096 := by
  have hprod : 16777216 + (-(a : Int) + -b) * 4096 + -(a : Int) * -b
      = (4096 - (a : Int)) * (4096 - b) := by ring
  rw [wordDivisor, hprod]

theorem wordA1_neg {a b : Nat} (ha : a ≤ 32768) (hb : b ≤ 32768) :
    wordA1 (-a) (-b) = ((((a * b : Nat) : Int) - 16777216) * 2).tdiv (wordDivisor (-a) (-b)) := by
  have hab : a * b ≤ 32768 * 32768 := Nat.mul_le_mul ha hb
  rw [wordA1, Int.neg_mul_neg, ← Int.natCast_mul, Int.bmod_eq_of_le (by omega) (by omega)]

theorem wordA2_neg (a b : Nat) :
    wordA2 (-a) (-b) = (((a + 4096) * (b + 4096) : Nat) : Int).tdiv (wordDivisor (-a) (-b)) := by
  have hprod : 16777216 - (-(a : Int) + -b) * 4096 + -(a : Int) * -b
      = (((a + 4096) * (b + 4096) : Nat) : Int) := by
    push_cast
    ring
  rw [wordA2, hprod]

/-- The divisor is positive if both tangents are on one side of -4096. -/
theorem wordDivisor_same {a b : Nat} (h : 4096 ≤ a ∧ 4096 ≤ b) :
    wordDivisor (-a) (-b) = (((a - 4096) * (b - 4096) / 4096 : Nat) : Int) := by
  have hprod : (4096 - (a : Int)) * (4096 - b) = (((a - 4096) * (b - 4096) : Nat) : Int) := by
    rw [Int.natCast_mul, Int.ofNat_sub h.1, Int.ofNat_sub h.2]
    ring
  rw [wordDivisor_neg, hprod]
  norm_cast

theorem wordDivisor_same' {a b : Nat} (h : a ≤ 4096 ∧ b ≤ 4096) :
    wordDivisor (-a) (-b) = (((4096 - a) * (4096 - b) / 4096 : Nat) : Int) := by
  have hprod : (4096 - (a : Int)) * (4096 - b) = (((4096 - a) * (4096 - b) : Nat) : Int) := by
    rw [Int.natCast_mul, Int.ofNat_sub h.1, Int.ofNat_sub h.2]
    rfl
  rw [wordDivisor_neg, hprod]
  norm_cast

theorem wordDivisor_between {a b : Nat} (h : 4096 ≤ a ∧ b ≤ 4096) :
    wordDivisor (-a) (-b) = -((((a - 4096) * (4096 - b) + 4095) / 4096 : Nat) : Int) := by
  have hprod : (4096 - (a : Int)) * (4096 - b) = -(((a - 4096) * (4096 - b) : Nat) : Int) := by
    rw [Int.natCast_mul, Int.ofNat_sub h.1, Int.ofNat_sub h.2]
    push_cast
    ring
  rw [wordDivisor_neg, hprod]
  generalize (a - 4096) * (4096 - b) = m
  omega

/-- One of the two tangents is below -4096, and the other above. -/
theorem fits_between {a b : Nat} (ha : a ≤ 32768) (h : 4096 ≤ a ∧ b ≤ 4096) :
    (quotientFits ((a * b - 16777216) * 2) (((a - 4096) * (4096 - b) + 4095) / 4096) true &&
      quotientFits ((16777216 - a * b) * 2) (((a - 4096) * (4096 - b) + 4095) / 4096) false &&
      quotientFits ((a + 4096) * (b + 4096)) (((a - 4096) * (4096 - b) + 4095) / 4096) true) = true ↔
    Fits (-a) (-b) := by
  rw [Fits, wordA1_neg ha (h.2.trans (by decide)), wordA2_neg, wordDivisor_between h, Int.tdiv_neg,
    Int.tdiv_neg, Bool.and_eq_true, Bool.and_eq_true, quotientFits_neg, quotientFits_pos,
    quotientFits_neg]
  generalize ((a - 4096) * (4096 - b) + 4095) / 4096 = d
  generalize a * b = m
  refine and_congr ?_ Iff.rfl
  rcases Nat.le_total 16777216 m with hle | hle
  · have hnum : ((m : Int) - 16777216) * 2 = (((m - 16777216) * 2 : Nat) : Int) := by omega
    rw [hnum, Nat.sub_eq_zero_of_le hle]
    exact and_iff_left (by simp)
  · have hnum : ((m : Int) - 16777216) * 2 = -(((16777216 - m) * 2 : Nat) : Int) := by omega
    rw [hnum, Nat.sub_eq_zero_of_le hle, Int.neg_tdiv, Int.neg_neg]
    exact and_iff_right (by simp)

theorem negativesFit_iff {a b : Nat} (ha : a ≤ 32768) (hb : b ≤ 32768) :
    negativesFit a b = true ↔ Fits (-a) (-b) := by
  rw [negativesFit]
  by_cases ha' : 4096 ≤ a <;> by_cases hb' : 4096 ≤ b
  · have hge : 4096 * 4096 ≤ a * b := Nat.mul_le_mul ha' hb'
    have hnum : (((a * b : Nat) : Int) - 16777216) * 2 = (((a * b - 16777216) * 2 : Nat) : Int) := by
      omega
    rw [Nat.ble_eq.mpr ha', Nat.ble_eq.mpr hb', cond_true, cond_true, Bool.and_eq_true,
      quotientFits_pos, quotientFits_pos, Fits, wordA1_neg ha hb, wordA2_neg,
      wordDivisor_same ⟨ha', hb'⟩, hnum]
  · rw [Nat.ble_eq.mpr ha', Bool.eq_false_of_not_eq_true (mt Nat.ble_eq.mp hb'), cond_true,
      cond_false]
    exact fits_between ha ⟨ha', by omega⟩
  · rw [Bool.eq_false_of_not_eq_true (mt Nat.ble_eq.mp ha'), Nat.ble_eq.mpr hb', cond_false,
      cond_true, Nat.mul_comm a b, Nat.mul_comm (4096 - a), Nat.mul_comm (a + 4096), fits_comm]
    exact fits_between hb ⟨hb', by omega⟩
  · have hle : a * b ≤ 4096 * 4096 := Nat.mul_le_mul (by omega) (by omega)
    have hnum : (((a * b : Nat) : Int) - 16777216) * 2 = -(((16777216 - a * b) * 2 : Nat) : Int) := by
      omega
    rw [Bool.eq_false_of_not_eq_true (mt Nat.ble_eq.mp ha'),
      Bool.eq_false_of_not_eq_true (mt Nat.ble_eq.mp hb'), cond_false, cond_false,
      Bool.and_eq_true, quotientFits_neg, quotientFits_pos, Fits, wordA1_neg ha hb, wordA2_neg,
      wordDivisor_same' ⟨by omega, by omega⟩, hnum, Int.neg_tdiv]

theorem wordDivisor_ne_zero {a b : Nat} (h : negativesDivide a b = true) :
    wordDivisor (-a) (-b) ≠ 0 := by
  rw [negativesDivide, Nat.ble_eq] at h
  rcases Nat.le_total 4096 a with ha | ha <;> rcases Nat.le_total 4096 b with hb | hb
  · rw [Nat.sub_eq_zero_of_le ha, Nat.sub_eq_zero_of_le hb, Nat.add_zero, Nat.add_zero] at h
    rw [wordDivisor_same ⟨ha, hb⟩]
    omega
  · rw [Nat.sub_eq_zero_of_le ha, Nat.sub_eq_zero_of_le hb, Nat.add_zero, Nat.zero_add] at h
    rw [wordDivisor_between ⟨ha, hb⟩]
    omega
  · rw [Nat.sub_eq_zero_of_le ha, Nat.sub_eq_zero_of_le hb, Nat.add_zero, Nat.zero_add,
      Nat.mul_comm] at h
    rw [wordDivisor_comm, wordDivisor_between ⟨hb, ha⟩]
    omega
  · rw [Nat.sub_eq_zero_of_le ha, Nat.sub_eq_zero_of_le hb, Nat.zero_add, Nat.zero_add] at h
    rw [wordDivisor_same' ⟨ha, hb⟩]
    omega

/-! ## The places that clash -/

theorem narrow_neg_of_any {i : Nat} (h : (negatives.any fun x => x.1.beq i) = true) :
    narrow i < 0 := by
  obtain ⟨⟨i', m⟩, hmem, hi⟩ := List.any_eq_true.mp h
  have hi' : i' = i := Nat.eq_of_beq_eq_true hi
  subst hi'
  have := narrow_of_mem hmem
  omega

theorem stray_spec {i j : Nat} (h : stray i j = true) :
    j ≤ i ∧ narrow i < 0 ∧ narrow j < 0 := by
  rw [stray] at h
  split at h
  · rename_i row hrow
    have hi : row.1 = i := Nat.eq_of_beq_eq_true
      (List.find?_some (p := fun row : Nat × List (Nat × Nat) => row.1.beq i) hrow)
    subst hi
    have hspec := List.all_eq_true.mp negatives_evaluated.2.2.1 row (List.mem_of_find?_eq_some hrow)
    rw [Bool.and_eq_true] at hspec
    obtain ⟨range, hrange, hin⟩ := List.any_eq_true.mp h
    have hrangeSpec := List.all_eq_true.mp hspec.2 range hrange
    rw [Bool.and_eq_true, Nat.ble_eq] at hrangeSpec hin
    rw [Nat.ble_eq] at hin
    have hj := List.all_eq_true.mp hrangeSpec.2 j (List.mem_range'_1.mpr (by omega))
    exact ⟨by omega, narrow_neg_of_any hspec.1, narrow_neg_of_any hj⟩
  · cases h

theorem negative_spec {i m : Nat} (h : (i, m) ∈ negatives) : m ≤ 32768 ∧
    (isPole i = true → m = 4945 ∨ m = 4220 ∨ m = 3478 ∨ m = 3801) ∧
    (isPole i = false → 5462 ≤ m ∨ m ≤ 2786) := by
  have hspec := List.all_eq_true.mp negatives_evaluated.2.2.2 (i, m) h
  rw [Bool.and_eq_true, Nat.ble_eq] at hspec
  obtain ⟨hle, hspec⟩ := hspec
  refine ⟨hle, fun hp => ?_, fun hp => ?_⟩
  · rw [hp, cond_true] at hspec
    simp only [Bool.or_eq_true, Nat.beq_eq] at hspec
    omega
  · rw [hp, cond_false, Bool.or_eq_true, Nat.ble_eq, Nat.ble_eq] at hspec
    exact hspec

theorem isPole_negative {i : Nat} (h : isPole i = true) : narrow i < 0 := by
  apply narrow_neg_of_any
  simp only [isPole, Bool.or_eq_true, beq_iff_eq] at h
  rcases h with ((rfl | rfl) | rfl) | rfl <;> rfl

theorem clash_comm (i j : Nat) : Clash i j ↔ Clash j i := by
  unfold Clash
  tauto

/-- A place with a tangent that is not negative clashes only with a pole. -/
theorem fits_iff_of_nonneg {i j : Nat} (hj : j ≤ 2047) (hpos : 0 ≤ narrow i) :
    wordDivisor (narrow i) (narrow j) ≠ 0 ∧ (Fits (narrow i) (narrow j) ↔ ¬Clash i j) := by
  have hnot : ¬isPole i = true := fun h => by
    have := isPole_negative h
    omega
  have hclash : Clash i j ↔ isPole j = true := by
    refine ⟨fun h => ?_, fun h => .inr (.inl h)⟩
    rcases h with h | h | h | h
    · exact absurd h hnot
    · exact h
    · have := (stray_spec h).2.1
      omega
    · have := (stray_spec h).2.2
      omega
  rw [hclash]
  by_cases hneg : narrow j < 0
  · obtain ⟨m, hm⟩ := mem_of_narrow hj hneg
    obtain ⟨hle, hpole, hfar⟩ := negative_spec hm
    obtain ⟨heq, hm0⟩ := narrow_of_mem hm
    cases hp : isPole j with
    | true =>
      have := narrow_mem i
      have := hpole hp
      obtain ⟨hne, hfits⟩ := not_fits_of_near (a := narrow i) (b := narrow j) (by omega) (by omega)
      exact ⟨hne, iff_of_false hfits (by simp)⟩
    | false =>
      have := hfar hp
      obtain ⟨hne, hfits⟩ := fits_of_far (a := narrow i) (b := narrow j) hpos (by omega)
      exact ⟨hne, iff_of_true hfits (by simp)⟩
  · obtain ⟨a, ha⟩ := Int.eq_ofNat_of_zero_le hpos
    obtain ⟨b, hb⟩ := Int.eq_ofNat_of_zero_le (show 0 ≤ narrow j by omega)
    rw [ha, hb]
    obtain ⟨hne, hfits⟩ := fits_of_nonneg a b
    refine ⟨hne, iff_of_true hfits (fun h => ?_)⟩
    have := isPole_negative h
    omega

theorem fits_iff_of_neg {i j a b : Nat} (hi : (i, a) ∈ negatives) (hj : (j, b) ∈ negatives)
    (hle : j ≤ i) :
    wordDivisor (narrow i) (narrow j) ≠ 0 ∧ (Fits (narrow i) (narrow j) ↔ ¬Clash i j) := by
  have hagree := List.all_eq_true.mp (List.all_eq_true.mp negatives_evaluated.1 (i, a) hi) (j, b) hj
  have hlt : Nat.blt i j = false := by
    rw [← Bool.not_eq_true, Nat.blt_eq]
    omega
  rw [hlt, Bool.false_or, Bool.and_eq_true, bne_iff_ne] at hagree
  obtain ⟨hdivide, hfit⟩ := hagree
  rw [(narrow_of_mem hi).1, (narrow_of_mem hj).1]
  refine ⟨wordDivisor_ne_zero hdivide, ?_⟩
  rw [← negativesFit_iff (negative_spec hi).1 (negative_spec hj).1]
  have hclash : Clash i j ↔ (isPole i || isPole j || stray i j) = true := by
    rw [Bool.or_eq_true, Bool.or_eq_true, Clash, or_assoc]
    refine or_congr_right (or_congr_right ⟨fun h => ?_, .inl⟩)
    rcases h with h | h
    · exact h
    · have hij := (stray_spec h).1
      obtain rfl : i = j := by omega
      exact h
  rw [hclash]
  cases hb : negativesFit a b <;> cases hc : (isPole i || isPole j || stray i j) <;>
    simp_all

/-- The divisor of two places is not zero, and A fits unless they clash. -/
theorem fits_iff {i j : Nat} (hi : i ≤ 2047) (hj : j ≤ 2047) :
    wordDivisor (narrow i) (narrow j) ≠ 0 ∧ (Fits (narrow i) (narrow j) ↔ ¬Clash i j) := by
  by_cases hpos : 0 ≤ narrow i
  · exact fits_iff_of_nonneg hj hpos
  by_cases hpos' : 0 ≤ narrow j
  · rw [wordDivisor_comm, fits_comm, clash_comm]
    exact fits_iff_of_nonneg hi hpos'
  obtain ⟨a, ha⟩ := mem_of_narrow hi (by omega)
  obtain ⟨b, hb⟩ := mem_of_narrow hj (by omega)
  rcases Nat.le_total j i with hle | hle
  · exact fits_iff_of_neg ha hb hle
  · rw [wordDivisor_comm, fits_comm, clash_comm]
    exact fits_iff_of_neg hb ha hle

/-! ## When the design is total -/

/-- Parameters that an F1F1 design may use. -/
structure LcfF1f1Param.Usable (p : LcfF1f1Param) (fs : Int32) : Prop where
  f1_fp : FrequencyIn p.f1_fp fs
  f2_fp : FrequencyIn p.f2_fp fs
  f1_g0 : ¬gainOut p.f1_g0
  f1_g1 : ¬gainOut p.f1_g1
  f2_g0 : ¬gainOut p.f2_g0
  f2_g1 : ¬gainOut p.f2_g1

/-- `Rec_Filter_CalcF1f1Coeffs` is in order, and rejects what it has to reject. -/
def F1f1Total (p : LcfF1f1Param) (fs : Int32) (filterPara : IirPara) : Prop :=
  InOrder (recFilterCalcF1f1Coeffs p fs filterPara) ∧
    (¬p.Usable fs → (recFilterCalcF1f1Coeffs p fs filterPara).val = some (false, filterPara))

/-- A frequency in 4096 parts of the sample rate: its place in the table. -/
def poleAt (fp : Int16) (fs : Int32) : Nat := (4096 * fp.toInt / fs.toInt).toNat

/-- The parameters for which `Rec_Filter_CalcF1f1Coeffs` is total. -/
def LcfF1f1Param.Sound (p : LcfF1f1Param) (fs : Int32) : Prop :=
  fs.toInt ≤ 0 ∨ 4096 ≤ poleQuotient p.f1_fp fs ∨ 4096 ≤ poleQuotient p.f2_fp fs ∨
    p.Usable fs ∧ ¬Clash (poleAt p.f1_fp fs) (poleAt p.f2_fp fs)

theorem poleAt_spec {fp : Int16} {fs : Int32} (h : FrequencyIn fp fs) :
    (poleQuotient fp fs).tdiv 2 = poleAt fp fs ∧ poleAt fp fs ≤ 2047 := by
  have hQ := poleQuotient_of_in h
  have hhalf := (tdiv_two (poleQuotient fp fs)).1 hQ.1
  obtain ⟨h0, hlt⟩ := h
  have hquot : (fp.toInt * 2 ^ 13).tdiv fs.toInt = fp.toInt * 2 ^ 13 / fs.toInt :=
    Int.tdiv_eq_ediv_of_nonneg (by omega)
  have hnonneg : 0 ≤ fp.toInt * 2 ^ 13 / fs.toInt := Int.ediv_nonneg (by omega) (by omega)
  have hupper : fp.toInt * 2 ^ 13 / fs.toInt < 4096 := Int.ediv_lt_of_lt_mul (by omega) (by omega)
  have hpole : poleQuotient fp fs = fp.toInt * 2 ^ 13 / fs.toInt := by
    rw [poleQuotient, hquot, Int.bmod_eq_of_le (by omega) (by omega)]
  have hplace : fp.toInt * 2 ^ 13 / fs.toInt / 2 = 4096 * fp.toInt / fs.toInt := by
    rw [Int.ediv_ediv_of_nonneg (by omega), show fp.toInt * 2 ^ 13 = 2 * (4096 * fp.toInt) by omega,
      Int.mul_comm fs.toInt 2, Int.mul_ediv_mul_of_pos _ _ (by decide)]
  rw [hhalf, hpole, hplace, poleAt]
  omega

theorem inOrder_map {α β : Type} (t : Calc α) (g : α → β) :
    InOrder (t >>= fun a => pure (g a)) ↔ InOrder t := by
  obtain ⟨v, l⟩ := t
  cases v with
  | none => exact iff_of_false (not_inOrder_of_none rfl) (not_inOrder_of_none rfl)
  | some a =>
    rw [bind_of_val (a := a) rfl, faults_pure, List.append_nil]
    exact Iff.rfl

theorem inOrder_f1f1Coeffs {p : LcfF1f1Param} {fs : Int32} (h : p.Usable fs) :
    InOrder (f1f1Coeffs p (poleQuotient p.f1_fp fs) (poleQuotient p.f2_fp fs)) ↔
      ¬Clash (poleAt p.f1_fp fs) (poleAt p.f2_fp fs) := by
  obtain ⟨hi, hile⟩ := poleAt_spec h.f1_fp
  obtain ⟨hj, hjle⟩ := poleAt_spec h.f2_fp
  obtain ⟨hne, hfits⟩ := fits_iff hile hjle
  rw [f1f1Coeffs, wpOf_eq hi hile, pure_bind, inOrder_int16, wpOf_eq hj hjle, pure_bind,
    inOrder_int16, (gainQ_eq h.f1_g0).1, pure_bind, (gainQ_eq h.f1_g1).1, pure_bind,
    (gainQ_eq h.f2_g0).1, pure_bind, (gainQ_eq h.f2_g1).1, pure_bind, ← narrow_eq, ← narrow_eq,
    inOrder_f1f1Words (narrow_mem _) (narrow_mem _) hne, hfits]

/-- `Rec_Filter_CalcF1f1Coeffs` fails for gains and negative frequencies, which it does not check,
for frequencies that wrap, and for poles that clash. -/
theorem f1f1Total_iff_sound (p : LcfF1f1Param) (fs : Int32) (filterPara : IirPara) :
    F1f1Total p fs filterPara ↔ p.Sound fs := by
  by_cases hfs : fs.toInt ≤ 0
  · have hrun : recFilterCalcF1f1Coeffs p fs filterPara = pure (false, filterPara) := if_pos hfs
    exact iff_of_true ⟨hrun ▸ inOrder_pure _, fun _ => congrArg Calc.val hrun⟩ (.inl hfs)
  have hpos : 0 < fs.toInt := by omega
  have hrun : recFilterCalcF1f1Coeffs p fs filterPara = poleQ p.f1_fp fs >>= fun Q₁ =>
      if Q₁.tdiv 2 ≥ 2048 then pure (false, filterPara)
      else poleQ p.f2_fp fs >>= fun Q₂ =>
        if Q₂.tdiv 2 ≥ 2048 then pure (false, filterPara)
        else f1f1Coeffs p Q₁ Q₂ >>= fun para => pure (true, para) := if_neg hfs
  obtain ⟨hin₁, hval₁⟩ := inOrder_poleQ_bind p.f1_fp hpos fun Q₁ =>
      if Q₁.tdiv 2 ≥ 2048 then pure (false, filterPara)
      else poleQ p.f2_fp fs >>= fun Q₂ =>
        if Q₂.tdiv 2 ≥ 2048 then pure (false, filterPara)
        else f1f1Coeffs p Q₁ Q₂ >>= fun para => pure (true, para)
  rw [← hrun] at hin₁ hval₁
  have hhalf₁ := tdiv_two (poleQuotient p.f1_fp fs)
  have hhalf₂ := tdiv_two (poleQuotient p.f2_fp fs)
  by_cases hfirst : (poleQuotient p.f1_fp fs).tdiv 2 ≥ 2048
  · rw [if_pos hfirst] at hin₁ hval₁
    exact iff_of_true ⟨hin₁.mpr (inOrder_pure _), fun _ => hval₁⟩ (.inr (.inl (by omega)))
  rw [if_neg hfirst] at hin₁ hval₁
  obtain ⟨hin₂, hval₂⟩ := inOrder_poleQ_bind p.f2_fp hpos fun Q₂ =>
      if Q₂.tdiv 2 ≥ 2048 then pure (false, filterPara)
      else f1f1Coeffs p (poleQuotient p.f1_fp fs) Q₂ >>= fun para => pure (true, para)
  rw [hin₂] at hin₁
  rw [hval₂] at hval₁
  by_cases hsecond : (poleQuotient p.f2_fp fs).tdiv 2 ≥ 2048
  · rw [if_pos hsecond] at hin₁ hval₁
    exact iff_of_true ⟨hin₁.mpr (inOrder_pure _), fun _ => hval₁⟩ (.inr (.inr (.inl (by omega))))
  rw [if_neg hsecond] at hin₁ hval₁
  rw [inOrder_map] at hin₁
  by_cases husable : p.Usable fs
  · rw [F1f1Total, hin₁, inOrder_f1f1Coeffs husable, and_iff_left fun h => absurd husable h]
    refine ⟨fun h => .inr (.inr (.inr ⟨husable, h⟩)), fun h => ?_⟩
    rcases h with h | h | h | h
    · omega
    · omega
    · omega
    · exact h.2
  · refine iff_of_false (fun h => ?_) (fun h => ?_)
    · -- what is not rejected returns `TRUE`
      have hfalse := hval₁ ▸ h.2 husable
      cases hval : (f1f1Coeffs p (poleQuotient p.f1_fp fs) (poleQuotient p.f2_fp fs)).val with
      | none =>
        rw [val_bind_of_none hval] at hfalse
        cases hfalse
      | some a =>
        rw [bind_of_val hval] at hfalse
        cases hfalse
    · rcases h with h | h | h | h
      · omega
      · omega
      · omega
      · exact husable h.1

/-- **The low-cut designs** are total exactly for the parameters that are sound. -/
theorem lowCut_total_iff (p : LcfCalcPara) (lcf_gain : Int16) (fs : Int32) (q : LcfF1f1Param)
    (fs' : Int32) (filterPara : IirPara) :
    (LcfTotal p lcf_gain fs ∧ F1f1Total q fs' filterPara) ↔ (p.Sound fs ∧ q.Sound fs') :=
  and_congr (lcfTotal_iff_sound p lcf_gain fs) (f1f1Total_iff_sound q fs' filterPara)

/-- A Butterworth filter of half the sample rate divides by zero. -/
theorem lcf_divides_by_zero :
    (recFilterCalcLCF ⟨true, .butterworth, 24000, ⟨0, 0, 0, 0, 0, 0⟩⟩ 16384 48000).faults
      = [.divisor] ∧
    ¬LcfTotal ⟨true, .butterworth, 24000, ⟨0, 0, 0, 0, 0, 0⟩⟩ 16384 48000 :=
  ⟨by decide +kernel, fun h => absurd h.1.1 (by decide +kernel)⟩

end SprdHal.Audio
