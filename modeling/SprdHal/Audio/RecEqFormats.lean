import SprdHal.Audio.RecEq

/-!
# The number formats of the recording equalizer (`aud_filter_calc.c`)

Of the two functions, `Rec_Filter_CalcEQ` stays within its formats for every band
(`eqCoefficients_eq`); `Rec_Filter_CalcEqCoeffs` overflows for bands that are both wide and boosted
by 17.8 dB or more (`faults_calcEQ_iff`). A band that `Rec_Filter_CalcEQ` designs is stable unless
its frequency is rounded to zero (`stable_iff`).
-/

namespace SprdHal.Audio

open SprdHal.Lib Calc

/-! ## The coefficients -/

/-- The bounds of what the tables give for a band. -/
structure BandWithin (n k g G : Nat) : Prop where
  fo_le : n ≤ 4095
  k_pos : 0 < k
  k_le : k ≤ 11544
  gama_le : g ≤ 32397
  gain_le : G ≤ 32535

theorem withBaseGain_eq {x m : Int} {G : Nat} (hx : -m ≤ x ∧ x ≤ m) (hm : m ≤ 65070)
    (hG : G ≤ 32535) : withBaseGain x G = pure (clip (asr (x * G) 12)) := by
  have hmul := mul_mem hx (y := (G : Int)) (n := 32535) (by omega)
  rw [withBaseGain, int32_eq_pure (by omega), pure_bind, store16_eq_pure]
  unfold clip
  split
  · omega
  · split <;> omega

theorem cosineOf_eq {n : Nat} (hn : n ≤ 4095) :
    ∃ c : Int, (-16383 ≤ c ∧ c ≤ 16384) ∧ cosineOf n = pure c := by
  by_cases hle : (n : Int) ≤ 2048
  · have := cosine_le_full (i := n) (by omega)
    exact ⟨cosine n, by omega, (if_pos hle).trans (look_cosTable (by omega))⟩
  · have := cosine_le (i := 1) (j := 4096 - n) (by omega) (by omega)
    rw [cosine_one] at this
    refine ⟨-(cosine (4096 - n) : Int), by omega, (if_neg hle).trans ?_⟩
    rw [show (4096 : Int) - n = ((4096 - n : Nat) : Int) by omega, look_cosTable (by omega),
      pure_bind, int32_neg_natCast (by omega)]

section Coefficients

variable {n k g G : Nat} (filterPara : IirPara)

theorem BandWithin.square_le (h : BandWithin n k g G) : k * k / 2048 ≤ 65070 := by
  have := Nat.mul_le_mul h.k_le h.k_le
  omega

theorem BandWithin.prod_le (h : BandWithin n k g G) : g * (k * k / 2048) ≤ 2108072790 :=
  (Nat.mul_le_mul h.gama_le h.square_le).trans (by decide)

/-- The start of `bandCoefficients`: what it divides is not divided yet. -/
theorem bandCoefficients_eq (h : BandWithin n k g G) :
    bandCoefficients n k g G filterPara =
      int32 ((8192 * k : Nat) + (g * (k * k / 2048) : Nat)) >>= fun sum =>
        dividedCoefficients n k g G (k + g : Nat) (g * (k * k / 2048) : Nat) (8192 * k : Nat) sum
          filterPara := by
  have hk := h.k_le
  have hg := h.gama_le
  have hsq : k * k ≤ 133263936 := Nat.mul_le_mul hk hk
  have hprod := h.prod_le
  have hden : int32 ((k : Int) + g) = pure ((k + g : Nat) : Int) :=
    int32_natCast (n := k + g) (by omega)
  have hsquare : int32 ((k : Int) * k) = pure ((k * k : Nat) : Int) :=
    int32_natCast (n := k * k) (by omega)
  have hasr : asr ((k * k : Nat) : Int) 11 = ((k * k / 2048 : Nat) : Int) := asr_natCast _ 11
  have hgsq : int32 ((g : Int) * ((k * k / 2048 : Nat) : Int))
      = pure ((g * (k * k / 2048) : Nat) : Int) :=
    int32_natCast (n := g * (k * k / 2048)) (by omega)
  have heven : int32 (2 ^ 13 * (k : Int)) = pure ((8192 * k : Nat) : Int) :=
    int32_natCast (n := 8192 * k) (by omega)
  rw [bandCoefficients, hden, pure_bind, hsquare, pure_bind, hasr, hgsq, pure_bind, heven,
    pure_bind]

/-- Once the sum is in range, all that follows is. -/
theorem faults_dividedCoefficients (h : BandWithin n k g G) {e p : Nat} (he : e = 8192 * k)
    (hp : p = g * (k * k / 2048)) (hsum : e + p < 2147483648) :
    (dividedCoefficients n k g G (k + g : Nat) p e ((e + p : Nat) : Int) filterPara).faults
      = [] := by
  have hk := h.k_le
  have hkpos := h.k_pos
  have hg := h.gama_le
  have hden : (0 : Int) < (k + g : Nat) := by omega
  -- the numerators are at most 65070 times the divisor
  have hp' : p ≤ 65070 * g := by
    rw [hp, Nat.mul_comm]
    exact Nat.mul_le_mul_right g h.square_le
  have hsumDen : -(65070 * ((k + g : Nat) : Int)) ≤ -((e + p : Nat) : Int) ∧
      -((e + p : Nat) : Int) ≤ 65070 * ((k + g : Nat) : Int) := by omega
  have hdiffDen : -(65070 * ((k + g : Nat) : Int)) ≤ -((e : Int) - p) ∧
      -((e : Int) - p) ≤ 65070 * ((k + g : Nat) : Int) := by omega
  obtain ⟨c, hc, hlook⟩ := cosineOf_eq h.fo_le
  have hck := mul_mem (x := c) (m := 16384) (y := (k : Int)) (n := 11544) (by omega) (by omega)
  have hsideDen : -(16384 * ((k + g : Nat) : Int)) ≤ c * k ∧
      c * k ≤ 16384 * ((k + g : Nat) : Int) := by
    have := mul_mem (x := c) (m := 16384) (y := (k : Int)) (n := (k + g : Nat)) (by omega)
      (by omega)
    exact this
  have hside := tdiv_mem hden hsideDen
  have hlast : -(8192 * ((k + g : Nat) : Int)) ≤ -(((k : Int) - g) * 2 ^ 13) ∧
      -(((k : Int) - g) * 2 ^ 13) ≤ 8192 * ((k + g : Nat) : Int) := by omega
  have hA2 := tdiv_mem hden hlast
  rw [dividedCoefficients, int32_eq_pure (by omega), pure_bind,
    quot_of_bounded hden (by decide) hsumDen, pure_bind,
    withBaseGain_eq (tdiv_mem hden hsumDen) (by decide) h.gain_le, pure_bind, if_neg (by
      have := h.fo_le
      omega), hlook, pure_bind, int32_eq_pure (by omega), pure_bind,
    quot_of_bounded hden (by decide) hsideDen, pure_bind, store16_eq_pure (by omega), pure_bind,
    withBaseGain_eq hside (by decide) h.gain_le, pure_bind, int32_eq_pure (by omega), pure_bind,
    int32_eq_pure (by omega), pure_bind, quot_of_bounded hden (by decide) hdiffDen, pure_bind,
    withBaseGain_eq (tdiv_mem hden hdiffDen) (by decide) h.gain_le, pure_bind,
    int32_eq_pure (by omega), pure_bind, int32_eq_pure (by omega), pure_bind,
    int32_eq_pure (by omega), pure_bind, int32_eq_pure (by omega), pure_bind,
    ← Int.natCast_add, Nat.add_comm g k, quot_of_bounded hden (by decide) hlast, pure_bind,
    store16_eq_pure (by omega), pure_bind]
  rfl

/-- `Rec_Filter_CalcEqCoeffs` overflows where the parts of B0 are added. -/
theorem faults_bandCoefficients (h : BandWithin n k g G) :
    (bandCoefficients n k g G filterPara).faults = [] ↔
      8192 * k + g * (k * k / 2048) < 2147483648 := by
  rw [bandCoefficients_eq filterPara h]
  have hcast : ((8192 * k : Nat) : Int) + (g * (k * k / 2048) : Nat)
      = ((8192 * k + g * (k * k / 2048) : Nat) : Int) := (Int.natCast_add _ _).symm
  constructor
  · intro hnone
    by_contra hge
    have hfault : (int32 ((8192 * k : Nat) + (g * (k * k / 2048) : Nat))).faults = [.overflow] :=
      faults_word (by omega)
    have hmem : Fault.overflow ∈ (int32 ((8192 * k : Nat) + (g * (k * k / 2048) : Nat))).faults :=
      hfault ▸ List.mem_singleton_self _
    exact absurd (hnone ▸ mem_faults_bind_left hmem _) List.not_mem_nil
  · intro hlt
    rw [hcast, int32_natCast hlt, pure_bind]
    exact faults_dividedCoefficients filterPara h rfl rfl hlt

end Coefficients

/-! ## The adjustment of B -/

theorem halvings_spec (fuel : Nat) : ∀ m ≤ fuel, m / 2 ^ halvings fuel m ≤ 32767 ∧
    (halvings fuel m = 0 ∨ 16384 * 2 ^ halvings fuel m ≤ m) := by
  induction fuel with
  | zero =>
    intro m hm
    obtain rfl : m = 0 := by omega
    exact ⟨by decide, .inl rfl⟩
  | succ fuel ih =>
    intro m hm
    rw [halvings]
    split
    · obtain ⟨hle, hpow⟩ := ih (m / 2) (by omega)
      rw [Nat.div_div_eq_div_mul, ← Nat.pow_succ'] at hle
      refine ⟨hle, .inr ?_⟩
      rcases hpow with h0 | hpow
      · rw [h0]
        omega
      · rw [Nat.pow_succ]
        omega
    · exact ⟨by omega, .inl rfl⟩

theorem asr_mem {x : Int} {m n : Nat} (hx : -m ≤ x ∧ x ≤ m) (hm : m / 2 ^ n ≤ 32767) :
    -32768 ≤ asr x n ∧ asr x n < 32768 := by
  have hpos : 0 < 2 ^ n := Nat.two_pow_pos n
  have hlt : m < 32768 * 2 ^ n := (Nat.div_lt_iff_lt_mul hpos).mp (by omega)
  have hcast : ((2 ^ n : Nat) : Int) = (2 : Int) ^ n := Nat.cast_pow 2 n
  rw [asr, ← hcast]
  constructor
  · exact Int.le_ediv_of_mul_le (by omega) (by omega)
  · exact Int.ediv_lt_of_lt_mul (by omega) (by omega)

/-- The adjustment leaves coefficients and a gain of 16 bits. -/
theorem adjust_eq (B0 B1 B2 : Int) {G M : Nat} (h0 : -M ≤ B0 ∧ B0 ≤ M) (h1 : -M ≤ B1 ∧ B1 ≤ M)
    (h2 : -M ≤ B2 ∧ B2 ≤ M) (hM : M < 1073741824) (hG : G ≤ 32767) :
    ∃ b0 b1 b2 s : Int, adjust B0 B1 B2 G = pure (b0, b1, b2, s) ∧
      (-32768 ≤ b0 ∧ b0 < 32768) ∧ (-32768 ≤ b1 ∧ b1 < 32768) ∧ (-32768 ≤ b2 ∧ b2 < 32768) ∧
      0 ≤ s ∧ s < 32768 := by
  have habso : ∀ x : Int, x ≤ abso x ∧ -x ≤ abso x ∧ (-M ≤ x ∧ x ≤ M → abso x ≤ M) := by
    intro x
    unfold abso
    split <;> omega
  obtain ⟨m, hm⟩ : ∃ m : Nat, max (max (abso B0) (abso B1)) (abso B2) = m :=
    ⟨_, (Int.toNat_of_nonneg (by have := habso B0; omega)).symm⟩
  have hB0 := habso B0
  have hB1 := habso B1
  have hB2 := habso B2
  obtain ⟨hle, hpow⟩ := halvings_spec m m (Nat.le_refl m)
  rw [adjust, hm, Int.toNat_natCast]
  by_cases hn : nBit m = 0
  · rw [nBit] at hn
    rw [hn, Nat.pow_zero, Nat.div_one] at hle
    rw [nBit, if_pos hn]
    exact ⟨B0, B1, B2, G, rfl, by omega, by omega, by omega, by omega, by omega⟩
  · rw [nBit] at hn
    have hpow' := hpow.resolve_left hn
    have hgain : G * 2 ^ halvings m m < 2147483648 := by
      calc G * 2 ^ halvings m m ≤ 32767 * 2 ^ halvings m m := Nat.mul_le_mul_right _ hG
        _ < 2147483648 := by omega
    have hcast : (G : Int) * 2 ^ halvings m m = ((G * 2 ^ halvings m m : Nat) : Int) := by
      rw [Nat.cast_mul, Nat.cast_pow, Nat.cast_ofNat]
    rw [nBit, if_neg hn, hcast, int32_natCast hgain, pure_bind]
    refine ⟨_, _, _, _, rfl, asr_mem (m := m) (by omega) hle, asr_mem (m := m) (by omega) hle,
      asr_mem (m := m) (by omega) hle, ?_⟩
    split <;> omega

/-! ## The coefficients of `Rec_Filter_CalcEQ` -/

/-- A1 of `Rec_Filter_CalcEQ`, by the places of a band in the tables. -/
def poleSum (n k g : Nat) : Int :=
  if n ≤ 2048 then -((cosine n * k * 2 / (k + g) : Nat) : Int)
  else ((cosine (4096 - n) * k * 2 / (k + g) : Nat) : Int)

/-- A2 of `Rec_Filter_CalcEQ`. -/
def poleProduct (k g : Nat) : Int := (((k : Int) - g) * 2 ^ 14).tdiv ((k + g : Nat) : Int)

section Coefficients

variable {n k g G : Nat}

theorem side_le (c k g : Nat) : c * k * 2 / (k + g) ≤ 2 * c := by
  apply Nat.div_le_of_le_mul
  calc c * k * 2 ≤ c * (k + g) * 2 := by
        apply Nat.mul_le_mul_right
        apply Nat.mul_le_mul_left
        omega
    _ = (k + g) * (2 * c) := by ring

theorem sideOf_eq (h : BandWithin n k g G) :
    sideOf n k (k + g : Nat) = pure (poleSum n k g) := by
  have hk := h.k_le
  have hden : k + g ≠ 0 := by
    have := h.k_pos
    omega
  have hstep : ∀ c : Nat, c ≤ 16384 →
      int32 ((c : Int) * k) = pure ((c * k : Nat) : Int) ∧
      int32 (((c * k : Nat) : Int) * 2) = pure ((c * k * 2 : Nat) : Int) ∧
      c * k * 2 < 2147483648 := by
    intro c hc
    have hck : c * k ≤ 16384 * 11544 := Nat.mul_le_mul hc hk
    exact ⟨int32_natCast (n := c * k) (by omega), int32_natCast (n := c * k * 2) (by omega),
      by omega⟩
  rw [sideOf, poleSum]
  by_cases hn : n ≤ 2048
  · obtain ⟨hmul, htwice, hlt⟩ := hstep (cosine n) (cosine_le_full hn)
    rw [if_pos (by omega), if_pos hn, look_cosTable hn, pure_bind, hmul, pure_bind, htwice,
      pure_bind, int32_neg_natCast (by omega), pure_bind, quot_neg_natCast hden (by omega)]
  · obtain ⟨hmul, htwice, hlt⟩ := hstep (cosine (4096 - n)) (cosine_le_full (by omega))
    rw [if_neg (by omega), if_neg hn,
      show (4096 : Int) - n = ((4096 - n : Nat) : Int) by
        have := h.fo_le
        omega,
      look_cosTable (by omega), pure_bind, hmul, pure_bind, htwice, pure_bind,
      quot_natCast hden hlt]

theorem poleSum_mem (h : BandWithin n k g G) : -32768 ≤ poleSum n k g ∧ poleSum n k g ≤ 32767 := by
  rw [poleSum]
  by_cases hn : n ≤ 2048
  · have hside := side_le (cosine n) k g
    have := cosine_le_full hn
    rw [if_pos hn]
    generalize cosine n * k * 2 / (k + g) = x at hside
    omega
  · have hfo := h.fo_le
    have hcos := cosine_le (i := 1) (j := 4096 - n) (by omega) (by omega)
    rw [cosine_one] at hcos
    have hside := side_le (cosine (4096 - n)) k g
    rw [if_neg hn]
    generalize cosine (4096 - n) * k * 2 / (k + g) = x at hside
    omega

theorem poleProduct_mem (h : BandWithin n k g G) :
    -16384 ≤ poleProduct k g ∧ poleProduct k g ≤ 16384 := by
  have := h.k_pos
  exact tdiv_mem (by omega) (by omega)

/-- `Rec_Filter_CalcEQ` divides before it multiplies, and nothing overflows. -/
theorem eqCoefficients_eq (h : BandWithin n k g G) (filterPara : IirPara) (sGain : Int) :
    ∃ B0 B1 B2 S : Int, eqCoefficients n k g G filterPara sGain
      = pure (true, ⟨B0, B1, B2, 16384, poleSum n k g, poleProduct k g⟩, S) := by
  have hfo := h.fo_le
  have hk := h.k_le
  have hkpos := h.k_pos
  have hg := h.gama_le
  have hgain := h.gain_le
  have hden : k + g ≠ 0 := by omega
  have hgk : g * k ≤ 32397 * 11544 := Nat.mul_le_mul hg hk
  have heven : 16384 * k / (k + g) ≤ 16384 := Nat.div_le_of_le_mul (by omega)
  have hquot : g * k / (k + g) ≤ k := by
    apply Nat.div_le_of_le_mul
    exact Nat.mul_le_mul_right k (by omega)
  have hodd : g * k / (k + g) * k ≤ 11544 * 11544 := Nat.mul_le_mul (hquot.trans hk) hk
  have hdenEq : int32 ((k : Int) + g) = pure ((k + g : Nat) : Int) :=
    int32_natCast (n := k + g) (by omega)
  have hdenEq' : int32 ((g : Int) + k) = pure ((k + g : Nat) : Int) := by
    rw [Int.add_comm, hdenEq]
  have hevenEq : int32 (2 ^ 14 * (k : Int)) = pure ((16384 * k : Nat) : Int) :=
    int32_natCast (n := 16384 * k) (by omega)
  have hgkEq : int32 ((g : Int) * k) = pure ((g * k : Nat) : Int) :=
    int32_natCast (n := g * k) (by omega)
  have hoddEq : int32 (((g * k / (k + g) : Nat) : Int) * k)
      = pure ((g * k / (k + g) * k : Nat) : Int) :=
    int32_natCast (n := g * k / (k + g) * k) (by omega)
  have hlast : -(16384 * ((k + g : Nat) : Int)) ≤ ((k : Int) - g) * 2 ^ 14 ∧
      ((k : Int) - g) * 2 ^ 14 ≤ 16384 * ((k + g : Nat) : Int) := by omega
  have hsum := poleSum_mem h
  have hproduct := poleProduct_mem h
  generalize hodd' : g * k / (k + g) * k = o at hodd hoddEq
  generalize heven' : 16384 * k / (k + g) = e at heven
  have hasr : asr (o : Int) 10 = ((o / 1024 : Nat) : Int) := asr_natCast o 10
  obtain ⟨b0, b1, b2, s, hadjust, hb0, hb1, hb2, hs⟩ := adjust_eq ((e : Int) + (o / 1024 : Nat))
    (poleSum n k g) ((e : Int) - (o / 1024 : Nat)) (M := 147456) (G := G)
    (by omega) (by omega) (by omega) (by decide) (by omega)
  refine ⟨b0, b1, b2, s, ?_⟩
  rw [eqCoefficients, hdenEq, pure_bind, hevenEq, pure_bind, quot_natCast hden (by omega),
    pure_bind, heven', hgkEq, pure_bind, quot_natCast hden (by omega), pure_bind, hoddEq,
    pure_bind, hasr, int32_eq_pure (by omega), pure_bind,
    if_neg (show ¬((n : Int).tdiv 2 ≥ 2048) by
      rw [Int.tdiv_eq_ediv_of_nonneg (by omega)]
      omega), if_neg (by omega), sideOf_eq h, pure_bind, int32_eq_pure (by omega), pure_bind,
    int32_eq_pure (by omega), pure_bind, int32_eq_pure (by omega), pure_bind, hdenEq', pure_bind,
    quot_of_bounded (by omega) (by decide) hlast, pure_bind, hadjust, pure_bind]
  change (store16 s >>= _) = _
  rw [store16_eq_pure (by omega), pure_bind, store16_eq_pure hb0, pure_bind, store16_eq_pure hb1,
    pure_bind, store16_eq_pure hb2, pure_bind, store16_eq_pure (by omega), pure_bind,
    ← poleProduct, store16_eq_pure (by omega), pure_bind]

end Coefficients

/-! ## Bands that are accepted -/

theorem gain_pos {i : Nat} (h : i ≤ 1800) : 0 < gain i := by
  have := gain_le (Nat.zero_le i) h
  have := gain_zero
  omega

theorem bandOf_within {f s : Nat} (q : Int) {boostdB basegaindB : Int} (hlt : f < s / 2)
    (hboost : -720 ≤ boostdB ∧ boostdB ≤ 180)
    (hbase : -720 ≤ basegaindB ∧ basegaindB ≤ 180) :
    BandWithin (f * 8192 / s) (gain (boostdB + 1440).toNat) (gama (qdf f s q / 2))
      (gain (2 * basegaindB + 1440).toNat) where
  fo_le := Nat.le_of_lt_add_one (parts_lt (by omega) (by omega))
  k_pos := gain_pos (by omega)
  k_le := gain_1620 ▸ gain_le (by omega) (by decide)
  gama_le := gama_of_le (by
    have := qdf_le (f := f) (s := s) (by omega) q
    omega)
  gain_le := gain_1800 ▸ gain_le (by omega) (Nat.le_refl _)

/-- The products of one boost are in range below one place of the band width. -/
theorem sum_lt_iff (k i i₀ : Nat) (hi : i ≤ 2047) (h0 : 0 < i₀) (hlast : i₀ ≤ 2047)
    (hbelow : 8192 * k + gama (i₀ - 1) * (k * k / 2048) < 2147483648)
    (hfrom : 2147483648 ≤ 8192 * k + gama i₀ * (k * k / 2048)) :
    8192 * k + gama i * (k * k / 2048) < 2147483648 ↔ i < i₀ := by
  constructor
  · intro hlt
    by_contra hge
    have := Nat.mul_le_mul_right (k * k / 2048) (gama_le (i := i₀) (by omega) hi)
    omega
  · intro hlt
    have := Nat.mul_le_mul_right (k * k / 2048) (gama_le (j := i₀ - 1) (i := i) (by omega)
      (by omega))
    omega

theorem sum_lt_iff_qdf {boostdB : Int} {d : Nat} (hboost : -720 ≤ boostdB ∧ boostdB ≤ 180)
    (hd : d ≤ 3768) :
    8192 * gain (boostdB + 1440).toNat
        + gama (d / 2) * (gain (boostdB + 1440).toNat * gain (boostdB + 1440).toNat / 2048)
      < 2147483648 ↔ ¬(178 ≤ boostdB ∧ 4480 - 4 * boostdB ≤ d) := by
  by_cases hlow : boostdB ≤ 177
  · have hk : gain (boostdB + 1440).toNat ≤ 11346 := gain_1617 ▸ gain_le (by omega) (by decide)
    have hg := gama_of_le (i := d / 2) (by omega)
    generalize gain (boostdB + 1440).toNat = k at hk ⊢
    have hsq := Nat.mul_le_mul hk hk
    have hprod : gama (d / 2) * (k * k / 2048) ≤ 32397 * 62857 :=
      Nat.mul_le_mul hg (by omega)
    exact iff_of_true (by omega) (by omega)
  · have hcases : boostdB = 178 ∨ boostdB = 179 ∨ boostdB = 180 := by omega
    rcases hcases with rfl | rfl | rfl
    · rw [show (((178 : Int) + 1440).toNat) = 1618 by decide]
      have := sum_lt_iff (gain 1618) (d / 2) 1884 (by omega) (by decide)
        (by decide) (by decide +kernel) (by decide +kernel)
      exact this.trans (by omega)
    · rw [show (((179 : Int) + 1440).toNat) = 1619 by decide]
      have := sum_lt_iff (gain 1619) (d / 2) 1882 (by omega) (by decide)
        (by decide) (by decide +kernel) (by decide +kernel)
      exact this.trans (by omega)
    · rw [show (((180 : Int) + 1440).toNat) = 1620 by decide]
      have := sum_lt_iff (gain 1620) (d / 2) 1880 (by omega) (by decide)
        (by decide) (by decide +kernel) (by decide +kernel)
      exact this.trans (by omega)

/-- What a width in parts of the sample rate comes to without a division by `q`. -/
theorem le_qdf_iff {f s : Nat} (hs : 0 < s) (q : Int) (D : Nat) :
    D ≤ qdf f s q ↔ qFrom f s q * ((D * s + 8191) / 8192) ≤ f * 512 := by
  rw [qdf, Nat.le_div_iff_mul_le hs, Nat.mul_comm (qFrom f s q),
    ← Nat.le_div_iff_mul_le (qFrom_pos f s q)]
  generalize D * s = x
  generalize f * 512 / qFrom f s q = y
  omega

/-- A band so wide and boosted that the sum in `Rec_Filter_CalcEqCoeffs` is too large. -/
def Overdriven (fo q boostdB fs : Int) : Prop :=
  178 ≤ boostdB ∧
    max q (1113 * fo / fs + 1) * (((4480 - 4 * boostdB) * fs + 8191) / 8192) ≤ 512 * fo

theorem overdriven_iff {f s : Nat} (hs : 0 < s) (q : Int) {boostdB : Int} (hb : boostdB ≤ 180) :
    Overdriven f q boostdB s ↔ 178 ≤ boostdB ∧ 4480 - 4 * boostdB ≤ qdf f s q := by
  obtain ⟨D, hD⟩ := Int.eq_ofNat_of_zero_le (show 0 ≤ 4480 - 4 * boostdB by omega)
  have hq : max q (1113 * (f : Int) / s + 1) = (qFrom f s q : Nat) := by
    have hdiv : 1113 * (f : Int) / s = ((1113 * f / s : Nat) : Int) := by
      rw [Int.natCast_ediv, Int.natCast_mul, Nat.cast_ofNat]
    rw [hdiv, qFrom]
    generalize 1113 * f / s = x
    omega
  have hle := le_qdf_iff (f := f) hs q D
  have hceil : ((D : Int) * s + 8191) / 8192 = (((D * s + 8191) / 8192 : Nat) : Int) := by
    norm_cast
  rw [Overdriven, hq, hD, hceil, ← Int.natCast_mul, Int.ofNat_le, hle]
  apply and_congr_right
  intro _
  omega

theorem recFilterCalcEQ_of_some {fo q boostdB basegaindB : Int16} {fs : Int32} {b : Band}
    (h : fixBand fo q boostdB basegaindB fs = pure (some b)) (filterPara : IirPara) (sGain : Int) :
    recFilterCalcEQ ⟨true, .normalEq, fo, q, boostdB, basegaindB⟩ fs filterPara sGain
      = eqCoefficients b.Qfo b.Qk b.Qgama b.baseGain filterPara sGain := by
  rw [recFilterCalcEQ, if_pos rfl]
  dsimp only
  rw [h, pure_bind]

theorem recFilterCalcEQ_of_none {fo q boostdB basegaindB : Int16} {fs : Int32}
    (h : fixBand fo q boostdB basegaindB fs = pure none) (filterPara : IirPara) (sGain : Int) :
    recFilterCalcEQ ⟨true, .normalEq, fo, q, boostdB, basegaindB⟩ fs filterPara sGain
      = pure (false, filterPara, sGain) := by
  rw [recFilterCalcEQ, if_pos rfl]
  dsimp only
  rw [h, pure_bind]

theorem recFilterCalcEqCoeffs_of_some {fo q boostdB basegaindB : Int16} {fs : Int32} {b : Band}
    (h : fixBand fo q boostdB basegaindB fs = pure (some b)) (filterPara : IirPara) :
    recFilterCalcEqCoeffs fo q boostdB basegaindB fs filterPara
      = bandCoefficients b.Qfo b.Qk b.Qgama b.baseGain filterPara := by
  rw [recFilterCalcEqCoeffs, h, pure_bind]

theorem recFilterCalcEqCoeffs_of_none {fo q boostdB basegaindB : Int16} {fs : Int32}
    (h : fixBand fo q boostdB basegaindB fs = pure none) (filterPara : IirPara) :
    recFilterCalcEqCoeffs fo q boostdB basegaindB fs filterPara = pure (false, filterPara) := by
  rw [recFilterCalcEqCoeffs, h, pure_bind]

/-- A band is rejected, or it is the one that `bandOf` describes. -/
theorem fixBand_cases (fo q boostdB basegaindB : Int16) {fs : Int32} (hle : fs.toInt ≤ 48000) :
    (¬Accepted fo.toInt boostdB.toInt basegaindB.toInt fs.toInt ∧
        fixBand fo q boostdB basegaindB fs = pure none) ∨
      ∃ f s : Nat, fo.toInt = f ∧ fs.toInt = s ∧ f < s / 2 ∧
        Accepted fo.toInt boostdB.toInt basegaindB.toInt fs.toInt ∧
        fixBand fo q boostdB basegaindB fs =
          pure (some (bandOf f s q.toInt boostdB.toInt basegaindB.toInt)) := by
  by_cases hfo : fs.toInt / 2 ≤ fo.toInt ∨ fo.toInt ≤ 0
  · refine .inl ⟨fun h => ?_, fixBand_rejected_fo hfo⟩
    have := h.fo_pos
    have := h.fo_lt
    omega
  obtain ⟨f, hf⟩ := Int.eq_ofNat_of_zero_le (show 0 ≤ fo.toInt by omega)
  obtain ⟨s, hs⟩ := Int.eq_ofNat_of_zero_le (show 0 ≤ fs.toInt by omega)
  have hband := fixBand_eq q boostdB basegaindB hf hs
    (by omega) (by omega) (by omega)
  by_cases hboost : boostdB.toInt < -720 ∨ boostdB.toInt > 180
  · rw [if_pos hboost] at hband
    refine .inl ⟨fun h => ?_, hband⟩
    have := h.boostdB_mem
    omega
  by_cases hbase : basegaindB.toInt < -720 ∨ basegaindB.toInt > 180
  · rw [if_neg hboost, if_pos hbase] at hband
    refine .inl ⟨fun h => ?_, hband⟩
    have := h.basegaindB_mem
    omega
  · rw [if_neg hboost, if_neg hbase] at hband
    exact .inr ⟨f, s, hf, hs, by omega, ⟨by omega, by omega, by omega, by omega⟩, hband⟩

/-- The formats of both functions hold every value unless `Rec_Filter_CalcEqCoeffs` is given a band
that is accepted, and too wide for its boost. -/
theorem faults_calcEQ_iff (fo q boostdB basegaindB : Int16) (fs : Int32) (filterPara : IirPara)
    (sGain : Int) (hpos : 1 ≤ fs.toInt) (hle : fs.toInt ≤ 48000) :
    ((recFilterCalcEQ ⟨true, .normalEq, fo, q, boostdB, basegaindB⟩ fs filterPara sGain).faults = []
      ∧ (recFilterCalcEqCoeffs fo q boostdB basegaindB fs filterPara).faults = []) ↔
    ¬(Accepted fo.toInt boostdB.toInt basegaindB.toInt fs.toInt ∧
      Overdriven fo.toInt q.toInt boostdB.toInt fs.toInt) := by
  rcases fixBand_cases fo q boostdB basegaindB hle with
    ⟨hrejected, hnone⟩ | ⟨f, s, hf, hs, hlt, haccepted, hsome⟩
  · rw [recFilterCalcEQ_of_none hnone, recFilterCalcEqCoeffs_of_none hnone]
    exact iff_of_true ⟨rfl, rfl⟩ fun h => hrejected h.1
  · have hboost := haccepted.boostdB_mem
    have hwithin := bandOf_within (f := f) (s := s) q.toInt hlt hboost haccepted.basegaindB_mem
    obtain ⟨_, _, _, _, heq⟩ := eqCoefficients_eq hwithin filterPara sGain
    have hcoeffs := faults_bandCoefficients filterPara hwithin
    have hsum := sum_lt_iff_qdf hboost (qdf_le (f := f) (s := s) (by omega) q.toInt)
    have hover := overdriven_iff (f := f) (s := s) (by omega) q.toInt hboost.2
    rw [recFilterCalcEQ_of_some hsome, recFilterCalcEqCoeffs_of_some hsome, hf, hs, hover]
    rw [hf, hs] at haccepted
    dsimp only [bandOf]
    rw [heq, hcoeffs, hsum]
    constructor
    · intro h hboth
      exact h.2 hboth.2
    · intro h
      exact ⟨rfl, fun hsteep => h ⟨haccepted, hsteep⟩⟩

theorem faults_calcEQ_at_1kHz :
    (recFilterCalcEQ ⟨true, .normalEq, 1000, 512, 60, 0⟩ 44100 ⟨0, 0, 0, 0, 0, 0⟩ 0).faults = [] ∧
      (recFilterCalcEqCoeffs 1000 512 60 0 44100 ⟨0, 0, 0, 0, 0, 0⟩).faults = [] :=
  (faults_calcEQ_iff 1000 512 60 0 44100 ⟨0, 0, 0, 0, 0, 0⟩ 0 (by decide) (by decide)).mpr
    fun h => absurd h.2.1 (by decide)

theorem calcEqCoeffs_overflows :
    ¬((recFilterCalcEQ ⟨true, .normalEq, 115, 8, 180, 0⟩ 16000 ⟨0, 0, 0, 0, 0, 0⟩ 0).faults = [] ∧
      (recFilterCalcEqCoeffs 115 8 180 0 16000 ⟨0, 0, 0, 0, 0, 0⟩).faults = []) := by
  decide +kernel

/-! ## The poles -/

theorem poleProduct_of_le {k g : Nat} (hk : 0 < k) (h : g ≤ k) :
    16384 + poleProduct k g = ((32768 * k / (k + g) : Nat) : Int) := by
  have hnum : ((k : Int) - g) * 2 ^ 14 = ((16384 * (k - g) : Nat) : Int) := by omega
  have hsum : 32768 * k = 16384 * (k - g) + 16384 * (k + g) := by omega
  rw [poleProduct, hnum, ← Int.ofNat_tdiv, hsum, Nat.add_mul_div_right _ _ (by omega)]
  omega

theorem poleProduct_of_lt {k g : Nat} (h : k < g) :
    poleProduct k g = -((16384 * (g - k) / (k + g) : Nat) : Int) := by
  have hnum : ((k : Int) - g) * 2 ^ 14 = -((16384 * (g - k) : Nat) : Int) := by omega
  rw [poleProduct, hnum, Int.neg_tdiv, ← Int.ofNat_tdiv]

theorem abs_poleProduct_lt {k g : Nat} (hk : 0 < k) (hg : 0 < g) : |poleProduct k g| < 16384 := by
  rw [abs_lt]
  rcases Nat.lt_or_ge k g with hlt | hle
  · have hquot : 16384 * (g - k) / (k + g) < 16384 := Nat.div_lt_of_lt_mul (by omega)
    rw [poleProduct_of_lt hlt]
    generalize 16384 * (g - k) / (k + g) = x at hquot
    omega
  · have hquot : 32768 * k / (k + g) < 32768 := Nat.div_lt_of_lt_mul (by omega)
    have hpos : 0 < 32768 * k / (k + g) := Nat.div_pos (by omega) (by omega)
    have hval := poleProduct_of_le hk hle
    generalize 32768 * k / (k + g) = x at hquot hpos hval
    omega

/-- The floors of two fractions whose numerators have the sum `n` denominators or less. -/
theorem div_add_div_le {a b d n : Nat} (hd : 0 < d) (h : a + b ≤ n * d) : a / d + b / d ≤ n := by
  have ha := Nat.div_mul_le_self a d
  have hb := Nat.div_mul_le_self b d
  apply Nat.le_of_mul_le_mul_right _ hd
  rw [Nat.add_mul]
  omega

/-- The sum of the poles is strictly below its bound unless the cosine is one. -/
theorem margin_of_lt_full {c k g : Nat} (hk : 0 < k) (hc : c ≤ 16383) :
    ((c * k * 2 / (k + g) : Nat) : Int) < 16384 + poleProduct k g := by
  have hden : 0 < k + g := by omega
  have hck : c * k ≤ 16383 * k := Nat.mul_le_mul_right k hc
  rcases Nat.lt_or_ge k g with hlt | hle
  · -- below the least integer from a fraction on, which is greater by two parts
    have hsum : c * k * 2 / (k + g) + 16384 * (g - k) / (k + g) < 16384 := by
      apply Nat.lt_of_mul_lt_mul_right (a := k + g)
      have ha := Nat.div_mul_le_self (c * k * 2) (k + g)
      have hb := Nat.div_mul_le_self (16384 * (g - k)) (k + g)
      rw [Nat.add_mul]
      omega
    rw [poleProduct_of_lt hlt]
    generalize c * k * 2 / (k + g) = x at hsum ⊢
    generalize 16384 * (g - k) / (k + g) = y at hsum ⊢
    omega
  · have hstep : c * k * 2 / (k + g) + 1 ≤ 32768 * k / (k + g) := by
      rw [← Nat.add_div_right _ hden]
      exact Nat.div_le_div_right (by omega)
    rw [poleProduct_of_le hk hle]
    exact_mod_cast hstep

theorem margin_full {k g : Nat} (hk : 0 < k) :
    ((16384 * k * 2 / (k + g) : Nat) : Int) ≤ 16384 + poleProduct k g ∧
      (((16384 * k * 2 / (k + g) : Nat) : Int) < 16384 + poleProduct k g ↔
        ¬(g ≤ k ∨ (k + g) ∣ 32768 * k)) := by
  have hden : 0 < k + g := by omega
  have htwice : 16384 * k * 2 = 32768 * k := by omega
  rw [htwice]
  rcases Nat.lt_or_ge k g with hlt | hle
  · have hsplit : 32768 * k + 16384 * (g - k) = 16384 * (k + g) := by omega
    have hsum := div_add_div_le hden hsplit.le
    have hiff : 32768 * k / (k + g) + 16384 * (g - k) / (k + g) = 16384 ↔
        (k + g) ∣ 32768 * k := by
      have ha := Nat.div_mul_le_self (32768 * k) (k + g)
      have hb := Nat.div_mul_le_self (16384 * (g - k)) (k + g)
      constructor
      · intro heq
        have hmul : (32768 * k / (k + g) + 16384 * (g - k) / (k + g)) * (k + g)
            = 16384 * (k + g) := by rw [heq]
        rw [Nat.add_mul] at hmul
        exact Nat.dvd_of_mod_eq_zero (by
          have := Nat.div_add_mod (32768 * k) (k + g)
          rw [Nat.mul_comm] at this
          omega)
      · intro hdvd
        have hdvd' : (k + g) ∣ 16384 * (g - k) := by
          rw [← Nat.dvd_add_right hdvd, hsplit]
          exact Nat.dvd_mul_left _ _
        obtain ⟨x, hx⟩ := hdvd
        obtain ⟨y, hy⟩ := hdvd'
        rw [hx, hy, ← Nat.mul_add, Nat.mul_comm] at hsplit
        rw [hx, hy, Nat.mul_div_cancel_left _ hden, Nat.mul_div_cancel_left _ hden]
        exact Nat.eq_of_mul_eq_mul_right hden hsplit
    rw [poleProduct_of_lt hlt, ← hiff]
    generalize 32768 * k / (k + g) = x at hsum ⊢
    generalize 16384 * (g - k) / (k + g) = y at hsum ⊢
    omega
  · rw [poleProduct_of_le hk hle]
    omega

theorem abs_poleSum (n k g : Nat) : |poleSum n k g|
    = ((cosine (if n ≤ 2048 then n else 4096 - n) * k * 2 / (k + g) : Nat) : Int) := by
  rw [poleSum]
  split
  · rw [abs_neg, Nat.abs_cast]
  · rw [Nat.abs_cast]

/-- The band of `Rec_Filter_CalcEQ` is stable unless its frequency is rounded to zero. -/
theorem stable_of_within {n k g G : Nat} (h : BandWithin n k g G) (hg : 0 < g) :
    |poleProduct k g| < 16384 ∧ |poleSum n k g| ≤ 16384 + poleProduct k g ∧
      (|poleSum n k g| < 16384 + poleProduct k g ↔
        ¬(n = 0 ∧ (g ≤ k ∨ (k + g) ∣ 32768 * k))) := by
  have hk := h.k_pos
  refine ⟨abs_poleProduct_lt hk hg, ?_⟩
  rw [abs_poleSum]
  rcases Nat.eq_zero_or_pos n with rfl | hn
  · obtain ⟨hle, hiff⟩ := margin_full (g := g) hk
    rw [if_pos (by omega), cosine_zero]
    exact ⟨hle, hiff.trans (not_congr (and_iff_right rfl).symm)⟩
  · have hfo := h.fo_le
    have hcos : cosine (if n ≤ 2048 then n else 4096 - n) ≤ 16383 :=
      cosine_one ▸ cosine_le (by split <;> omega) (by split <;> omega)
    have hlt := margin_of_lt_full (g := g) hk hcos
    exact ⟨hlt.le, iff_of_true hlt fun h0 => absurd h0.1 (by omega)⟩

/-- Whatever band `Rec_Filter_CalcEQ` designs, its poles are not outside the unit circle, and they
are inside unless the frequency is below a part in 8192 of the sample rate. -/
theorem stable_iff (fo q boostdB basegaindB : Int16) (fs : Int32) (filterPara para : IirPara)
    (sGain S : Int) (b : Band) (hpos : 1 ≤ fs.toInt) (hle : fs.toInt ≤ 48000)
    (hband : (fixBand fo q boostdB basegaindB fs).val = some (some b)) (hgama : 1 ≤ b.Qgama)
    (hval : (recFilterCalcEQ ⟨true, .normalEq, fo, q, boostdB, basegaindB⟩ fs filterPara sGain).val
      = some (true, para, S)) :
    |para.A2| < 16384 ∧ |para.A1| ≤ 16384 + para.A2 ∧
      (|para.A1| < 16384 + para.A2 ↔
        ¬(8192 * fo.toInt < fs.toInt ∧ (b.Qgama ≤ b.Qk ∨ (b.Qk + b.Qgama) ∣ 32768 * b.Qk))) := by
  rcases fixBand_cases fo q boostdB basegaindB hle with
    ⟨_, hnone⟩ | ⟨f, s, hf, hs, hlt, haccepted, hsome⟩
  · rw [hnone] at hband
    cases hband
  · have hwithin := bandOf_within (f := f) (s := s) q.toInt hlt haccepted.boostdB_mem
      haccepted.basegaindB_mem
    obtain ⟨B0, B1, B2, S', heq⟩ := eqCoefficients_eq hwithin filterPara sGain
    rw [hsome, val_pure, Option.some.injEq, Option.some.injEq] at hband
    subst hband
    rw [recFilterCalcEQ_of_some hsome] at hval
    dsimp only [bandOf] at hval hgama
    rw [heq, val_pure] at hval
    cases hval
    have hstable := stable_of_within hwithin (by omega)
    have hzero : f * 8192 / s = 0 ↔ 8192 * fo.toInt < fs.toInt := by
      rw [Nat.div_eq_zero_iff, hf, hs]
      omega
    dsimp only [bandOf]
    rw [← hzero]
    exact_mod_cast hstable

theorem stable_at_1kHz :
    |(14824 : Int)| < 16384 ∧ |(-30894 : Int)| ≤ 16384 + 14824 ∧
      (|(-30894 : Int)| < 16384 + 14824 ↔
        ¬(8192 * (1000 : Int16).toInt < (44100 : Int32).toInt ∧
          ((289 : Int) ≤ 5785 ∨ (5785 + 289 : Int) ∣ 32768 * 5785))) :=
  stable_iff 1000 512 60 0 44100 ⟨0, 0, 0, 0, 0, 0⟩ ⟨17157, -30894, 14051, 16384, -30894, 14824⟩
    0 4096 ⟨185, 5785, 289, 4096⟩ (by decide) (by decide) (by decide +kernel) (by decide)
    (by decide +kernel)

/-- A frequency of 1 Hz leaves a pole on the unit circle. -/
theorem not_stable_at_1Hz :
    (fixBand 1 1 0 0 48000).val = some (some ⟨0, 4096, 135, 4096⟩) ∧
      (recFilterCalcEQ ⟨true, .normalEq, 1, 1, 0, 0⟩ 48000 ⟨0, 0, 0, 0, 0, 0⟩ 0).val
        = some (true, ⟨16381, -31722, 15341, 16384, -31722, 15338⟩, 4096) ∧
      ¬(|(-31722 : Int)| < 16384 + 15338) := by
  decide +kernel

end SprdHal.Audio
