import SprdHal.Audio.RecEqFormats

/-!
# The low-cut filters of the recording path (`aud_filter_calc.c`)

`Rec_Filter_CalcLCF` designs a product of two first-order sections (F1F1) or a Butterworth filter.
It leaves the all-pass coefficients for parameters that it rejects, but a quotient that is negative
or wraps in 16 bits passes its checks: `lcf_total_iff` says for which parameters the design is
total.
-/

namespace SprdHal.Audio

open SprdHal.Lib Calc

/-- `REC_FILTER_LCFPARA_TYPE_E` -/
inductive LcfParaType
  | f1f1
  | butterworth
  | chebyshev
  | bessel
  | elliptical
  | max
deriving DecidableEq

/-- `REC_FILTER_LCF_F1F1_PARAM_T` -/
structure LcfF1f1Param where
  f1_g0 : Int16
  f1_g1 : Int16
  f1_fp : Int16
  f2_g0 : Int16
  f2_g1 : Int16
  f2_fp : Int16

/-- `REC_FILTER_LCF_CALC_PARA_T`; of the union, the design reads the field of the type. -/
structure LcfCalcPara where
  isFilterOn : Bool
  eLcfParaType : LcfParaType
  fp : Int16
  lcfPara : LcfF1f1Param

/-- The coefficients of a design before B is adjusted. -/
structure Hpf where
  b0 : Int
  b1 : Int
  b2 : Int
  a1 : Int
  a2 : Int

/-- The coefficients that `Rec_Filter_CalcLCF` begins with, and keeps for what it rejects. -/
def lcfAllPass : IirPara := ⟨16384, -32768, 16384, 16384, -32768, 16384⟩

/-- A gain that `Rec_Filter_CalcLCF` does not take. -/
def gainOut (dB : Int16) : Prop := dB.toInt < -720 ∨ dB.toInt > 180

instance (dB : Int16) : Decidable (gainOut dB) := inferInstanceAs (Decidable (_ ∨ _))

/-- A frequency in 8192 parts of the sample rate, as a 16-bit variable holds it. -/
def poleQ (fp : Int16) (fs : Int32) : Calc Int := do
  int16 (← quot (← int32 (fp.toInt * 2 ^ 13)) fs.toInt)

/-- The tangent of a pole frequency, scaled by 4096. -/
def wpOf (Q : Int) : Calc Int := do
  let num ← int32 ((← look cosTable (2048 - Q.tdiv 2)) * 2 ^ 12)
  quot num (← look cosTable (Q.tdiv 2))

/-- A gain by tenths of a decibel. -/
def gainQ (dB : Int16) : Calc Int := do
  look linearGainTable (← int16 ((dB.toInt * 10 + 7200).tdiv 5))

/-- The coefficients of an F1F1 filter by its tangents and gains, with 64-bit sums. -/
def f1f1Quotients (F1_wp_Q F2_wp_Q F1_G0_Q F1_G1_Q F2_G0_Q F2_G1_Q : Int) : Calc Hpf := do
  let F1_W := asr (← int64 (F1_G0_Q * F1_wp_Q)) 12
  let F2_W := asr (← int64 (F2_G0_Q * F2_wp_Q)) 12
  let hsb_b0 ← int64 (F1_G1_Q * F2_G1_Q)
  let hsb_b1 ← int64 ((← int64 (F1_W * F2_G1_Q)) + (← int64 (F2_W * F1_G1_Q)))
  let hsb_b2 ← int64 (F1_W * F2_W)
  let hsa_a0 : Int := 2 ^ 24
  let hsa_a1 ← int64 ((F1_wp_Q + F2_wp_Q) * 2 ^ 12)
  let hsa_a2 ← int64 (F1_wp_Q * F2_wp_Q)
  let dividor := asr (← int64 (hsa_a0 + hsa_a1 + hsa_a2)) 12
  let b0 ← int32 (← quot64 (← int64 ((← int64 (hsb_b0 + hsb_b1 + hsb_b2)) * 2 ^ 2)) dividor)
  let b1 ← int32 (← quot64 (← int64 ((← int64 (hsb_b2 - hsb_b0)) * 2 ^ 3)) dividor)
  let b2 ← int32 (← quot64 (← int64 ((← int64 (hsb_b0 - hsb_b1 + hsb_b2)) * 2 ^ 2)) dividor)
  let a1 ← int32 ((← quot64 (← int64 ((← int64 (hsa_a2 - hsa_a0)) * 2)) dividor) * 2 ^ 2)
  let a2 ← int32 ((← quot64 (← int64 (hsa_a0 - hsa_a1 + hsa_a2)) dividor) * 2 ^ 2)
  pure ⟨b0, b1, b2, a1, a2⟩

/-- The product of the two sections of an F1F1 filter. -/
def lcfF1f1 (p : LcfF1f1Param) (Qf1fp Qf2fp : Int) : Calc Hpf := do
  let F1_wp_Q ← wpOf Qf1fp
  let F2_wp_Q ← wpOf Qf2fp
  let F1_G0_Q ← gainQ p.f1_g0
  let F1_G1_Q ← gainQ p.f1_g1
  let F2_G0_Q ← gainQ p.f2_g0
  let F2_G1_Q ← gainQ p.f2_g1
  f1f1Quotients F1_wp_Q F2_wp_Q F1_G0_Q F1_G1_Q F2_G0_Q F2_G1_Q

/-- The Butterworth filter of a frequency. -/
def lcfButterworth (lcf_gain : Int16) (Qlcffp : Int) : Calc Hpf := do
  let num ← int32 ((← look cosTable (Qlcffp.tdiv 2)) * 2 ^ 14)
  let K ← quot num (← look cosTable (2048 - Qlcffp.tdiv 2))
  let Qk2dk ← quot (2 ^ 28) K
  let d0 ← int64 (lcf_gain.toInt * K)
  let d1 ← int64 ((← int64 (Qk2dk - K)) * 2 ^ 15)
  let d2 ← int64 ((← int64 (K - 23170 + Qk2dk)) * 2 ^ 14)
  let dividor ← int32 (K + 23170 + Qk2dk)
  let gain ← int32 (← quot64 (← int64 (-d0)) dividor)
  let BUT_GAIN := if gain = 0 then -1 else gain
  let b1 ← int32 ((← int32 (-BUT_GAIN)) * 2)
  let a1 ← int32 (← quot64 d1 dividor)
  let a2 ← int32 (← quot64 d2 dividor)
  pure ⟨BUT_GAIN, b1, BUT_GAIN, a1, a2⟩

/-- The end of `Rec_Filter_CalcLCF`: the adjustment of B and the stores. -/
def lcfStore (h : Hpf) : Calc (Bool × IirPara × Int) := do
  let (b0, b1, b2, S) ← adjust h.b0 h.b1 h.b2 4096
  let sGain ← store16 S
  let B0 ← store16 b0
  let B1 ← store16 b1
  let B2 ← store16 b2
  let A1 ← store16 h.a1
  let A2 ← store16 h.a2
  pure (true, ⟨B0, B1, B2, 16384, A1, A2⟩, sGain)

/-- `Rec_Filter_CalcLCF` -/
def recFilterCalcLCF (p : LcfCalcPara) (lcf_gain : Int16) (fs : Int32) :
    Calc (Bool × IirPara × Int) :=
  if fs.toInt ≤ 0 then pure (false, lcfAllPass, 4096)
  else if p.isFilterOn = false then pure (true, lcfAllPass, 4096)
  else match p.eLcfParaType with
    | .f1f1 =>
      if gainOut p.lcfPara.f1_g0 then pure (true, lcfAllPass, 4096)
      else if gainOut p.lcfPara.f1_g1 then pure (true, lcfAllPass, 4096)
      else if gainOut p.lcfPara.f2_g0 then pure (true, lcfAllPass, 4096)
      else if gainOut p.lcfPara.f2_g1 then pure (true, lcfAllPass, 4096)
      else do
        let Qf1fp ← poleQ p.lcfPara.f1_fp fs
        if Qf1fp.tdiv 2 ≥ 2048 then pure (true, lcfAllPass, 4096)
        else do
          let Qf2fp ← poleQ p.lcfPara.f2_fp fs
          if Qf2fp.tdiv 2 ≥ 2048 then pure (true, lcfAllPass, 4096)
          else do lcfStore (← lcfF1f1 p.lcfPara Qf1fp Qf2fp)
    | .butterworth => do
      let Qlcffp ← poleQ p.fp fs
      if Qlcffp.tdiv 2 = 0 then pure (true, lcfAllPass, 4096)
      else do lcfStore (← lcfButterworth lcf_gain Qlcffp)
    | _ => pure (true, lcfAllPass, 4096)

/-! ## When a design is total -/

/-- A calculation comes to a value, with indices inside their tables, divisors that are not zero
and results that fit. -/
def InOrder {α : Type} (t : Calc α) : Prop :=
  t.val.isSome ∧ ∀ f ∈ t.faults, f = .overflow ∨ f = .narrowed

/-- A frequency that a design takes: not negative, and below half the sample rate. -/
def FrequencyIn (fp : Int16) (fs : Int32) : Prop := 0 ≤ fp.toInt ∧ 2 * fp.toInt < fs.toInt

/-- Parameters that a design has to reject. -/
def LcfCalcPara.Unusable (p : LcfCalcPara) (fs : Int32) : Prop :=
  match p.eLcfParaType with
  | .f1f1 => ¬FrequencyIn p.lcfPara.f1_fp fs ∨ ¬FrequencyIn p.lcfPara.f2_fp fs ∨
      gainOut p.lcfPara.f1_g0 ∨ gainOut p.lcfPara.f1_g1 ∨ gainOut p.lcfPara.f2_g0 ∨
      gainOut p.lcfPara.f2_g1
  | .butterworth => ¬FrequencyIn p.fp fs
  | _ => False

/-- `Rec_Filter_CalcLCF` is in order, and rejects what it has to reject. -/
def LcfTotal (p : LcfCalcPara) (lcf_gain : Int16) (fs : Int32) : Prop :=
  InOrder (recFilterCalcLCF p lcf_gain fs) ∧
    (p.isFilterOn = true → p.Unusable fs →
      ∃ ret, (recFilterCalcLCF p lcf_gain fs).val = some (ret, lcfAllPass, 4096))

/-- `fp * 8192 / fs` in 16 bits, which the functions compare with 4096. -/
def poleQuotient (fp : Int16) (fs : Int32) : Int := ((fp.toInt * 2 ^ 13).tdiv fs.toInt).bmod 65536

/-! ## The parts of a design -/

theorem wpOf_eq {Q : Int} {i : Nat} (hQ : Q.tdiv 2 = i) (hi : i ≤ 2047) :
    wpOf Q = pure (gama i : Int) := by
  have hfull := cosine_le_full (i := 2048 - i) (by omega)
  have hcos := cosine_pos hi
  have hshift : int32 ((cosine (2048 - i) : Int) * 2 ^ 12)
      = pure ((cosine (2048 - i) * 4096 : Nat) : Int) :=
    int32_natCast (n := cosine (2048 - i) * 4096) (by omega)
  rw [wpOf, hQ, show (2048 : Int) - i = ((2048 - i : Nat) : Int) by omega,
    look_cosTable (by omega), pure_bind, hshift, pure_bind, look_cosTable (by omega), pure_bind,
    quot_natCast (by omega) (by omega), ← gama]

theorem gama_le_last {i : Nat} (h : i ≤ 2047) : gama i ≤ 5592064 :=
  gama_last ▸ gama_le h (Nat.le_refl _)

theorem gainQ_eq {dB : Int16} (h : ¬gainOut dB) :
    gainQ dB = pure (gain (2 * dB.toInt + 1440).toNat : Int) ∧
      gain (2 * dB.toInt + 1440).toNat ≤ 32535 := by
  unfold gainOut at h
  obtain ⟨hplace, hle⟩ := gainPlace (x := 2 * dB.toInt + 1440) (by omega) (by omega)
  have hten : dB.toInt * 10 + 7200 = 5 * (2 * dB.toInt + 1440) := by omega
  rw [gainQ, hten, hplace, int16_natCast (by omega), pure_bind, look_linearGainTable hle]
  exact ⟨rfl, gain_1800 ▸ gain_le hle (Nat.le_refl _)⟩

/-- The divisor of an F1F1 filter. -/
def f1f1Divisor (w₁ w₂ : Nat) : Nat := (16777216 + (w₁ + w₂) * 4096 + w₁ * w₂) / 4096

theorem f1f1Divisor_spec (w₁ w₂ : Nat) :
    f1f1Divisor w₁ w₂ = 4096 + w₁ + w₂ + w₁ * w₂ / 4096 ∧
      (4096 + w₁) * (4096 + w₂) = 16777216 + (w₁ + w₂) * 4096 + w₁ * w₂ := by
  constructor
  · rw [f1f1Divisor]
    omega
  · ring

/-- A of an F1F1 filter. -/
theorem f1f1_sum_mem (w₁ w₂ : Nat) :
    (-(8192 * (f1f1Divisor w₁ w₂ : Int)) ≤ (((w₁ * w₂ : Nat) : Int) - 2 ^ 24) * 2 ∧
      (((w₁ * w₂ : Nat) : Int) - 2 ^ 24) * 2 < 8192 * (f1f1Divisor w₁ w₂ : Int)) ∧
    -(4096 * (f1f1Divisor w₁ w₂ : Int)) ≤
        (2 : Int) ^ 24 - ((w₁ + w₂) * 4096 : Nat) + (w₁ * w₂ : Nat) ∧
      (2 : Int) ^ 24 - ((w₁ + w₂) * 4096 : Nat) + (w₁ * w₂ : Nat)
        ≤ 4096 * (f1f1Divisor w₁ w₂ : Int) := by
  have hzero : w₁ + w₂ = 0 → w₁ * w₂ = 0 := by
    intro h
    rw [Nat.eq_zero_of_add_eq_zero_right h, Nat.zero_mul]
  obtain ⟨hD, -⟩ := f1f1Divisor_spec w₁ w₂
  omega

/-- B of an F1F1 filter, in gains that the tables hold. -/
theorem f1f1_product_le (w₁ w₂ : Nat) {x y : Nat} (hx : 4096 * x ≤ 32535 * (4096 + w₁))
    (hy : 4096 * y ≤ 32535 * (4096 + w₂)) : 4 * (x * y) ≤ 1048576 * f1f1Divisor w₁ w₂ := by
  have hmul := Nat.mul_le_mul hx hy
  obtain ⟨hdiv, hprod⟩ := f1f1Divisor_spec w₁ w₂
  have hle : (4096 + w₁) * (4096 + w₂) ≤ 4097 * f1f1Divisor w₁ w₂ := by
    rw [hprod, hdiv]
    omega
  have hsq : 4096 * x * (4096 * y) = 16777216 * (x * y) := by ring
  have hgain : 32535 * (4096 + w₁) * (32535 * (4096 + w₂))
      = 1058526225 * ((4096 + w₁) * (4096 + w₂)) := by ring
  rw [hsq, hgain] at hmul
  linarith

/-- What a design leaves for the adjustment and the stores. -/
structure Hpf.Within (h : Hpf) : Prop where
  b0_mem : -(2097152 : Int) ≤ h.b0 ∧ h.b0 ≤ 2097152
  b1_mem : -(2097152 : Int) ≤ h.b1 ∧ h.b1 ≤ 2097152
  b2_mem : -(2097152 : Int) ≤ h.b2 ∧ h.b2 ≤ 2097152
  a1_mem : -32768 ≤ h.a1 ∧ h.a1 < 32768
  a2_mem : -32768 ≤ h.a2 ∧ h.a2 < 32768

theorem f1f1Quotients_eq {w₁ w₂ g₁₀ g₁₁ g₂₀ g₂₁ : Nat} (hw₁ : w₁ ≤ 5592064)
    (hw₂ : w₂ ≤ 5592064) (h₁₀ : g₁₀ ≤ 32535) (h₁₁ : g₁₁ ≤ 32535) (h₂₀ : g₂₀ ≤ 32535)
    (h₂₁ : g₂₁ ≤ 32535) :
    ∃ h : Hpf, f1f1Quotients w₁ w₂ g₁₀ g₁₁ g₂₀ g₂₁ = pure h ∧ h.Within := by
  -- the products that 64 bits hold
  have hp₁ : g₁₀ * w₁ ≤ 32535 * w₁ := Nat.mul_le_mul_right w₁ h₁₀
  have hp₂ : g₂₀ * w₂ ≤ 32535 * w₂ := Nat.mul_le_mul_right w₂ h₂₀
  obtain ⟨x, hx⟩ : ∃ x, g₁₀ * w₁ / 4096 = x := ⟨_, rfl⟩
  obtain ⟨y, hy⟩ : ∃ y, g₂₀ * w₂ / 4096 = y := ⟨_, rfl⟩
  have hasr₁ : asr ((g₁₀ * w₁ : Nat) : Int) 12 = (x : Int) :=
    (asr_natCast _ 12).trans (congrArg Nat.cast hx)
  have hasr₂ : asr ((g₂₀ * w₂ : Nat) : Int) 12 = (y : Int) :=
    (asr_natCast _ 12).trans (congrArg Nat.cast hy)
  have hxle : x ≤ 44418408 := by omega
  have hyle : y ≤ 44418408 := by omega
  have hb := f1f1_product_le w₁ w₂ (x := g₁₁ + x) (y := g₂₁ + y) (by omega)
    (by omega)
  have hsum : (g₁₁ + x) * (g₂₁ + y) = g₁₁ * g₂₁ + (x * g₂₁ + y * g₁₁) + x * y := by ring
  have he₀ : g₁₁ * g₂₁ ≤ 32535 * 32535 := Nat.mul_le_mul h₁₁ h₂₁
  have he₁ : x * g₂₁ ≤ 44418408 * 32535 := Nat.mul_le_mul hxle h₂₁
  have he₁' : y * g₁₁ ≤ 44418408 * 32535 := Nat.mul_le_mul hyle h₁₁
  have he₂ : x * y ≤ 44418408 * 44418408 := Nat.mul_le_mul hxle hyle
  have ha₂ : w₁ * w₂ ≤ 5592064 * 5592064 := Nat.mul_le_mul hw₁ hw₂
  obtain ⟨hq₃, hq₄⟩ := f1f1_sum_mem w₁ w₂
  obtain ⟨hD, -⟩ := f1f1Divisor_spec w₁ w₂
  rw [hsum] at hb
  -- the sums
  have hW₁ : int64 ((g₁₀ : Int) * w₁) = pure ((g₁₀ * w₁ : Nat) : Int) :=
    int64_natCast (n := g₁₀ * w₁) (by omega)
  have hW₂ : int64 ((g₂₀ : Int) * w₂) = pure ((g₂₀ * w₂ : Nat) : Int) :=
    int64_natCast (n := g₂₀ * w₂) (by omega)
  have hb₀ : int64 ((g₁₁ : Int) * g₂₁) = pure ((g₁₁ * g₂₁ : Nat) : Int) :=
    int64_natCast (n := g₁₁ * g₂₁) (by omega)
  have hx₁ : int64 ((x : Int) * g₂₁) = pure ((x * g₂₁ : Nat) : Int) :=
    int64_natCast (n := x * g₂₁) (by omega)
  have hy₁ : int64 ((y : Int) * g₁₁) = pure ((y * g₁₁ : Nat) : Int) :=
    int64_natCast (n := y * g₁₁) (by omega)
  have hb₂ : int64 ((x : Int) * y) = pure ((x * y : Nat) : Int) :=
    int64_natCast (n := x * y) (by omega)
  have ha₁ : int64 (((w₁ : Int) + w₂) * 2 ^ 12) = pure (((w₁ + w₂) * 4096 : Nat) : Int) :=
    int64_natCast (n := (w₁ + w₂) * 4096) (by omega)
  have ha₂' : int64 ((w₁ : Int) * w₂) = pure ((w₁ * w₂ : Nat) : Int) :=
    int64_natCast (n := w₁ * w₂) (by omega)
  have hasr : asr ((2 : Int) ^ 24 + ((w₁ + w₂) * 4096 : Nat) + (w₁ * w₂ : Nat)) 12
      = (f1f1Divisor w₁ w₂ : Int) := asr_natCast (16777216 + (w₁ + w₂) * 4096 + w₁ * w₂) 12
  generalize f1f1Divisor w₁ w₂ = D at hb hD hasr hq₃ hq₄
  generalize g₁₁ * g₂₁ = e₀ at hb he₀ hb₀
  generalize x * g₂₁ = u at hb he₁ hx₁
  generalize y * g₁₁ = v at hb he₁' hy₁
  generalize x * y = e₂ at hb he₂ hb₂
  generalize w₁ * w₂ = a₂ at hD ha₂ ha₂' hasr hq₃ hq₄
  have hDpos : (0 : Int) < D := by omega
  -- the quotients
  have hq₀ : -(1048576 * (D : Int)) ≤ ((e₀ : Int) + ((u : Int) + v) + e₂) * 2 ^ 2 ∧
      ((e₀ : Int) + ((u : Int) + v) + e₂) * 2 ^ 2 ≤ 1048576 * (D : Int) := by omega
  have hq₁ : -(2097152 * (D : Int)) ≤ ((e₂ : Int) - e₀) * 2 ^ 3 ∧
      ((e₂ : Int) - e₀) * 2 ^ 3 ≤ 2097152 * (D : Int) := by omega
  have hq₂ : -(1048576 * (D : Int)) ≤ ((e₀ : Int) - ((u : Int) + v) + e₂) * 2 ^ 2 ∧
      ((e₀ : Int) - ((u : Int) + v) + e₂) * 2 ^ 2 ≤ 1048576 * (D : Int) := by omega
  have hm₀ := tdiv_mem hDpos hq₀
  have hm₁ := tdiv_mem hDpos hq₁
  have hm₂ := tdiv_mem hDpos hq₂
  have hm₃ := tdiv_mem hDpos ⟨hq₃.1, hq₃.2.le⟩
  have hm₄ := tdiv_mem hDpos hq₄
  have hlt₃ : (((a₂ : Int) - 2 ^ 24) * 2).tdiv D < 8192 := by
    rcases Int.le_total 0 (((a₂ : Int) - 2 ^ 24) * 2) with h | h
    · rw [Int.tdiv_eq_ediv_of_nonneg h]
      exact Int.ediv_lt_of_lt_mul hDpos hq₃.2
    · have := Int.tdiv_le_tdiv hDpos h
      rw [Int.zero_tdiv] at this
      omega
  refine ⟨⟨_, _, _, (((a₂ : Int) - 2 ^ 24) * 2).tdiv D * 2 ^ 2,
    ((2 : Int) ^ 24 - ((w₁ + w₂) * 4096 : Nat) + a₂).tdiv D * 2 ^ 2⟩, ?_,
    ⟨⟨hm₀.1.trans' (by decide), hm₀.2.trans (by decide)⟩, hm₁,
      ⟨hm₂.1.trans' (by decide), hm₂.2.trans (by decide)⟩, by dsimp only; omega,
      by dsimp only; omega⟩⟩
  rw [f1f1Quotients, hW₁, pure_bind, hW₂, pure_bind, hb₀, pure_bind, hasr₁, hasr₂, hx₁, pure_bind,
    hy₁, pure_bind, int64_eq_pure (by omega), pure_bind, hb₂, pure_bind, ha₁, pure_bind, ha₂',
    pure_bind, int64_eq_pure (by omega), pure_bind, hasr, int64_eq_pure (by omega), pure_bind,
    int64_eq_pure (by omega), pure_bind, quot64_of_bounded hDpos (by decide) hq₀, pure_bind,
    int32_eq_pure (by omega), pure_bind, int64_eq_pure (by omega), pure_bind,
    int64_eq_pure (by omega), pure_bind, quot64_of_bounded hDpos (by decide) hq₁, pure_bind,
    int32_eq_pure (by omega), pure_bind, int64_eq_pure (by omega), pure_bind,
    int64_eq_pure (by omega), pure_bind, quot64_of_bounded hDpos (by decide) hq₂, pure_bind,
    int32_eq_pure (by omega), pure_bind, int64_eq_pure (by omega), pure_bind,
    int64_eq_pure (by omega), pure_bind,
    quot64_of_bounded hDpos (by decide) ⟨hq₃.1, hq₃.2.le⟩, pure_bind, int32_eq_pure (by omega),
    pure_bind, int64_eq_pure (by omega), pure_bind, quot64_of_bounded hDpos (by decide) hq₄,
    pure_bind, int32_eq_pure (by omega), pure_bind]
  rfl

/-- An F1F1 filter whose poles are in the table is within the bounds. -/
theorem lcfF1f1_eq {p : LcfF1f1Param} {Q₁ Q₂ : Int} {i j : Nat} (hQ₁ : Q₁.tdiv 2 = i)
    (hQ₂ : Q₂.tdiv 2 = j) (hi : i ≤ 2047) (hj : j ≤ 2047) (h10 : ¬gainOut p.f1_g0)
    (h11 : ¬gainOut p.f1_g1) (h20 : ¬gainOut p.f2_g0) (h21 : ¬gainOut p.f2_g1) :
    ∃ h : Hpf, lcfF1f1 p Q₁ Q₂ = pure h ∧ h.Within := by
  obtain ⟨hg10, hle10⟩ := gainQ_eq h10
  obtain ⟨hg11, hle11⟩ := gainQ_eq h11
  obtain ⟨hg20, hle20⟩ := gainQ_eq h20
  obtain ⟨hg21, hle21⟩ := gainQ_eq h21
  rw [lcfF1f1, wpOf_eq hQ₁ hi, pure_bind, wpOf_eq hQ₂ hj, pure_bind, hg10, pure_bind, hg11,
    pure_bind, hg20, pure_bind, hg21, pure_bind]
  exact f1f1Quotients_eq (gama_le_last hi) (gama_le_last hj) hle10 hle11 hle20 hle21

/-- A Butterworth filter whose pole is inside the table is within the bounds. -/
theorem lcfButterworth_eq (lcf_gain : Int16) {Q : Int} {i : Nat} (hQ : Q.tdiv 2 = i) (h1 : 1 ≤ i)
    (hi : i ≤ 2047) : ∃ h : Hpf, lcfButterworth lcf_gain Q = pure h ∧ h.Within := by
  have hnum := cosine_le_full (i := i) (by omega)
  have hden := cosine_le (i := 1) (j := 2048 - i) (by omega) (by omega)
  have hden0 := cosine_pos (i := 2048 - i) (by omega)
  have hnum0 := cosine_pos hi
  rw [cosine_one] at hden
  have hshift : int32 ((cosine i : Int) * 2 ^ 14) = pure ((cosine i * 16384 : Nat) : Int) :=
    int32_natCast (n := cosine i * 16384) (by omega)
  -- the tangent is at most that of the table's end, and its inverse too
  have hKle : cosine i * 16384 / cosine (2048 - i) ≤ 22369621 :=
    (Nat.div_le_div (Nat.mul_le_mul_right 16384 hnum) hden0 (by decide)).trans (by decide)
  have hKge : 12 ≤ cosine i * 16384 / cosine (2048 - i) :=
    (Nat.div_le_div (Nat.mul_le_mul_right 16384 hnum0) hden (by omega)).trans' (by decide)
  rw [lcfButterworth, hQ, look_cosTable (by omega), pure_bind, hshift, pure_bind,
    show (2048 : Int) - i = ((2048 - i : Nat) : Int) by omega, look_cosTable (by omega), pure_bind,
    quot_natCast (by omega) (by omega), pure_bind]
  generalize cosine i * 16384 / cosine (2048 - i) = K at hKle hKge ⊢
  have hQle : 268435456 / K ≤ 22369621 :=
    (Nat.div_le_div_left hKge (by decide)).trans (by decide)
  have hinv : quot (2 ^ 28) K = pure ((268435456 / K : Nat) : Int) :=
    quot_natCast (m := 268435456) (by omega) (by decide)
  rw [hinv, pure_bind]
  generalize 268435456 / K = L at hQle ⊢
  have hgain := mul_mem (x := lcf_gain.toInt) (m := 32768) (y := (K : Int)) (n := K)
    (by
      have := lcf_gain.le_toInt
      have := lcf_gain.toInt_lt
      omega) (by omega)
  have hD : (0 : Int) < (K : Int) + 23170 + L := by omega
  have hq₀ : -(32767 * ((K : Int) + 23170 + L)) ≤ -(lcf_gain.toInt * K) ∧
      -(lcf_gain.toInt * K) ≤ 32767 * ((K : Int) + 23170 + L) := by omega
  have hq₁ : -(32767 * ((K : Int) + 23170 + L)) ≤ ((L : Int) - K) * 2 ^ 15 ∧
      ((L : Int) - K) * 2 ^ 15 ≤ 32767 * ((K : Int) + 23170 + L) := by omega
  have hq₂ : -(16384 * ((K : Int) + 23170 + L)) ≤ ((K : Int) - 23170 + L) * 2 ^ 14 ∧
      ((K : Int) - 23170 + L) * 2 ^ 14 ≤ 16384 * ((K : Int) + 23170 + L) := by omega
  have hm₀ := tdiv_mem hD hq₀
  have hm₁ := tdiv_mem hD hq₁
  have hm₂ := tdiv_mem hD hq₂
  rw [int64_eq_pure (by omega), pure_bind, int64_eq_pure (by omega), pure_bind,
    int64_eq_pure (by omega), pure_bind, int64_eq_pure (by omega), pure_bind,
    int64_eq_pure (by omega), pure_bind, int32_eq_pure (by omega), pure_bind,
    int64_eq_pure (by omega), pure_bind, quot64_of_bounded hD (by decide) hq₀, pure_bind,
    int32_eq_pure (by omega), pure_bind]
  generalize (-(lcf_gain.toInt * K)).tdiv ((K : Int) + 23170 + L) = gain at hm₀ ⊢
  have hBUT : -32767 ≤ (if gain = 0 then -1 else gain) ∧ (if gain = 0 then -1 else gain) ≤ 32767 := by
    split <;> omega
  generalize (if gain = 0 then -1 else gain) = B at hBUT ⊢
  refine ⟨⟨B, -B * 2, B, (((L : Int) - K) * 2 ^ 15).tdiv ((K : Int) + 23170 + L),
    (((K : Int) - 23170 + L) * 2 ^ 14).tdiv ((K : Int) + 23170 + L)⟩, ?_,
    ⟨by dsimp only; omega, by dsimp only; omega, by dsimp only; omega, by dsimp only; omega,
      by dsimp only; omega⟩⟩
  dsimp only
  rw [int32_eq_pure (by omega), pure_bind, int32_eq_pure (by omega), pure_bind,
    quot64_of_bounded hD (by decide) hq₁, pure_bind, int32_eq_pure (by omega), pure_bind,
    quot64_of_bounded hD (by decide) hq₂, pure_bind, int32_eq_pure (by omega), pure_bind]

/-! ## The end of a design -/

/-- Where the gain is kept, B is as it was, and above the coefficient of the all-pass. -/
theorem adjust_ne_allPass {B0 B1 B2 : Int} (h0 : -(2097152 : Int) ≤ B0 ∧ B0 ≤ 2097152)
    (h1 : -(2097152 : Int) ≤ B1 ∧ B1 ≤ 2097152) (h2 : -(2097152 : Int) ≤ B2 ∧ B2 ≤ 2097152)
    {b0 b2 : Int} : adjust B0 B1 B2 4096 ≠ pure (b0, -32768, b2, 4096) := by
  intro hadjust
  have habso : ∀ x : Int, x ≤ abso x ∧ -x ≤ abso x ∧
      (-(2097152 : Int) ≤ x ∧ x ≤ 2097152 → abso x ≤ 2097152) := by
    intro x
    unfold abso
    split <;> omega
  have hB0 := habso B0
  have hB1 := habso B1
  have hB2 := habso B2
  obtain ⟨m, hm⟩ : ∃ m : Nat, max (max (abso B0) (abso B1)) (abso B2) = m :=
    ⟨_, (Int.toNat_of_nonneg (by omega)).symm⟩
  obtain ⟨hle, hpow⟩ := halvings_spec m m (Nat.le_refl m)
  rw [adjust, hm, Int.toNat_natCast] at hadjust
  by_cases hn : nBit m = 0
  · rw [if_pos hn] at hadjust
    rw [nBit] at hn
    rw [hn, Nat.pow_zero, Nat.div_one] at hle
    have hval := congrArg Calc.val hadjust
    simp only [val_pure, Option.some.injEq, Prod.mk.injEq] at hval
    omega
  · have hpow' := hpow.resolve_left hn
    have htwo : 2 ≤ 2 ^ nBit m := by
      calc 2 = 2 ^ 1 := rfl
        _ ≤ 2 ^ nBit m := Nat.pow_le_pow_right (by decide) (Nat.pos_of_ne_zero hn)
    rw [← nBit] at hpow'
    have hcast : (4096 : Int) * 2 ^ nBit m = ((4096 * 2 ^ nBit m : Nat) : Int) := by
      rw [Nat.cast_mul, Nat.cast_pow]
      rfl
    rw [if_neg hn, hcast, int32_natCast (by omega), pure_bind] at hadjust
    have hval := congrArg Calc.val hadjust
    simp only [val_pure, Option.some.injEq, Prod.mk.injEq] at hval
    obtain ⟨-, -, -, hS⟩ := hval
    split at hS <;> omega

/-- A design within its bounds is stored, and is not the all-pass. -/
theorem lcfStore_eq {h : Hpf} (hw : h.Within) :
    ∃ (para : IirPara) (S : Int), lcfStore h = pure (true, para, S) ∧
      (para, S) ≠ (lcfAllPass, 4096) := by
  obtain ⟨b0, b1, b2, s, hadjust, hb0, hb1, hb2, hs⟩ := adjust_eq h.b0 h.b1 h.b2
    (M := 2097152) (G := 4096) hw.b0_mem hw.b1_mem hw.b2_mem (by decide) (by decide)
  refine ⟨⟨b0, b1, b2, 16384, h.a1, h.a2⟩, s, ?_, fun heq => ?_⟩
  · have hadjust' : adjust h.b0 h.b1 h.b2 4096 = pure (b0, b1, b2, s) := hadjust
    rw [lcfStore, hadjust', pure_bind]
    change (store16 s >>= _) = _
    rw [store16_eq_pure (by omega), pure_bind, store16_eq_pure hb0, pure_bind, store16_eq_pure hb1,
      pure_bind, store16_eq_pure hb2, pure_bind, store16_eq_pure hw.a1_mem, pure_bind,
      store16_eq_pure hw.a2_mem, pure_bind]
  · rw [lcfAllPass] at heq
    simp only [Prod.mk.injEq, IirPara.mk.injEq] at heq
    obtain ⟨⟨-, rfl, -⟩, rfl⟩ := heq
    exact adjust_ne_allPass hw.b0_mem hw.b1_mem hw.b2_mem hadjust

/-! ## The frequencies that pass the checks -/

section Frequencies

variable {α : Type} {fp : Int16} {fs : Int32}

theorem inOrder_pure {α : Type} (a : α) : InOrder (pure a : Calc α) := ⟨rfl, by simp⟩

theorem not_inOrder_of_none {t : Calc α} (h : t.val = none) : ¬InOrder t := by
  intro hin
  have := hin.1
  rw [h] at this
  cases this

theorem poleQ_eq (fp : Int16) (hfs : 0 < fs.toInt) : ∃ l : List Fault, (∀ f ∈ l, f = .narrowed) ∧
    poleQ fp fs = ⟨some (poleQuotient fp fs), l⟩ := by
  have hlo := fp.le_toInt
  have hhi := fp.toInt_lt
  have hq : -(268435456 * fs.toInt) ≤ fp.toInt * 2 ^ 13 ∧
      fp.toInt * 2 ^ 13 ≤ 268435456 * fs.toInt := by omega
  rw [poleQ, int32_eq_pure (by omega), pure_bind, quot_of_bounded hfs (by decide) hq, pure_bind]
  refine ⟨_, fun f hf => ?_, rfl⟩
  split at hf
  · cases hf
  · exact List.mem_singleton.mp hf

/-- A frequency does not fail the design before it is used. -/
theorem inOrder_poleQ_bind (fp : Int16) (hfs : 0 < fs.toInt) (f : Int → Calc α) :
    (InOrder (poleQ fp fs >>= f) ↔ InOrder (f (poleQuotient fp fs))) ∧
      (poleQ fp fs >>= f).val = (f (poleQuotient fp fs)).val := by
  obtain ⟨l, hl, hval⟩ := poleQ_eq fp hfs
  rw [hval, bind_of_val rfl]
  refine ⟨⟨fun h => ⟨h.1, fun k hk => h.2 k (List.mem_append_right _ hk)⟩,
    fun h => ⟨h.1, fun k hk => ?_⟩⟩, rfl⟩
  rcases List.mem_append.mp hk with hk | hk
  · exact .inr (hl k hk)
  · exact h.2 k hk

theorem poleQuotient_of_in (h : FrequencyIn fp fs) :
    0 ≤ poleQuotient fp fs ∧ poleQuotient fp fs < 4096 := by
  obtain ⟨h0, hlt⟩ := h
  have hquot : (fp.toInt * 2 ^ 13).tdiv fs.toInt = fp.toInt * 2 ^ 13 / fs.toInt :=
    Int.tdiv_eq_ediv_of_nonneg (by omega)
  have hnonneg : 0 ≤ fp.toInt * 2 ^ 13 / fs.toInt := Int.ediv_nonneg (by omega) (by omega)
  have hupper : fp.toInt * 2 ^ 13 / fs.toInt < 4096 := Int.ediv_lt_of_lt_mul (by omega) (by omega)
  rw [poleQuotient, hquot, Int.bmod_eq_of_le (by omega) (by omega)]
  exact ⟨hnonneg, hupper⟩

/-- Below -1, the place of the sine is outside the table. -/
theorem wpOf_of_neg {Q : Int} (h : Q.tdiv 2 < 0) : (wpOf Q).val = none := by
  rw [wpOf, look_eq_stuck (by rw [length_cosTable]; omega)]
  rfl

end Frequencies

theorem lcfF1f1_of_neg {p : LcfF1f1Param} {Q₁ Q₂ : Int} (h₁ : Q₁.tdiv 2 ≤ 2047)
    (h : Q₁.tdiv 2 < 0 ∨ Q₂.tdiv 2 < 0) : (lcfF1f1 p Q₁ Q₂).val = none := by
  rw [lcfF1f1]
  by_cases hneg : Q₁.tdiv 2 < 0
  · exact val_bind_of_none (wpOf_of_neg hneg) _
  · obtain ⟨i, hi⟩ := Int.eq_ofNat_of_zero_le (show 0 ≤ Q₁.tdiv 2 by omega)
    rw [wpOf_eq hi (by omega), pure_bind]
    exact val_bind_of_none (wpOf_of_neg (h.resolve_left hneg)) _

theorem lcfButterworth_of_out (lcf_gain : Int16) {Q : Int} (h : Q.tdiv 2 < 0 ∨ 2048 ≤ Q.tdiv 2) :
    (lcfButterworth lcf_gain Q).val = none := by
  have hlen := length_cosTable
  rw [lcfButterworth]
  by_cases hlast : Q.tdiv 2 = 2048
  · -- half the sample rate: the cosine is zero, and K is
    rw [hlast, show (2048 : Int) = (2048 : Nat) from rfl, look_cosTable (Nat.le_refl _), pure_bind,
      cosine_2048, show int32 (((0 : Nat) : Int) * 2 ^ 14) = pure 0 from rfl, pure_bind,
      show ((2048 : Nat) : Int) - (2048 : Nat) = (0 : Nat) from rfl, look_cosTable (by decide),
      pure_bind, cosine_zero]
    rfl
  · have hstuck : look cosTable (Q.tdiv 2) = stuck .index := look_eq_stuck (by omega)
    rw [hstuck]
    rfl

/-- The parameters for which `Rec_Filter_CalcLCF` is total. -/
def LcfCalcPara.Sound (p : LcfCalcPara) (fs : Int32) : Prop :=
  fs.toInt ≤ 0 ∨ p.isFilterOn = false ∨
    match p.eLcfParaType with
    | .f1f1 =>
      (gainOut p.lcfPara.f1_g0 ∨ gainOut p.lcfPara.f1_g1 ∨ gainOut p.lcfPara.f2_g0 ∨
        gainOut p.lcfPara.f2_g1) ∨
      4096 ≤ poleQuotient p.lcfPara.f1_fp fs ∨ 4096 ≤ poleQuotient p.lcfPara.f2_fp fs ∨
      FrequencyIn p.lcfPara.f1_fp fs ∧ FrequencyIn p.lcfPara.f2_fp fs
    | .butterworth =>
      (-1 ≤ poleQuotient p.fp fs ∧ poleQuotient p.fp fs ≤ 1) ∨ FrequencyIn p.fp fs
    | _ => True

/-- What is rejected is in order, and leaves the all-pass. -/
theorem lcfTotal_of_rejected {p : LcfCalcPara} {lcf_gain : Int16} {fs : Int32} {ret : Bool}
    (hin : InOrder (recFilterCalcLCF p lcf_gain fs))
    (hval : (recFilterCalcLCF p lcf_gain fs).val = some (ret, lcfAllPass, 4096)) :
    LcfTotal p lcf_gain fs := ⟨hin, fun _ _ => ⟨ret, hval⟩⟩

theorem lcfTotal_of_eq {p : LcfCalcPara} {lcf_gain : Int16} {fs : Int32} {ret : Bool}
    (h : recFilterCalcLCF p lcf_gain fs = pure (ret, lcfAllPass, 4096)) :
    LcfTotal p lcf_gain fs :=
  lcfTotal_of_rejected (h ▸ inOrder_pure _) (congrArg Calc.val h)

/-- A design that is not rejected is in order exactly if its places are in the table, and is not
what is left for a rejected one. -/
theorem lcfStore_bind {t : Calc Hpf} {h : Hpf} (ht : t = pure h) (hw : h.Within) :
    InOrder (t >>= lcfStore) ∧ ∀ ret, (t >>= lcfStore).val ≠ some (ret, lcfAllPass, 4096) := by
  obtain ⟨para, S, heq, hne⟩ := lcfStore_eq hw
  rw [ht, pure_bind, heq]
  refine ⟨inOrder_pure _, fun ret hval => hne ?_⟩
  rw [val_pure, Option.some.injEq, Prod.mk.injEq] at hval
  exact hval.2

theorem lcfTotal_butterworth_iff {p : LcfCalcPara} (lcf_gain : Int16) {fs : Int32}
    (hfs : 0 < fs.toInt) (hon : p.isFilterOn = true) (htype : p.eLcfParaType = .butterworth) :
    LcfTotal p lcf_gain fs ↔
      (-1 ≤ poleQuotient p.fp fs ∧ poleQuotient p.fp fs ≤ 1) ∨ FrequencyIn p.fp fs := by
  have hrun : recFilterCalcLCF p lcf_gain fs = poleQ p.fp fs >>= fun Q =>
      if Q.tdiv 2 = 0 then pure (true, lcfAllPass, 4096)
      else lcfButterworth lcf_gain Q >>= lcfStore := by
    rw [recFilterCalcLCF, if_neg (by omega), if_neg (by rw [hon]; decide), htype]
  have hunusable : p.Unusable fs ↔ ¬FrequencyIn p.fp fs := by rw [LcfCalcPara.Unusable, htype]
  obtain ⟨hin, hval⟩ := inOrder_poleQ_bind p.fp hfs fun Q =>
      if Q.tdiv 2 = 0 then pure (true, lcfAllPass, 4096)
      else lcfButterworth lcf_gain Q >>= lcfStore
  rw [← hrun] at hin hval
  have hhalf := tdiv_two (poleQuotient p.fp fs)
  by_cases hzero : (poleQuotient p.fp fs).tdiv 2 = 0
  · rw [if_pos hzero] at hin hval
    exact iff_of_true (lcfTotal_of_rejected (hin.mpr (inOrder_pure _)) hval) (.inl (by omega))
  · rw [if_neg hzero] at hin hval
    by_cases hplace : (poleQuotient p.fp fs).tdiv 2 < 0 ∨ 2048 ≤ (poleQuotient p.fp fs).tdiv 2
    · refine iff_of_false (fun h => ?_) (fun h => ?_)
      · exact not_inOrder_of_none (val_bind_of_none (lcfButterworth_of_out lcf_gain hplace) _)
          (hin.mp h.1)
      · rcases h with h | h
        · omega
        · have := poleQuotient_of_in h
          omega
    · obtain ⟨i, hi⟩ := Int.eq_ofNat_of_zero_le (show 0 ≤ (poleQuotient p.fp fs).tdiv 2 by omega)
      obtain ⟨h, heq, hw⟩ := lcfButterworth_eq lcf_gain hi (by omega) (by omega)
      obtain ⟨hstored, hne⟩ := lcfStore_bind heq hw
      constructor
      · intro htotal
        by_contra hout
        obtain ⟨ret, hret⟩ := htotal.2 hon (hunusable.mpr fun h => hout (.inr h))
        exact hne ret (hval ▸ hret)
      · rintro (h | h)
        · omega
        · exact ⟨hin.mpr hstored, fun _ hbad => absurd h (hunusable.mp hbad)⟩

theorem lcfTotal_f1f1_iff {p : LcfCalcPara} (lcf_gain : Int16) {fs : Int32}
    (hfs : 0 < fs.toInt) (hon : p.isFilterOn = true) (htype : p.eLcfParaType = .f1f1)
    (h10 : ¬gainOut p.lcfPara.f1_g0) (h11 : ¬gainOut p.lcfPara.f1_g1)
    (h20 : ¬gainOut p.lcfPara.f2_g0) (h21 : ¬gainOut p.lcfPara.f2_g1) :
    LcfTotal p lcf_gain fs ↔
      4096 ≤ poleQuotient p.lcfPara.f1_fp fs ∨ 4096 ≤ poleQuotient p.lcfPara.f2_fp fs ∨
      FrequencyIn p.lcfPara.f1_fp fs ∧ FrequencyIn p.lcfPara.f2_fp fs := by
  have hrun : recFilterCalcLCF p lcf_gain fs = poleQ p.lcfPara.f1_fp fs >>= fun Q₁ =>
      if Q₁.tdiv 2 ≥ 2048 then pure (true, lcfAllPass, 4096)
      else poleQ p.lcfPara.f2_fp fs >>= fun Q₂ =>
        if Q₂.tdiv 2 ≥ 2048 then pure (true, lcfAllPass, 4096)
        else lcfF1f1 p.lcfPara Q₁ Q₂ >>= lcfStore := by
    rw [recFilterCalcLCF, if_neg (by omega), if_neg (by rw [hon]; decide), htype]
    dsimp only
    rw [if_neg h10, if_neg h11, if_neg h20, if_neg h21]
  have hunusable : p.Unusable fs ↔
      ¬FrequencyIn p.lcfPara.f1_fp fs ∨ ¬FrequencyIn p.lcfPara.f2_fp fs := by
    rw [LcfCalcPara.Unusable, htype]
    simp only [h10, h11, h20, h21, or_false]
  obtain ⟨hin₁, hval₁⟩ := inOrder_poleQ_bind p.lcfPara.f1_fp hfs fun Q₁ =>
      if Q₁.tdiv 2 ≥ 2048 then pure (true, lcfAllPass, 4096)
      else poleQ p.lcfPara.f2_fp fs >>= fun Q₂ =>
        if Q₂.tdiv 2 ≥ 2048 then pure (true, lcfAllPass, 4096)
        else lcfF1f1 p.lcfPara Q₁ Q₂ >>= lcfStore
  rw [← hrun] at hin₁ hval₁
  have hhalf₁ := tdiv_two (poleQuotient p.lcfPara.f1_fp fs)
  have hhalf₂ := tdiv_two (poleQuotient p.lcfPara.f2_fp fs)
  by_cases hfirst : (poleQuotient p.lcfPara.f1_fp fs).tdiv 2 ≥ 2048
  · rw [if_pos hfirst] at hin₁ hval₁
    exact iff_of_true (lcfTotal_of_rejected (hin₁.mpr (inOrder_pure _)) hval₁) (.inl (by omega))
  rw [if_neg hfirst] at hin₁ hval₁
  obtain ⟨hin₂, hval₂⟩ := inOrder_poleQ_bind p.lcfPara.f2_fp hfs fun Q₂ =>
      if Q₂.tdiv 2 ≥ 2048 then pure (true, lcfAllPass, 4096)
      else lcfF1f1 p.lcfPara (poleQuotient p.lcfPara.f1_fp fs) Q₂ >>= lcfStore
  rw [hin₂] at hin₁
  rw [hval₂] at hval₁
  by_cases hsecond : (poleQuotient p.lcfPara.f2_fp fs).tdiv 2 ≥ 2048
  · rw [if_pos hsecond] at hin₁ hval₁
    exact iff_of_true (lcfTotal_of_rejected (hin₁.mpr (inOrder_pure _)) hval₁)
      (.inr (.inl (by omega)))
  rw [if_neg hsecond] at hin₁ hval₁
  by_cases hneg : (poleQuotient p.lcfPara.f1_fp fs).tdiv 2 < 0 ∨
      (poleQuotient p.lcfPara.f2_fp fs).tdiv 2 < 0
  · refine iff_of_false (fun h => ?_) (fun h => ?_)
    · exact not_inOrder_of_none (val_bind_of_none (lcfF1f1_of_neg (by omega) hneg) _)
        (hin₁.mp h.1)
    · rcases h with h | h | ⟨h1, h2⟩
      · omega
      · omega
      · have := poleQuotient_of_in h1
        have := poleQuotient_of_in h2
        omega
  · obtain ⟨i, hi⟩ := Int.eq_ofNat_of_zero_le
      (show 0 ≤ (poleQuotient p.lcfPara.f1_fp fs).tdiv 2 by omega)
    obtain ⟨j, hj⟩ := Int.eq_ofNat_of_zero_le
      (show 0 ≤ (poleQuotient p.lcfPara.f2_fp fs).tdiv 2 by omega)
    obtain ⟨h, heq, hw⟩ := lcfF1f1_eq hi hj (by omega) (by omega) h10 h11 h20 h21
    obtain ⟨hstored, hne⟩ := lcfStore_bind heq hw
    constructor
    · intro htotal
      by_contra hout
      have hbad : ¬FrequencyIn p.lcfPara.f1_fp fs ∨ ¬FrequencyIn p.lcfPara.f2_fp fs := by
        by_contra hboth
        push Not at hboth
        exact hout (.inr (.inr hboth))
      obtain ⟨ret, hret⟩ := htotal.2 hon (hunusable.mpr hbad)
      exact hne ret (hval₁ ▸ hret)
    · rintro (h | h | ⟨h1, h2⟩)
      · omega
      · omega
      · refine ⟨hin₁.mpr hstored, fun _ hbad => ?_⟩
        rcases hunusable.mp hbad with hbad | hbad
        · exact absurd h1 hbad
        · exact absurd h2 hbad

/-- `Rec_Filter_CalcLCF` fails where a frequency is negative, or wraps in 16 bits, and the check of
its quotient lets it pass; in the Butterworth branch, also from half the sample rate on. -/
theorem lcfTotal_iff_sound (p : LcfCalcPara) (lcf_gain : Int16) (fs : Int32) :
    LcfTotal p lcf_gain fs ↔ p.Sound fs := by
  by_cases hfs : fs.toInt ≤ 0
  · have hrun : recFilterCalcLCF p lcf_gain fs = pure (false, lcfAllPass, 4096) := if_pos hfs
    exact iff_of_true (lcfTotal_of_eq hrun) (.inl hfs)
  by_cases hoff : p.isFilterOn = false
  · have hrun : recFilterCalcLCF p lcf_gain fs = pure (true, lcfAllPass, 4096) :=
      (if_neg hfs).trans (if_pos hoff)
    exact iff_of_true (lcfTotal_of_eq hrun) (.inr (.inl hoff))
  have hon : p.isFilterOn = true := by simpa using hoff
  have hcase : ∀ {c : Prop}, (p.Sound fs ↔ (fs.toInt ≤ 0 ∨ p.isFilterOn = false ∨ c)) →
      (p.Sound fs ↔ c) := fun h => h.trans ((or_iff_right hfs).trans (or_iff_right hoff))
  cases htype : p.eLcfParaType with
  | butterworth =>
    rw [lcfTotal_butterworth_iff lcf_gain (by omega) hon htype]
    exact (hcase (by rw [LcfCalcPara.Sound, htype])).symm
  | f1f1 =>
    have hsound := hcase (c := (gainOut p.lcfPara.f1_g0 ∨ gainOut p.lcfPara.f1_g1 ∨
        gainOut p.lcfPara.f2_g0 ∨ gainOut p.lcfPara.f2_g1) ∨
      4096 ≤ poleQuotient p.lcfPara.f1_fp fs ∨ 4096 ≤ poleQuotient p.lcfPara.f2_fp fs ∨
      FrequencyIn p.lcfPara.f1_fp fs ∧ FrequencyIn p.lcfPara.f2_fp fs)
      (by rw [LcfCalcPara.Sound, htype])
    by_cases hgain : gainOut p.lcfPara.f1_g0 ∨ gainOut p.lcfPara.f1_g1 ∨
        gainOut p.lcfPara.f2_g0 ∨ gainOut p.lcfPara.f2_g1
    · refine iff_of_true (@lcfTotal_of_eq _ _ _ true ?_) (hsound.mpr (.inl hgain))
      rw [recFilterCalcLCF, if_neg hfs, if_neg hoff, htype]
      dsimp only
      rcases hgain with h | h | h | h <;> simp only [h, if_true, ite_self]
    · push Not at hgain
      obtain ⟨h10, h11, h20, h21⟩ := hgain
      rw [lcfTotal_f1f1_iff lcf_gain (by omega) hon htype h10 h11 h20 h21, hsound]
      simp only [h10, h11, h20, h21, false_or]
  | chebyshev =>
    refine iff_of_true (@lcfTotal_of_eq _ _ _ true ?_) (.inr (.inr (by rw [htype]; trivial)))
    rw [recFilterCalcLCF, if_neg hfs, if_neg hoff, htype]
  | bessel =>
    refine iff_of_true (@lcfTotal_of_eq _ _ _ true ?_) (.inr (.inr (by rw [htype]; trivial)))
    rw [recFilterCalcLCF, if_neg hfs, if_neg hoff, htype]
  | elliptical =>
    refine iff_of_true (@lcfTotal_of_eq _ _ _ true ?_) (.inr (.inr (by rw [htype]; trivial)))
    rw [recFilterCalcLCF, if_neg hfs, if_neg hoff, htype]
  | max =>
    refine iff_of_true (@lcfTotal_of_eq _ _ _ true ?_) (.inr (.inr (by rw [htype]; trivial)))
    rw [recFilterCalcLCF, if_neg hfs, if_neg hoff, htype]

end SprdHal.Audio
