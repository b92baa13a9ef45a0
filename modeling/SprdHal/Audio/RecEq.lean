import Mathlib.Tactic.Linarith
import Mathlib.Tactic.Ring
import SprdHal.Audio.RecTables

/-!
# The bands of the recording equalizer (`aud_filter_calc.c`)

`Rec_Filter_CalcEqCoeffs` and `Rec_Filter_CalcEQ` turn the parameters of a band into the
coefficients of a filter. Both begin alike (`fixBand`); the first puts a numerator together from
products that the second divides one by one.
-/

namespace SprdHal.Audio

open SprdHal.Lib Calc

/-- `REC_IIR_FILTER_PARA_T` -/
structure IirPara where
  B0 : Int
  B1 : Int
  B2 : Int
  A0 : Int
  A1 : Int
  A2 : Int
deriving DecidableEq

/-- What both functions know of a band when they come to its coefficients. -/
structure Band where
  Qfo : Int
  Qk : Int
  Qgama : Int
  baseGain : Int
deriving DecidableEq

/-- The head of `Rec_Filter_CalcEqCoeffs` and of `Rec_Filter_CalcEQ`; `none` is the return of
`FALSE`. -/
def fixBand (fo q boostdB basegaindB : Int16) (fs : Int32) : Calc (Option Band) :=
  let fo := fo.toInt
  let fs := fs.toInt
  if fo ≥ asr fs 1 then pure none
  else if fo ≤ 0 then pure none
  else do
    let r ← quot (← int32 (1113 * fo)) fs
    let qMin ← int16 (← int32 (r + 1))
    let q := if q.toInt < qMin then qMin else q.toInt
    let df ← int16 (← quot (← int32 (fo * 2 ^ 9)) q)
    let Qdf ← int16 (← quot (← int32 (df * 2 ^ 13)) fs)
    let Qfo ← int16 (← quot (← int32 (fo * 2 ^ 13)) fs)
    if boostdB.toInt < -720 ∨ boostdB.toInt > 180 then pure none
    else do
      let qkdB ← int16 (boostdB.toInt * 5)
      let qkTableIndex ← int16 ((qkdB + 7200).tdiv 5)
      let Qk ← look linearGainTable qkTableIndex
      if Qdf.tdiv 2 ≥ 2048 then pure none
      else do
        let num ← int32 ((← look cosTable (2048 - Qdf.tdiv 2)) * 2 ^ 12)
        let Qgama ← int16 (← quot num (← look cosTable (Qdf.tdiv 2)))
        if basegaindB.toInt < -720 ∨ basegaindB.toInt > 180 then pure none
        else do
          let basegain_Index ← int16 ((basegaindB.toInt * 10 + 7200).tdiv 5)
          let baseGain ← look linearGainTable basegain_Index
          pure (some ⟨Qfo, Qk, Qgama, baseGain⟩)

/-- The limits that `Rec_Filter_CalcEqCoeffs` puts on a coefficient. -/
def clip (x : Int) : Int := if x > 32767 then 32767 else if x < -32767 then -32767 else x

/-- A coefficient of `Rec_Filter_CalcEqCoeffs` with the base gain, for `EQ_SCALE_FACTOR` 0. -/
def withBaseGain (x baseGain : Int) : Calc Int := do
  store16 (clip (asr (← int32 (x * baseGain)) 12))

/-- The cosine of a frequency up to half the sample rate. -/
def cosineOf (Qfo : Int) : Calc Int :=
  if Qfo ≤ 2048 then look cosTable Qfo
  else do int32 (-(← look cosTable (4096 - Qfo)))

/-- The coefficients of `Rec_Filter_CalcEqCoeffs`, from the parts of the numerators on. -/
def dividedCoefficients (Qfo Qk Qgama baseGain den prod even sum : Int) (filterPara : IirPara) :
    Calc (Bool × IirPara) := do
  let B0 ← withBaseGain (← quot (← int32 (-sum)) den) baseGain
  let filterPara := { filterPara with B0, A0 := -8192 }
  if Qfo > 4096 then pure (false, filterPara)
  else do
    let side ← quot (← int32 ((← cosineOf Qfo) * Qk)) den
    let A1 ← store16 side
    let B1 ← withBaseGain side baseGain
    let B2 ← withBaseGain (← quot (← int32 (-(← int32 (even - prod)))) den) baseGain
    let num ← int32 (-(← int32 ((← int32 (Qk - Qgama)) * 2 ^ 13)))
    let A2 ← store16 (← quot num (← int32 (Qgama + Qk)))
    pure (true, { filterPara with B1, B2, A1, A2 })

/-- The coefficients of `Rec_Filter_CalcEqCoeffs` for a band that is accepted so far. -/
def bandCoefficients (Qfo Qk Qgama baseGain : Int) (filterPara : IirPara) :
    Calc (Bool × IirPara) := do
  let den ← int32 (Qk + Qgama)
  let prod ← int32 (Qgama * asr (← int32 (Qk * Qk)) 11)
  let even ← int32 (2 ^ 13 * Qk)
  let sum ← int32 (even + prod)
  dividedCoefficients Qfo Qk Qgama baseGain den prod even sum filterPara

/-- `Rec_Filter_CalcEqCoeffs` -/
def recFilterCalcEqCoeffs (fo q boostdB basegaindB : Int16) (fs : Int32) (filterPara : IirPara) :
    Calc (Bool × IirPara) := do
  match ← fixBand fo q boostdB basegaindB fs with
  | none => pure (false, filterPara)
  | some ⟨Qfo, Qk, Qgama, baseGain⟩ => bandCoefficients Qfo Qk Qgama baseGain filterPara

/-- `abso` -/
def abso (x : Int) : Int := if x > 0 then x else -x

/-- The loop that halves `m` until 16 bits hold it. -/
def halvings : Nat → Nat → Nat
  | 0, _ => 0
  | fuel + 1, m => if m > 32767 then halvings fuel (m / 2) + 1 else 0

/-- `n_bit` after the loop, which `m` turns are enough for. -/
def nBit (m : Nat) : Nat := halvings m m

/-- The part that prevents the overflow of B: B0, B1, B2 and S, for the gain of the band. -/
def adjust (B0 B1 B2 G : Int) : Calc (Int × Int × Int × Int) := do
  let m := max (max (abso B0) (abso B1)) (abso B2)
  let n := nBit m.toNat
  if n = 0 then pure (B0, B1, B2, G)
  else do
    let S ← int32 (G * 2 ^ n)
    pure (asr B0 n, asr B1 n, asr B2 n, if S > 32767 then 32767 else S)

/-- `REC_FILTER_EQPARA_TYPE_E` -/
inductive EqParaType
  | normalEq
  | lowShelve
  | highShelve
  | max
deriving DecidableEq

/-- `REC_FILTER_EQ_CALC_PARA_T`; the union holds `q` for the one kind that is implemented. -/
structure EqCalcPara where
  isFilterOn : Bool
  eEqParaType : EqParaType
  fo : Int16
  q : Int16
  boostdB : Int16
  basegaindB : Int16

/-- B1 of `Rec_Filter_CalcEQ`. -/
def sideOf (Qfo Qk den : Int) : Calc Int :=
  if Qfo ≤ 2048 then do
    quot (← int32 (-(← int32 ((← int32 ((← look cosTable Qfo) * Qk)) * 2)))) den
  else do
    quot (← int32 ((← int32 ((← look cosTable (4096 - Qfo)) * Qk)) * 2)) den

/-- The coefficients of `Rec_Filter_CalcEQ` for a band that is accepted so far. -/
def eqCoefficients (Qfo Qk Qgama baseGain : Int) (filterPara : IirPara) (sGain : Int) :
    Calc (Bool × IirPara × Int) := do
  let den ← int32 (Qk + Qgama)
  let even ← quot (← int32 (2 ^ 14 * Qk)) den
  let odd ← int32 ((← quot (← int32 (Qgama * Qk)) den) * Qk)
  let B0 ← int32 (even + asr odd 10)
  if Qfo.tdiv 2 ≥ 2048 then pure (false, filterPara, sGain)
  else if Qfo > 4096 then pure (false, filterPara, sGain)
  else do
    let B1 ← sideOf Qfo Qk den
    let A1 := B1
    let B2 ← int32 (even - asr odd 10)
    let A2 ← quot (← int32 ((← int32 (Qk - Qgama)) * 2 ^ 14)) (← int32 (Qgama + Qk))
    let (B0, B1, B2, S) ← adjust B0 B1 B2 baseGain
    let sGain ← store16 S
    let B0 ← store16 B0
    let B1 ← store16 B1
    let B2 ← store16 B2
    let A1 ← store16 A1
    let A2 ← store16 A2
    pure (true, ⟨B0, B1, B2, 16384, A1, A2⟩, sGain)

/-- `Rec_Filter_CalcEQ` -/
def recFilterCalcEQ (p : EqCalcPara) (fs : Int32) (filterPara : IirPara) (sGain : Int) :
    Calc (Bool × IirPara × Int) :=
  if p.isFilterOn then
    match p.eEqParaType with
    | .normalEq => do
      match ← fixBand p.fo p.q p.boostdB p.basegaindB fs with
      | none => pure (false, filterPara, sGain)
      | some ⟨Qfo, Qk, Qgama, baseGain⟩ =>
        eqCoefficients Qfo Qk Qgama baseGain filterPara sGain
    | _ => pure (false, filterPara, sGain)
  else
    pure (true, ⟨16384, 0, 0, 16384, 0, 0⟩, 4096)

/-! ## The head -/

/-- `q` from the least value that it may have. -/
def qFrom (f s : Nat) (q : Int) : Nat := max q.toNat (1113 * f / s + 1)

/-- `Qdf` of a band that is not rejected: its width in parts of the sample rate. -/
def qdf (f s : Nat) (q : Int) : Nat := f * 512 / qFrom f s q * 8192 / s

theorem qFrom_pos (f s : Nat) (q : Int) : 0 < qFrom f s q := by
  exact Nat.lt_of_lt_of_le (Nat.succ_pos _) (Nat.le_max_right _ _)

/-- The least `q` keeps the width of a band below 0.47 of the sample rate. -/
theorem width_lt {f s : Nat} (hs : 0 < s) (q : Int) :
    f * 512 / qFrom f s q * 1113 < 512 * s := by
  have hlt : 1113 * f < qFrom f s q * s := by
    have := Nat.lt_mul_div_succ (1113 * f) hs
    have hle : 1113 * f / s + 1 ≤ qFrom f s q := Nat.le_max_right _ _
    calc 1113 * f < s * (1113 * f / s + 1) := this
      _ ≤ s * qFrom f s q := Nat.mul_le_mul_left s hle
      _ = qFrom f s q * s := Nat.mul_comm _ _
  have hdiv := Nat.div_mul_le_self (f * 512) (qFrom f s q)
  generalize f * 512 / qFrom f s q = d at hdiv
  rcases Nat.eq_zero_or_pos d with rfl | hd
  · rw [Nat.zero_mul]
    exact Nat.mul_pos (by decide) hs
  have hprod : d * 1113 * f < 512 * s * f := by
    calc d * 1113 * f = d * (1113 * f) := Nat.mul_assoc _ _ _
      _ < d * (qFrom f s q * s) := (Nat.mul_lt_mul_left hd).mpr hlt
      _ = d * qFrom f s q * s := (Nat.mul_assoc _ _ _).symm
      _ ≤ f * 512 * s := Nat.mul_le_mul_right s hdiv
      _ = 512 * s * f := by ring
  exact Nat.lt_of_mul_lt_mul_right hprod

theorem parts_le {d s : Nat} (hs : 0 < s) (h : d * 1113 < 512 * s) : d * 8192 / s ≤ 3768 := by
  have hlt : d * 8192 / s < 3769 := by
    rw [Nat.div_lt_iff_lt_mul hs]
    linarith
  exact Nat.le_of_lt_add_one hlt

theorem qdf_le {f s : Nat} (hs : 0 < s) (q : Int) : qdf f s q ≤ 3768 :=
  parts_le hs (width_lt hs q)

/-- The parameters that both functions go on with. -/
structure Accepted (fo boostdB basegaindB : Int) (fs : Int) : Prop where
  fo_pos : 0 < fo
  fo_lt : fo < fs / 2
  boostdB_mem : -720 ≤ boostdB ∧ boostdB ≤ 180
  basegaindB_mem : -720 ≤ basegaindB ∧ basegaindB ≤ 180

/-- The band that is made of parameters that are accepted. -/
def bandOf (f s : Nat) (q boostdB basegaindB : Int) : Band where
  Qfo := (f * 8192 / s : Nat)
  Qk := gain (boostdB + 1440).toNat
  Qgama := gama (qdf f s q / 2)
  baseGain := gain (2 * basegaindB + 1440).toNat

theorem fixBand_rejected_fo {fo q boostdB basegaindB : Int16} {fs : Int32}
    (h : fs.toInt / 2 ≤ fo.toInt ∨ fo.toInt ≤ 0) :
    fixBand fo q boostdB basegaindB fs = pure none := by
  rw [fixBand]
  by_cases hfs : fo.toInt ≥ asr fs.toInt 1
  · exact if_pos hfs
  · have hneg : fo.toInt ≤ 0 := h.resolve_left hfs
    exact (if_neg hfs).trans (if_pos hneg)

theorem qFrom_eq {q : Int} (f s : Nat) :
    (if q < ((1113 * f / s + 1 : Nat) : Int) then ((1113 * f / s + 1 : Nat) : Int) else q)
      = (qFrom f s q : Nat) := by
  rw [qFrom]
  generalize 1113 * f / s + 1 = m
  split <;> omega

/-- A frequency in parts of the sample rate. -/
theorem parts_lt {f s : Nat} (hs : 0 < s) (h : 2 * f < s) : f * 8192 / s < 4096 := by
  rw [Nat.div_lt_iff_lt_mul hs]
  linarith

theorem width_le {d s : Nat} (hs : s ≤ 48000) (h : d * 1113 < 512 * s) : d ≤ 22081 := by
  by_contra hlt
  linarith

/-- The place of a gain of tenths of a decibel, of which the table has two steps each. -/
theorem gainPlace {x : Int} (h0 : 0 ≤ x) (h1 : x ≤ 1800) :
    (5 * x).tdiv 5 = (x.toNat : Int) ∧ x.toNat ≤ 1800 := by
  rw [Int.mul_tdiv_cancel_left x (by decide)]
  omega

theorem gama_of_le {i : Nat} (h : i ≤ 1884) : gama i ≤ 32397 :=
  gama_1884 ▸ gama_le h (by decide)

/-- What both functions know of a band whose frequency they accept. -/
theorem fixBand_eq {fo : Int16} (q boostdB basegaindB : Int16) {fs : Int32} {f s : Nat}
    (hfo : fo.toInt = f) (hfs : fs.toInt = s) (hpos : 0 < f) (hlt : f < s / 2)
    (hs : s ≤ 48000) :
    fixBand fo q boostdB basegaindB fs = pure (
      if boostdB.toInt < -720 ∨ boostdB.toInt > 180 then none
      else if basegaindB.toInt < -720 ∨ basegaindB.toInt > 180 then none
      else some (bandOf f s q.toInt boostdB.toInt basegaindB.toInt)) := by
  have hspos : 0 < s := by omega
  have hqpos := qFrom_pos f s q.toInt
  have hwidth := width_le hs (width_lt (f := f) hspos q.toInt)
  have hqdf := qdf_le (f := f) hspos q.toInt
  have hfoParts := parts_lt hspos (show 2 * f < s by omega)
  have hminDiv : 1113 * f / s < 32767 := by
    rw [Nat.div_lt_iff_lt_mul hspos]
    omega
  have hq : q.toInt < 32768 := q.toInt_lt
  -- what is written is in range at each step
  have hmin : int32 (1113 * (f : Int)) = pure ((1113 * f : Nat) : Int) :=
    int32_natCast (n := 1113 * f) (by omega)
  have hminSucc : int32 (((1113 * f / s : Nat) : Int) + 1)
      = pure ((1113 * f / s + 1 : Nat) : Int) :=
    int32_natCast (n := 1113 * f / s + 1) (by omega)
  have hwide : int32 ((f : Int) * 2 ^ 9) = pure ((f * 512 : Nat) : Int) :=
    int32_natCast (n := f * 512) (by omega)
  have hdf : int32 (((f * 512 / qFrom f s q.toInt : Nat) : Int) * 2 ^ 13)
      = pure ((f * 512 / qFrom f s q.toInt * 8192 : Nat) : Int) :=
    int32_natCast (n := f * 512 / qFrom f s q.toInt * 8192) (by omega)
  have hfoShift : int32 ((f : Int) * 2 ^ 13) = pure ((f * 8192 : Nat) : Int) :=
    int32_natCast (n := f * 8192) (by omega)
  have hasr : asr (s : Int) 1 = ((s / 2 : Nat) : Int) := asr_natCast s 1
  rw [fixBand, hfo, hfs, hasr, if_neg (by omega), if_neg (by omega), hmin, pure_bind,
    quot_natCast (by omega) (by omega), pure_bind, hminSucc, pure_bind,
    int16_natCast (by omega), pure_bind, qFrom_eq, hwide, pure_bind,
    quot_natCast hqpos.ne' (by omega), pure_bind, int16_natCast (hwidth.trans_lt (by decide)),
    pure_bind, hdf, pure_bind, quot_natCast (by omega) (by omega), pure_bind, ← qdf,
    int16_natCast (hqdf.trans_lt (by decide)), pure_bind, hfoShift, pure_bind,
    quot_natCast (by omega) (by omega), pure_bind, int16_natCast (hfoParts.trans (by decide)),
    pure_bind]
  generalize hd : qdf f s q.toInt = d at hqdf ⊢
  by_cases hboost : boostdB.toInt < -720 ∨ boostdB.toInt > 180
  · rw [if_pos hboost, if_pos hboost]
  · obtain ⟨hplace, hle⟩ := gainPlace (x := boostdB.toInt + 1440) (by omega) (by omega)
    have hkdB : boostdB.toInt * 5 + 7200 = 5 * (boostdB.toInt + 1440) := by omega
    have hhalf : (d : Int).tdiv 2 = ((d / 2 : Nat) : Int) := rfl
    have hother : (2048 : Int) - ((d / 2 : Nat) : Int) = ((2048 - d / 2 : Nat) : Int) := by omega
    have hfull := cosine_le_full (i := 2048 - d / 2) (by omega)
    have hcos := cosine_pos (i := d / 2) (by omega)
    have hgama := gama_of_le (i := d / 2) (by omega)
    have hshift : int32 ((cosine (2048 - d / 2) : Int) * 2 ^ 12)
        = pure ((cosine (2048 - d / 2) * 4096 : Nat) : Int) :=
      int32_natCast (n := cosine (2048 - d / 2) * 4096) (by omega)
    rw [if_neg hboost, if_neg hboost, int16_eq_pure (by omega), pure_bind, hkdB, hplace,
      int16_natCast (by omega), pure_bind, look_linearGainTable hle, pure_bind, hhalf,
      if_neg (by omega), hother, look_cosTable (by omega), pure_bind, hshift, pure_bind,
      look_cosTable (by omega), pure_bind, quot_natCast (by omega) (by omega), pure_bind, ← gama,
      int16_natCast (hgama.trans_lt (by decide)), pure_bind]
    by_cases hbase : basegaindB.toInt < -720 ∨ basegaindB.toInt > 180
    · rw [if_pos hbase, if_pos hbase]
    · obtain ⟨hplace', hle'⟩ := gainPlace (x := 2 * basegaindB.toInt + 1440) (by omega) (by omega)
      have hbase5 : basegaindB.toInt * 10 + 7200 = 5 * (2 * basegaindB.toInt + 1440) := by omega
      rw [if_neg hbase, if_neg hbase, hbase5, hplace', int16_natCast (by omega), pure_bind,
        look_linearGainTable hle', pure_bind, bandOf, hd]

end SprdHal.Audio
