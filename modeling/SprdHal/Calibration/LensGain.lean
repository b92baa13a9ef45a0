import Mathlib.Order.Bounds.Basic
import SprdHal.Calibration.Bayer

/-!
# Lens shading gains (`isp_calibration.c`)

`_isp_Cali_LNC_GainCalc` gives every cell of a channel a gain: the largest statistic of the channel
over that of the cell. The product with the share of the channel has 32 bits. Cells above 1 / 2049 of
the maximum stay within it, and darker ones leave it. The gains are in range and a darker cell has no
smaller one, whatever the cells are, if and only if the maxima are between 1023 and 2048
(`gainCalc_graded_iff`).
-/

namespace SprdHal.Calibration

/-! ## Gains -/

/-- A number as an `int32_t`. -/
def toInt32 (x : Int) : Int := (x + 2 ^ 31) % 2 ^ 32 - 2 ^ 31

/-- `struct isp_lnc_cali_stat` -/
structure IspLncCaliStat (num : Nat) where
  maxStat : Nat
  stat : Fin num → Nat

/-- The shares of the channels 00, 01, 10 and 11. -/
def prcs (rPrc gPrc bPrc : Nat) : BayerPtn → Fin 4 → Nat
  | .gr => ![gPrc, rPrc, bPrc, gPrc]
  | .r => ![rPrc, gPrc, gPrc, bPrc]
  | .b => ![bPrc, gPrc, gPrc, rPrc]
  | .gb => ![gPrc, bPrc, rPrc, gPrc]

/-- The gain of a cell, as the loop computes it for each channel. -/
def cellGain (stdGain shfBit prc maxStat stat : Nat) : Nat :=
  let mapGain := toInt32 (maxStat * 2 ^ shfBit % 2 ^ 32 / ((stat + 1) % 2 ^ 32) : Nat)
  let mapGain := toInt32 (mapGain - stdGain)
  let mapGain := toInt32 (mapGain * prc)
  let mapGain := mapGain / 2 ^ shfBit
  let tmpVal := toInt32 (stdGain + mapGain)
  (clip tmpVal 0 0xfff).toNat

/-- `_isp_Cali_LNC_GainCalc` -/
def gainCalc {num : Nat} (baseGain shf : Nat) (ptn : BayerPtn) (rPrc gPrc bPrc : Nat)
    (info : Fin 4 → IspLncCaliStat num) : Fin 4 → Fin num → Nat := fun chn x =>
  cellGain baseGain shf (prcs rPrc gPrc bPrc ptn chn) (info chn).maxStat ((info chn).stat x)

/-! ## What the gains are to be -/

/-- The statistics of a 10-bit image on a grid. -/
structure IspLncCaliStat.OfImage {num : Nat} (s : IspLncCaliStat num) (grid : Nat) : Prop where
  ten_bits : ∀ x, s.stat x ≤ 1023 * grid * grid
  greatest : IsGreatest (Set.range s.stat) s.maxStat

/-- The gains of a channel are in range, and a darker cell has no smaller one. -/
structure Graded {num : Nat} (stat gain : Fin num → Nat) : Prop where
  range : ∀ x, 1023 ≤ gain x ∧ gain x ≤ 4095
  antitone : ∀ x y, stat x ≤ stat y → gain y ≤ gain x

/-! ## The gain of a cell -/

theorem toInt32_of_mem {x : Int} (h₀ : -2 ^ 31 ≤ x) (h : x < 2 ^ 31) : toInt32 x = x := by
  rw [toInt32, Int.emod_eq_of_lt (by omega) (by omega), Int.add_sub_cancel]

theorem toInt32_of_wrap {x : Int} (h₀ : 2 ^ 31 ≤ x) (h : x < 2 ^ 31 + 2 ^ 32) :
    toInt32 x = x - 2 ^ 32 := by
  rw [toInt32]
  omega

theorem toInt32_add_mul (x k : Int) : toInt32 (x + 2 ^ 32 * k) = toInt32 x := by
  have hcomm : x + 2 ^ 32 * k + 2 ^ 31 = x + 2 ^ 31 + 2 ^ 32 * k := by omega
  rw [toInt32, toInt32, hcomm, Int.add_mul_emod_self_left]

theorem toInt32_eq (x : Int) : ∃ k, toInt32 x = x + 2 ^ 32 * k :=
  ⟨-((x + 2 ^ 31) / 2 ^ 32), by rw [toInt32]; omega⟩

theorem toInt32_toInt32_sub (x y : Int) : toInt32 (toInt32 x - y) = toInt32 (x - y) := by
  obtain ⟨k, hk⟩ := toInt32_eq x
  have hsub : x + 2 ^ 32 * k - y = x - y + 2 ^ 32 * k := by omega
  rw [hk, hsub, toInt32_add_mul]

theorem toInt32_toInt32_mul (x y : Int) : toInt32 (toInt32 x * y) = toInt32 (x * y) := by
  obtain ⟨k, hk⟩ := toInt32_eq x
  rw [hk, Int.add_mul, Int.mul_assoc, toInt32_add_mul]

/-- The gain of a quotient. -/
def quotientGain (q : Nat) : Nat :=
  (clip (toInt32 (1024 + toInt32 ((q - 1024 : Int) * 1024) / 1024)) 0 0xfff).toNat

/-- **A gain** depends on the quotient alone, and on that modulo 2 ^ 22. -/
theorem cellGain_eq {m s : Nat} (hm : m < 2 ^ 22) (hs : s ≤ m) :
    cellGain 1024 10 1024 m s = quotientGain (1024 * m / (s + 1)) := by
  have hshift : m * 2 ^ 10 % 2 ^ 32 = 1024 * m := by omega
  have hnext : (s + 1) % 2 ^ 32 = s + 1 := by omega
  rw [cellGain, quotientGain, hshift, hnext]
  simp only [toInt32_toInt32_sub, toInt32_toInt32_mul]
  rfl

/-- A quotient below the limit is clipped. -/
theorem quotientGain_of_lt {q : Nat} (h : q < 1024 * 2049) : quotientGain q = min q 4095 := by
  have hmul : toInt32 ((q - 1024 : Int) * 1024) = (q - 1024 : Int) * 1024 :=
    toInt32_of_mem (by omega) (by omega)
  rw [quotientGain, hmul, Int.mul_ediv_cancel _ (by decide), add_sub_cancel,
    toInt32_of_mem (by omega) (by omega), clip]
  split_ifs
  all_goals omega

/-- A quotient above it is taken for a negative number. -/
theorem quotientGain_of_le {q : Nat} (h₀ : 1024 * 2049 ≤ q) (h : q ≤ 2 ^ 22) : quotientGain q = 0 := by
  have hmul : toInt32 ((q - 1024 : Int) * 1024) = (q - 1024 - 2 ^ 22 : Int) * 1024 := by
    rw [toInt32_of_wrap (by omega) (by omega)]
    omega
  rw [quotientGain, hmul, Int.mul_ediv_cancel _ (by decide), toInt32_of_mem (by omega) (by omega),
    clip]
  split_ifs
  all_goals omega

theorem quotient_lt_iff {m s : Nat} : 1024 * m / (s + 1) < 1024 * 2049 ↔ m < 2049 * (s + 1) := by
  rw [Nat.div_lt_iff_lt_mul (Nat.succ_pos s)]
  omega

/-! ## A channel -/

section Channel

variable {num grid : Nat} {info : IspLncCaliStat num}

/-- The gains of a channel. -/
def channelGain (info : IspLncCaliStat num) (x : Fin num) : Nat :=
  cellGain 1024 10 1024 info.maxStat (info.stat x)

theorem IspLncCaliStat.OfImage.le_max (h : info.OfImage grid) (x : Fin num) :
    info.stat x ≤ info.maxStat :=
  h.greatest.2 ⟨x, rfl⟩

/-- The maximum is below 2 ^ 22. -/
theorem IspLncCaliStat.OfImage.max_lt (hgrid : grid ≤ 64) (h : info.OfImage grid) :
    info.maxStat < 2 ^ 22 := by
  obtain ⟨x, hx⟩ := h.greatest.1
  calc info.maxStat ≤ 1023 * grid * grid := hx ▸ h.ten_bits x
    _ ≤ 1023 * 64 * 64 := Nat.mul_le_mul (Nat.mul_le_mul_left _ hgrid) hgrid
    _ < 2 ^ 22 := by decide

/-- **A channel without too dark cells** has gains in range and in order. -/
theorem graded_of_bright (hgrid : grid ≤ 64) (h : info.OfImage grid) (hmax : 1023 ≤ info.maxStat)
    (hdark : ∀ x, info.maxStat < 2049 * (info.stat x + 1)) : Graded info.stat (channelGain info) := by
  have hgain (x : Fin num) :
      channelGain info x = min (1024 * info.maxStat / (info.stat x + 1)) 4095 := by
    rw [channelGain, cellGain_eq (h.max_lt hgrid) (h.le_max x),
      quotientGain_of_lt (quotient_lt_iff.mpr (hdark x))]
  refine ⟨fun x => ?_, fun x y hxy => ?_⟩
  · have hquotient : 1023 ≤ 1024 * info.maxStat / (info.stat x + 1) := by
      rw [Nat.le_div_iff_mul_le (Nat.succ_pos _)]
      have hle := h.le_max x
      omega
    rw [hgain]
    omega
  · have hquotient : 1024 * info.maxStat / (info.stat y + 1) ≤
        1024 * info.maxStat / (info.stat x + 1) :=
      Nat.div_le_div_left (Nat.succ_le_succ hxy) (Nat.succ_pos _)
    rw [hgain, hgain]
    omega

/-- The brightest cell of a dim channel has too small a gain. -/
theorem le_max_of_graded (hgrid : grid ≤ 64) (h : info.OfImage grid)
    (hgraded : Graded info.stat (channelGain info)) : 1023 ≤ info.maxStat := by
  obtain ⟨x, hx⟩ := h.greatest.1
  by_contra hlt
  have hquotient : 1024 * info.maxStat / (info.maxStat + 1) < 1023 := by
    rw [Nat.div_lt_iff_lt_mul (Nat.succ_pos _)]
    omega
  have hrange := (hgraded.range x).1
  rw [channelGain, cellGain_eq (h.max_lt hgrid) (h.le_max x), hx,
    quotientGain_of_lt (by omega)] at hrange
  omega

end Channel

/-! ## Dark cells -/

/-- Two cells about 1 / 2049 of the maximum, and brightest ones. -/
def darkStat (num m : Nat) : IspLncCaliStat num where
  maxStat := m
  stat x := if x.val = 0 then m / 2049 - 1 else if x.val = 1 then m / 2049 else m

theorem ofImage_darkStat {num m grid : Nat} (hnum : 3 ≤ num) (hm : m ≤ 1023 * grid * grid) :
    (darkStat num m).OfImage grid := by
  have hle (x : Fin num) : (darkStat num m).stat x ≤ m := by
    simp only [darkStat]
    split_ifs
    all_goals omega
  exact ⟨fun x => (hle x).trans hm, ⟨⟨2, by omega⟩, rfl⟩, by rintro _ ⟨x, rfl⟩; exact hle x⟩

/-- **A bright channel with dark cells**: the gain of the darkest one is 0, or once that of the
brightest. -/
theorem not_graded_darkStat {num m grid : Nat} (hnum : 3 ≤ num) (hgrid : grid ≤ 64)
    (hm : m ≤ 1023 * grid * grid) (hbright : 2048 < m) :
    ¬ Graded (darkStat num m).stat (channelGain (darkStat num m)) := by
  intro hgraded
  have hlt : m < 2 ^ 22 := (ofImage_darkStat hnum hm).max_lt hgrid
  have hle := (ofImage_darkStat hnum hm).le_max
  have hgain₀ : channelGain (darkStat num m) ⟨0, by omega⟩ =
      quotientGain (1024 * m / (m / 2049 - 1 + 1)) := cellGain_eq hlt (hle ⟨0, by omega⟩)
  have hgain₁ : channelGain (darkStat num m) ⟨1, by omega⟩ =
      quotientGain (1024 * m / (m / 2049 + 1)) := cellGain_eq hlt (hle ⟨1, by omega⟩)
  by_cases hfour : m = 4097
  · have hanti := hgraded.antitone ⟨0, by omega⟩ ⟨1, by omega⟩ (Nat.sub_le _ _)
    rw [hgain₀, hgain₁, hfour] at hanti
    revert hanti
    decide
  · have hnotLt : ¬ 1024 * m / (m / 2049 - 1 + 1) < 1024 * 2049 := by
      rw [quotient_lt_iff]
      omega
    have hle : 1024 * m / (m / 2049 - 1 + 1) ≤ 2 ^ 22 := Nat.div_le_of_le_mul (by omega)
    have hrange := (hgraded.range ⟨0, by omega⟩).1
    rw [hgain₀, quotientGain_of_le (by omega) hle] at hrange
    omega

/-! ## The four channels -/

/-- All shares are 1024 then. -/
theorem gainCalc_eq {num : Nat} (ptn : BayerPtn) (info : Fin 4 → IspLncCaliStat num) (chn : Fin 4) :
    gainCalc 1024 10 ptn 1024 1024 1024 info chn = channelGain (info chn) := by
  have hprc : prcs 1024 1024 1024 ptn chn = 1024 := by
    match chn with
    | 0 | 1 | 2 | 3 =>
      cases ptn
      all_goals rfl
  funext x
  rw [gainCalc, hprc, channelGain]

/-- **The gains are in range and in order** where the maximum of each channel is at least 1023 and
below 2049 times what any of its cells has, plus 1. That is so whatever the cells are if and only if
the maxima are between 1023 and 2048. -/
theorem gainCalc_graded_iff {num grid : Nat} (hnum : 3 ≤ num) (hgrid : grid ≤ 64) (ptn : BayerPtn)
    (maxStat : Fin 4 → Nat) (hmax : ∀ chn, maxStat chn ≤ 1023 * grid * grid) :
    (∀ info : Fin 4 → IspLncCaliStat num, (∀ chn, (info chn).OfImage grid) →
      (∀ chn, 1023 ≤ (info chn).maxStat ∧
        ∀ x, (info chn).maxStat < 2049 * ((info chn).stat x + 1)) →
      ∀ chn, Graded (info chn).stat (gainCalc 1024 10 ptn 1024 1024 1024 info chn)) ∧
    ((∀ info : Fin 4 → IspLncCaliStat num, (∀ chn, (info chn).OfImage grid) →
      (∀ chn, (info chn).maxStat = maxStat chn) →
      ∀ chn, Graded (info chn).stat (gainCalc 1024 10 ptn 1024 1024 1024 info chn)) ↔
        ∀ chn, 1023 ≤ maxStat chn ∧ maxStat chn ≤ 2048) := by
  refine ⟨fun info himage hbright chn => ?_, fun h chn => ?_, fun h info himage heq chn => ?_⟩
  · rw [gainCalc_eq]
    exact graded_of_bright hgrid (himage chn) (hbright chn).1 (hbright chn).2
  · let info : Fin 4 → IspLncCaliStat num := fun chn => darkStat num (maxStat chn)
    have himage (chn : Fin 4) : (info chn).OfImage grid := ofImage_darkStat hnum (hmax chn)
    have hgraded := h info himage (fun _ => rfl) chn
    rw [gainCalc_eq] at hgraded
    refine ⟨le_max_of_graded hgrid (himage chn) hgraded, ?_⟩
    by_contra hbright
    exact not_graded_darkStat hnum hgrid (hmax chn) (by omega) hgraded
  · rw [gainCalc_eq]
    have hchn := h chn
    rw [← heq chn] at hchn
    exact graded_of_bright hgrid (himage chn) hchn.1 fun x => by omega

theorem gainCalc_graded_nine :
    (∀ info : Fin 4 → IspLncCaliStat 9, (∀ chn, (info chn).OfImage 2) →
      (∀ chn, 1023 ≤ (info chn).maxStat ∧
        ∀ x, (info chn).maxStat < 2049 * ((info chn).stat x + 1)) →
      ∀ chn, Graded (info chn).stat (gainCalc 1024 10 .gr 1024 1024 1024 info chn)) ∧
    ((∀ info : Fin 4 → IspLncCaliStat 9, (∀ chn, (info chn).OfImage 2) →
      (∀ chn, (info chn).maxStat = 2000) →
      ∀ chn, Graded (info chn).stat (gainCalc 1024 10 .gr 1024 1024 1024 info chn)) ↔
        ∀ _chn : Fin 4, 1023 ≤ 2000 ∧ 2000 ≤ 2048) :=
  gainCalc_graded_iff (by decide) (by decide) .gr (fun _ => 2000) (by decide)

/-- A black cell beside a white one, on a grid of 64. -/
theorem black_cell_without_gain :
    (darkStat 9 2049).OfImage 64 ∧
      gainCalc 1024 10 .gr 1024 1024 1024 (fun _ => darkStat 9 2049) 0 0 = 0 :=
  ⟨ofImage_darkStat (by decide) (by decide), by decide⟩

end SprdHal.Calibration
