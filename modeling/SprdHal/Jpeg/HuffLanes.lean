import SprdHal.Jpeg.HuffTable

/-!
# The symbols of the Huffman tables (`jpegdec_vld.c`)

`JPEGFW_build_hufftab_jpegDec` packs the symbols of up to four tables into the words of `g_huffTab`,
one table in a byte of all words. The symbols of an AC table go one after the other; those of a DC
table have a fixed place for every length of code, with a fixed number of slots.

For a DC table of the baseline the slots suffice for every length but the last: there are four of
them for codes with 16 bits, and `g_huffTab` ends behind them (`buildHufftab_iff`).
-/

namespace SprdHal.Jpeg

open Canonical

/-! ## Building the table -/

/-- `g_DC_offset` -/
def dcOffset : List Nat :=
  [0, 0, 2, 6, 14, 26, 38, 50, 62, 74, 86, 98, 110, 122, 134, 146, 158]

/-- `g_huffTab`, with the memory behind it, and the indices that have been written since it was
cleared. -/
structure HuffTab where
  words : Nat → UInt32
  writes : List Nat

/-- `SCI_MEMSET(g_huffTab, 0, 162*(sizeof(uint32)))` -/
def HuffTab.clear (t : HuffTab) : HuffTab := ⟨fun i => if i < 162 then 0 else t.words i, []⟩

def HuffTab.orAt (t : HuffTab) (i : Nat) (v : UInt32) : HuffTab :=
  ⟨Function.update t.words i (t.words i ||| v), t.writes ++ [i]⟩

theorem HuffTab.orAt_self (t : HuffTab) (i : Nat) (v : UInt32) :
    (t.orAt i v).words i = t.words i ||| v :=
  Function.update_self i _ _

theorem HuffTab.orAt_of_ne (t : HuffTab) {i x : Nat} (v : UInt32) (h : x ≠ i) :
    (t.orAt i v).words x = t.words x :=
  Function.update_of_ne h _ _

/-- The inner loops: symbols one after the other from an index on. -/
def orRow (shiftBit : UInt32) : Nat → List UInt8 → HuffTab → HuffTab
  | _, [], t => t
  | i, v :: vs, t => orRow shiftBit (i + 1) vs (t.orAt i (v.toUInt32 <<< shiftBit))

/-- The loop of `build_hufftab_DC` over the lengths from `i` on. -/
def buildDCLoop (shiftBit : UInt32) (bits : List UInt8) : Nat → Nat → List UInt8 → HuffTab → HuffTab
  | 0, _, _, t => t
  | n + 1, i, pHuffVal, t =>
    let number := (bits.getD i 0).toNat
    let startAddr := dcOffset.getD i 0
    buildDCLoop shiftBit bits n (i + 1) (pHuffVal.drop number)
      (orRow shiftBit startAddr (pHuffVal.take number) t)

/-- `build_hufftab_DC` -/
def buildHufftabDC (huffval bits : List UInt8) (beChroma : Bool) (t : HuffTab) : HuffTab :=
  buildDCLoop (if beChroma then 24 else 16) bits 16 1 huffval t

/-- `build_hufftab_AC` -/
def buildHufftabAC (huffval : List UInt8) (beChroma : Bool) (t : HuffTab) : HuffTab :=
  orRow (if beChroma then 8 else 0) 0 (huffval.take 162) t

/-- `JPEGFW_build_hufftab_jpegDec`, with the tables of `JPEG_FW_LUM_ID` and `JPEG_FW_CHR_ID` -/
def buildHufftab (numComponents : Nat) (dcLum acLum dcChr acChr : HuffTbl) (t : HuffTab) : HuffTab :=
  let t := buildHufftabDC dcLum.huffval dcLum.bits false t.clear
  let t := buildHufftabAC acLum.huffval false t
  if numComponents ≠ 1 then
    let t := buildHufftabDC dcChr.huffval dcChr.bits true t
    buildHufftabAC acChr.huffval true t
  else t

/-! ## Lanes -/

/-- A byte of a word, from the lowest on. -/
def lane (m : Nat) (w : UInt32) : UInt8 := (w >>> UInt32.ofNat (8 * m)).toUInt8

theorem lane_or (m : Nat) (a b : UInt32) : lane m (a ||| b) = lane m a ||| lane m b := by
  simp only [lane, ← UInt8.toNat_inj, UInt8.toNat_or, UInt32.toNat_toUInt8, UInt32.toNat_shiftRight,
    UInt32.toNat_or, Nat.shiftRight_or_distrib]
  exact Nat.or_mod_two_pow (n := 8)

theorem lane_shiftLeft {m k : Nat} (hm : m < 4) (hk : k < 4) (v : UInt8) :
    lane m (v.toUInt32 <<< UInt32.ofNat (8 * k)) = if m = k then v else 0 := by
  have hv := v.toNat_lt
  have hshift : ∀ j < 4, (UInt32.ofNat (8 * j)).toNat % 32 = 8 * j := by decide
  have hfit : v.toNat * 2 ^ (8 * k) < 2 ^ 8 * 2 ^ (8 * k) :=
    Nat.mul_lt_mul_of_pos_right hv (Nat.two_pow_pos _)
  have hword : v.toNat * 2 ^ (8 * k) < 2 ^ 32 :=
    Nat.lt_of_lt_of_le hfit (by rw [← Nat.pow_add]; exact Nat.pow_le_pow_right (by decide) (by omega))
  rw [lane, ← UInt8.toNat_inj, UInt32.toNat_toUInt8, UInt32.toNat_shiftRight,
    UInt32.toNat_shiftLeft, hshift m hm, hshift k hk, UInt8.toNat_toUInt32, Nat.shiftLeft_eq,
    Nat.shiftRight_eq_div_pow, Nat.mod_eq_of_lt hword]
  rcases Nat.lt_trichotomy m k with hlt | rfl | hgt
  · -- what is below the byte
    have hpow : 2 ^ (8 * k) = 2 ^ (8 * (k - m - 1)) * 2 ^ 8 * 2 ^ (8 * m) := by
      rw [← Nat.pow_add, ← Nat.pow_add]
      congr 1
      omega
    rw [if_neg (Nat.ne_of_lt hlt), hpow, ← Nat.mul_assoc, Nat.mul_div_cancel _ (Nat.two_pow_pos _),
      ← Nat.mul_assoc]
    exact Nat.mul_mod_left _ _
  · rw [if_pos rfl, Nat.mul_div_cancel _ (Nat.two_pow_pos _)]
    exact Nat.mod_eq_of_lt hv
  · -- what is above the byte
    have hpow : 2 ^ 8 * 2 ^ (8 * k) ≤ 2 ^ (8 * m) := by
      rw [← Nat.pow_add]
      exact Nat.pow_le_pow_right (by decide) (by omega)
    rw [if_neg (Nat.ne_of_gt hgt), Nat.div_eq_of_lt (Nat.lt_of_lt_of_le hfit hpow)]
    rfl

/-- A row in the lane `k`. -/
theorem lane_orRow {m k : Nat} (hm : m < 4) (hk : k < 4) (x : Nat) : ∀ (vs : List UInt8) (i : Nat)
    (t : HuffTab), lane m ((orRow (UInt32.ofNat (8 * k)) i vs t).words x) =
      lane m (t.words x) ||| (if m = k ∧ i ≤ x then vs.getD (x - i) 0 else 0) := by
  intro vs
  induction vs with
  | nil =>
    intro i t
    simp [orRow]
  | cons v vs ih =>
    intro i t
    rw [orRow, ih]
    rcases Nat.lt_trichotomy x i with hlt | rfl | hgt
    · rw [t.orAt_of_ne _ (Nat.ne_of_lt hlt), if_neg (by omega), if_neg (by omega)]
    · rw [t.orAt_self, lane_or, lane_shiftLeft hm hk]
      have hbehind : ¬(m = k ∧ x + 1 ≤ x) := by omega
      rw [if_neg hbehind, UInt8.or_zero]
      by_cases hmk : m = k
      · simp [hmk]
      · simp [hmk]
    · rw [t.orAt_of_ne _ (Nat.ne_of_gt hgt)]
      by_cases hmk : m = k
      · obtain ⟨d, rfl⟩ : ∃ d, x = i + 1 + d := Nat.exists_eq_add_of_le hgt
        rw [if_pos (by omega), if_pos (by omega), show i + 1 + d - i = d + 1 by omega,
          Nat.add_sub_cancel_left, List.getD_cons_succ]
      · rw [if_neg (fun h => hmk h.1), if_neg (fun h => hmk h.1)]

theorem writes_orRow (shiftBit : UInt32) : ∀ (vs : List UInt8) (i : Nat) (t : HuffTab),
    (orRow shiftBit i vs t).writes = t.writes ++ List.range' i vs.length := by
  intro vs
  induction vs with
  | nil =>
    intro i t
    simp [orRow]
  | cons v vs ih =>
    intro i t
    rw [orRow, ih, HuffTab.orAt, List.length_cons, List.range'_succ, List.append_assoc,
      List.singleton_append]

/-! ## The loop over the lengths -/

section dc

variable {bits : List UInt8} {m k x : Nat}

theorem lane_buildDCLoop_of_ne (hm : m < 4) (hk : k < 4) (hmk : m ≠ k) :
    ∀ (n i : Nat) (vals : List UInt8) (t : HuffTab),
      lane m ((buildDCLoop (UInt32.ofNat (8 * k)) bits n i vals t).words x) = lane m (t.words x) := by
  intro n
  induction n with
  | zero =>
    intro i vals t
    rfl
  | succ n ih =>
    intro i vals t
    rw [buildDCLoop, ih, lane_orRow hm hk, if_neg (fun h => hmk h.1), UInt8.or_zero]

/-- A row for a length leaves the word alone if it is not one of the row's. -/
theorem lane_row_outside (hk : k < 4) {start number : Nat} (vals : List UInt8) (t : HuffTab)
    (h : x < start ∨ start + number ≤ x) :
    lane k ((orRow (UInt32.ofNat (8 * k)) start (vals.take number) t).words x) =
      lane k (t.words x) := by
  rw [lane_orRow hk hk]
  rcases h with h | h
  · rw [if_neg (by omega), UInt8.or_zero]
  · rw [if_pos ⟨rfl, by omega⟩, List.getD_eq_default _ _ (by rw [List.length_take]; omega),
      UInt8.or_zero]

/-- A word that no length has a slot at. -/
theorem lane_buildDCLoop_outside (hk : k < 4) : ∀ (n i : Nat) (vals : List UInt8) (t : HuffTab),
    (∀ l, i ≤ l → l < i + n →
      x < dcOffset.getD l 0 ∨ dcOffset.getD l 0 + (bits.getD l 0).toNat ≤ x) →
    lane k ((buildDCLoop (UInt32.ofNat (8 * k)) bits n i vals t).words x) = lane k (t.words x) := by
  intro n
  induction n with
  | zero =>
    intro i vals t _
    rfl
  | succ n ih =>
    intro i vals t h
    rw [buildDCLoop, ih _ _ _ fun l hl hlt => h l (by omega) (by omega),
      lane_row_outside hk vals t (h i (Nat.le_refl i) (by omega))]

/-- The slot of the `j`-th code of length `l`: what it has in the end is that symbol. -/
theorem lane_buildDCLoop_at (hk : k < 4) {l j : Nat} (hj : j < (bits.getD l 0).toNat) :
    ∀ (n i : Nat) (vals : List UInt8) (t : HuffTab), i ≤ l → l < i + n → 0 < i →
    (∀ l', i ≤ l' → l' < i + n → l' ≠ l → dcOffset.getD l 0 + j < dcOffset.getD l' 0 ∨
      dcOffset.getD l' 0 + (bits.getD l' 0).toNat ≤ dcOffset.getD l 0 + j) →
    lane k (t.words (dcOffset.getD l 0 + j)) = 0 →
    lane k ((buildDCLoop (UInt32.ofNat (8 * k)) bits n i vals t).words (dcOffset.getD l 0 + j)) =
      vals.getD (firstIndex (codeCount bits) l - firstIndex (codeCount bits) i + j) 0 := by
  intro n
  induction n with
  | zero =>
    intro i vals t hil hlt
    omega
  | succ n ih =>
    intro i vals t hil hlt hpos hapart hzero
    rw [buildDCLoop]
    rcases Nat.lt_or_eq_of_le hil with hlt' | rfl
    · have hother := hapart i (Nat.le_refl i) (by omega) (Nat.ne_of_lt hlt')
      have hnext : firstIndex (codeCount bits) (i + 1) =
          firstIndex (codeCount bits) i + (bits.getD i 0).toNat := by
        rw [firstIndex, codeCount_of_pos hpos]
      have hmono : firstIndex (codeCount bits) (i + 1) ≤ firstIndex (codeCount bits) l :=
        firstIndex_mono hlt'
      rw [ih _ _ _ hlt' (by omega) (Nat.succ_pos i)
        (fun l' hl hlt hne => hapart l' (by omega) (by omega) hne)
        (by rw [lane_row_outside hk vals t hother, hzero])]
      have hindex : (bits.getD i 0).toNat +
          (firstIndex (codeCount bits) l - firstIndex (codeCount bits) (i + 1) + j) =
          firstIndex (codeCount bits) l - firstIndex (codeCount bits) i + j := by
        omega
      rw [List.getD_eq_getElem?_getD, List.getElem?_drop, hindex, ← List.getD_eq_getElem?_getD]
    · rw [lane_buildDCLoop_outside hk _ _ _ _
        fun l' hl hlt => hapart l' (by omega) (by omega) (by omega), lane_orRow hk hk, hzero,
        if_pos ⟨rfl, Nat.le_add_right _ _⟩, Nat.add_sub_cancel_left, Nat.sub_self, Nat.zero_add,
        UInt8.zero_or]
      rw [List.getD_eq_getElem?_getD, List.getElem?_take, if_pos hj, ← List.getD_eq_getElem?_getD]

/-- What the loop writes. -/
theorem mem_writes_buildDCLoop {shiftBit : UInt32} : ∀ (n i : Nat) (vals : List UInt8) (t : HuffTab),
    0 < i → firstIndex (codeCount bits) (i + n) - firstIndex (codeCount bits) i ≤ vals.length →
    (x ∈ (buildDCLoop shiftBit bits n i vals t).writes ↔ x ∈ t.writes ∨
      ∃ l j, (i ≤ l ∧ l < i + n) ∧ j < codeCount bits l ∧ x = dcOffset.getD l 0 + j) := by
  intro n
  induction n with
  | zero =>
    intro i vals t _ _
    rw [buildDCLoop]
    refine ⟨Or.inl, fun h => h.resolve_right ?_⟩
    rintro ⟨l, j, hl, -⟩
    omega
  | succ n ih =>
    intro i vals t hpos hlen
    have hcount : codeCount bits i = (bits.getD i 0).toNat := codeCount_of_pos hpos
    have hnext : firstIndex (codeCount bits) (i + 1) =
        firstIndex (codeCount bits) i + codeCount bits i := rfl
    have hmono : firstIndex (codeCount bits) (i + 1) ≤ firstIndex (codeCount bits) (i + (n + 1)) :=
      firstIndex_mono (by omega)
    have hnumber : (vals.take (bits.getD i 0).toNat).length = codeCount bits i := by
      rw [List.length_take]
      omega
    rw [show i + (n + 1) = i + 1 + n by omega] at hlen hmono ⊢
    have hrest : firstIndex (codeCount bits) (i + 1 + n) - firstIndex (codeCount bits) (i + 1) ≤
        (vals.drop (bits.getD i 0).toNat).length := by
      rw [List.length_drop]
      omega
    rw [buildDCLoop, ih _ _ _ (Nat.succ_pos i) hrest, writes_orRow,
      List.mem_append, List.mem_range'_1, hnumber, or_assoc]
    refine or_congr Iff.rfl ⟨?_, ?_⟩
    · rintro (⟨hle, hlt⟩ | ⟨l, j, hl, hj, rfl⟩)
      · exact ⟨i, x - dcOffset.getD i 0, by omega, by omega, by omega⟩
      · exact ⟨l, j, by omega, hj, rfl⟩
    · rintro ⟨l, j, hl, hj, rfl⟩
      rcases Nat.lt_or_eq_of_le hl.1 with hlt | rfl
      · exact Or.inr ⟨l, j, by omega, hj, rfl⟩
      · exact Or.inl ⟨Nat.le_add_right _ _, by omega⟩

end dc

/-! ## Tables of the baseline -/

/-- A DC table of the baseline: at most twelve symbols, and a prefix code that has a code of 16 bits
left. The arrays are as `GetHuffTbl` allocates them. -/
structure BaselineDC (t : HuffTbl) : Prop where
  length_bits : t.bits.length = 17
  length_huffval : t.huffval.length = 257
  count_le : symbolCount t.bits ≤ 12
  kraft : kraftSum (codeCount t.bits) 16 17 < 2 ^ 16

namespace BaselineDC

variable {t : HuffTbl}

theorem total_le (h : BaselineDC t) : firstIndex (codeCount t.bits) 17 ≤ 12 := by
  rw [firstIndex_eq_symbolCount h.length_bits]
  exact h.count_le

/-- The slots of a length suffice, except for the last one. -/
theorem fits (h : BaselineDC t) {l : Nat} (hl : 0 < l) (hl15 : l ≤ 15) :
    dcOffset.getD l 0 + codeCount t.bits l ≤ dcOffset.getD (l + 1) 0 := by
  have hcount : codeCount t.bits l ≤ 12 := by
    have hmono : firstIndex (codeCount t.bits) (l + 1) ≤ firstIndex (codeCount t.bits) 17 :=
      firstIndex_mono (by omega)
    rw [firstIndex] at hmono
    have := h.total_le
    omega
  have hfit := firstCode_add_lt h.kraft (show l ≤ 16 by omega)
  have hslots : ∀ l < 16, 0 < l →
      dcOffset.getD l 0 + min (2 ^ l) 12 ≤ dcOffset.getD (l + 1) 0 := by
    decide
  have hmin : codeCount t.bits l ≤ min (2 ^ l) 12 := Nat.le_min.2 ⟨by omega, hcount⟩
  exact Nat.le_trans (Nat.add_le_add_left hmin _) (hslots l (by omega) hl)

/-- The slots of different lengths are apart. -/
theorem apart (h : BaselineDC t) {l l' : Nat} (hl : 0 < l) (hlt : l < l') (hl' : l' ≤ 16) :
    dcOffset.getD l 0 + codeCount t.bits l ≤ dcOffset.getD l' 0 := by
  induction hlt with
  | refl => exact h.fits hl (by omega)
  | step hlt ih =>
    have hprev := ih (by omega)
    have hnext := h.fits (Nat.lt_trans hl hlt) (by omega)
    exact Nat.le_trans hprev (Nat.le_trans (Nat.le_add_right _ _) hnext)

/-- Two symbols do not have the same place. -/
theorem position_inj (h : BaselineDC t) {l l' j j' : Nat} (hl : 0 < l ∧ l ≤ 16)
    (hl' : 0 < l' ∧ l' ≤ 16) (hj : j < codeCount t.bits l) (hj' : j' < codeCount t.bits l')
    (heq : dcOffset.getD l 0 + j = dcOffset.getD l' 0 + j') : l = l' ∧ j = j' := by
  rcases Nat.lt_trichotomy l l' with hlt | rfl | hgt
  · have := h.apart hl.1 hlt hl'.2
    omega
  · exact ⟨rfl, by omega⟩
  · have := h.apart hl'.1 hgt hl.2
    omega

/-- The place of a symbol holds it after the loop. -/
theorem lane_build (h : BaselineDC t) {k : Nat} (hk : k < 4) (tab : HuffTab) {l j : Nat}
    (hl : 0 < l ∧ l ≤ 16) (hj : j < codeCount t.bits l)
    (hzero : lane k (tab.words (dcOffset.getD l 0 + j)) = 0) :
    lane k ((buildDCLoop (UInt32.ofNat (8 * k)) t.bits 16 1 t.huffval tab).words
      (dcOffset.getD l 0 + j)) = t.huffval.getD (firstIndex (codeCount t.bits) l + j) 0 := by
  have hcount : ∀ l, 0 < l → codeCount t.bits l = (t.bits.getD l 0).toNat :=
    fun l hl => codeCount_of_pos hl
  have hj' : j < (t.bits.getD l 0).toNat := hcount l hl.1 ▸ hj
  have hone : firstIndex (codeCount t.bits) 1 = 0 := rfl
  have hat := lane_buildDCLoop_at hk hj' 16 1 t.huffval tab hl.1 (by omega) Nat.one_pos
    (fun l' hl1 hl17 hne => ?_) hzero
  · rwa [hone, Nat.sub_zero] at hat
  · rw [← hcount l' hl1]
    rcases Nat.lt_or_gt_of_ne hne with hlt | hgt
    · exact Or.inr (Nat.le_trans (h.apart hl1 hlt hl.2) (Nat.le_add_right _ _))
    · have := h.apart hl.1 hgt (by omega)
      exact Or.inl (by omega)

theorem position_lt (h : BaselineDC t) (hfour : codeCount t.bits 16 ≤ 4) {l j : Nat}
    (hl : 0 < l ∧ l ≤ 16) (hj : j < codeCount t.bits l) : dcOffset.getD l 0 + j < 162 := by
  have h16 : dcOffset.getD 16 0 = 158 := rfl
  rcases Nat.lt_or_eq_of_le hl.2 with hlt | rfl
  · have := h.apart hl.1 hlt (Nat.le_refl 16)
    omega
  · omega

/-- All of its places are in the table exactly if at most four codes have 16 bits. -/
theorem writes_lt_iff (h : BaselineDC t) {shiftBit : UInt32} (tab : HuffTab) :
    (∀ i ∈ (buildDCLoop shiftBit t.bits 16 1 t.huffval tab).writes, i < 162) ↔
      (∀ i ∈ tab.writes, i < 162) ∧ codeCount t.bits 16 ≤ 4 := by
  have hone : firstIndex (codeCount t.bits) 1 = 0 := rfl
  have hlen : firstIndex (codeCount t.bits) (1 + 16) - firstIndex (codeCount t.bits) 1 ≤
      t.huffval.length := by
    rw [h.length_huffval, hone]
    exact Nat.le_trans h.total_le (by decide)
  constructor
  · intro hall
    refine ⟨fun i hi => hall i ((mem_writes_buildDCLoop 16 1 _ _ Nat.one_pos hlen).2 (Or.inl hi)), ?_⟩
    by_contra hgt
    have hmem := hall 162 ((mem_writes_buildDCLoop 16 1 _ _ Nat.one_pos hlen).2
      (Or.inr ⟨16, 4, by omega, by omega, rfl⟩))
    exact absurd hmem (by decide)
  · rintro ⟨htab, hfour⟩ i hi
    rcases (mem_writes_buildDCLoop 16 1 _ _ Nat.one_pos hlen).1 hi with hi | ⟨l, j, hl, hj, rfl⟩
    · exact htab i hi
    · exact h.position_lt hfour ⟨hl.1, Nat.le_of_lt_succ hl.2⟩ hj

end BaselineDC

/-! ## The whole table -/

/-- The symbols of a DC table are in their places, which are different. -/
structure HoldsDC (k : Nat) (t : HuffTbl) (tab : HuffTab) : Prop where
  symbols : ∀ l j, 0 < l ∧ l ≤ 16 → j < codeCount t.bits l →
    lane k (tab.words (dcOffset.getD l 0 + j)) =
      t.huffval.getD (firstIndex (codeCount t.bits) l + j) 0
  apart : ∀ l j l' j', 0 < l ∧ l ≤ 16 → 0 < l' ∧ l' ≤ 16 → j < codeCount t.bits l →
    j' < codeCount t.bits l' → dcOffset.getD l 0 + j = dcOffset.getD l' 0 + j' → l = l' ∧ j = j'

/-- The symbols of an AC table are one after the other. -/
def HoldsAC (k : Nat) (t : HuffTbl) (tab : HuffTab) : Prop :=
  ∀ i < 162, lane k (tab.words i) = t.huffval.getD i 0

/-- What is wanted of `g_huffTab`; a picture with one component has no chroma tables. -/
structure HoldsSymbols (numComponents : Nat) (dcLum acLum dcChr acChr : HuffTbl) (tab : HuffTab) :
    Prop where
  writes : ∀ i ∈ tab.writes, i < 162
  lumAC : HoldsAC 0 acLum tab
  lumDC : HoldsDC 2 dcLum tab
  chrAC : numComponents ≠ 1 → HoldsAC 1 acChr tab
  chrDC : numComponents ≠ 1 → HoldsDC 3 dcChr tab

section whole

variable {t : HuffTbl} {tab : HuffTab} {m k : Nat}

theorem lane_clear (m : Nat) (tab : HuffTab) {i : Nat} (hi : i < 162) :
    lane m (tab.clear.words i) = 0 := by
  have hword : tab.clear.words i = 0 := if_pos hi
  rw [hword, lane, UInt32.zero_shiftRight]
  rfl

theorem lane_acRow (hm : m < 4) (hk : k < 4) (huffval : List UInt8) (x : Nat) :
    lane m ((orRow (UInt32.ofNat (8 * k)) 0 (huffval.take 162) tab).words x) =
      lane m (tab.words x) ||| (if m = k then (huffval.take 162).getD x 0 else 0) := by
  rw [lane_orRow hm hk]
  simp

theorem holdsAC_acRow (hk : k < 4) (h : ∀ i < 162, lane k (tab.words i) = 0) :
    HoldsAC k t (orRow (UInt32.ofNat (8 * k)) 0 (t.huffval.take 162) tab) := by
  intro i hi
  rw [lane_acRow hk hk, h i hi, if_pos rfl, UInt8.zero_or, List.getD_eq_getElem?_getD,
    List.getElem?_take, if_pos hi, ← List.getD_eq_getElem?_getD]

theorem writes_acRow (shiftBit : UInt32) (huffval : List UInt8) :
    (∀ i ∈ (orRow shiftBit 0 (huffval.take 162) tab).writes, i < 162) ↔ ∀ i ∈ tab.writes, i < 162 := by
  rw [writes_orRow]
  constructor
  · intro h i hi
    exact h i (List.mem_append_left _ hi)
  · intro h i hi
    rcases List.mem_append.1 hi with hi | hi
    · exact h i hi
    · rw [List.mem_range'_1, List.length_take] at hi
      omega

theorem BaselineDC.holdsDC (h : BaselineDC t) (hfour : codeCount t.bits 16 ≤ 4) (hk : k < 4)
    (hzero : ∀ i < 162, lane k (tab.words i) = 0) :
    HoldsDC k t (buildDCLoop (UInt32.ofNat (8 * k)) t.bits 16 1 t.huffval tab) :=
  ⟨fun _ _ hl hj => h.lane_build hk tab hl hj (hzero _ (h.position_lt hfour hl hj)),
    fun _ _ _ _ hl hl' hj hj' heq => h.position_inj hl hl' hj hj' heq⟩

/-- Another table in another lane. -/
theorem HoldsDC.congr {tab' : HuffTab} (h : HoldsDC k t tab)
    (heq : ∀ x, lane k (tab'.words x) = lane k (tab.words x)) : HoldsDC k t tab' :=
  ⟨fun l j hl hj => (heq _).trans (h.symbols l j hl hj), h.apart⟩

theorem HoldsAC.congr {tab' : HuffTab} (h : HoldsAC k t tab)
    (heq : ∀ x, lane k (tab'.words x) = lane k (tab.words x)) : HoldsAC k t tab' :=
  fun i hi => (heq _).trans (h i hi)

variable {numComponents : Nat} {dcLum acLum dcChr acChr : HuffTbl}

theorem buildHufftabDC_eq (huffval bits : List UInt8) (beChroma : Bool) (tab : HuffTab) :
    buildHufftabDC huffval bits beChroma tab =
      buildDCLoop (UInt32.ofNat (8 * if beChroma then 3 else 2)) bits 16 1 huffval tab := by
  cases beChroma
  · rfl
  · rfl

theorem buildHufftabAC_eq (huffval : List UInt8) (beChroma : Bool) (tab : HuffTab) :
    buildHufftabAC huffval beChroma tab =
      orRow (UInt32.ofNat (8 * if beChroma then 1 else 0)) 0 (huffval.take 162) tab := by
  cases beChroma
  · rfl
  · rfl

/-- The two tables of luma or of chroma, which go to lanes that are empty before. -/
theorem holds_pair {dc : HuffTbl} (ac : HuffTbl) (tab : HuffTab) (h : BaselineDC dc)
    (hfour : codeCount dc.bits 16 ≤ 4) (beChroma : Bool)
    (hdc : ∀ i < 162, lane (if beChroma then 3 else 2) (tab.words i) = 0)
    (hac : ∀ i < 162, lane (if beChroma then 1 else 0) (tab.words i) = 0) :
    HoldsDC (if beChroma then 3 else 2) dc
      (buildHufftabAC ac.huffval beChroma (buildHufftabDC dc.huffval dc.bits beChroma tab)) ∧
    HoldsAC (if beChroma then 1 else 0) ac
      (buildHufftabAC ac.huffval beChroma (buildHufftabDC dc.huffval dc.bits beChroma tab)) := by
  have hk : (if beChroma then 3 else 2) < 4 := by cases beChroma <;> decide
  have hk' : (if beChroma then 1 else 0) < 4 := by cases beChroma <;> decide
  have hne : (if beChroma then 3 else 2) ≠ (if beChroma then 1 else 0) := by
    cases beChroma <;> decide
  rw [buildHufftabAC_eq, buildHufftabDC_eq]
  refine ⟨(h.holdsDC hfour hk hdc).congr fun x => ?_, holdsAC_acRow hk' fun i hi => ?_⟩
  · rw [lane_acRow hk hk', if_neg hne, UInt8.or_zero]
  · rw [lane_buildDCLoop_of_ne hk' hk hne.symm]
    exact hac i hi

/-- The other lanes are left alone. -/
theorem lane_pair {dc ac : HuffTbl} (beChroma : Bool) (hm : m < 4)
    (hdc : m ≠ if beChroma then 3 else 2) (hac : m ≠ if beChroma then 1 else 0) (x : Nat) :
    lane m ((buildHufftabAC ac.huffval beChroma
      (buildHufftabDC dc.huffval dc.bits beChroma tab)).words x) = lane m (tab.words x) := by
  have hk : (if beChroma then 3 else 2) < 4 := by cases beChroma <;> decide
  have hk' : (if beChroma then 1 else 0) < 4 := by cases beChroma <;> decide
  rw [buildHufftabAC_eq, buildHufftabDC_eq, lane_acRow hm hk', if_neg hac, UInt8.or_zero,
    lane_buildDCLoop_of_ne hm hk hdc]

theorem writes_pair {dc ac : HuffTbl} (h : BaselineDC dc) (beChroma : Bool) :
    (∀ i ∈ (buildHufftabAC ac.huffval beChroma
      (buildHufftabDC dc.huffval dc.bits beChroma tab)).writes, i < 162) ↔
      (∀ i ∈ tab.writes, i < 162) ∧ codeCount dc.bits 16 ≤ 4 := by
  rw [buildHufftabAC_eq, writes_acRow, buildHufftabDC_eq, h.writes_lt_iff]

/-- For DC tables of the baseline, `JPEGFW_build_hufftab_jpegDec` writes inside of `g_huffTab` and
leaves every symbol in its place, exactly if each of them has at most four codes of 16 bits. -/
theorem buildHufftab_iff (numComponents : Nat) (dcLum acLum dcChr acChr : HuffTbl) (tab : HuffTab)
    (hlum : BaselineDC dcLum) (hchr : BaselineDC dcChr) :
    HoldsSymbols numComponents dcLum acLum dcChr acChr
      (buildHufftab numComponents dcLum acLum dcChr acChr tab) ↔
      codeCount dcLum.bits 16 ≤ 4 ∧ (numComponents ≠ 1 → codeCount dcChr.bits 16 ≤ 4) := by
  have hclear : ∀ i ∈ tab.clear.writes, i < 162 := by
    intro i hi
    cases hi
  -- the tables of luma, and what they leave of the lanes of chroma
  have hlumHolds := fun hfour : codeCount dcLum.bits 16 ≤ 4 =>
    holds_pair acLum tab.clear hlum hfour false (fun i hi => lane_clear 2 tab hi)
      (fun i hi => lane_clear 0 tab hi)
  have hempty : ∀ m < 4, m ≠ 2 → m ≠ 0 → ∀ i < 162, lane m ((buildHufftabAC acLum.huffval false
      (buildHufftabDC dcLum.huffval dcLum.bits false tab.clear)).words i) = 0 :=
    fun m hm h2 h0 i hi => (lane_pair false hm h2 h0 i).trans (lane_clear m tab hi)
  unfold buildHufftab
  simp only
  by_cases hone : numComponents ≠ 1
  · rw [if_pos hone]
    constructor
    · intro h
      have hwrites := (writes_pair hchr true).1 h.writes
      exact ⟨((writes_pair hlum false).1 hwrites.1).2, fun _ => hwrites.2⟩
    · rintro ⟨hfour, hfour'⟩
      obtain ⟨hlumDC, hlumAC⟩ := hlumHolds hfour
      obtain ⟨hchrDC, hchrAC⟩ := holds_pair acChr _ hchr (hfour' hone) true
        (hempty 3 (by decide) (by decide) (by decide)) (hempty 1 (by decide) (by decide) (by decide))
      exact
        { writes := (writes_pair hchr true).2 ⟨(writes_pair hlum false).2 ⟨hclear, hfour⟩, hfour' hone⟩
          lumAC := hlumAC.congr (lane_pair true (by decide) (by decide) (by decide))
          lumDC := hlumDC.congr (lane_pair true (by decide) (by decide) (by decide))
          chrAC := fun _ => hchrAC
          chrDC := fun _ => hchrDC }
  · rw [if_neg hone]
    constructor
    · intro h
      exact ⟨((writes_pair hlum false).1 h.writes).2, fun h1 => absurd h1 hone⟩
    · rintro ⟨hfour, -⟩
      obtain ⟨hlumDC, hlumAC⟩ := hlumHolds hfour
      exact
        { writes := (writes_pair hlum false).2 ⟨hclear, hfour⟩
          lumAC := hlumAC
          lumDC := hlumDC
          chrAC := fun h1 => absurd h1 hone
          chrDC := fun h1 => absurd h1 hone }

/-- `jpeg_fw_lum_dc_bits_default` and its symbols -/
def lumDcDefault : HuffTbl :=
  ⟨[0, 0, 1, 5, 1, 1, 1, 1, 1, 1, 0, 0, 0, 0, 0, 0, 0],
    [0, 1, 2, 3, 4, 5, 6, 7, 8, 9, 10, 11] ++ List.replicate 245 0⟩

/-- `jpeg_fw_chr_dc_bits_default` and its symbols -/
def chrDcDefault : HuffTbl :=
  ⟨[0, 0, 3, 1, 1, 1, 1, 1, 1, 1, 1, 1, 0, 0, 0, 0, 0],
    [0, 1, 2, 3, 4, 5, 6, 7, 8, 9, 10, 11] ++ List.replicate 245 0⟩

/-- A table without symbols, as it is allocated. -/
def noSymbols : HuffTbl := ⟨List.replicate 17 0, List.replicate 257 0⟩

/-- The default tables. -/
theorem buildHufftab_default :
    HoldsSymbols 3 lumDcDefault noSymbols chrDcDefault noSymbols
      (buildHufftab 3 lumDcDefault noSymbols chrDcDefault noSymbols ⟨fun _ => 0, []⟩) :=
  (buildHufftab_iff 3 lumDcDefault noSymbols chrDcDefault noSymbols ⟨fun _ => 0, []⟩
    ⟨rfl, by decide +kernel, by decide, by decide⟩
    ⟨rfl, by decide +kernel, by decide, by decide⟩).2 (by decide)

/-- A DHT segment with a luma DC table of twelve codes, each of which has 16 bits. -/
def dht16 : List UInt8 :=
  [0, 31, 0x00, 0, 0, 0, 0, 0, 0, 0, 0, 0, 0, 0, 0, 0, 0, 0, 12, 0, 1, 2, 3, 4, 5, 6, 7, 8, 9, 10, 11]

/-- The table of the segment. -/
def lumDc16 : HuffTbl :=
  ⟨[0, 0, 0, 0, 0, 0, 0, 0, 0, 0, 0, 0, 0, 0, 0, 0, 12],
    [0, 1, 2, 3, 4, 5, 6, 7, 8, 9, 10, 11] ++ List.replicate 245 0⟩

/-- `GetHuffTbl` takes the segment, whose table is one of the baseline; eight of its symbols are
written behind `g_huffTab`. -/
theorem not_holds_dht16 :
    (getHuffTbl ⟨dht16, Codec.init⟩).map (fun s => s.codec.dcHuffTbl[0]?) = some (some lumDc16) ∧
    BaselineDC lumDc16 ∧ BaselineDC chrDcDefault ∧
    (buildHufftab 3 lumDc16 noSymbols chrDcDefault noSymbols ⟨fun _ => 0, []⟩).writes.countP
      (162 ≤ ·) = 8 ∧
    ¬HoldsSymbols 3 lumDc16 noSymbols chrDcDefault noSymbols
      (buildHufftab 3 lumDc16 noSymbols chrDcDefault noSymbols ⟨fun _ => 0, []⟩) := by
  refine ⟨by decide +kernel, ⟨rfl, by decide +kernel, by decide, by decide⟩,
    ⟨rfl, by decide +kernel, by decide, by decide⟩, by decide +kernel, fun h => ?_⟩
  exact absurd (h.writes 162) (by decide +kernel)

end whole

end SprdHal.Jpeg
