import Mathlib.Data.List.GetD
import Mathlib.Logic.Function.Basic
import SprdHal.Jpeg.Header
import SprdHal.Lib.Canonical
import SprdHal.Lib.Words

/-!
# Huffman tables of the decoder (`jpegdec_vld.c`)

`JPEGFW_FixHuffTbl` makes the words of a table for the hardware from the number of codes of each
length. A word has the last code of its length, where its symbols begin, and whether there are any.
-/

namespace SprdHal.Jpeg

open Canonical

/-! ## `JPEGFW_FixHuffTbl` -/

/-- `huffsize`: the lengths of the codes one after the other; the bytes behind them are 0. -/
def huffSizes (bits : List UInt8) : List UInt8 :=
  (List.range' 1 16).flatMap fun l => List.replicate (bits.getD l 0).toNat (UInt8.ofNat l)

/-- The variables of the loops that make the codes, and whether a computation of `code` has lost a
bit, which is no variable of the source. -/
structure CodeRun where
  p : Nat
  code : UInt16
  si : UInt16
  huffcode : List UInt16
  lost : Bool
  deriving DecidableEq

/-- The body of the inner loop. -/
def CodeRun.assign (s : CodeRun) : CodeRun :=
  { s with
    huffcode := s.huffcode ++ [s.code]
    p := s.p + 1
    code := s.code + 1
    lost := s.lost || s.code = 0xffff }

/-- What follows the inner loop. -/
def CodeRun.lengthen (s : CodeRun) : CodeRun :=
  { s with
    code := s.code <<< 0x1
    si := s.si + 1
    lost := s.lost || 0x8000 ≤ s.code }

/-- The loop over the codes of one length. -/
def assignLoop (huffsize : List UInt8) : Nat → CodeRun → Option CodeRun
  | 0, _ => none
  | n + 1, s =>
    if (huffsize.getD s.p 0).toUInt16 = s.si then assignLoop huffsize n s.assign else some s

/-- The loop over the lengths. -/
def codeLoop (huffsize : List UInt8) : Nat → CodeRun → Option CodeRun
  | 0, _ => none
  | n + 1, s =>
    if huffsize.getD s.p 0 ≠ 0 then
      (assignLoop huffsize n s).bind fun s => codeLoop huffsize n s.lengthen
    else some s

/-- `p`, `valptr` and `maxcode`; the arrays are not initialised. -/
structure DecodingTables where
  p : Nat
  valptr : Nat → UInt8
  maxcode : Nat → Int

/-- The decoding tables after the given number of lengths. -/
def decodingTables (bits : List UInt8) (huffcode : List UInt16) : Nat → DecodingTables
  | 0 => ⟨0, fun _ => 0, fun _ => 0⟩
  | n + 1 =>
    let t := decodingTables bits huffcode n
    let l := n + 1
    if bits.getD l 0 ≠ 0 then
      let p := t.p + (bits.getD l 0).toNat
      ⟨p, Function.update t.valptr l (UInt8.ofNat t.p),
        Function.update t.maxcode l (huffcode.getD (p - 1) 0xffff).toNat⟩
    else { t with maxcode := Function.update t.maxcode l (-1) }

/-- A word of `s_active_base_max`. -/
def activeBaseMax (active baseAddr maxCode : UInt32) : UInt32 :=
  active <<< 0x1f ||| baseAddr <<< 0x10 ||| maxCode

/-- The words of a table after the given number of lengths. -/
def activeBaseMaxRow (t : DecodingTables) (row : Nat → UInt32) : Nat → Nat → UInt32
  | 0 => row
  | n + 1 =>
    let row := activeBaseMaxRow t row n
    let l := n + 1
    if t.maxcode l ≠ -1 then
      Function.update row l
        (activeBaseMax 1 (t.valptr l).toUInt32 (UInt32.ofNat (t.maxcode l).toNat))
    else
      let maxCode :=
        if l > 1 then
          if t.maxcode (l - 1) ≠ -1 then UInt32.ofNat ((t.maxcode (l - 1) + 1) * 2).toNat
          else (row (l - 1) &&& 0xffff) * 2
        else 0
      Function.update row l (activeBaseMax 0 0 maxCode)

/-- The row of `s_active_base_max` that a table has. -/
def activeBaseMaxIndex (isDc isLuma : Bool) : Nat :=
  ((if isLuma then 0 else 1) <<< 1) ||| (if isDc then 0 else 1)

/-- What `JPEGFW_FixHuffTbl` leaves: `s_active_base_max` and the codes. -/
structure HuffRun where
  activeBaseMax : Nat → Nat → UInt32
  huffcode : List UInt16
  lost : Bool

/-- `JPEGFW_FixHuffTbl`, `none` if the loops take more rounds than given. -/
def fixHuffTbl (fuel : Nat) (bits : List UInt8) (isDc isLuma : Bool) (rows : Nat → Nat → UInt32) :
    Option HuffRun :=
  let huffsize := huffSizes bits
  (codeLoop huffsize fuel ⟨0, 0, (huffsize.getD 0 0).toUInt16, [], false⟩).map fun s =>
    let t := decodingTables bits s.huffcode 16
    let i := activeBaseMaxIndex isDc isLuma
    ⟨Function.update rows i (activeBaseMaxRow t (rows i) 16), s.huffcode, s.lost⟩

/-! ## The canonical code -/

/-- The number of codes of a length. -/
def codeCount (bits : List UInt8) (l : Nat) : Nat := if l = 0 then 0 else (bits.getD l 0).toNat

/-- The length of the code of a symbol. -/
def codeLength (bits : List UInt8) (k : Nat) : Nat := ((huffSizes bits).getD k 0).toNat

/-- The canonical code of a symbol. -/
def canonicalCode (bits : List UInt8) (k : Nat) : Nat :=
  let l := codeLength bits k
  firstCode (codeCount bits) l + (k - firstIndex (codeCount bits) l)

/-- The word of a symbol. -/
def codeword (bits : List UInt8) (k : Nat) : List Bool :=
  codeBits (codeLength bits k) (canonicalCode bits k)

/-! ### The fields of a word, as `collect_valid_bits` and `configure_maxReg_AC` take them -/

def wordActive (w : UInt32) : Bool := w >>> 0x1f = 1

def wordBase (w : UInt32) : Nat := (w >>> 0x10 &&& 0xff).toNat

def wordMax (w : UInt32) : Nat := (w &&& 0xffff).toNat

/-! ## The lengths -/

section lengths

variable {bits : List UInt8}

theorem codeCount_of_pos {l : Nat} (hl : 0 < l) : codeCount bits l = (bits.getD l 0).toNat :=
  if_neg (Nat.ne_of_gt hl)

/-- The lengths up to `m`. -/
theorem length_sizes (bits : List UInt8) (m : Nat) :
    ((List.range' 1 m).flatMap fun l =>
      List.replicate (bits.getD l 0).toNat (UInt8.ofNat l)).length =
      firstIndex (codeCount bits) (m + 1) := by
  induction m with
  | zero => rfl
  | succ m ih =>
    have hnext : firstIndex (codeCount bits) (m + 1 + 1) =
        firstIndex (codeCount bits) (m + 1) + codeCount bits (m + 1) := rfl
    rw [List.range'_1_concat, List.flatMap_append, List.length_append, ih, hnext,
      codeCount_of_pos (Nat.succ_pos m), Nat.add_comm 1 m]
    simp

theorem sizes_getD (bits : List UInt8) (m : Nat) : ∀ {l i : Nat}, 0 < l → l ≤ m →
    i < codeCount bits l →
    ((List.range' 1 m).flatMap fun l =>
      List.replicate (bits.getD l 0).toNat (UInt8.ofNat l)).getD
        (firstIndex (codeCount bits) l + i) 0 = UInt8.ofNat l := by
  induction m with
  | zero =>
    intro l i hl hm
    omega
  | succ m ih =>
    intro l i hl hm hi
    rw [List.range'_1_concat, List.flatMap_append]
    rcases Nat.lt_or_ge m l with hlt | hge
    · obtain rfl : l = m + 1 := Nat.le_antisymm hm hlt
      rw [List.getD_append_right _ _ _ _ (by rw [length_sizes]; omega), length_sizes,
        Nat.add_sub_cancel_left, Nat.add_comm 1 m]
      rw [codeCount_of_pos hl] at hi
      rw [List.flatMap_singleton, List.getD_replicate _ hi]
    · have hlen : firstIndex (codeCount bits) l + i <
          firstIndex (codeCount bits) (m + 1) :=
        Nat.lt_of_lt_of_le (Nat.add_lt_add_left hi _) (firstIndex_mono (Nat.succ_le_succ hge))
      rw [List.getD_append _ _ _ _ (by rw [length_sizes]; exact hlen)]
      exact ih hl hge hi

/-- The number of symbols. -/
theorem firstIndex_eq_symbolCount (hlen : bits.length = 17) :
    firstIndex (codeCount bits) 17 = symbolCount bits := by
  obtain ⟨b, tail, rfl⟩ := List.exists_cons_of_length_pos (l := bits) (by omega)
  have htake : ∀ n, firstIndex (codeCount (b :: tail)) (n + 1) =
      ((tail.take n).map UInt8.toNat).sum := by
    intro n
    induction n with
    | zero => rfl
    | succ n ih =>
      have hnext : firstIndex (codeCount (b :: tail)) (n + 1 + 1) =
          firstIndex (codeCount (b :: tail)) (n + 1) + codeCount (b :: tail) (n + 1) := rfl
      rw [hnext, ih, codeCount_of_pos (Nat.succ_pos n), List.getD_cons_succ, List.take_add_one,
        List.map_append, List.sum_append]
      rcases htail : tail[n]? with _ | x
      · simp [List.getD, htail]
      · simp [List.getD, htail]
  have hall := htake 16
  have htail : tail.length ≤ 16 := by
    rw [List.length_cons] at hlen
    omega
  rwa [List.take_of_length_le htail] at hall

theorem length_huffSizes (bits : List UInt8) :
    (huffSizes bits).length = firstIndex (codeCount bits) 17 :=
  length_sizes bits 16

theorem huffSizes_getD {l i : Nat} (hl : 0 < l) (hl16 : l ≤ 16) (hi : i < codeCount bits l) :
    (huffSizes bits).getD (firstIndex (codeCount bits) l + i) 0 = UInt8.ofNat l :=
  sizes_getD bits 16 hl hl16 hi

/-- A symbol is the `i`-th one of its length. -/
theorem exists_symbol {k : Nat} (hk : k < firstIndex (codeCount bits) 17) :
    ∃ l i, (0 < l ∧ l ≤ 16) ∧ i < codeCount bits l ∧ k = firstIndex (codeCount bits) l + i ∧
      codeLength bits k = l ∧ canonicalCode bits k = firstCode (codeCount bits) l + i := by
  obtain ⟨l, hl, i, hi, rfl⟩ := exists_of_lt_firstIndex hk
  have hpos : 0 < l := by
    rcases Nat.eq_zero_or_pos l with rfl | hpos
    · exact absurd hi (Nat.not_lt_zero i)
    · exact hpos
  have hlength : codeLength bits (firstIndex (codeCount bits) l + i) = l := by
    rw [codeLength, huffSizes_getD hpos (Nat.le_of_lt_succ hl) hi, UInt8.toNat_ofNat']
    omega
  refine ⟨l, i, ⟨hpos, Nat.le_of_lt_succ hl⟩, hi, rfl, hlength, ?_⟩
  rw [canonicalCode, hlength, Nat.add_sub_cancel_left]

end lengths

/-! ## The codes -/

section codes

variable {bits : List UInt8}

/-- What the last shift loses: there are codes with 16 bits, and the one behind them has its highest
bit set. -/
def LastShiftLoses (bits : List UInt8) : Prop :=
  0 < codeCount bits 16 ∧ 2 ^ 15 ≤ firstCode (codeCount bits) 16 + codeCount bits 16

instance (bits : List UInt8) : Decidable (LastShiftLoses bits) :=
  inferInstanceAs (Decidable (_ ∧ _))

/-- The codes of the first `p` symbols. -/
def codesUpTo (bits : List UInt8) (p : Nat) : List UInt16 :=
  (List.range p).map fun k => UInt16.ofNat (canonicalCode bits k)

/-- The loops before the first `i` codes of length `l` are made. -/
structure CodeRun.At (bits : List UInt8) (l i : Nat) (s : CodeRun) : Prop where
  si : s.si = UInt16.ofNat l
  p : s.p = firstIndex (codeCount bits) l + i
  code : s.code = UInt16.ofNat (firstCode (codeCount bits) l + i)
  huffcode : s.huffcode = codesUpTo bits s.p
  lost : s.lost = decide (16 < l ∧ LastShiftLoses bits)

variable {s : CodeRun} {l i : Nat}

/-- One more code of the length. -/
theorem CodeRun.At.assign (h : s.At bits l i) (hl : 0 < l) (hl16 : l ≤ 16)
    (hi : i < codeCount bits l)
    (hfit : firstCode (codeCount bits) l + codeCount bits l < 2 ^ l) : s.assign.At bits l (i + 1) := by
  have hpow : 2 ^ l ≤ 2 ^ 16 := Nat.pow_le_pow_right (by decide) hl16
  have hlength : codeLength bits (firstIndex (codeCount bits) l + i) = l := by
    rw [codeLength, huffSizes_getD hl hl16 hi, UInt8.toNat_ofNat']
    omega
  have hcode : canonicalCode bits s.p = firstCode (codeCount bits) l + i := by
    rw [h.p, canonicalCode, hlength, Nat.add_sub_cancel_left]
  refine ⟨h.si, ?_, ?_, ?_, ?_⟩
  · exact congrArg (· + 1) h.p
  · simp only [CodeRun.assign, h.code, ← Nat.add_assoc, UInt16.ofNat_add]
    rfl
  · simp only [CodeRun.assign, codesUpTo, List.range_succ, List.map_append, List.map_singleton, hcode,
      h.huffcode, h.code]
  · have hne : s.code ≠ 0xffff := by
      rw [h.code]
      intro heq
      have hnat := congrArg UInt16.toNat heq
      rw [UInt16.toNat_ofNat', show (0xffff : UInt16).toNat = 65535 from rfl] at hnat
      omega
    simp only [CodeRun.assign, hne, decide_false, Bool.or_false, h.lost]

/-- The loop over a length makes all of its codes. -/
theorem assignLoop_run (hl : 0 < l) (hl16 : l ≤ 16)
    (hfit : firstCode (codeCount bits) l + codeCount bits l < 2 ^ l)
    (hnext : (huffSizes bits).getD (firstIndex (codeCount bits) (l + 1)) 0 ≠ UInt8.ofNat l) :
    ∀ {fuel i : Nat} {s : CodeRun}, codeCount bits l < fuel + i → i ≤ codeCount bits l → s.At bits l i →
      ∃ s', assignLoop (huffSizes bits) fuel s = some s' ∧ s'.At bits l (codeCount bits l) := by
  have hsize : ∀ x : UInt8, x.toUInt16 = UInt16.ofNat l ↔ x = UInt8.ofNat l := by
    intro x
    rw [← UInt16.toNat_inj, ← UInt8.toNat_inj, UInt8.toNat_toUInt16, UInt16.toNat_ofNat',
      UInt8.toNat_ofNat', Nat.mod_eq_of_lt (by omega), Nat.mod_eq_of_lt (by omega)]
  intro fuel
  induction fuel with
  | zero =>
    intro i s hfuel hi _
    omega
  | succ fuel ih =>
    intro i s hfuel hi h
    rcases Nat.lt_or_eq_of_le hi with hlt | rfl
    · obtain ⟨s', hrun, hs'⟩ := ih (by omega) hlt (h.assign hl hl16 hlt hfit)
      refine ⟨s', ?_, hs'⟩
      rw [assignLoop, h.p, huffSizes_getD hl hl16 hlt, h.si, if_pos ((hsize _).2 rfl)]
      exact hrun
    · refine ⟨s, ?_, h⟩
      rw [assignLoop, h.p, h.si, if_neg]
      exact fun heq => hnext ((hsize _).1 heq)

/-- The next length. -/
theorem CodeRun.At.lengthen (h : s.At bits l (codeCount bits l)) (hl16 : l ≤ 16)
    (hpos : l = 16 → 0 < codeCount bits 16)
    (hfit : firstCode (codeCount bits) l + codeCount bits l < 2 ^ l) : s.lengthen.At bits (l + 1) 0 := by
  refine ⟨?_, h.p, ?_, h.huffcode, ?_⟩
  · simp only [CodeRun.lengthen, h.si, UInt16.ofNat_add]
    rfl
  · rw [CodeRun.lengthen, ← UInt16.toNat_inj, UInt16.toNat_shiftLeft, h.code, UInt16.toNat_ofNat',
      UInt16.toNat_ofNat', Nat.add_zero, firstCode, Nat.shiftLeft_eq]
    exact (Nat.mod_mul_mod _ _ _).trans (congrArg (· % 2 ^ 16) (Nat.mul_comm _ _))
  · have hle : (0x8000 ≤ s.code) ↔ 2 ^ 15 ≤ firstCode (codeCount bits) l + codeCount bits l := by
      have hpow : 2 ^ l ≤ 2 ^ 16 := Nat.pow_le_pow_right (by decide) hl16
      rw [h.code, UInt16.le_iff_toNat_le, UInt16.toNat_ofNat', Nat.mod_eq_of_lt (by omega)]
      exact Iff.rfl
    simp only [CodeRun.lengthen, h.lost, hle]
    rcases Nat.lt_or_eq_of_le hl16 with hlt | rfl
    · have hpow : 2 ^ l ≤ 2 ^ 15 := Nat.pow_le_pow_right (by decide) (Nat.le_of_lt_succ hlt)
      have hsmall : ¬2 ^ 15 ≤ firstCode (codeCount bits) l + codeCount bits l := by omega
      have hl1 : ¬16 < l + 1 := by omega
      have hl0 : ¬16 < l := by omega
      simp only [hsmall, hl1, hl0, false_and, decide_false, Bool.or_false]
    · simp [LastShiftLoses, hpos rfl]

/-- What follows the symbols of a length is another length, or the end. -/
theorem huffSizes_next {k : Nat} (hk : firstIndex (codeCount bits) (l + 1) ≤ k) :
    (huffSizes bits).getD k 0 = 0 ∨ ∃ m, l < m ∧ m ≤ 16 ∧ (huffSizes bits).getD k 0 = UInt8.ofNat m := by
  rcases Nat.lt_or_ge k (firstIndex (codeCount bits) 17) with hlt | hge
  · right
    obtain ⟨m, i, ⟨hm, hm16⟩, hi, rfl, -, -⟩ := exists_symbol hlt
    refine ⟨m, ?_, hm16, huffSizes_getD hm hm16 hi⟩
    by_contra hle
    have hmono : firstIndex (codeCount bits) (m + 1) ≤ firstIndex (codeCount bits) (l + 1) :=
      firstIndex_mono (Nat.succ_le_succ (Nat.le_of_not_lt hle))
    rw [firstIndex] at hmono
    omega
  · left
    rw [← length_huffSizes] at hge
    exact List.getD_eq_default _ _ hge

theorem ofNat_ne {m : Nat} (hm : m ≤ 16) (h : l < m) : UInt8.ofNat m ≠ UInt8.ofNat l := by
  rw [ne_eq, ← UInt8.toNat_inj, UInt8.toNat_ofNat', UInt8.toNat_ofNat']
  omega

theorem huffSizes_ne_zero {k : Nat} (hk : k < firstIndex (codeCount bits) 17) :
    (huffSizes bits).getD k 0 ≠ 0 := by
  obtain ⟨m, i, ⟨hm, hm16⟩, hi, rfl, -, -⟩ := exists_symbol hk
  rw [huffSizes_getD hm hm16 hi]
  exact ofNat_ne hm16 hm

theorem codeCount_lt (bits : List UInt8) (l : Nat) : codeCount bits l < 256 := by
  unfold codeCount
  split
  · decide
  · exact UInt8.toNat_lt _

/-- The loops end with the codes of all symbols. -/
theorem codeLoop_run (hkraft : kraftSum (codeCount bits) 16 17 < 2 ^ 16) :
    ∀ {d l fuel : Nat} {s : CodeRun}, l + d = 17 → 0 < l → d + 300 ≤ fuel → s.At bits l 0 →
      ∃ s', codeLoop (huffSizes bits) fuel s = some s' ∧
        s'.huffcode = codesUpTo bits (firstIndex (codeCount bits) 17) ∧
        s'.lost = decide (LastShiftLoses bits) := by
  intro d
  induction d with
  | zero =>
    intro l fuel s hd hl hfuel h
    obtain rfl : l = 17 := hd
    obtain ⟨fuel, rfl⟩ : ∃ n, fuel = n + 1 := Nat.exists_eq_succ_of_ne_zero (by omega)
    have hend : (huffSizes bits).getD s.p 0 = 0 :=
      List.getD_eq_default _ _ (by rw [length_huffSizes, h.p]; exact Nat.le_refl _)
    refine ⟨s, by rw [codeLoop, hend, if_neg (by simp)], ?_, ?_⟩
    · rw [h.huffcode, h.p]
      rfl
    · simpa using h.lost
  | succ d ih =>
    intro l fuel s hd hl hfuel h
    obtain ⟨fuel, rfl⟩ : ∃ n, fuel = n + 1 := Nat.exists_eq_succ_of_ne_zero (by omega)
    have hl16 : l ≤ 16 := by omega
    have hp : s.p = firstIndex (codeCount bits) l := h.p
    have htotal : firstIndex (codeCount bits) 17 =
        firstIndex (codeCount bits) 16 + codeCount bits 16 := rfl
    rcases Nat.lt_or_ge s.p (firstIndex (codeCount bits) 17) with hlt | hge
    · -- there are symbols left: the length is done, and the next one begins
      have hfit := firstCode_add_lt hkraft hl16
      have hnext : (huffSizes bits).getD (firstIndex (codeCount bits) (l + 1)) 0 ≠ UInt8.ofNat l := by
        rcases huffSizes_next (Nat.le_refl (firstIndex (codeCount bits) (l + 1))) with h0 | h0
        · rw [h0]
          exact (ofNat_ne hl16 hl).symm
        · obtain ⟨m, hlm, hm16, hm⟩ := h0
          rw [hm]
          exact ofNat_ne hm16 hlm
      have hcount := codeCount_lt bits l
      obtain ⟨s', hassign, hs'⟩ := assignLoop_run hl hl16 hfit hnext
        (show codeCount bits l < fuel + 0 by omega) (Nat.zero_le _) h
      have hpos : l = 16 → 0 < codeCount bits 16 := by
        rintro rfl
        omega
      rw [codeLoop, if_pos (huffSizes_ne_zero hlt), hassign, Option.bind_some]
      exact ih (by omega) (Nat.succ_pos l) (by omega) (hs'.lengthen hl16 hpos hfit)
    · -- no length from here on has symbols
      have hend : (huffSizes bits).getD s.p 0 = 0 :=
        List.getD_eq_default _ _ (by rw [length_huffSizes]; exact hge)
      have hle : firstIndex (codeCount bits) l ≤ firstIndex (codeCount bits) 16 := firstIndex_mono hl16
      refine ⟨s, by rw [codeLoop, hend, if_neg (by simp)], ?_, ?_⟩
      · rw [h.huffcode, hp, show firstIndex (codeCount bits) l = firstIndex (codeCount bits) 17 by omega]
      · rw [h.lost]
        have hl0 : ¬16 < l := by omega
        have hnone : ¬LastShiftLoses bits := fun hloses => by
          have := hloses.1
          omega
        simp only [hl0, hnone, false_and]

end codes

/-! ## The words of the table -/

section table

variable {bits : List UInt8}

/-- The last code of a length. -/
theorem codesUpTo_last (hkraft : kraftSum (codeCount bits) 16 17 < 2 ^ 16) {l : Nat} (hl : 0 < l)
    (hl16 : l ≤ 16) (hpos : 0 < codeCount bits l) :
    ((codesUpTo bits (firstIndex (codeCount bits) 17)).getD
      (firstIndex (codeCount bits) (l + 1) - 1) 0xffff).toNat =
      firstCode (codeCount bits) l + codeCount bits l - 1 := by
  have hfit := firstCode_add_lt hkraft hl16
  have hpow : 2 ^ l ≤ 2 ^ 16 := Nat.pow_le_pow_right (by decide) hl16
  have hk : firstIndex (codeCount bits) (l + 1) - 1 =
      firstIndex (codeCount bits) l + (codeCount bits l - 1) := by
    rw [firstIndex, Nat.add_sub_assoc hpos]
  have hlast : codeCount bits l - 1 < codeCount bits l := Nat.sub_one_lt_of_lt hpos
  have hlt : firstIndex (codeCount bits) l + (codeCount bits l - 1) <
      firstIndex (codeCount bits) 17 :=
    Nat.lt_of_lt_of_le (Nat.add_lt_add_left hlast _) (firstIndex_mono (Nat.succ_le_succ hl16))
  have hcode : canonicalCode bits (firstIndex (codeCount bits) l + (codeCount bits l - 1)) =
      firstCode (codeCount bits) l + (codeCount bits l - 1) := by
    rw [canonicalCode, codeLength, huffSizes_getD hl hl16 hlast, UInt8.toNat_ofNat',
      Nat.mod_eq_of_lt (by omega), Nat.add_sub_cancel_left]
  rw [hk, codesUpTo, List.getD_eq_getElem _ _ (by simpa using hlt), List.getElem_map,
    List.getElem_range, hcode, UInt16.toNat_ofNat']
  omega

/-- The decoding tables after some lengths. -/
theorem decodingTables_spec (hkraft : kraftSum (codeCount bits) 16 17 < 2 ^ 16) : ∀ {n : Nat}, n ≤ 16 →
    (decodingTables bits (codesUpTo bits (firstIndex (codeCount bits) 17)) n).p =
      firstIndex (codeCount bits) (n + 1) ∧
    ∀ l, 0 < l → l ≤ n →
      (decodingTables bits (codesUpTo bits (firstIndex (codeCount bits) 17)) n).maxcode l =
        (if 0 < codeCount bits l then
          ((firstCode (codeCount bits) l + codeCount bits l - 1 : Nat) : Int) else -1) ∧
      (0 < codeCount bits l →
        (decodingTables bits (codesUpTo bits (firstIndex (codeCount bits) 17)) n).valptr l =
          UInt8.ofNat (firstIndex (codeCount bits) l)) := by
  intro n
  induction n with
  | zero =>
    intro _
    refine ⟨rfl, fun l hl hl0 => ?_⟩
    omega
  | succ n ih =>
    intro hn
    obtain ⟨hp, hrows⟩ := ih (Nat.le_of_succ_le hn)
    have hcount : codeCount bits (n + 1) = (bits.getD (n + 1) 0).toNat :=
      codeCount_of_pos (Nat.succ_pos n)
    have hnext : firstIndex (codeCount bits) (n + 1 + 1) =
        firstIndex (codeCount bits) (n + 1) + (bits.getD (n + 1) 0).toNat := hcount ▸ rfl
    rw [decodingTables]
    by_cases hb : bits.getD (n + 1) 0 ≠ 0
    · have hpos : 0 < codeCount bits (n + 1) := by
        rw [hcount, Nat.pos_iff_ne_zero]
        exact fun h0 => hb (UInt8.toNat_inj.1 h0)
      simp only [if_pos hb]
      refine ⟨by rw [hp, hnext], fun l hl hle => ?_⟩
      rcases Nat.lt_or_eq_of_le hle with hlt | rfl
      · rw [Function.update_of_ne (Nat.ne_of_lt hlt), Function.update_of_ne (Nat.ne_of_lt hlt)]
        exact hrows l hl (Nat.le_of_lt_succ hlt)
      · rw [Function.update_self, Function.update_self, hp, ← hnext, codesUpTo_last hkraft hl hn hpos,
          if_pos hpos]
        exact ⟨rfl, fun _ => rfl⟩
    · have hzero : ¬0 < codeCount bits (n + 1) := by
        rw [hcount, Classical.not_not.1 hb]
        decide
      simp only [if_neg hb]
      refine ⟨by rw [hp, hnext, Classical.not_not.1 hb]; rfl, fun l hl hle => ?_⟩
      rcases Nat.lt_or_eq_of_le hle with hlt | rfl
      · rw [Function.update_of_ne (Nat.ne_of_lt hlt)]
        exact hrows l hl (Nat.le_of_lt_succ hlt)
      · rw [Function.update_self, if_neg hzero]
        exact ⟨rfl, fun h => absurd h hzero⟩

/-! ### Words -/

/-- The fields of a word do not overlap. -/
theorem activeBaseMax_toNat {active baseAddr maxCode : UInt32} (ha : active.toNat < 2 ^ 1)
    (hb : baseAddr.toNat < 2 ^ 15) (hm : maxCode.toNat < 2 ^ 16) :
    (activeBaseMax active baseAddr maxCode).toNat =
      active.toNat * 2 ^ 31 + (baseAddr.toNat * 2 ^ 16 + maxCode.toNat) := by
  have hlow : (baseAddr <<< 0x10 ||| maxCode).toNat = baseAddr.toNat * 2 ^ 16 + maxCode.toNat :=
    Lib.toNat_shiftLeft_or (by decide) (Nat.lt_trans hb (by decide)) hm
  have hlt : (baseAddr <<< 0x10 ||| maxCode).toNat < 2 ^ 31 := by
    rw [hlow]
    omega
  rw [activeBaseMax, UInt32.or_assoc, ← hlow]
  exact Lib.toNat_shiftLeft_or (by decide) ha hlt

/-- The fields of a word, taken from it. -/
theorem word_fields {w : UInt32} {active baseAddr maxCode : Nat}
    (hw : w.toNat = active * 2 ^ 31 + (baseAddr * 2 ^ 16 + maxCode)) (hb : baseAddr < 2 ^ 8)
    (hm : maxCode < 2 ^ 16) :
    (wordActive w = true ↔ active = 1) ∧ wordBase w = baseAddr ∧ wordMax w = maxCode := by
  refine ⟨?_, ?_, ?_⟩
  · rw [wordActive, decide_eq_true_eq, ← UInt32.toNat_inj, UInt32.toNat_shiftRight, hw,
      Nat.shiftRight_eq_div_pow, show (1 : UInt32).toNat = 1 from rfl,
      show (0x1f : UInt32).toNat % 32 = 31 from rfl]
    omega
  · rw [wordBase, UInt32.toNat_and, UInt32.toNat_shiftRight, hw, Nat.shiftRight_eq_div_pow,
      show (0x10 : UInt32).toNat % 32 = 16 from rfl]
    exact (Nat.and_two_pow_sub_one_eq_mod _ 8).trans (by omega)
  · rw [wordMax, UInt32.toNat_and, hw]
    exact (Nat.and_two_pow_sub_one_eq_mod _ 16).trans (by omega)

/-- The word that the canonical code has for a length: of one without codes, the first code it
would have. -/
def IsWordOf (bits : List UInt8) (l : Nat) (w : UInt32) : Prop :=
  w.toNat =
    if 0 < codeCount bits l then
      1 * 2 ^ 31 + (firstIndex (codeCount bits) l * 2 ^ 16 +
        (firstCode (codeCount bits) l + codeCount bits l - 1))
    else firstCode (codeCount bits) l

/-- The words of the table. -/
theorem activeBaseMaxRow_spec (hkraft : kraftSum (codeCount bits) 16 17 < 2 ^ 16)
    (hcount : firstIndex (codeCount bits) 17 ≤ 256) (row : Nat → UInt32) : ∀ {n : Nat}, n ≤ 16 →
    ∀ l, 0 < l → l ≤ n →
      IsWordOf bits l (activeBaseMaxRow
        (decodingTables bits (codesUpTo bits (firstIndex (codeCount bits) 17)) 16) row n l) := by
  unfold IsWordOf
  obtain ⟨-, hrows⟩ := decodingTables_spec hkraft (Nat.le_refl 16)
  generalize decodingTables bits (codesUpTo bits (firstIndex (codeCount bits) 17)) 16 = t at hrows ⊢
  intro n
  induction n with
  | zero =>
    intro _ l hl hl0
    omega
  | succ n ih =>
    intro hn l hl hle
    have ih := ih (Nat.le_of_succ_le hn)
    have hfit := firstCode_add_lt hkraft hn
    have hpow : 2 ^ (n + 1) ≤ 2 ^ 16 := Nat.pow_le_pow_right (by decide) hn
    obtain ⟨hmax, hval⟩ := hrows (n + 1) (Nat.succ_pos n) hn
    rw [activeBaseMaxRow]
    rcases Nat.lt_or_eq_of_le hle with hlt | rfl
    · have hne : l ≠ n + 1 := Nat.ne_of_lt hlt
      have hold := ih l hl (Nat.le_of_lt_succ hlt)
      split
      · rw [Function.update_of_ne hne, hold]
      · rw [Function.update_of_ne hne, hold]
    · by_cases hpos : 0 < codeCount bits (n + 1)
      · have hindex : firstIndex (codeCount bits) (n + 1) + codeCount bits (n + 1) ≤ 256 :=
          Nat.le_trans (firstIndex_mono (Nat.succ_le_succ hn)) hcount
        have hbase : (t.valptr (n + 1)).toUInt32.toNat = firstIndex (codeCount bits) (n + 1) := by
          rw [hval hpos, UInt8.toNat_toUInt32, UInt8.toNat_ofNat']
          omega
        have hcode : (UInt32.ofNat (t.maxcode (n + 1)).toNat).toNat =
            firstCode (codeCount bits) (n + 1) + codeCount bits (n + 1) - 1 := by
          rw [hmax, if_pos hpos, Int.toNat_natCast, UInt32.toNat_ofNat']
          omega
        rw [if_pos (by rw [hmax, if_pos hpos]; omega), Function.update_self, if_pos hpos,
          activeBaseMax_toNat (by decide) (by omega) (by omega), hbase, hcode]
        rfl
      · have hmaxcode : t.maxcode (n + 1) = -1 := by rw [hmax, if_neg hpos]
        have hword : ∀ m : UInt32, m.toNat = firstCode (codeCount bits) (n + 1) →
            (activeBaseMax 0 0 m).toNat = firstCode (codeCount bits) (n + 1) := by
          intro m hm
          rw [activeBaseMax_toNat (by decide) (by decide) (by omega), hm]
          exact (Nat.zero_add _).trans (Nat.zero_add _)
        simp only [hmaxcode, ne_eq, not_true_eq_false, if_false, Function.update_self, if_neg hpos]
        apply hword
        cases n with
        | zero => rfl
        | succ n =>
          obtain ⟨hprev, -⟩ := hrows (n + 1) (Nat.succ_pos n) (Nat.le_of_succ_le hn)
          have hrow := ih (n + 1) (Nat.succ_pos n) (Nat.le_refl _)
          have hfirst : firstCode (codeCount bits) (n + 1 + 1) =
              2 * (firstCode (codeCount bits) (n + 1) + codeCount bits (n + 1)) := rfl
          rw [if_pos (by omega), Nat.add_sub_cancel]
          by_cases hprevPos : 0 < codeCount bits (n + 1)
          · rw [if_pos hprevPos] at hprev
            rw [if_pos (by rw [hprev]; omega), hprev, hfirst, UInt32.toNat_ofNat']
            omega
          · rw [if_neg hprevPos] at hprev hrow
            rw [if_neg (by rw [hprev]; simp)]
            have hlow : (activeBaseMaxRow t row (n + 1) (n + 1) &&& 0xffff).toNat =
                firstCode (codeCount bits) (n + 1) := by
              rw [UInt32.toNat_and, hrow]
              exact (Nat.and_two_pow_sub_one_eq_mod _ 16).trans (by omega)
            rw [Lib.toNat_mul_of_lt (by rw [hlow, show (2 : UInt32).toNat = 2 from rfl]; omega), hlow,
              hfirst, show (2 : UInt32).toNat = 2 from rfl]
            omega

end table

/-! ## The whole function -/

section whole

variable {bits : List UInt8}

/-- The code of a length that has none: nothing is read behind 16 bits. -/
theorem codeCount_eq_zero (hlen : bits.length = 17) {l : Nat} (hl : 16 < l) :
    codeCount bits l = 0 := by
  rw [codeCount_of_pos (Nat.zero_lt_of_lt hl), List.getD_eq_default _ _ (by omega)]
  rfl

/-- The loops from their start. -/
theorem codeLoop_start (hkraft : kraftSum (codeCount bits) 16 17 < 2 ^ 16) {fuel : Nat}
    (hfuel : 317 ≤ fuel) :
    ∃ s, codeLoop (huffSizes bits) fuel ⟨0, 0, ((huffSizes bits).getD 0 0).toUInt16, [], false⟩ =
        some s ∧
      s.huffcode = codesUpTo bits (firstIndex (codeCount bits) 17) ∧
      s.lost = decide (LastShiftLoses bits) := by
  rcases Nat.eq_zero_or_pos (firstIndex (codeCount bits) 17) with h0 | hpos
  · obtain ⟨fuel, rfl⟩ : ∃ n, fuel = n + 1 := Nat.exists_eq_succ_of_ne_zero (by omega)
    have hnone : ¬LastShiftLoses bits := fun hloses => by
      have htotal : firstIndex (codeCount bits) 17 =
          firstIndex (codeCount bits) 16 + codeCount bits 16 := rfl
      have := hloses.1
      omega
    have hend : (huffSizes bits).getD 0 0 = 0 :=
      List.getD_eq_default _ _ (by rw [length_huffSizes, h0])
    refine ⟨_, by rw [codeLoop, hend, if_neg (by simp)], ?_, ?_⟩
    · rw [h0]
      rfl
    · simp only [hnone, decide_false]
  · obtain ⟨l, i, ⟨hl, hl16⟩, hi, h0, -, -⟩ := exists_symbol hpos
    obtain ⟨hindex, rfl⟩ := Nat.add_eq_zero_iff.1 h0.symm
    have hsize : (huffSizes bits).getD 0 0 = UInt8.ofNat l := by
      rw [h0, huffSizes_getD hl hl16 hi]
    refine codeLoop_run hkraft (d := 17 - l) (by omega) hl (by omega) ⟨?_, ?_, ?_, rfl, ?_⟩
    · rw [hsize, ← UInt16.toNat_inj, UInt8.toNat_toUInt16, UInt8.toNat_ofNat', UInt16.toNat_ofNat']
      omega
    · exact h0
    · rw [firstCode_eq_zero hindex]
      rfl
    · have hl0 : ¬16 < l := by omega
      simp only [hl0, false_and, decide_false]

/-- The fields of such a word. -/
theorem IsWordOf.fields (hkraft : kraftSum (codeCount bits) 16 17 < 2 ^ 16)
    (hcount : firstIndex (codeCount bits) 17 ≤ 256) {l : Nat} (hl16 : l ≤ 16) {w : UInt32}
    (h : IsWordOf bits l w) :
    (wordActive w = true ↔ 0 < codeCount bits l) ∧
    (0 < codeCount bits l → wordBase w = firstIndex (codeCount bits) l ∧
      wordMax w + 1 = firstCode (codeCount bits) l + codeCount bits l) ∧
    (wordActive w = false → wordMax w = firstCode (codeCount bits) l) ∧
    w.toNat = (wordActive w).toNat * 2 ^ 31 + (wordBase w * 2 ^ 16 + wordMax w) := by
  have hfit := firstCode_add_lt hkraft hl16
  have hpow : 2 ^ l ≤ 2 ^ 16 := Nat.pow_le_pow_right (by decide) hl16
  unfold IsWordOf at h
  by_cases hpos : 0 < codeCount bits l
  · have hindex : firstIndex (codeCount bits) l + codeCount bits l ≤ 256 :=
      Nat.le_trans (firstIndex_mono (Nat.succ_le_succ hl16)) hcount
    rw [if_pos hpos] at h
    obtain ⟨hactive, hbase, hmax⟩ := word_fields h (by omega) (by omega)
    have hone : wordActive w = true := hactive.2 rfl
    refine ⟨⟨fun _ => hpos, fun _ => hone⟩, fun _ => ⟨hbase, by omega⟩, fun hoff => ?_, ?_⟩
    · rw [hone] at hoff
      cases hoff
    · rw [hone, hbase, hmax]
      exact h
  · rw [if_neg hpos] at h
    have hw : w.toNat = 0 * 2 ^ 31 + (0 * 2 ^ 16 + firstCode (codeCount bits) l) := by
      rw [h, Nat.zero_mul, Nat.zero_mul, Nat.zero_add, Nat.zero_add]
    obtain ⟨hactive, hbase, hmax⟩ := word_fields hw (by omega) (by omega)
    have hoff : wordActive w = false := by
      rw [← Bool.not_eq_true, hactive]
      decide
    refine ⟨⟨fun hon => absurd (hactive.1 hon) (by decide), fun h0 => absurd h0 hpos⟩,
      fun h0 => absurd h0 hpos, fun _ => hmax, ?_⟩
    rw [hoff, hbase, hmax]
    exact hw

/-- Decoding with the words of a table. -/
def tableDecode (bits : List UInt8) (words : Nat → UInt32) : List Bool → Option (Nat × List Bool) :=
  decode (fun l => decide (0 < l ∧ l ≤ 16) && wordActive (words l)) (fun l => wordMax (words l))
    (fun l => wordBase (words l)) (firstCode (codeCount bits)) 0 0

/-- A table whose words are those of the code. -/
theorem decodes_of_words (hlen : bits.length = 17)
    (hkraft : kraftSum (codeCount bits) 16 17 < 2 ^ 16)
    (hcount : firstIndex (codeCount bits) 17 ≤ 256) {words : Nat → UInt32}
    (hwords : ∀ l, 0 < l → l ≤ 16 → IsWordOf bits l (words l)) :
    Decodes (codeCount bits) (fun l => decide (0 < l ∧ l ≤ 16) && wordActive (words l))
      (fun l => wordMax (words l)) (fun l => wordBase (words l)) (firstCode (codeCount bits)) := by
  have hrange : ∀ l, 0 < codeCount bits l → 0 < l ∧ l ≤ 16 := by
    intro l hpos
    refine ⟨Nat.pos_of_ne_zero fun h0 => ?_, Nat.le_of_not_lt fun hlt => ?_⟩
    · rw [h0] at hpos
      exact absurd hpos (Nat.lt_irrefl 0)
    · rw [codeCount_eq_zero hlen hlt] at hpos
      exact absurd hpos (Nat.lt_irrefl 0)
  have hfields := fun l (h : 0 < l ∧ l ≤ 16) =>
    (hwords l h.1 h.2).fields hkraft hcount h.2
  refine ⟨fun l => ?_, fun l hpos => ?_, fun l hpos => ?_, fun _ _ => rfl⟩
  · simp only [Bool.and_eq_true, decide_eq_true_eq]
    constructor
    · rintro ⟨hl, hon⟩
      exact (hfields l hl).1.1 hon
    · intro hpos
      exact ⟨hrange l hpos, (hfields l (hrange l hpos)).1.2 hpos⟩
  · exact ((hfields l (hrange l hpos)).2.1 hpos).2
  · exact ((hfields l (hrange l hpos)).2.1 hpos).1

/-- The function terminates, whatever the other rows have. -/
theorem fixHuffTbl_run (hkraft : kraftSum (codeCount bits) 16 17 < 2 ^ 16) {fuel : Nat}
    (hfuel : 317 ≤ fuel) (isDc isLuma : Bool) (rows : Nat → Nat → UInt32) :
    fixHuffTbl fuel bits isDc isLuma rows = some
      ⟨Function.update rows (activeBaseMaxIndex isDc isLuma)
        (activeBaseMaxRow (decodingTables bits (codesUpTo bits (firstIndex (codeCount bits) 17)) 16)
          (rows (activeBaseMaxIndex isDc isLuma)) 16),
        codesUpTo bits (firstIndex (codeCount bits) 17), decide (LastShiftLoses bits)⟩ := by
  obtain ⟨s, hrun, hcodes, hlost⟩ := codeLoop_start hkraft hfuel
  unfold fixHuffTbl
  simp only [hrun, Option.map_some, hcodes, hlost]

/-- For every table that leaves a code of 16 bits over, `JPEGFW_FixHuffTbl` ends with the canonical
code. Every code of a symbol is computed exactly in 16 bits; of the other computations only the shift
behind the last symbol may lose a bit. The fields of the words do not overlap, the word of a length
without codes has the first code of that length, and decoding with the words finds every symbol from
its code, none of which begins with another one. -/
theorem fixHuffTbl_canonical (bits : List UInt8) (hlen : bits.length = 17)
    (hcount : symbolCount bits ≤ 256) (hkraft : kraftSum (codeCount bits) 16 17 < 2 ^ 16)
    (isDc isLuma : Bool) (rows : Nat → Nat → UInt32) :
    ∃ run, (∀ fuel, 317 ≤ fuel → fixHuffTbl fuel bits isDc isLuma rows = some run) ∧
      run.huffcode.map UInt16.toNat = (List.range (symbolCount bits)).map (canonicalCode bits) ∧
      (run.lost = true ↔ LastShiftLoses bits) ∧
      (∀ l, 0 < l → l ≤ 16 →
        let w := run.activeBaseMax (activeBaseMaxIndex isDc isLuma) l
        w.toNat = (wordActive w).toNat * 2 ^ 31 + (wordBase w * 2 ^ 16 + wordMax w) ∧
        (wordActive w = true ↔ 0 < codeCount bits l) ∧
        (wordActive w = false → wordMax w = firstCode (codeCount bits) l)) ∧
      (∀ k < symbolCount bits, ∀ rest,
        tableDecode bits (run.activeBaseMax (activeBaseMaxIndex isDc isLuma))
          (codeword bits k ++ rest) = some (k, rest)) ∧
      (∀ j < symbolCount bits, ∀ k < symbolCount bits,
        codeword bits j <+: codeword bits k → j = k) := by
  rw [← firstIndex_eq_symbolCount hlen] at hcount ⊢
  have hwords := activeBaseMaxRow_spec hkraft hcount (rows (activeBaseMaxIndex isDc isLuma))
    (Nat.le_refl 16)
  have hdecodes := decodes_of_words hlen hkraft hcount hwords
  refine ⟨_, fun fuel hfuel => fixHuffTbl_run hkraft hfuel isDc isLuma rows, ?_, ?_, ?_, ?_, ?_⟩
  · rw [codesUpTo, List.map_map]
    refine List.map_congr_left fun k hk => ?_
    obtain ⟨l, i, hl, hi, rfl, -, hcode⟩ := exists_symbol (List.mem_range.1 hk)
    have hfit := firstCode_add_lt hkraft hl.2
    have hpow : 2 ^ l ≤ 2 ^ 16 := Nat.pow_le_pow_right (by decide) hl.2
    rw [Function.comp_apply, hcode, UInt16.toNat_ofNat', Nat.mod_eq_of_lt (by omega)]
  · exact decide_eq_true_iff
  · intro l hl hl16
    simp only [Function.update_self]
    obtain ⟨hactive, -, hoff, hw⟩ := (hwords l hl hl16).fields hkraft hcount hl16
    exact ⟨hw, hactive, hoff⟩
  · intro k hk rest
    obtain ⟨l, i, hl, hi, rfl, hlength, hcode⟩ := exists_symbol hk
    simp only [Function.update_self]
    rw [codeword, hlength, hcode]
    exact hdecodes.decode_codeword hl.1 hi (Nat.le_of_lt (firstCode_add_lt hkraft hl.2)) rest
  · intro j hj k hk hbegin
    obtain ⟨l, i, hl, hi, rfl, hlength, hcode⟩ := exists_symbol hj
    obtain ⟨l', i', hl', hi', rfl, hlength', hcode'⟩ := exists_symbol hk
    rw [codeword, codeword, hlength, hcode, hlength', hcode'] at hbegin
    exact hdecodes.codeword_isPrefix hl.1 hi (Nat.le_of_lt (firstCode_add_lt hkraft hl.2)) hl'.1 hi'
      (Nat.le_of_lt (firstCode_add_lt hkraft hl'.2)) hbegin

/-- `jpeg_fw_lum_ac_bits_default` -/
def lumAcBitsDefault : List UInt8 := [0, 0, 2, 1, 3, 3, 2, 4, 3, 5, 5, 4, 4, 0, 0, 1, 0x7d]

theorem fixHuffTbl_canonical_lumAc :
    ∃ run, (∀ fuel, 317 ≤ fuel → fixHuffTbl fuel lumAcBitsDefault false true (fun _ _ => 0) = some run) ∧
      run.huffcode.map UInt16.toNat =
        (List.range (symbolCount lumAcBitsDefault)).map (canonicalCode lumAcBitsDefault) ∧
      (run.lost = true ↔ LastShiftLoses lumAcBitsDefault) ∧
      (∀ l, 0 < l → l ≤ 16 →
        let w := run.activeBaseMax (activeBaseMaxIndex false true) l
        w.toNat = (wordActive w).toNat * 2 ^ 31 + (wordBase w * 2 ^ 16 + wordMax w) ∧
        (wordActive w = true ↔ 0 < codeCount lumAcBitsDefault l) ∧
        (wordActive w = false → wordMax w = firstCode (codeCount lumAcBitsDefault) l)) ∧
      (∀ k < symbolCount lumAcBitsDefault, ∀ rest,
        tableDecode lumAcBitsDefault (run.activeBaseMax (activeBaseMaxIndex false true))
          (codeword lumAcBitsDefault k ++ rest) = some (k, rest)) ∧
      (∀ j < symbolCount lumAcBitsDefault, ∀ k < symbolCount lumAcBitsDefault,
        codeword lumAcBitsDefault j <+: codeword lumAcBitsDefault k → j = k) :=
  fixHuffTbl_canonical lumAcBitsDefault rfl (by decide) (by decide) false true fun _ _ => 0

/-- The luma AC table of the standard follows the rule, and the last computation of a code loses a
bit. -/
theorem lost_lumAc :
    kraftSum (codeCount lumAcBitsDefault) 16 17 < 2 ^ 16 ∧ symbolCount lumAcBitsDefault ≤ 256 ∧
    ∃ run, fixHuffTbl 317 lumAcBitsDefault false true (fun _ _ => 0) = some run ∧ run.lost = true :=
  ⟨by decide, by decide, _, fixHuffTbl_run (by decide) (Nat.le_refl _) _ _ _, by decide⟩

end whole

end SprdHal.Jpeg
