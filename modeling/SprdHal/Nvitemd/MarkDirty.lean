import Mathlib.Data.Fin.Basic
import Mathlib.Logic.Function.Basic
import Mathlib.Tactic.Common

/-!
# The dirty table of the RAM disk (`nvitem_buf.c`)

Each partition of the NV items has a table of 32 words, one bit for a sector. `_markDirtyInfo` sets
the bits of a run of sectors: the rest of the first word, whole words, and a part of the last one. A
run that ends at the end of a word ends with that word; it does not go on to the next one.
-/

namespace SprdHal.Nvitemd

/-- `dirty` of a `_RAMNV_BUF_CTRL`, with `RAMNV_DIRTYTABLE_MAXSIZE` words. -/
abbrev DirtyTable := Fin 32 → BitVec 32

/-- `ramNvCtl.part[id].fromChannel.dirty` for each of the `RAMNV_NUM` partitions. -/
abbrev RamNvCtl := Fin 15 → DirtyTable

/-- `_U32MASK` -/
def u32Mask : BitVec 32 := BitVec.allOnes 32

/-- `_DIRTY_TABLE[_bytes] |= mask`; there is no such word behind the table. -/
def orWord (t : DirtyTable) (bytes : Nat) (mask : BitVec 32) : Option DirtyTable :=
  if h : bytes < 32 then
    some (Function.update t ⟨bytes, h⟩ (t ⟨bytes, h⟩ ||| mask))
  else none

/-- The loop of `_markDirtyInfo`, and the word behind it. A shift by the width of the word is
undefined. -/
def markLoop (t : DirtyTable) (bytes : Nat) (bits : Fin 32) (scts : Nat) : Option DirtyTable :=
  if 32 - bits < scts then
    (orWord t bytes (u32Mask <<< bits.val)).bind fun t =>
      markLoop t (bytes + 1) 0 (scts - (32 - bits))
  else if scts = 0 then none
  else orWord t bytes ((u32Mask >>> (32 - scts)) <<< bits.val)
termination_by scts

/-- `_markDirtyInfo` -/
def markDirtyInfo (ctl : RamNvCtl) (id : Fin 15) (start scts : Nat) : Option RamNvCtl :=
  (markLoop (ctl id) (start / 32) ⟨start % 32, Nat.mod_lt _ (by decide)⟩ scts).map
    (Function.update ctl id)

/-- The bit of a sector. -/
def DirtyTable.bit (t : DirtyTable) (k : Fin 1024) : Bool :=
  (t ⟨k / 32, by omega⟩).getLsbD (k % 32)

/-! ## Words -/

/-- From a bit to the end of the word. -/
theorem getLsbD_maskFrom {b i : Nat} (hi : i < 32) :
    (u32Mask <<< b).getLsbD i = decide (b ≤ i) := by
  rw [u32Mask, BitVec.getLsbD_shiftLeft, BitVec.getLsbD_allOnes]
  by_cases hb : b ≤ i
  · have hi' : i - b < 32 := by omega
    simp [hi, hb, hi', Nat.not_lt.mpr hb]
  · simp [hi, hb, Nat.not_le.mp hb]

/-- A run inside the word. -/
theorem getLsbD_maskRun {b n i : Nat} (hn : n ≤ 32) (hi : i < 32) :
    ((u32Mask >>> (32 - n)) <<< b).getLsbD i = decide (b ≤ i ∧ i < b + n) := by
  rw [u32Mask, BitVec.getLsbD_shiftLeft, BitVec.getLsbD_ushiftRight, BitVec.getLsbD_allOnes]
  by_cases hb : b ≤ i
  · have hrun : 32 - n + (i - b) < 32 ↔ i < b + n := by omega
    simp [hi, hb, hrun, Nat.not_lt.mpr hb]
  · simp [hi, hb, Nat.not_le.mp hb]

/-- The bits of a table in which a word was changed. -/
theorem orWord_bit {t : DirtyTable} {bytes : Nat} (h : bytes < 32)
    (mask : BitVec 32) :
    ∃ t', orWord t bytes mask = some t' ∧ ∀ k : Fin 1024,
      t'.bit k = (t.bit k || decide (k.val / 32 = bytes) && mask.getLsbD (k % 32)) := by
  refine ⟨_, dif_pos h, fun k => ?_⟩
  by_cases hk : k.val / 32 = bytes
  · have hword : (⟨k / 32, by omega⟩ : Fin 32) = ⟨bytes, h⟩ := Fin.ext hk
    rw [DirtyTable.bit, DirtyTable.bit, hword, Function.update_self, BitVec.getLsbD_or,
      decide_eq_true hk, Bool.true_and]
  · have hword : (⟨k / 32, by omega⟩ : Fin 32) ≠ ⟨bytes, h⟩ :=
      fun heq => hk (congrArg Fin.val heq)
    rw [DirtyTable.bit, Function.update_of_ne hword, decide_eq_false hk, Bool.false_and,
      Bool.or_false, DirtyTable.bit]

/-! ## The run -/

/-- **The loop** sets the bits from the one it is at. -/
theorem markLoop_bit (t : DirtyTable) (bytes : Nat) (bits : Fin 32) (scts : Nat) (hpos : 0 < scts)
    (hend : 32 * bytes + bits + scts ≤ 1024) :
    ∃ t', markLoop t bytes bits scts = some t' ∧ ∀ k : Fin 1024, t'.bit k = true ↔
      t.bit k = true ∨ 32 * bytes + bits ≤ k.val ∧ k.val < 32 * bytes + bits + scts := by
  induction t, bytes, bits, scts using markLoop.induct with
  | case1 t bytes bits scts hmore ih =>
    -- the rest of the word, and the run goes on
    obtain ⟨t₁, ht₁, hbit₁⟩ :=
      orWord_bit (t := t) (by omega : bytes < 32) (u32Mask <<< bits.val)
    obtain ⟨t', ht', hbit'⟩ := ih t₁ (by omega) (by simp only [Fin.val_zero]; omega)
    refine ⟨t', ?_, fun k => ?_⟩
    · rw [markLoop, if_pos hmore, ht₁]
      exact ht'
    · have hk := k.isLt
      rw [hbit', hbit₁, getLsbD_maskFrom (Nat.mod_lt _ (by decide))]
      simp only [Bool.or_eq_true, Bool.and_eq_true, decide_eq_true_eq, Fin.val_zero]
      rw [or_assoc]
      refine or_congr_right ?_
      omega
  | case2 t bytes bits hlast => omega
  | case3 t bytes bits scts hlast hne =>
    obtain ⟨t', ht', hbit'⟩ := orWord_bit (t := t) (by omega : bytes < 32)
      ((u32Mask >>> (32 - scts)) <<< bits.val)
    refine ⟨t', ?_, fun k => ?_⟩
    · rw [markLoop, if_neg hlast, if_neg hne]
      exact ht'
    · rw [hbit', getLsbD_maskRun (by omega) (Nat.mod_lt _ (by decide))]
      simp only [Bool.or_eq_true, Bool.and_eq_true, decide_eq_true_eq]
      refine or_congr_right ?_
      omega

/-- **`_markDirtyInfo`** sets exactly the bits of the run, and leaves the other partitions alone. -/
theorem markDirtyInfo_bit (ctl : RamNvCtl) (id : Fin 15) (start scts : Nat) (hpos : 1 ≤ scts)
    (hend : start + scts ≤ 1024) :
    ∃ ctl', markDirtyInfo ctl id start scts = some ctl' ∧
      (∀ k : Fin 1024, (ctl' id).bit k = true ↔
        (ctl id).bit k = true ∨ start ≤ k.val ∧ k.val < start + scts) ∧
      ∀ id', id' ≠ id → ctl' id' = ctl id' := by
  have hstart : 32 * (start / 32) + start % 32 = start := Nat.div_add_mod start 32
  obtain ⟨t', ht', hbit⟩ := markLoop_bit (ctl id) (start / 32)
    ⟨start % 32, Nat.mod_lt _ (by decide)⟩ scts hpos (by dsimp only; omega)
  refine ⟨Function.update ctl id t', ?_, fun k => ?_, fun id' hid => Function.update_of_ne hid ..⟩
  · rw [markDirtyInfo, ht']
    rfl
  · rw [Function.update_self, hbit]
    dsimp only
    rw [hstart]

/-- From the last bit of a word to the first one of the next. -/
theorem markDirtyInfo_bit_31 :
    1 ≤ 34 ∧ 31 + 34 ≤ 1024 ∧
      ∃ ctl', markDirtyInfo (fun _ _ => 0) 3 31 34 = some ctl' ∧
        (∀ k : Fin 1024, (ctl' 3).bit k = true ↔
          DirtyTable.bit (fun _ => 0) k = true ∨ 31 ≤ k.val ∧ k.val < 31 + 34) ∧
        ∀ id', id' ≠ 3 → ctl' id' = fun _ => 0 :=
  ⟨by decide, by decide, markDirtyInfo_bit (fun _ _ => 0) 3 31 34 (by decide) (by decide)⟩

end SprdHal.Nvitemd
