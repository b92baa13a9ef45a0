import Mathlib.Algebra.Ring.Nat
import Mathlib.Data.List.Basic
import Mathlib.Data.List.Range
import Mathlib.Tactic.Common

/-!
# Loading an image from raw flash (`modemd_vlx.c`)

`loadimage`, built without `CONFIG_EMMC`, copies an image in pieces of 8192 bytes and skips the bad
blocks of the flash device. The position is kept in `bpos` and in the offset of the input file,
and a block is tested when `bpos` is at its start. What is copied is a beginning of the good
addresses from `offsetin` on (`copyLoop_spec`).
-/

namespace SprdHal.Ril

/-- `sizeof(buf)` -/
def loadBufSize : Nat := 8192

/-- A flash device: its length, the size of its blocks (`meminfo.erasesize`) and the bad ones, by
number. -/
structure Mtd where
  size : Nat
  erasesize : Nat
  bad : Nat → Bool
  erasesize_pos : 0 < erasesize
  aligned : loadBufSize ∣ erasesize

namespace Mtd

variable (m : Mtd)

/-- The address is not in a bad block. -/
def good (a : Nat) : Bool := !m.bad (a / m.erasesize)

/-- The concatenation of the good blocks from an address on, by addresses. -/
def goodFrom (a : Nat) : List Nat := (List.range' a (m.size - a)).filter m.good

/-- `MEMGETBADBLOCK` returns a positive number. Behind the device it fails. -/
def memGetBadBlock (bpos : Nat) : Bool := decide (bpos < m.size) && m.bad (bpos / m.erasesize)

variable {m} in
theorem memGetBadBlock_iff {bpos : Nat} :
    m.memGetBadBlock bpos = true ↔ bpos < m.size ∧ m.bad (bpos / m.erasesize) = true := by
  simp [memGetBadBlock]

end Mtd

/-- How the environment answers a call: whether it succeeds, and how much a read or a write
transfers at most. -/
structure CallAnswer where
  ok : Bool
  count : Nat

/-- The result of `loadimage`, the addresses that it wrote with their places in the output, and the
lengths of the reads and writes, asked for and transferred. -/
structure Load where
  res : Int
  writes : List (Nat × Nat)
  transfers : List (Nat × Nat)
  deriving DecidableEq

/-- `goto leave` with `res` still -1 -/
def Load.leave (writes transfers : List (Nat × Nat)) : Load := ⟨-1, writes, transfers⟩

def Load.after (writes transfers : List (Nat × Nat)) (l : Load) : Load :=
  ⟨l.res, writes ++ l.writes, transfers ++ l.transfers⟩

/-- Bytes written: where they come from, and where in the output they stand. -/
def copied (pos outPos n : Nat) : List (Nat × Nat) := (List.range' pos n).zipIdx outPos

section Loops

-- the device, and the answers to the calls by their number
variable (m : Mtd) (env : Nat → CallAnswer)

/-- The `while` loop that skips bad blocks. The number of the next call, `bpos` and the offset of
the input; `none` where a seek fails. -/
def skipBadBlocks (t bpos pos : Nat) : Option (Nat × Nat × Nat) :=
  if bpos % m.erasesize = 0 ∧ m.memGetBadBlock bpos = true then
    if (env t).ok then skipBadBlocks (t + 1) (bpos + m.erasesize) (bpos + m.erasesize) else none
  else some (t, bpos, pos)
termination_by m.size - bpos
decreasing_by
  rename_i h _
  have hlt := (m.memGetBadBlock_iff.mp h.2).1
  have := m.erasesize_pos
  omega

/-- The `for` loop: `size` bytes are left, `t` calls were made. -/
def copyLoop (t bpos pos outPos size : Nat) : Load :=
  if size = 0 then ⟨0, [], []⟩
  else
    match skipBadBlocks m env t bpos pos with
    | none => .leave [] []
    | some (t, _, pos) =>
      let rsize := min size loadBufSize
      let rrsize := min rsize (min (env t).count (m.size - pos))
      if rrsize ≠ rsize then .leave [] [(rsize, rrsize)]
      else
        let wsize := min rsize (env (t + 1)).count
        if wsize ≠ rsize then .leave (copied pos outPos wsize) [(rsize, rrsize), (rsize, wsize)]
        else if ¬(env (t + 2)).ok then
          .leave (copied pos outPos rsize) [(rsize, rrsize), (rsize, wsize)]
        else
          -- `bpos` is the offset that `lseek` reports
          .after (copied pos outPos rsize) [(rsize, rrsize), (rsize, wsize)]
            (copyLoop (t + 3) (pos + rsize) (pos + rsize) (outPos + rsize) (size - rsize))
termination_by size
decreasing_by
  have : 0 < loadBufSize := by decide
  omega

/-- `loadimage`: both files are opened, `MEMGETINFO` is asked and both offsets are set before the
copying. -/
def loadimage (offsetin offsetout : Nat) (size : Int) : Load :=
  if (env 0).ok ∧ (env 1).ok ∧ (env 2).ok ∧ (env 3).ok ∧ (env 4).ok then
    copyLoop m env 5 offsetin offsetin offsetout size.toNat
  else .leave [] []

/-! ## What loading an image is meant to do -/

/-- With the result 0 the first `size` bytes of the good blocks are written at `offsetout`, no byte
of a bad block is ever copied, and a short transfer makes the result -1. -/
structure LoadsGoodBlocks (offsetin offsetout : Nat) (size : Int) : Prop where
  complete : (loadimage m env offsetin offsetout size).res = 0 →
    size.toNat ≤ (m.goodFrom offsetin).length ∧
      (loadimage m env offsetin offsetout size).writes =
        ((m.goodFrom offsetin).take size.toNat).zipIdx offsetout
  onlyGood : ∀ w ∈ (loadimage m env offsetin offsetout size).writes, m.good w.1 = true
  short : ∀ c ∈ (loadimage m env offsetin offsetout size).transfers, c.2 ≠ c.1 →
    (loadimage m env offsetin offsetout size).res = -1

end Loops

/-! ## Addresses -/

namespace Mtd

variable {m : Mtd}

/-- Addresses of one piece are in one block. -/
theorem div_eq_of_piece {p a : Nat} (hp : loadBufSize ∣ p) (hle : p ≤ a)
    (hlt : a < p + loadBufSize) : a / m.erasesize = p / m.erasesize := by
  obtain ⟨k, hk⟩ := m.aligned
  obtain ⟨q, rfl⟩ := hp
  have hpos : 0 < loadBufSize := by decide
  have ha : a / loadBufSize = q := by
    refine Nat.div_eq_of_lt_le ?_ ?_
    · rwa [Nat.mul_comm]
    · rw [Nat.succ_mul, Nat.mul_comm q]
      exact hlt
  rw [hk, ← Nat.div_div_eq_div_mul, ← Nat.div_div_eq_div_mul, ha, Nat.mul_div_cancel_left _ hpos]

/-- The block of an aligned address ends with the next aligned address. -/
theorem div_eq_of_block {p a : Nat} (hp : m.erasesize ∣ p) (hle : p ≤ a)
    (hlt : a < p + m.erasesize) : a / m.erasesize = p / m.erasesize := by
  obtain ⟨q, rfl⟩ := hp
  rw [Nat.mul_div_cancel_left _ m.erasesize_pos]
  refine Nat.div_eq_of_lt_le ?_ ?_
  · rwa [Nat.mul_comm]
  · rw [Nat.succ_mul, Nat.mul_comm q]
    exact hlt

theorem goodFrom_append {p n : Nat} (hle : p + n ≤ m.size) :
    m.goodFrom p = (List.range' p n).filter m.good ++ m.goodFrom (p + n) := by
  unfold goodFrom
  have hsplit : m.size - p = n + (m.size - (p + n)) := by omega
  rw [hsplit, ← List.range'_append_1, List.filter_append]

/-- Nothing is lost with a bad block. -/
theorem goodFrom_bad {p : Nat} (hp : m.erasesize ∣ p) (hbad : m.bad (p / m.erasesize) = true)
    (hlt : p < m.size) : m.goodFrom p = m.goodFrom (p + m.erasesize) := by
  have hnone : ∀ n, n ≤ m.erasesize → (List.range' p n).filter m.good = [] := by
    intro n hn
    rw [List.filter_eq_nil_iff]
    intro a ha
    rw [List.mem_range'_1] at ha
    simp [good, div_eq_of_block hp ha.1 (by omega), hbad]
  by_cases hle : p + m.erasesize ≤ m.size
  · rw [goodFrom_append hle, hnone _ (Nat.le_refl _), List.nil_append]
  · have hend : m.goodFrom (p + m.erasesize) = [] := by
      unfold goodFrom
      rw [Nat.sub_eq_zero_of_le (by omega)]
      rfl
    rw [hend]
    exact hnone _ (by omega)

/-- A piece of a good block comes next. -/
theorem goodFrom_piece {p n : Nat} (hp : loadBufSize ∣ p) (hgood : m.good p = true)
    (hn : n ≤ loadBufSize) (hle : p + n ≤ m.size) :
    m.goodFrom p = List.range' p n ++ m.goodFrom (p + n) := by
  rw [goodFrom_append hle]
  congr 1
  rw [List.filter_eq_self]
  intro a ha
  rw [List.mem_range'_1] at ha
  unfold good at hgood ⊢
  rw [div_eq_of_piece hp ha.1 (by omega)]
  exact hgood

end Mtd

/-! ## The loops -/

section Spec

variable {m : Mtd} {env : Nat → CallAnswer}

/-- The position before a block test: at a piece, and inside a block only if that is good. -/
structure AtPiece (m : Mtd) (bpos : Nat) : Prop where
  piece : loadBufSize ∣ bpos
  inside : bpos % m.erasesize ≠ 0 → m.good bpos = true

/-- Skipping leads to a good block, and past no good byte. -/
theorem skipBadBlocks_spec {t bpos pos t' bpos' pos' : Nat} (hat : AtPiece m bpos)
    (hpos : pos = bpos) (h : skipBadBlocks m env t bpos pos = some (t', bpos', pos')) :
    pos' = bpos' ∧ loadBufSize ∣ bpos' ∧ (bpos' < m.size → m.good bpos' = true) ∧
      m.goodFrom bpos' = m.goodFrom bpos := by
  fun_induction skipBadBlocks m env t bpos pos with
  | case1 t bpos pos hskip _ ih =>
    have hdvd : m.erasesize ∣ bpos := Nat.dvd_of_mod_eq_zero hskip.1
    obtain ⟨hlt, hbad⟩ := Mtd.memGetBadBlock_iff.mp hskip.2
    have hat' : AtPiece m (bpos + m.erasesize) := by
      refine ⟨(Nat.dvd_add_right hat.piece).mpr m.aligned, fun hne => ?_⟩
      exact absurd (Nat.mod_eq_zero_of_dvd (Nat.dvd_add_self_right.mpr hdvd)) hne
    obtain ⟨h1, h2, h3, h4⟩ := ih hat' rfl h
    exact ⟨h1, h2, h3, h4.trans (Mtd.goodFrom_bad hdvd hbad hlt).symm⟩
  | case2 => exact nomatch h
  | case3 t bpos pos hskip =>
    obtain ⟨rfl, rfl, rfl⟩ : t = t' ∧ bpos = bpos' ∧ pos = pos' := by simpa using h
    refine ⟨hpos, hat.piece, fun hlt => ?_, rfl⟩
    by_cases hzero : bpos % m.erasesize = 0
    · have hbad : m.memGetBadBlock bpos ≠ true := fun hb => hskip ⟨hzero, hb⟩
      simpa [Mtd.memGetBadBlock, hlt, Mtd.good] using hbad
    · exact hat.inside hzero

/-- What is copied is a beginning of the good addresses from `bpos` on, all that was asked for if
the result is 0, and a short transfer makes the result -1. -/
structure CopiesGood (m : Mtd) (bpos outPos size : Nat) (l : Load) : Prop where
  beginning : ∃ k, l.writes = ((m.goodFrom bpos).take k).zipIdx outPos ∧
    (l.res = 0 → k = size ∧ size ≤ (m.goodFrom bpos).length)
  short : ∀ c ∈ l.transfers, c.2 ≠ c.1 → l.res = -1

variable {bpos pos outPos size n : Nat} {rest : List Nat}

theorem CopiesGood.leave (h : m.goodFrom bpos = List.range' pos size ++ rest) {k : Nat}
    (hk : k ≤ size) (transfers : List (Nat × Nat)) :
    CopiesGood m bpos outPos n (.leave (copied pos outPos k) transfers) := by
  refine ⟨⟨k, ?_, fun hres => absurd hres (by decide : (-1 : Int) ≠ 0)⟩, fun _ _ _ => rfl⟩
  have htake : (m.goodFrom bpos).take k = List.range' pos k := by
    rw [h, List.take_append_of_le_length (by rw [List.length_range']; exact hk),
      List.take_range'_of_length_ge hk]
  rw [htake]
  rfl

theorem CopiesGood.leave_nil (transfers : List (Nat × Nat)) :
    CopiesGood m bpos outPos n (.leave [] transfers) :=
  ⟨⟨0, rfl, fun hres => absurd hres (by decide : (-1 : Int) ≠ 0)⟩, fun _ _ _ => rfl⟩

/-- A piece, and what is copied behind it. -/
theorem CopiesGood.after {l : Load}
    (h : m.goodFrom bpos = List.range' pos n ++ m.goodFrom (pos + n)) (hn : n ≤ size)
    (hl : CopiesGood m (pos + n) (outPos + n) (size - n) l) {transfers : List (Nat × Nat)}
    (hfull : ∀ c ∈ transfers, c.2 = c.1) :
    CopiesGood m bpos outPos size (.after (copied pos outPos n) transfers l) := by
  obtain ⟨⟨k, hwrites, hres⟩, hshort⟩ := hl
  refine ⟨⟨n + k, ?_, fun hzero => ?_⟩, fun c hc hne => ?_⟩
  · have htake : (m.goodFrom bpos).take (n + k) =
        List.range' pos n ++ (m.goodFrom (pos + n)).take k := by
      rw [h, List.take_append, List.length_range', Nat.add_sub_cancel_left,
        List.take_of_length_le (by rw [List.length_range']; omega)]
    rw [htake, List.zipIdx_append, List.length_range', ← hwrites]
    rfl
  · obtain ⟨hk, hle⟩ := hres hzero
    rw [h, List.length_append, List.length_range']
    omega
  · rcases List.mem_append.mp hc with hc | hc
    · exact absurd (hfull c hc) hne
    · exact hshort c hc hne

/-- The piece that is read where the loop stands after skipping. -/
theorem goodFrom_next {t t' bpos' pos' : Nat} (hat : AtPiece m bpos) (hpos : pos = bpos)
    (hskip : skipBadBlocks m env t bpos pos = some (t', bpos', pos')) (hsize : size ≠ 0)
    (hread : ¬min (min size loadBufSize) (min (env t').count (m.size - pos')) ≠
      min size loadBufSize) :
    m.goodFrom bpos = List.range' pos' (min size loadBufSize) ++
        m.goodFrom (pos' + min size loadBufSize) ∧
      (0 < size - min size loadBufSize → AtPiece m (pos' + min size loadBufSize)) := by
  obtain ⟨rfl, hpiece, hgood, hfrom⟩ := skipBadBlocks_spec hat hpos hskip
  have hbuf : 0 < loadBufSize := by decide
  have hgood := hgood (by omega)
  constructor
  · rw [← hfrom]
    exact Mtd.goodFrom_piece hpiece hgood (Nat.min_le_right _ _) (by omega)
  · intro hmore
    have hrsize : min size loadBufSize = loadBufSize := by omega
    rw [hrsize]
    refine ⟨(Nat.dvd_add_right hpiece).mpr (Nat.dvd_refl _), fun hne => ?_⟩
    -- inside a block the next piece is in the block of this one
    have hsame : (pos' + loadBufSize) / m.erasesize = pos' / m.erasesize := by
      obtain ⟨e, he⟩ := m.aligned
      obtain ⟨q, rfl⟩ := hpiece
      have hnext : loadBufSize * q + loadBufSize = loadBufSize * (q + 1) := by
        rw [Nat.mul_add, Nat.mul_one]
      rw [hnext, he, Nat.mul_div_mul_left _ _ hbuf, Nat.mul_div_mul_left _ _ hbuf, Nat.succ_div,
        if_neg, Nat.add_zero]
      intro hdvd
      rw [hnext, he] at hne
      exact hne (Nat.mod_eq_zero_of_dvd (Nat.mul_dvd_mul_left _ hdvd))
    unfold Mtd.good at hgood ⊢
    rw [hsame]
    exact hgood

theorem copyLoop_spec (t bpos pos outPos size : Nat) (hat : 0 < size → AtPiece m bpos)
    (hpos : pos = bpos) : CopiesGood m bpos outPos size (copyLoop m env t bpos pos outPos size) := by
  fun_induction copyLoop m env t bpos pos outPos size with
  | case1 => exact ⟨⟨0, rfl, fun _ => ⟨rfl, Nat.zero_le _⟩⟩, nofun⟩
  | case2 => exact .leave_nil _
  | case3 => exact .leave_nil _
  | case4 t bpos pos outPos size hsize t' bpos' pos' hskip rsize rrsize hread wsize hwrite =>
    have hnext := goodFrom_next (hat (by omega)) hpos hskip hsize hread
    exact .leave hnext.1 (Nat.min_le_left _ _) _
  | case5 t bpos pos outPos size hsize t' bpos' pos' hskip rsize rrsize hread =>
    have hnext := goodFrom_next (hat (by omega)) hpos hskip hsize hread
    exact .leave hnext.1 (Nat.le_refl _) _
  | case6 t bpos pos outPos size hsize t' bpos' pos' hskip rsize rrsize hread wsize hwrite _ ih =>
    obtain ⟨hnext, hat'⟩ := goodFrom_next (hat (by omega)) hpos hskip hsize hread
    refine .after hnext (Nat.min_le_left _ _) (ih hat' rfl) fun c hc => ?_
    rcases List.mem_cons.mp hc with rfl | hc
    · exact not_not.mp hread
    · rw [List.mem_singleton.mp hc]
      exact not_not.mp hwrite

end Spec

/-- **Loading an image.** For every bad block map, all answers of the environment, every offset at a
block and every size. -/
theorem loadimage_spec (m : Mtd) (env : Nat → CallAnswer) (offsetin offsetout : Nat) (size : Int)
    (hblock : m.erasesize ∣ offsetin) : LoadsGoodBlocks m env offsetin offsetout size := by
  have hat : AtPiece m offsetin :=
    ⟨Nat.dvd_trans m.aligned hblock, fun hne => absurd (Nat.mod_eq_zero_of_dvd hblock) hne⟩
  have hcopies : CopiesGood m offsetin offsetout size.toNat
      (loadimage m env offsetin offsetout size) := by
    unfold loadimage
    split
    · exact copyLoop_spec _ _ _ _ _ (fun _ => hat) rfl
    · exact .leave_nil _
  obtain ⟨⟨k, hwrites, hres⟩, hshort⟩ := hcopies
  refine ⟨fun hzero => ?_, fun w hw => ?_, hshort⟩
  · obtain ⟨rfl, hle⟩ := hres hzero
    exact ⟨hle, hwrites⟩
  · rw [hwrites] at hw
    have hmem : w.1 ∈ m.goodFrom offsetin :=
      List.mem_of_mem_take (List.fst_mem_of_mem_zipIdx hw)
    exact (List.mem_filter.mp hmem).2

/-- A device of three blocks, the second of them bad, from its first block on. -/
theorem loadimage_spec_threeBlocks :
    LoadsGoodBlocks ⟨3 * 8192, 8192, (· == 1), by decide, Nat.dvd_refl _⟩ (fun _ => ⟨true, 8192⟩)
      0 0 12000 :=
  loadimage_spec _ _ _ _ _ (Nat.dvd_zero _)

end SprdHal.Ril
