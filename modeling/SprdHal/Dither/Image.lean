import Mathlib.Data.List.Perm.Subperm
import Mathlib.Tactic.Ring
import SprdHal.Dither.Block

/-!
# Dithering an image (`image_dither.cpp`)

`_img_dither_00` dithers the whole blocks of an image four at a time, the last one to three of them
one by one, and cuts the pixels at the right and at the bottom with the mask. Every pixel is written
once (`imgDither00_spec`): there are as many writes as pixels, and no pixel is left out.
-/

namespace SprdHal.Dither

open SprdHal.Lib

/-- `curve_item_info`: the size of the image and the four tables of offsets. -/
structure CurveItemInfo where
  width : Nat
  height : Nat
  offsetTbl : Fin 4 → Fin 256 → UInt16

/-- `_img_dither_0_init` -/
def imgDither0Init (width height : Nat) : CurveItemInfo :=
  ⟨width, height, fun c => calcOffsetTable (sHilbertCurve c) width⟩

/-- `line_start_ptr` and `ref_ptr`, counted in pixels from `data`. -/
structure Ptrs where
  lineStart : Nat
  ref : Nat

/-- The pointers go on to the next block, or to the next row of blocks. -/
def Ptrs.next (width : Nat) (p : Ptrs) : Ptrs :=
  if p.ref + blkWidth - p.lineStart + 16 > width then
    ⟨p.lineStart + width * blkWidth, p.lineStart + width * blkWidth⟩
  else ⟨p.lineStart, p.ref + blkWidth⟩

/-- The loop over groups of four blocks. -/
def fourLoop (info : CurveItemInfo) : Nat → Ptrs → Sheet Nat Pixel → Ptrs × Sheet Nat Pixel
  | 0, p, img => (p, img)
  | loops + 1, p, img =>
    fourLoop info loops ((Ptrs.next info.width)^[4] p)
      (ditherFourBlock (fun j => ((Ptrs.next info.width)^[j.val] p).ref) info.offsetTbl img)

/-- The loop over the blocks that are left, from the `i`-th on. -/
def singleLoop (info : CurveItemInfo) :
    Nat → Nat → Ptrs → Sheet Nat Pixel → Ptrs × Sheet Nat Pixel
  | 0, _, p, img => (p, img)
  | loops + 1, i, p, img =>
    singleLoop info loops (i + 1) (p.next info.width)
      (ditherSingleBlock p.ref (info.offsetTbl (Fin.ofNat 4 i)) img)

/-- `_img_dither_00`. The offsets of an image in memory do not wrap. -/
def imgDither00 (info : CurveItemInfo) (data : Nat → Pixel) : Sheet Nat Pixel :=
  let width := info.width
  let height := info.height
  let hCnts := width / blkWidth
  let vCnts := height / blkWidth
  let totalCnts := hCnts * vCnts
  let (p, img) := fourLoop info (totalCnts / 4) ⟨0, 0⟩ ⟨data, []⟩
  let (_, img) := singleLoop info (totalCnts % 4) 0 p img
  let blkW := width - hCnts * blkWidth
  let img :=
    if 0 < blkW then ditherIrregularBlock (hCnts * blkWidth) blkW height width img else img
  let blkH := height - vCnts * blkWidth
  if 0 < blkH then
    ditherIrregularBlock (vCnts * blkWidth * width) (width - blkW) blkH width img
  else img

/-! ## Passes over the image -/

/-- A pass writes the pixels of a list, in this order, and dithers each of them if none stands there
twice. -/
structure Paints (f : Sheet Nat Pixel → Sheet Nat Pixel) (l : List Nat) : Prop where
  written : ∀ img, (f img).written = img.written ++ l
  frame : ∀ img, ∀ i ∉ l, (f img).cells i = img.cells i
  dithered : l.Nodup → ∀ img, ∀ i ∈ l, Dithered (img.cells i) ((f img).cells i)

namespace Paints

variable {f g : Sheet Nat Pixel → Sheet Nat Pixel} {l l' : List Nat}

theorem id : Paints (fun img => img) [] :=
  ⟨fun _ => (List.append_nil _).symm, fun _ _ _ => rfl, nofun⟩

theorem comp (hf : Paints f l) (hg : Paints g l') : Paints (fun img => g (f img)) (l ++ l') := by
  refine ⟨fun img => ?_, fun img i hi => ?_, fun hnodup img i hi => ?_⟩
  · rw [hg.written, hf.written, List.append_assoc]
  · rw [List.mem_append, not_or] at hi
    rw [hg.frame _ i hi.2, hf.frame _ i hi.1]
  · rw [List.nodup_append] at hnodup
    obtain ⟨hl, hl', hapart⟩ := hnodup
    rcases List.mem_append.mp hi with hi | hi
    · rw [hg.frame _ i fun hi' => hapart i hi i hi' rfl]
      exact hf.dithered hl img i hi
    · rw [← hf.frame img i fun hi' => hapart i hi' i hi rfl]
      exact hg.dithered hl' _ i hi

/-- A sweep is a pass. -/
theorem sweep {σ : Type} {n : Nat} {step : σ → Pixel → σ × Pixel} {Inv : σ → Prop} {s : Fin n → σ}
    (groups : List (Fin n → Nat)) (hs : ∀ j, Inv (s j)) (hinv : ∀ s p, Inv s → Inv (step s p).1)
    (hrel : ∀ s p, Inv s → Dithered p (step s p).2) :
    Paints (Lib.sweep step s groups) (visited groups) :=
  ⟨fun img => sweep_written s groups img, fun _ _ hi => sweep_cells_of_notMem s hi,
    fun hnodup _ _ hi => sweep_rel hs hinv hrel hnodup hi⟩

end Paints

theorem visited_one {β : Type} (l : List β) (f : β → Nat) :
    visited (l.map fun b (_ : Fin 1) => f b) = l.map f := by
  induction l with
  | nil => rfl
  | cons b l ih =>
    rw [List.map_cons, List.map_cons, ← ih, visited, visited, List.flatMap_cons]
    rfl

/-- The pixels of a block in the order of its table. -/
def blockPixels (srcPtr : Nat) (offsetTbl : Fin 256 → UInt16) : List Nat :=
  (List.finRange 256).map fun i => srcPtr + (offsetTbl i).toNat

/-- The pixels of four blocks in the order in which they are written. -/
def fourPixels (srcPtr : Fin 4 → Nat) (offsetTbl : Fin 4 → Fin 256 → UInt16) : List Nat :=
  (List.finRange 256).flatMap fun i => List.ofFn fun j => srcPtr j + (offsetTbl j i).toNat

theorem paints_ditherSingleBlock (srcPtr : Nat) (offsetTbl : Fin 256 → UInt16) :
    Paints (ditherSingleBlock srcPtr offsetTbl) (blockPixels srcPtr offsetTbl) := by
  have hpaints := @Paints.sweep _ _ SingleState.step _ (fun _ : Fin 1 => .init)
    ((List.finRange 256).map fun i _ => srcPtr + (offsetTbl i).toNat)
    (fun _ => SingleState.bounded_init) (fun s p _ => s.bounded_step p)
    (fun s p hs => SingleState.step_dithered hs p)
  rwa [visited_one] at hpaints

theorem paints_ditherFourBlock (srcPtr : Fin 4 → Nat) (offsetTbl : Fin 4 → Fin 256 → UInt16) :
    Paints (ditherFourBlock srcPtr offsetTbl) (fourPixels srcPtr offsetTbl) := by
  have hpaints := @Paints.sweep _ _ FourState.step _ (fun _ : Fin 4 => .init)
    ((List.finRange 256).map fun i j => srcPtr j + (offsetTbl j i).toNat)
    (fun _ => FourState.alphaExact_init) (fun s p hs => FourState.alphaExact_step hs p)
    (fun s p hs => FourState.step_dithered hs p)
  have hvisited : visited ((List.finRange 256).map fun i (j : Fin 4) =>
      srcPtr j + (offsetTbl j i).toNat) = fourPixels srcPtr offsetTbl := by
    rw [visited, List.flatMap_map]
    rfl
  rwa [hvisited] at hpaints

theorem paints_ditherIrregularBlock (srcPtr blkW blkH imgW : Nat) :
    Paints (ditherIrregularBlock srcPtr blkW blkH imgW) (lines srcPtr blkW blkH imgW) := by
  have hpaints := @Paints.sweep _ _ (fun (_ : Unit) p => ((), p.cut)) (fun _ => True)
    (fun _ : Fin 1 => ()) ((lines srcPtr blkW blkH imgW).map fun i _ => i)
    (fun _ => trivial) (fun _ _ _ => trivial) (fun _ p _ => p.cut_dithered)
  rwa [visited_one (lines srcPtr blkW blkH imgW) fun i => i, List.map_id'] at hpaints

/-! ## The blocks -/

/-- The pointers at the `n`-th block. -/
def ptrs (width n : Nat) : Ptrs := (Ptrs.next width)^[n] ⟨0, 0⟩

/-- The `i`-th pixel of the `n`-th block of an image, along its curve. -/
def blockPixel (width n : Nat) (i : Fin 256) : Nat :=
  (ptrs width n).ref + (calcOffsetTable (sHilbertCurve (Fin.ofNat 4 n)) width i).toNat

theorem ptrs_succ (width n : Nat) : ptrs width (n + 1) = (ptrs width n).next width :=
  Function.iterate_succ_apply' _ _ _

theorem ptrs_add (width n k : Nat) : (Ptrs.next width)^[k] (ptrs width n) = ptrs width (n + k) := by
  rw [ptrs, ptrs, Nat.add_comm, Function.iterate_add_apply]

/-- The blocks stand row by row. -/
theorem ptrs_eq {width : Nat} (h : 0 < width / blkWidth) (n : Nat) :
    ptrs width n = ⟨n / (width / blkWidth) * blkWidth * width,
      n / (width / blkWidth) * blkWidth * width + n % (width / blkWidth) * blkWidth⟩ := by
  induction n with
  | zero => simp [ptrs]
  | succ n ih =>
    obtain ⟨cnt, hcnt⟩ : ∃ cnt, cnt = width / blkWidth := ⟨_, rfl⟩
    have hwidth : cnt * 16 ≤ width := hcnt ▸ Nat.div_mul_le_self width blkWidth
    have hrest : width < (cnt + 1) * 16 := by
      rw [hcnt, Nat.succ_mul]
      exact Nat.lt_div_mul_add (b := blkWidth) (by decide)
    rw [← hcnt] at ih h ⊢
    have hmod := Nat.mod_lt n h
    have hdiv := Nat.div_add_mod n cnt
    rw [ptrs_succ, ih, Ptrs.next]
    dsimp only
    unfold blkWidth
    by_cases hlast : n % cnt + 1 = cnt
    · -- the last block of its row
      have hnext : n + 1 = cnt * (n / cnt + 1) := by
        rw [Nat.mul_add, Nat.mul_one]
        omega
      rw [if_pos (by omega), hnext, Nat.mul_div_cancel_left _ h, Nat.mul_mod_right]
      simp only [Nat.zero_mul, Nat.add_zero]
      have hline : n / cnt * 16 * width + width * 16 = (n / cnt + 1) * 16 * width := by ring
      rw [hline]
    · have hnext : n + 1 = cnt * (n / cnt) + (n % cnt + 1) := by omega
      have hlt : n % cnt + 1 < cnt := by omega
      have hquot : (n + 1) / cnt = n / cnt := by
        conv_lhs => rw [hnext, Nat.mul_add_div h, Nat.div_eq_of_lt hlt, Nat.add_zero]
      have hrem : (n + 1) % cnt = n % cnt + 1 := by
        conv_lhs => rw [hnext, Nat.mul_add_mod, Nat.mod_eq_of_lt hlt]
      rw [if_neg (by omega), hquot, hrem]
      have href : n / cnt * 16 * width + n % cnt * 16 + 16 =
          n / cnt * 16 * width + (n % cnt + 1) * 16 := by ring
      rw [href]

/-- The pixels of the groups of four blocks from the `m`-th block on. -/
def fourLoopPixels (info : CurveItemInfo) : Nat → Nat → List Nat
  | _, 0 => []
  | m, loops + 1 =>
    fourPixels (fun j => (ptrs info.width (m + j.val)).ref) info.offsetTbl ++
      fourLoopPixels info (m + 4) loops

/-- The pixels of the single blocks from the `m`-th block on, with the tables from the `i`-th on. -/
def singleLoopPixels (info : CurveItemInfo) : Nat → Nat → Nat → List Nat
  | _, _, 0 => []
  | m, i, loops + 1 =>
    blockPixels (ptrs info.width m).ref (info.offsetTbl (Fin.ofNat 4 i)) ++
      singleLoopPixels info (m + 1) (i + 1) loops

theorem paints_fourLoop (info : CurveItemInfo) (loops m : Nat) :
    (∀ img, (fourLoop info loops (ptrs info.width m) img).1 = ptrs info.width (m + 4 * loops)) ∧
      Paints (fun img => (fourLoop info loops (ptrs info.width m) img).2)
        (fourLoopPixels info m loops) := by
  induction loops generalizing m with
  | zero => exact ⟨fun _ => rfl, .id⟩
  | succ loops ih =>
    obtain ⟨hptrs, hpaints⟩ := ih (m + 4)
    have hsrc : (fun j : Fin 4 => ((Ptrs.next info.width)^[j.val] (ptrs info.width m)).ref) =
        fun j => (ptrs info.width (m + j.val)).ref := funext fun j => by rw [ptrs_add]
    have hstep : ∀ img, fourLoop info (loops + 1) (ptrs info.width m) img =
        fourLoop info loops (ptrs info.width (m + 4)) (ditherFourBlock
          (fun j => (ptrs info.width (m + j.val)).ref) info.offsetTbl img) := by
      intro img
      rw [fourLoop, hsrc, ptrs_add]
    constructor
    · intro img
      rw [hstep, hptrs]
      congr 1
      omega
    · simp only [hstep]
      exact (paints_ditherFourBlock _ _).comp hpaints

theorem paints_singleLoop (info : CurveItemInfo) (loops m i : Nat) :
    Paints (fun img => (singleLoop info loops i (ptrs info.width m) img).2)
      (singleLoopPixels info m i loops) := by
  induction loops generalizing m i with
  | zero => exact .id
  | succ loops ih =>
    have hpaints := (paints_ditherSingleBlock (ptrs info.width m).ref
      (info.offsetTbl (Fin.ofNat 4 i))).comp (ih (m + 1) (i + 1))
    simp only [singleLoop, ← ptrs_succ]
    exact hpaints

theorem length_flatMap_const {β γ : Type} {f : β → List γ} {n : Nat} (l : List β)
    (h : ∀ b, (f b).length = n) : (l.flatMap f).length = l.length * n := by
  induction l with
  | nil => simp
  | cons b l ih => rw [List.flatMap_cons, List.length_append, h, ih, List.length_cons, Nat.succ_mul,
      Nat.add_comm]

theorem length_fourLoopPixels (info : CurveItemInfo) (loops m : Nat) :
    (fourLoopPixels info m loops).length = loops * 1024 := by
  induction loops generalizing m with
  | zero => rfl
  | succ loops ih =>
    have hfour : ∀ src tbl, (fourPixels src tbl).length = 1024 := by
      intro src tbl
      rw [fourPixels, length_flatMap_const _ fun _ => List.length_ofFn, List.length_finRange]
    rw [fourLoopPixels, List.length_append, hfour, ih]
    omega

theorem length_singleLoopPixels (info : CurveItemInfo) (loops m i : Nat) :
    (singleLoopPixels info m i loops).length = loops * 256 := by
  induction loops generalizing m i with
  | zero => rfl
  | succ loops ih =>
    rw [singleLoopPixels, List.length_append, blockPixels, List.length_map, List.length_finRange,
      ih]
    omega

/-- A pixel of one of the blocks that the loop takes in fours. -/
theorem mem_fourLoopPixels {info : CurveItemInfo} {loops m n : Nat} (hm : 4 ∣ m) (hlo : m ≤ n)
    (hhi : n < m + 4 * loops) {i : Fin 256} {a : Nat}
    (ha : a = (ptrs info.width n).ref + (info.offsetTbl (Fin.ofNat 4 n) i).toNat) :
    a ∈ fourLoopPixels info m loops := by
  induction loops generalizing m with
  | zero => omega
  | succ loops ih =>
    rw [fourLoopPixels, List.mem_append]
    by_cases hnow : n < m + 4
    · left
      obtain ⟨j, rfl⟩ : ∃ j : Fin 4, n = m + j.val := ⟨⟨n - m, by omega⟩, by simp; omega⟩
      have hj : Fin.ofNat 4 (m + j.val) = j := by
        have := j.isLt
        refine Fin.ext ?_
        rw [Fin.val_ofNat]
        omega
      rw [hj] at ha
      exact List.mem_flatMap.mpr ⟨i, List.mem_finRange i, List.mem_ofFn.mpr ⟨j, ha.symm⟩⟩
    · right
      exact ih (by omega) (by omega) (by omega)

theorem mem_singleLoopPixels {info : CurveItemInfo} {loops m k n : Nat} (hlo : m ≤ n)
    (hhi : n < m + loops) {i : Fin 256} {a : Nat}
    (ha : a = (ptrs info.width n).ref + (info.offsetTbl (Fin.ofNat 4 (k + (n - m))) i).toNat) :
    a ∈ singleLoopPixels info m k loops := by
  induction loops generalizing m k with
  | zero => omega
  | succ loops ih =>
    rw [singleLoopPixels, List.mem_append]
    by_cases hnow : n = m
    · left
      subst hnow
      rw [Nat.sub_self, Nat.add_zero] at ha
      exact List.mem_map.mpr ⟨i, List.mem_finRange i, ha.symm⟩
    · right
      have hk : k + 1 + (n - (m + 1)) = k + (n - m) := by omega
      exact ih (by omega) (by omega) (by rw [hk]; exact ha)

theorem mem_lines {srcPtr blkW blkH imgW x y : Nat} (hx : x < blkW) (hy : y < blkH) :
    srcPtr + y * imgW + x ∈ lines srcPtr blkW blkH imgW :=
  List.mem_flatMap.mpr ⟨y, List.mem_range.mpr hy, List.mem_map.mpr ⟨x, List.mem_range.mpr hx, rfl⟩⟩

theorem length_lines (srcPtr blkW blkH imgW : Nat) :
    (lines srcPtr blkW blkH imgW).length = blkH * blkW := by
  rw [lines, length_flatMap_const _ fun _ => List.length_map _, List.length_range,
    List.length_range]

/-! ## The image -/

/-- All pixels that `_img_dither_00` writes. -/
def imgPixels (width height : Nat) : List Nat :=
  let cnt := width / blkWidth * (height / blkWidth)
  fourLoopPixels (imgDither0Init width height) 0 (cnt / 4) ++
    singleLoopPixels (imgDither0Init width height) (4 * (cnt / 4)) 0 (cnt % 4) ++
    lines (width / blkWidth * blkWidth) (width - width / blkWidth * blkWidth) height width ++
    lines (height / blkWidth * blkWidth * width) (width / blkWidth * blkWidth)
      (height - height / blkWidth * blkWidth) width

theorem lines_width_zero (srcPtr blkH imgW : Nat) : lines srcPtr 0 blkH imgW = [] := by
  simp [lines]

theorem lines_height_zero (srcPtr blkW imgW : Nat) : lines srcPtr blkW 0 imgW = [] := rfl

/-- An irregular block is left out if it is empty. -/
theorem paints_irregular (c : Prop) [Decidable c] (srcPtr blkW blkH imgW : Nat)
    (h : ¬c → lines srcPtr blkW blkH imgW = []) :
    Paints (fun img => if c then ditherIrregularBlock srcPtr blkW blkH imgW img else img)
      (lines srcPtr blkW blkH imgW) := by
  by_cases hc : c
  · simp only [if_pos hc]
    exact paints_ditherIrregularBlock _ _ _ _
  · simp only [if_neg hc]
    rw [h hc]
    exact .id

/-- `_img_dither_00` as a pass over the image. -/
theorem paints_imgDither00 (width height : Nat) : ∃ f, Paints f (imgPixels width height) ∧
    ∀ data, imgDither00 (imgDither0Init width height) data = f ⟨data, []⟩ := by
  have hwidth : width / blkWidth * blkWidth ≤ width := Nat.div_mul_le_self _ _
  obtain ⟨hptrs, hfour⟩ := paints_fourLoop (imgDither0Init width height)
    (width / blkWidth * (height / blkWidth) / 4) 0
  have hsingle := paints_singleLoop (imgDither0Init width height)
    (width / blkWidth * (height / blkWidth) % 4)
    (4 * (width / blkWidth * (height / blkWidth) / 4)) 0
  have hright := paints_irregular (0 < width - width / blkWidth * blkWidth)
    (width / blkWidth * blkWidth) (width - width / blkWidth * blkWidth) height width fun hc => by
      rw [Nat.eq_zero_of_not_pos hc, lines_width_zero]
  have hbottom := paints_irregular (0 < height - height / blkWidth * blkWidth)
    (height / blkWidth * blkWidth * width) (width / blkWidth * blkWidth)
    (height - height / blkWidth * blkWidth) width fun hc => by
      rw [Nat.eq_zero_of_not_pos hc, lines_height_zero]
  refine ⟨_, ((hfour.comp hsingle).comp hright).comp hbottom, fun data => ?_⟩
  have hsub : width - (width - width / blkWidth * blkWidth) = width / blkWidth * blkWidth := by
    omega
  have hstart : (fourLoop (imgDither0Init width height) (width / blkWidth * (height / blkWidth) / 4)
      ⟨0, 0⟩ ⟨data, []⟩).1 = ptrs width (4 * (width / blkWidth * (height / blkWidth) / 4)) := by
    rw [← Nat.zero_add (4 * _)]
    exact hptrs ⟨data, []⟩
  unfold imgDither00
  simp only [imgDither0Init] at hstart ⊢
  rw [hsub, hstart]
  rfl

/-- As many pixels are written as the image has. -/
theorem length_imgPixels (width height : Nat) :
    (imgPixels width height).length = width * height := by
  unfold imgPixels
  simp only [List.length_append, length_fourLoopPixels, length_singleLoopPixels, length_lines]
  obtain ⟨x, hx⟩ := Nat.exists_eq_add_of_le (Nat.div_mul_le_self width blkWidth)
  obtain ⟨y, hy⟩ := Nat.exists_eq_add_of_le (Nat.div_mul_le_self height blkWidth)
  have hblocks : width / blkWidth * (height / blkWidth) / 4 * 1024 +
      width / blkWidth * (height / blkWidth) % 4 * 256 =
      width / blkWidth * (height / blkWidth) * 256 := by
    omega
  rw [hblocks]
  generalize width / blkWidth = h at *
  generalize height / blkWidth = v at *
  subst hx hy
  rw [Nat.add_sub_cancel_left, Nat.add_sub_cancel_left]
  unfold blkWidth
  ring

/-- The pixel at `(x, y)` of a whole block is a pixel of that block's curve. -/
theorem exists_blockPixel {width x y n : Nat} (hwidth : width ≤ 4368)
    (hx : x < width / blkWidth * blkWidth) (hn : n = y / blkWidth * (width / blkWidth) + x / blkWidth)
    (c : Fin 4) : ∃ i, y * width + x =
      (ptrs width n).ref + ((imgDither0Init width 0).offsetTbl c i).toNat := by
  have hcol : x / blkWidth < width / blkWidth := Nat.div_lt_of_lt_mul (Nat.mul_comm _ _ ▸ hx)
  have hpos : 0 < width / blkWidth := Nat.zero_lt_of_lt hcol
  obtain ⟨i, hi⟩ := exists_point c (Nat.mod_lt x (by decide : 0 < blkWidth))
    (Nat.mod_lt y (by decide : 0 < blkWidth))
  refine ⟨i, ?_⟩
  have hrow : n / (width / blkWidth) = y / blkWidth := by
    rw [hn, Nat.mul_comm, Nat.mul_add_div hpos, Nat.div_eq_of_lt hcol, Nat.add_zero]
  have hrem : n % (width / blkWidth) = x / blkWidth := by
    rw [hn, Nat.mul_comm, Nat.mul_add_mod, Nat.mod_eq_of_lt hcol]
  have hoff := calcOffsetTable_toNat c hwidth i
  rw [hi] at hoff
  rw [ptrs_eq hpos, hrow, hrem]
  simp only [imgDither0Init]
  rw [hoff]
  dsimp only
  have hy := Nat.div_add_mod y blkWidth
  have hx' := Nat.div_add_mod x blkWidth
  calc y * width + x
      = (blkWidth * (y / blkWidth) + y % blkWidth) * width +
          (blkWidth * (x / blkWidth) + x % blkWidth) := by rw [hy, hx']
    _ = _ := by ring

/-- No pixel is left out. -/
theorem mem_imgPixels {width height i : Nat} (hwidth : width ≤ 4368) (hi : i < width * height) :
    i ∈ imgPixels width height := by
  have hpos : 0 < width := Nat.pos_of_mul_pos_right (Nat.zero_lt_of_lt hi)
  obtain ⟨x, y, hx, hy, rfl⟩ : ∃ x y, x < width ∧ y < height ∧ i = y * width + x := by
    refine ⟨i % width, i / width, Nat.mod_lt i hpos, Nat.div_lt_of_lt_mul hi, ?_⟩
    rw [Nat.mul_comm, Nat.div_add_mod]
  unfold imgPixels
  simp only [List.mem_append]
  by_cases hright : width / blkWidth * blkWidth ≤ x
  · -- right of the whole blocks
    left; right
    have hsplit : y * width + x = width / blkWidth * blkWidth + y * width +
        (x - width / blkWidth * blkWidth) := by omega
    rw [hsplit]
    exact mem_lines (by omega) hy
  by_cases hbottom : height / blkWidth * blkWidth ≤ y
  · -- below the whole blocks
    right
    have hsplit : y * width + x = height / blkWidth * blkWidth * width +
        (y - height / blkWidth * blkWidth) * width + x := by
      rw [← Nat.add_mul, Nat.add_sub_cancel' hbottom]
    rw [hsplit]
    exact mem_lines (Nat.not_le.mp hright) (by omega)
  · left; left
    have hrow : y / blkWidth < height / blkWidth :=
      Nat.div_lt_of_lt_mul (Nat.mul_comm _ _ ▸ Nat.not_le.mp hbottom)
    have hcol : x / blkWidth < width / blkWidth :=
      Nat.div_lt_of_lt_mul (Nat.mul_comm _ _ ▸ Nat.not_le.mp hright)
    obtain ⟨n, hn⟩ : ∃ n, n = y / blkWidth * (width / blkWidth) + x / blkWidth := ⟨_, rfl⟩
    have hlt : n < width / blkWidth * (height / blkWidth) := by
      calc n < y / blkWidth * (width / blkWidth) + width / blkWidth := by omega
        _ = (y / blkWidth + 1) * (width / blkWidth) := (Nat.succ_mul _ _).symm
        _ ≤ height / blkWidth * (width / blkWidth) := Nat.mul_le_mul_right _ hrow
        _ = width / blkWidth * (height / blkWidth) := Nat.mul_comm _ _
    obtain ⟨j, hj⟩ := exists_blockPixel hwidth (Nat.not_le.mp hright) hn (Fin.ofNat 4 n)
    by_cases hfour : n < 4 * (width / blkWidth * (height / blkWidth) / 4)
    · left
      exact mem_fourLoopPixels (Nat.dvd_zero 4) (Nat.zero_le n) (by omega) hj
    · right
      have htbl : Fin.ofNat 4 (0 + (n - 4 * (width / blkWidth * (height / blkWidth) / 4))) =
          Fin.ofNat 4 n := by
        refine Fin.ext ?_
        rw [Fin.val_ofNat, Fin.val_ofNat]
        omega
      exact mem_singleLoopPixels (Nat.not_lt.mp hfour) (by omega) (by rw [htbl]; exact hj)

/-- The pixels written are the pixels of the image, each once. -/
theorem imgPixels_perm {width : Nat} (height : Nat) (hwidth : width ≤ 4368) :
    (imgPixels width height).Perm (List.range (width * height)) := by
  have hsub : List.range (width * height) ⊆ imgPixels width height :=
    fun i hi => mem_imgPixels hwidth (List.mem_range.mp hi)
  have hsubperm := List.subperm_of_subset List.nodup_range hsub
  refine (hsubperm.perm_of_length_le ?_).symm
  rw [length_imgPixels, List.length_range]

/-- **Every pixel once.** Dithering an image writes each of its pixels exactly once and nothing
else, keeps the alpha bytes and clears the bits that the mask cuts. -/
theorem imgDither00_spec (width height : Nat) (data : Nat → Pixel) (hwidth : width ≤ 4368) :
    (imgDither00 (imgDither0Init width height) data).written.Perm (List.range (width * height)) ∧
      ∀ i < width * height, Dithered (data i)
        ((imgDither00 (imgDither0Init width height) data).cells i) := by
  obtain ⟨f, hpaints, hf⟩ := paints_imgDither00 width height
  have hperm := imgPixels_perm height hwidth
  rw [hf]
  constructor
  · rw [hpaints.written, List.nil_append]
    exact hperm
  · intro i hi
    have hnodup : (imgPixels width height).Nodup := hperm.nodup_iff.mpr List.nodup_range
    exact hpaints.dithered hnodup ⟨data, []⟩ i (mem_imgPixels hwidth hi)

/-- An image of 100 by 40 pixels. -/
theorem imgDither00_spec_small :
    (imgDither00 (imgDither0Init 100 40) fun _ => ⟨1, 2, 3, 4⟩).written.Perm
        (List.range (100 * 40)) ∧
      ∀ i < 100 * 40, Dithered ⟨1, 2, 3, 4⟩
        ((imgDither00 (imgDither0Init 100 40) fun _ => ⟨1, 2, 3, 4⟩).cells i) :=
  imgDither00_spec 100 40 _ (by decide)

end SprdHal.Dither
