import SprdHal.Dither.Image

/-!
# Four blocks and one (`image_dither.cpp`)

`dither_four_block` is `dither_single_block` in lanes of bytes. The two differ in the weighted sum of
the last errors only: the bytes saturate at 127 after a row of bright pixels, the exact sum does
not. They write the same block exactly if at no pixel the two sums round to different levels.
-/

namespace SprdHal.Dither

open SprdHal.Lib

/-- The same for the three colours of a pixel, at the errors that `dither_single_block` has there. -/
def SingleState.RoundsAlike (s : SingleState) (p : Pixel) : Prop :=
  Dither.RoundsAlike mask.b s.k s.b.window p.b ∧ Dither.RoundsAlike mask.g s.k s.g.window p.g ∧
    Dither.RoundsAlike mask.r s.k s.r.window p.r

instance (m : UInt8) (k : Fin 8) (w : Window Int16) (src : UInt8) :
    Decidable (RoundsAlike m k w src) := inferInstanceAs (Decidable (_ = _))

instance (s : SingleState) (p : Pixel) : Decidable (s.RoundsAlike p) :=
  inferInstanceAs (Decidable (_ ∧ _ ∧ _))

/-! ## One lane -/

theorem shiftRight_three_bounds (e : Int8) : -16 ≤ (e >>> 3).toInt ∧ (e >>> 3).toInt ≤ 15 := by
  have hall : ∀ n : Fin 256, -16 ≤ (Int8.ofNat n.val >>> 3).toInt ∧
      (Int8.ofNat n.val >>> 3).toInt ≤ 15 := by decide +kernel
  have he : Int8.ofNat e.toUInt8.toNat = e := by
    rw [← UInt8.toInt8_ofNat', UInt8.ofNat_toNat, Int8.toInt8_toUInt8]
  have := hall ⟨e.toUInt8.toNat, e.toUInt8.toNat_lt⟩
  rwa [he] at this

/-- The error of a byte, as a signed byte. -/
theorem toInt_sub_toInt8 {src dst : UInt8} (hlo : -128 ≤ (src.toNat : Int) - dst.toNat)
    (hhi : (src.toNat : Int) - dst.toNat ≤ 127) :
    (src - dst).toInt8.toInt = src.toNat - dst.toNat := by
  have hbyte : ∀ c : UInt8, c.toInt8.toInt = (c.toNat : Int).bmod (2 ^ 8) := by
    intro c
    have := Int8.toInt_ofNat' (n := c.toNat)
    rwa [← UInt8.toInt8_ofNat', UInt8.ofNat_toNat] at this
  rw [UInt8.toInt8_sub, Int8.toInt_sub, hbyte, hbyte, Int.bmod_sub_bmod, Int.sub_bmod_bmod]
  exact Int.bmod_eq_of_le (by omega) (by omega)

/-- A level is at most seven below the byte that it is cut from. -/
theorem Levels.cut {shift : Nat} {m : UInt8} (hm : Levels shift m) (hshift : shift ≤ 3) (c : UInt8) :
    ((c &&& m).toNat : Int) ≤ c.toNat ∧ (c.toNat : Int) ≤ (c &&& m).toNat + 7 := by
  have h := hm c
  have hpos : (0 : Int) < ((2 ^ shift : Nat) : Int) := by
    have := Nat.two_pow_pos shift
    omega
  have hle : ((2 ^ shift : Nat) : Int) ≤ 8 := by
    have : 2 ^ shift ≤ 2 ^ 3 := Nat.pow_le_pow_right (by decide) hshift
    omega
  have hpow : (2 : Int) ^ shift = ((2 ^ shift : Nat) : Int) := (Int.natCast_pow 2 shift).symm
  rw [Int.shiftRight_eq_div_pow, Int.shiftLeft_eq, hpow] at h
  have hdiv := Int.ediv_mul_add_emod (c.toNat : Int) ((2 ^ shift : Nat) : Int)
  have hnonneg := Int.emod_nonneg (c.toNat : Int) (Int.ne_of_gt hpos)
  have hlt := Int.emod_lt_of_pos (c.toNat : Int) hpos
  omega

/-- Both versions have the same errors at a colour of a block; `k` is the place of the next one. -/
structure SameErrors (k : Fin 8) (n : NarrowErr) (w : WideErr) : Prop where
  window : ∀ i, (n.window i).toInt = (w.window i).toInt
  narrow : n.err = NarrowErr.weigh (k - 1) n.window >>> 3
  wide : w.err = WideErr.weigh (k - 1) w.window

theorem sameErrors_init : SameErrors 0 .init .init := ⟨fun _ => rfl, by decide, by decide⟩

section Lane

variable {shift : Nat} {m : UInt8} {k : Fin 8} {n : NarrowErr} {w : WideErr} {src : UInt8}

theorem SameErrors.toInt8_window (h : SameErrors k n w) :
    (fun i => (w.window i).toInt8) = n.window := by
  funext i
  rw [← Int8.toInt_inj, Int16.toInt_toInt8, ← h.window i]
  exact Int.bmod_eq_of_le (n.window i).le_toInt (n.window i).toInt_lt

theorem SameErrors.bounds (h : SameErrors k n w) : -2 ^ 18 ≤ w.err ∧ w.err ≤ 2 ^ 18 := by
  rw [h.wide]
  exact weigh_bounds _ _

variable (src) in
theorem SameErrors.out_iff (h : SameErrors k n w) (hm : Levels shift m) :
    (n.step m k src).2 = (w.step shift k src).2 ↔ RoundsAlike m k w.window src := by
  unfold RoundsAlike
  rw [w.step_out hm k h.bounds.1 h.bounds.2, n.step_out, h.wide, h.narrow, h.toInt8_window]

/-- The byte written is near to the source, since the error of the narrow lane is small. -/
theorem SameErrors.near (src : UInt8) (h : SameErrors k n w) (hm : Levels shift m)
    (hshift : shift ≤ 3) :
    -128 ≤ (src.toNat : Int) - (n.step m k src).2.toNat ∧
      (src.toNat : Int) - (n.step m k src).2.toNat ≤ 127 := by
  obtain ⟨herrlo, herrhi⟩ : -16 ≤ n.err.toInt ∧ n.err.toInt ≤ 15 := by
    rw [h.narrow]
    exact shiftRight_three_bounds _
  obtain ⟨hcutlo, hcuthi⟩ := hm.cut hshift (clamp (src.toNat + n.err.toInt))
  rw [toNat_clamp, ← n.step_out m k src] at hcutlo hcuthi
  have hsrc := src.toNat_lt
  omega

theorem place_succ_sub (k : Fin 8) : k + 1 - 1 = k := by
  revert k
  decide

/-- After the same byte both have the same errors again. -/
theorem SameErrors.step (h : SameErrors k n w) (hm : Levels shift m) (hshift : shift ≤ 3)
    (hout : (n.step m k src).2 = (w.step shift k src).2) :
    SameErrors (k + 1) (n.step m k src).1 (w.step shift k src).1 := by
  obtain ⟨hlo, hhi⟩ := h.near src hm hshift
  have hlevel : clip8 (src.toNat + w.err >>> (3 : Nat)) >>> shift <<< shift =
      ((n.step m k src).2.toNat : Int) := by
    rw [WideErr.step_level hm h.bounds.1 h.bounds.2, hout,
      w.step_out hm k h.bounds.1 h.bounds.2]
  have hnarrow : (n.step m k src).1.window =
      Function.update n.window k (src - (n.step m k src).2).toInt8 := rfl
  have hwide : (w.step shift k src).1.window = Function.update w.window k
      (Int16.ofInt (src.toNat - clip8 (src.toNat + w.err >>> (3 : Nat)) >>> shift <<< shift)) := rfl
  refine ⟨fun i => ?_, ?_, ?_⟩
  · rw [hnarrow, hwide, hlevel]
    by_cases hi : i = k
    · rw [hi, Function.update_self, Function.update_self, toInt_sub_toInt8 hlo hhi,
        Int16.toInt_ofInt_of_le (by omega) (by omega)]
    · rw [Function.update_of_ne hi, Function.update_of_ne hi]
      exact h.window i
  · rw [place_succ_sub]
    rfl
  · rw [place_succ_sub]
    rfl

end Lane

/-! ## A block -/

/-- Both versions before a pixel of a block, with the same errors. -/
structure SameState (f : FourState) (s : SingleState) : Prop where
  k : f.k = s.k
  b : SameErrors s.k f.b s.b
  g : SameErrors s.k f.g s.g
  r : SameErrors s.k f.r s.r
  alpha : f.AlphaExact

theorem sameState_init : SameState .init .init :=
  ⟨rfl, sameErrors_init, sameErrors_init, sameErrors_init, FourState.alphaExact_init⟩

theorem SameState.out_iff {f : FourState} {s : SingleState} (h : SameState f s) (p : Pixel) :
    (f.step p).2 = (s.step p).2 ↔ s.RoundsAlike p := by
  have halpha := FourState.alpha_out h.alpha p
  have hb := h.b.out_iff p.b levels_three
  have hg := h.g.out_iff p.g levels_two
  have hr := h.r.out_iff p.r levels_three
  unfold SingleState.RoundsAlike
  obtain ⟨k, b, g, r, a⟩ := f
  obtain rfl : k = s.k := h.k
  constructor
  · intro heq
    exact ⟨hb.mp (congrArg Pixel.b heq), hg.mp (congrArg Pixel.g heq),
      hr.mp (congrArg Pixel.r heq)⟩
  · rintro ⟨h1, h2, h3⟩
    exact Pixel.ext (hb.mpr h1) (hg.mpr h2) (hr.mpr h3) halpha

theorem SameState.step {f : FourState} {s : SingleState} (h : SameState f s) (p : Pixel)
    (hok : s.RoundsAlike p) : SameState (f.step p).1 (s.step p).1 := by
  have hb := h.b.out_iff p.b levels_three
  have hg := h.g.out_iff p.g levels_two
  have hr := h.r.out_iff p.r levels_three
  have halpha := FourState.alphaExact_step h.alpha p
  obtain ⟨k, b, g, r, a⟩ := f
  obtain rfl : k = s.k := h.k
  exact ⟨rfl, h.b.step levels_three (by decide) (hb.mpr hok.1),
    h.g.step levels_two (by decide) (hg.mpr hok.2.1),
    h.r.step levels_three (by decide) (hr.mpr hok.2.2), halpha⟩

/-- A block in the one version and in the other, by the pixels along the curve. -/
theorem block_outputs_eq_iff (px : List Pixel) :
    ((mealy FourState.step).run .init px).2 = ((mealy SingleState.step).run .init px).2 ↔
      (mealy SingleState.step).Admits SingleState.RoundsAlike .init px :=
  mealy_outputs_eq_iff (fun _ _ p h => h.out_iff p) (fun _ _ p h hok => h.step p hok) px _ _
    sameState_init

/-- What one block alone becomes, along its curve. -/
theorem ditherSingleBlock_content {srcPtr : Nat} {offsetTbl : Fin 256 → UInt16}
    (hinj : Function.Injective fun i => srcPtr + (offsetTbl i).toNat) (img : Sheet Nat Pixel) :
    (List.finRange 256).map (fun i =>
        (ditherSingleBlock srcPtr offsetTbl img).cells (srcPtr + (offsetTbl i).toNat)) =
      ((mealy SingleState.step).run .init
        ((List.finRange 256).map fun i => img.cells (srcPtr + (offsetTbl i).toNat))).2 := by
  have hnodup : (visited ((List.finRange 256).map fun i (_ : Fin 1) =>
      srcPtr + (offsetTbl i).toNat)).Nodup := by
    rw [visited_one]
    exact (List.nodup_finRange 256).map hinj
  have hlane := @sweep_lane Nat Pixel SingleState _ 1 SingleState.step _ img (fun _ => .init)
    hnodup 0
  rw [List.map_map, List.map_map] at hlane
  exact hlane

/-! ## Four blocks of an image -/

/-- Four blocks of an image, none of whose pixels is a pixel of another. -/
structure FourBlocks where
  width : Nat
  srcPtr : Fin 4 → Nat
  distinct : Function.Injective fun p : Fin 4 × Fin 256 =>
    srcPtr p.1 + (calcOffsetTable (sHilbertCurve p.1) width p.2).toNat

namespace FourBlocks

variable (blk : FourBlocks)

/-- The tables that `_img_dither_0_init` makes. -/
def offsetTbl : Fin 4 → Fin 256 → UInt16 := fun c => calcOffsetTable (sHilbertCurve c) blk.width

/-- The `i`-th pixel of a block along its curve. -/
def pixel (j : Fin 4) (i : Fin 256) : Nat := blk.srcPtr j + (blk.offsetTbl j i).toNat

/-- What is in a block, along its curve. -/
def content (data : Nat → Pixel) (j : Fin 4) : List Pixel :=
  (List.finRange 256).map fun i => data (blk.pixel j i)

/-- `dither_four_block` writes to each of the blocks what `dither_single_block` writes to it when it
is run on that block alone. -/
def AsSingles (data : Nat → Pixel) : Prop :=
  ∀ j i, (ditherFourBlock blk.srcPtr blk.offsetTbl ⟨data, []⟩).cells (blk.pixel j i) =
    (ditherSingleBlock (blk.srcPtr j) (blk.offsetTbl j) ⟨data, []⟩).cells (blk.pixel j i)

variable {blk}

theorem pixel_injective {j j' : Fin 4} {i i' : Fin 256} (h : blk.pixel j i = blk.pixel j' i') :
    j = j' ∧ i = i' :=
  Prod.mk.inj (@blk.distinct (j, i) (j', i') h)

theorem four_nodup :
    (visited ((List.finRange 256).map fun i (j : Fin 4) => blk.pixel j i)).Nodup := by
  rw [visited, List.flatMap_map, List.nodup_flatMap]
  constructor
  · intro i _
    exact List.nodup_ofFn.mpr fun j j' h => (pixel_injective h).1
  · refine (List.nodup_finRange 256).imp fun {i i'} hne a ha ha' => ?_
    obtain ⟨j, rfl⟩ := List.mem_ofFn.mp ha
    obtain ⟨j', h⟩ := List.mem_ofFn.mp ha'
    exact hne (pixel_injective h).2.symm

variable (blk) in
theorem four_content (img : Sheet Nat Pixel) (j : Fin 4) :
    (List.finRange 256).map (fun i =>
        (ditherFourBlock blk.srcPtr blk.offsetTbl img).cells (blk.pixel j i)) =
      ((mealy FourState.step).run .init (blk.content img.cells j)).2 := by
  have hlane := @sweep_lane Nat Pixel FourState _ 4 FourState.step _ img (fun _ => .init)
    blk.four_nodup j
  rw [List.map_map, List.map_map] at hlane
  unfold ditherFourBlock content
  unfold pixel at hlane ⊢
  exact hlane

variable (blk) in
theorem single_content (img : Sheet Nat Pixel) (j : Fin 4) :
    (List.finRange 256).map (fun i =>
        (ditherSingleBlock (blk.srcPtr j) (blk.offsetTbl j) img).cells (blk.pixel j i)) =
      ((mealy SingleState.step).run .init (blk.content img.cells j)).2 := by
  have hcontent := @ditherSingleBlock_content (blk.srcPtr j) (blk.offsetTbl j)
    (fun _ _ h => (pixel_injective h).2) img
  unfold content pixel
  exact hcontent

theorem asSingles_iff (data : Nat → Pixel) : blk.AsSingles data ↔
    ∀ j, (mealy SingleState.step).Admits SingleState.RoundsAlike .init (blk.content data j) := by
  refine forall_congr' fun j => ?_
  rw [← block_outputs_eq_iff, ← blk.four_content ⟨data, []⟩, ← blk.single_content ⟨data, []⟩,
    List.map_inj_left]
  exact ⟨fun h i _ => h i, fun h i => h i (List.mem_finRange i)⟩

end FourBlocks

/-! ## Grouping the blocks of an image -/

/-- What is in the `n`-th block, along its curve. -/
def blockContent (width : Nat) (data : Nat → Pixel) (n : Nat) : List Pixel :=
  (List.finRange 256).map fun i => data (blockPixel width n i)

/-- What `dither_four_block` makes of a block, along its curve. -/
def fourRun (px : List Pixel) : List Pixel := ((mealy FourState.step).run .init px).2

/-- What `dither_single_block` makes of it. -/
def singleRun (px : List Pixel) : List Pixel := ((mealy SingleState.step).run .init px).2

/-- At every pixel of the first blocks of the image, the two sums round alike. -/
def BlocksRoundAlike (width n : Nat) (data : Nat → Pixel) : Prop :=
  ∀ k < n, (mealy SingleState.step).Admits SingleState.RoundsAlike .init (blockContent width data k)

/-- The whole blocks of an image, the given number of groups of four first and then the others one
by one. -/
def wholeBlocks (width height groups : Nat) (data : Nat → Pixel) : Sheet Nat Pixel :=
  let (p, img) := fourLoop (imgDither0Init width height) groups ⟨0, 0⟩ ⟨data, []⟩
  (singleLoop (imgDither0Init width height)
    (width / blkWidth * (height / blkWidth) - 4 * groups) 0 p img).2

/-- What is right of the whole blocks, and then what is below them. -/
def irregularBlocks (width height : Nat) (img : Sheet Nat Pixel) : Sheet Nat Pixel :=
  ditherIrregularBlock (height / blkWidth * blkWidth * width) (width / blkWidth * blkWidth)
    (height - height / blkWidth * blkWidth) width
    (ditherIrregularBlock (width / blkWidth * blkWidth) (width - width / blkWidth * blkWidth) height
      width img)

/-- An image, dithered with the given number of groups of four. -/
def ditherGrouped (width height groups : Nat) (data : Nat → Pixel) : Nat → Pixel :=
  (irregularBlocks width height (wholeBlocks width height groups data)).cells

section Grouping

variable {width height n n' m : Nat} {i i' : Fin 256} {data : Nat → Pixel}

theorem blockPixel_eq (hwidth : width ≤ 4368) (h : 0 < width / blkWidth) (n : Nat) (i : Fin 256) :
    blockPixel width n i =
      (n / (width / blkWidth) * blkWidth + (point (sHilbertCurve (Fin.ofNat 4 n)) i).2) * width +
        (n % (width / blkWidth) * blkWidth + (point (sHilbertCurve (Fin.ofNat 4 n)) i).1) := by
  rw [blockPixel, ptrs_eq h, calcOffsetTable_toNat _ hwidth]
  dsimp only
  ring

/-- The blocks of an image have no pixel in common. -/
theorem blockPixel_injective (hwidth : width ≤ 4368) (h : 0 < width / blkWidth)
    (heq : blockPixel width n i = blockPixel width n' i') : n = n' ∧ i = i' := by
  have hcol : ∀ (n : Nat) (i : Fin 256),
      n % (width / blkWidth) * blkWidth + (point (sHilbertCurve (Fin.ofNat 4 n)) i).1 < width := by
    intro n i
    have hmod := Nat.mod_lt n h
    have hpoint := (point_lt (Fin.ofNat 4 n) i).1
    have hle : (n % (width / blkWidth) + 1) * blkWidth ≤ width :=
      Nat.le_trans (Nat.mul_le_mul_right _ hmod) (Nat.div_mul_le_self _ _)
    rw [Nat.succ_mul] at hle
    omega
  rw [blockPixel_eq hwidth h, blockPixel_eq hwidth h] at heq
  have hpos : 0 < width := Nat.zero_lt_of_lt (hcol n i)
  have hy := congrArg (· / width) heq
  have hx := congrArg (· % width) heq
  simp only [Nat.mul_comm _ width, Nat.mul_add_div hpos, Nat.mul_add_mod,
    Nat.div_eq_of_lt (hcol n i), Nat.div_eq_of_lt (hcol n' i'), Nat.mod_eq_of_lt (hcol n i),
    Nat.mod_eq_of_lt (hcol n' i'), Nat.add_zero] at hy hx
  obtain ⟨hpx, hpy⟩ := point_lt (Fin.ofNat 4 n) i
  obtain ⟨hpx', hpy'⟩ := point_lt (Fin.ofNat 4 n') i'
  unfold blkWidth at *
  have hnn : n = n' := by
    rw [← Nat.div_add_mod n (width / 16), ← Nat.div_add_mod n' (width / 16)]
    have hq : n / (width / 16) = n' / (width / 16) := by omega
    have hr : n % (width / 16) = n' % (width / 16) := by omega
    rw [hq, hr]
  subst hnn
  have hpoint : point (sHilbertCurve (Fin.ofNat 4 n)) i =
      point (sHilbertCurve (Fin.ofNat 4 n)) i' := Prod.ext (by omega) (by omega)
  exact ⟨rfl, point_injective _ hpoint⟩

theorem ofNat_four_add (hm : 4 ∣ m) (j : Fin 4) : Fin.ofNat 4 (m + j.val) = j := by
  have := j.isLt
  refine Fin.ext ?_
  rw [Fin.val_ofNat]
  omega

/-- The four blocks from the `m`-th on. -/
def groupAt (hwidth : width ≤ 4368) (h : 0 < width / blkWidth) (hm : 4 ∣ m) : FourBlocks where
  width := width
  srcPtr j := (ptrs width (m + j.val)).ref
  distinct := by
    rintro ⟨j, i⟩ ⟨j', i'⟩ heq
    have hpixel : blockPixel width (m + j.val) i = blockPixel width (m + j'.val) i' := by
      unfold blockPixel
      rw [ofNat_four_add hm, ofNat_four_add hm]
      exact heq
    obtain ⟨hj, hi⟩ := blockPixel_injective hwidth h hpixel
    exact Prod.ext (Fin.ext (Nat.add_left_cancel hj)) hi

theorem groupAt_pixel (hwidth : width ≤ 4368) (h : 0 < width / blkWidth) (hm : 4 ∣ m) (j : Fin 4)
    (i : Fin 256) : (groupAt hwidth h hm).pixel j i = blockPixel width (m + j.val) i := by
  unfold blockPixel
  rw [ofNat_four_add hm]
  rfl

theorem groupAt_content (hwidth : width ≤ 4368) (h : 0 < width / blkWidth) (hm : 4 ∣ m)
    (data : Nat → Pixel) (j : Fin 4) :
    (groupAt hwidth h hm).content data j = blockContent width data (m + j.val) :=
  List.map_congr_left fun i _ => congrArg data (groupAt_pixel hwidth h hm j i)

/-- From one image to the other the blocks from `lo` up to `hi` become what `f` makes of them, and
nothing else changes. -/
structure BlocksDone (width lo hi : Nat) (f : Nat → List Pixel → List Pixel)
    (data data' : Nat → Pixel) : Prop where
  done : ∀ n, lo ≤ n → n < hi → blockContent width data' n = f n (blockContent width data n)
  frame : ∀ a, (∀ n, lo ≤ n → n < hi → ∀ i, blockPixel width n i ≠ a) → data' a = data a

namespace BlocksDone

variable {lo mid hi : Nat} {f g : Nat → List Pixel → List Pixel} {data' data'' : Nat → Pixel}
  {img : Sheet Nat Pixel}

theorem none (width lo : Nat) (f : Nat → List Pixel → List Pixel) (data : Nat → Pixel) :
    BlocksDone width lo lo f data data :=
  ⟨fun _ hlo hhi => absurd hhi (Nat.not_lt.mpr hlo), fun _ _ => rfl⟩

theorem congr (h : BlocksDone width lo hi f data data')
    (hfg : ∀ n, lo ≤ n → n < hi → f n = g n) : BlocksDone width lo hi g data data' :=
  ⟨fun n hlo hhi => by rw [h.done n hlo hhi, hfg n hlo hhi], h.frame⟩

/-- The blocks outside stay as they are. -/
theorem rest (hwidth : width ≤ 4368) (hpos : 0 < width / blkWidth)
    (h : BlocksDone width lo hi f data data') (hn : n < lo ∨ hi ≤ n) :
    blockContent width data' n = blockContent width data n := by
  refine List.map_congr_left fun i _ => h.frame _ fun n' hlo hhi i' heq => ?_
  have := (blockPixel_injective hwidth hpos heq).1
  omega

theorem trans (hwidth : width ≤ 4368) (hpos : 0 < width / blkWidth) (hlo : lo ≤ mid)
    (hhi : mid ≤ hi) (h : BlocksDone width lo mid f data data')
    (h' : BlocksDone width mid hi f data' data'') : BlocksDone width lo hi f data data'' where
  done n hn hn' := by
    rcases Nat.lt_or_ge n mid with hlt | hge
    · rw [h'.rest hwidth hpos (.inl hlt), h.done n hn hlt]
    · rw [h'.done n hge hn', h.rest hwidth hpos (.inr hge)]
  frame a ha := by
    rw [h'.frame a fun _ hn hn' => ha _ (by omega) hn',
      h.frame a fun _ hn hn' => ha _ hn (by omega)]

/-- A group of four. -/
theorem four (hwidth : width ≤ 4368) (hpos : 0 < width / blkWidth) (hm : 4 ∣ m)
    (img : Sheet Nat Pixel) : BlocksDone width m (m + 4) (fun _ => fourRun) img.cells
      (ditherFourBlock (groupAt hwidth hpos hm).srcPtr (groupAt hwidth hpos hm).offsetTbl
        img).cells where
  done n hlo hhi := by
    obtain ⟨j, rfl⟩ : ∃ j : Fin 4, n = m + j.val := ⟨⟨n - m, by omega⟩, by simp; omega⟩
    have hcontent := (groupAt hwidth hpos hm).four_content img j
    rw [groupAt_content] at hcontent
    rw [blockContent, ← List.map_congr_left fun i _ =>
      congrArg _ (groupAt_pixel hwidth hpos hm j i)]
    exact hcontent
  frame a ha := by
    refine (paints_ditherFourBlock _ _).frame img a fun hmem => ?_
    obtain ⟨i, -, hi⟩ := List.mem_flatMap.mp hmem
    obtain ⟨j, hj⟩ := List.mem_ofFn.mp hi
    have hlt := j.isLt
    exact ha (m + j.val) (by omega) (by omega) i ((groupAt_pixel hwidth hpos hm j i).symm.trans hj)

/-- A block alone. -/
theorem single (hwidth : width ≤ 4368) (hpos : 0 < width / blkWidth) (n : Nat)
    (img : Sheet Nat Pixel) : BlocksDone width n (n + 1) (fun _ => singleRun) img.cells
      (ditherSingleBlock (ptrs width n).ref (calcOffsetTable (sHilbertCurve (Fin.ofNat 4 n)) width)
        img).cells where
  done n' hlo hhi := by
    obtain rfl : n' = n := by omega
    have hcontent := @ditherSingleBlock_content (ptrs width n').ref
      (calcOffsetTable (sHilbertCurve (Fin.ofNat 4 n')) width)
      (fun _ _ h => (blockPixel_injective hwidth hpos h).2) img
    unfold blockContent blockPixel
    exact hcontent
  frame a ha := by
    refine (paints_ditherSingleBlock _ _).frame img a fun hmem => ?_
    obtain ⟨i, -, hi⟩ := List.mem_map.mp hmem
    exact ha n (Nat.le_refl n) (Nat.lt_succ_self n) i hi

/-- The loop over groups of four. -/
theorem fourLoop (hwidth : width ≤ 4368) (hpos : 0 < width / blkWidth) (height loops : Nat)
    (hm : 4 ∣ m) (img : Sheet Nat Pixel) :
    BlocksDone width m (m + 4 * loops) (fun _ => fourRun) img.cells
      (Dither.fourLoop (imgDither0Init width height) loops (ptrs width m) img).2.cells := by
  induction loops generalizing m img with
  | zero => exact .none _ _ _ _
  | succ loops ih =>
    have hsrc : (fun j : Fin 4 => ((Ptrs.next width)^[j.val] (ptrs width m)).ref) =
        (groupAt hwidth hpos hm).srcPtr := funext fun j => by rw [ptrs_add]; rfl
    have hunfold : Dither.fourLoop (imgDither0Init width height) (loops + 1) (ptrs width m) img =
        Dither.fourLoop (imgDither0Init width height) loops (ptrs width (m + 4)) (ditherFourBlock
          (groupAt hwidth hpos hm).srcPtr (groupAt hwidth hpos hm).offsetTbl img) := by
      rw [← ptrs_add, ← hsrc]
      rfl
    have hcount : m + 4 * (loops + 1) = m + 4 + 4 * loops := by omega
    rw [hunfold, hcount]
    exact (four hwidth hpos hm img).trans hwidth hpos (by omega) (by omega) (ih (by omega) _)

/-- The loop over the blocks that are left. -/
theorem singleLoop (hwidth : width ≤ 4368) (hpos : 0 < width / blkWidth) (height loops k : Nat)
    (hk : k % 4 = m % 4) (img : Sheet Nat Pixel) :
    BlocksDone width m (m + loops) (fun _ => singleRun) img.cells
      (Dither.singleLoop (imgDither0Init width height) loops k (ptrs width m) img).2.cells := by
  induction loops generalizing m k img with
  | zero => exact .none _ _ _ _
  | succ loops ih =>
    have htbl : Fin.ofNat 4 k = Fin.ofNat 4 m := Fin.ext hk
    have hunfold : Dither.singleLoop (imgDither0Init width height) (loops + 1) k (ptrs width m) img =
        Dither.singleLoop (imgDither0Init width height) loops (k + 1) (ptrs width (m + 1))
          (ditherSingleBlock (ptrs width m).ref
            (calcOffsetTable (sHilbertCurve (Fin.ofNat 4 m)) width) img) := by
      rw [ptrs_succ, ← htbl]
      rfl
    have hcount : m + (loops + 1) = m + 1 + loops := by omega
    rw [hunfold, hcount]
    exact (single hwidth hpos m img).trans hwidth hpos (by omega) (by omega)
      (ih (k + 1) (by omega) _)

end BlocksDone

/-- The blocks of the groups become what `dither_four_block` makes of them, the others what
`dither_single_block` does. -/
theorem blocksDone_wholeBlocks (hwidth : width ≤ 4368) (hpos : 0 < width / blkWidth) {groups : Nat}
    (hgroups : groups ≤ width / blkWidth * (height / blkWidth) / 4) (data : Nat → Pixel) :
    BlocksDone width 0 (width / blkWidth * (height / blkWidth))
      (fun n => if n < 4 * groups then fourRun else singleRun) data
      (wholeBlocks width height groups data).cells := by
  have hfour := BlocksDone.fourLoop hwidth hpos height groups (Nat.dvd_zero 4) ⟨data, []⟩
  have hsingle := BlocksDone.singleLoop (m := 0 + 4 * groups) hwidth hpos height
    (width / blkWidth * (height / blkWidth) - 4 * groups) 0 (by omega)
    (fourLoop (imgDither0Init width height) groups ⟨0, 0⟩ ⟨data, []⟩).2
  have hstart : (fourLoop (imgDither0Init width height) groups ⟨0, 0⟩ ⟨data, []⟩).1 =
      ptrs width (0 + 4 * groups) :=
    (paints_fourLoop (imgDither0Init width height) groups 0).1 ⟨data, []⟩
  have hcount : 0 + 4 * groups + (width / blkWidth * (height / blkWidth) - 4 * groups) =
      width / blkWidth * (height / blkWidth) := by omega
  rw [hcount, ← hstart] at hsingle
  exact (hfour.congr fun _ _ hn => (if_pos (by omega)).symm).trans hwidth hpos (by omega) (by omega)
    (hsingle.congr fun _ hn _ => (if_neg (by omega)).symm)

/-- An irregular block that is left out if it is empty. -/
theorem if_ditherIrregularBlock (c : Prop) [Decidable c] (srcPtr blkW blkH imgW : Nat)
    (h : ¬c → lines srcPtr blkW blkH imgW = []) (img : Sheet Nat Pixel) :
    (if c then ditherIrregularBlock srcPtr blkW blkH imgW img else img) =
      ditherIrregularBlock srcPtr blkW blkH imgW img := by
  by_cases hc : c
  · rw [if_pos hc]
  · rw [if_neg hc, ditherIrregularBlock, h hc]
    rfl

/-- The code makes as many groups as there are. -/
theorem imgDither00_eq_ditherGrouped (width height : Nat) (data : Nat → Pixel) :
    (imgDither00 (imgDither0Init width height) data).cells =
      ditherGrouped width height (width / blkWidth * (height / blkWidth) / 4) data := by
  have hwidth : width / blkWidth * blkWidth ≤ width := Nat.div_mul_le_self _ _
  have hrest : width / blkWidth * (height / blkWidth) % 4 = width / blkWidth * (height / blkWidth) -
      4 * (width / blkWidth * (height / blkWidth) / 4) := by omega
  have hsub : width - (width - width / blkWidth * blkWidth) = width / blkWidth * blkWidth := by
    omega
  have hright := if_ditherIrregularBlock (0 < width - width / blkWidth * blkWidth)
    (width / blkWidth * blkWidth) (width - width / blkWidth * blkWidth) height width fun hc => by
      rw [Nat.eq_zero_of_not_pos hc, lines_width_zero]
  have hbottom := if_ditherIrregularBlock (0 < height - height / blkWidth * blkWidth)
    (height / blkWidth * blkWidth * width) (width / blkWidth * blkWidth)
    (height - height / blkWidth * blkWidth) width fun hc => by
      rw [Nat.eq_zero_of_not_pos hc, lines_height_zero]
  unfold imgDither00 ditherGrouped irregularBlocks wholeBlocks
  rw [← hrest]
  simp only [imgDither0Init, hsub]
  rw [hbottom]
  exact congrArg (fun img => (ditherIrregularBlock _ _ _ _ img).cells) (hright _)

/-- A block of a group and the same block alone. -/
theorem blockContent_wholeBlocks_iff (hwidth : width ≤ 4368) (hpos : 0 < width / blkWidth)
    (data : Nat → Pixel) {groups : Nat}
    (hgroups : groups ≤ width / blkWidth * (height / blkWidth) / 4) (hn : n < 4 * groups) :
    blockContent width (wholeBlocks width height groups data).cells n =
        blockContent width (wholeBlocks width height 0 data).cells n ↔
      (mealy SingleState.step).Admits SingleState.RoundsAlike .init (blockContent width data n) := by
  have hfour := (blocksDone_wholeBlocks hwidth hpos hgroups data).done n (Nat.zero_le n) (by omega)
  have hsingle := (blocksDone_wholeBlocks hwidth hpos
    (Nat.zero_le (width / blkWidth * (height / blkWidth) / 4)) data).done n (Nat.zero_le n)
    (by omega)
  rw [hfour, hsingle, if_pos hn, if_neg (Nat.not_lt_zero n)]
  exact block_outputs_eq_iff _

theorem wholeBlocks_cells (hwidth : width ≤ 4368) (hpos : 0 < width / blkWidth)
    {groups : Nat} (hgroups : groups ≤ width / blkWidth * (height / blkWidth) / 4)
    (hok : BlocksRoundAlike width (4 * groups) data) :
    (wholeBlocks width height groups data).cells = (wholeBlocks width height 0 data).cells := by
  have hgrouped := blocksDone_wholeBlocks hwidth hpos hgroups data
  have halone := blocksDone_wholeBlocks hwidth hpos
    (Nat.zero_le (width / blkWidth * (height / blkWidth) / 4)) data
  funext a
  by_cases ha : ∃ n < width / blkWidth * (height / blkWidth), ∃ i, blockPixel width n i = a
  · obtain ⟨n, hn, i, rfl⟩ := ha
    have hsame : blockContent width (wholeBlocks width height groups data).cells n =
        blockContent width (wholeBlocks width height 0 data).cells n := by
      by_cases hlt : n < 4 * groups
      · exact (blockContent_wholeBlocks_iff hwidth hpos data hgroups hlt).mpr (hok n hlt)
      · rw [hgrouped.done n (Nat.zero_le n) hn, halone.done n (Nat.zero_le n) hn, if_neg hlt,
          if_neg (Nat.not_lt_zero n)]
    exact List.map_inj_left.mp hsame i (List.mem_finRange i)
  · push Not at ha
    rw [hgrouped.frame a fun n _ hn => ha n hn, halone.frame a fun n _ hn => ha n hn]

/-- The irregular blocks leave the groups of four as they are. -/
theorem blockContent_irregularBlocks (hwidth : width ≤ 4368)
    (hn : n < 4 * (width / blkWidth * (height / blkWidth) / 4)) (img : Sheet Nat Pixel) :
    blockContent width (irregularBlocks width height img).cells n =
      blockContent width img.cells n := by
  have hpaints := (paints_ditherIrregularBlock (width / blkWidth * blkWidth)
    (width - width / blkWidth * blkWidth) height width).comp
    (paints_ditherIrregularBlock (height / blkWidth * blkWidth * width)
      (width / blkWidth * blkWidth) (height - height / blkWidth * blkWidth) width)
  have hnodup : (imgPixels width height).Nodup :=
    (imgPixels_perm height hwidth).nodup_iff.mpr List.nodup_range
  unfold imgPixels at hnodup
  rw [List.append_assoc, List.append_assoc, List.nodup_append] at hnodup
  refine List.map_congr_left fun i _ => hpaints.frame img _ fun hmem => ?_
  have hfour : blockPixel width n i ∈ fourLoopPixels (imgDither0Init width height) 0
      (width / blkWidth * (height / blkWidth) / 4) :=
    mem_fourLoopPixels (Nat.dvd_zero 4) (Nat.zero_le n) (by omega) rfl
  exact hnodup.2.2 _ hfour _ (List.mem_append_right _ hmem) rfl

/-- **Grouping.** Making groups of the first blocks changes nothing exactly if the two sums round
alike at every pixel of these blocks. -/
theorem ditherGrouped_eq_iff (hwidth : width ≤ 4368) (data : Nat → Pixel) {groups : Nat}
    (hgroups : groups ≤ width / blkWidth * (height / blkWidth) / 4) :
    ditherGrouped width height groups data = ditherGrouped width height 0 data ↔
      BlocksRoundAlike width (4 * groups) data := by
  rcases Nat.eq_zero_or_pos (width / blkWidth) with hzero | hpos
  · rw [hzero, Nat.zero_mul, Nat.zero_div] at hgroups
    obtain rfl := Nat.le_zero.mp hgroups
    exact ⟨fun _ => nofun, fun _ => rfl⟩
  constructor
  · intro heq n hn
    have hcontent := congrArg (fun cells => blockContent width cells n) heq
    dsimp only [ditherGrouped] at hcontent
    rw [blockContent_irregularBlocks hwidth (by omega),
      blockContent_irregularBlocks hwidth (by omega)] at hcontent
    exact (blockContent_wholeBlocks_iff hwidth hpos data hgroups hn).mp hcontent
  · intro hok
    exact sweep_cells_congr _ (sweep_cells_congr _ (wholeBlocks_cells hwidth hpos hgroups hok))

end Grouping

/-! ## The two versions -/

/-- White, with a grey pixel after eight white ones on the curve of the first block: the errors of
the white pixels sum up to more than a byte holds. -/
def greySpot (i : Nat) : Pixel := if i = 130 then ⟨100, 100, 100, 255⟩ else ⟨255, 255, 255, 255⟩

/-- **Four blocks at once and one by one.** Each of four blocks becomes what it becomes alone exactly
if the saturated and the exact sum round alike at every pixel; and the image does not depend on the
number of groups exactly if they do so in the blocks of the groups. -/
theorem ditherFourBlock_agrees_iff (blk : FourBlocks) {width height total groups : Nat}
    (hwidth : width ≤ 4368) (htotal : total = width / blkWidth * (height / blkWidth) / 4)
    (hgroups : groups ≤ total) (data : Nat → Pixel) :
    (blk.AsSingles data ↔
      ∀ j, (mealy SingleState.step).Admits SingleState.RoundsAlike .init (blk.content data j)) ∧
    (imgDither00 (imgDither0Init width height) data).cells = ditherGrouped width height total data ∧
    (ditherGrouped width height groups data = ditherGrouped width height 0 data ↔
      BlocksRoundAlike width (4 * groups) data) := by
  subst htotal
  exact ⟨FourBlocks.asSingles_iff data, imgDither00_eq_ditherGrouped width height data,
    ditherGrouped_eq_iff hwidth data hgroups⟩

/-- The first four blocks of an image of 64 columns. -/
def firstFour : FourBlocks := @groupAt 64 0 (by decide) (by decide) (by decide)

/-- An image of one group. -/
theorem ditherFourBlock_agrees_iff_oneGroup :
    ditherGrouped 64 16 1 greySpot = ditherGrouped 64 16 0 greySpot ↔
      BlocksRoundAlike 64 4 greySpot :=
  (@ditherFourBlock_agrees_iff firstFour 64 16 1 1 (by decide) rfl (Nat.le_refl 1) greySpot).2.2

theorem not_asSingles_greySpot : ¬firstFour.AsSingles greySpot := by
  rw [FourBlocks.asSingles_iff]
  intro h
  have hfirst := h 0
  revert hfirst
  decide +kernel

end SprdHal.Dither
