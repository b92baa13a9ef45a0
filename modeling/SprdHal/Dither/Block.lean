import Mathlib.Data.Fin.VecNotation
import Mathlib.Data.Fintype.Basic
import SprdHal.Dither.Curve
import SprdHal.Lib.Sweep

/-!
# Dithering a block (`image_dither.cpp`)

A block is swept along its curve; the errors of the last eight pixels, weighted, go into the next
one. `dither_single_block` keeps the errors of the three colours in lanes of sixteen bits and adds
the weighted errors up exactly. `dither_four_block` does four blocks at once, one byte lane for each
byte of a pixel, and adds in bytes, with a saturating addition at the end. The eight places of the
window of errors are written in turn, and both loops are unrolled eight times, once for each place.
-/

namespace SprdHal.Dither

open SprdHal.Lib

/-- A pixel of 32 bits by its bytes, the lowest first. -/
@[ext]
structure Pixel where
  b : UInt8
  g : UInt8
  r : UInt8
  a : UInt8
  deriving DecidableEq, Repr

/-- `0xfff8fcf8` -/
def mask : Pixel := ⟨0xf8, 0xfc, 0xf8, 0xff⟩

/-- The last eight errors of a channel. -/
abbrev Window (ε : Type) := Fin 8 → ε

/-- `s_weight` -/
def sWeight : Fin 8 → Fin 8 → Int16 :=
  ![![8, 1, 1, 2, 2, 2, 4, 4],
    ![4, 8, 1, 1, 2, 2, 2, 4],
    ![4, 4, 8, 1, 1, 2, 2, 2],
    ![2, 4, 4, 8, 1, 1, 2, 2],
    ![2, 2, 4, 4, 8, 1, 1, 2],
    ![2, 2, 2, 4, 4, 8, 1, 1],
    ![1, 2, 2, 2, 4, 4, 8, 1],
    ![1, 1, 2, 2, 2, 4, 4, 8]]

/-! ## One block -/

/-- `CLIP8` -/
def clip8 (val : Int) : Int := if val < 0 ∨ 255 < val then ((-val) >>> (16 : Nat)) % 256 else val

/-- A colour in `dither_single_block`: `b_err`, and the lanes of `v_error_b`. -/
structure WideErr where
  err : Int
  window : Window Int16

namespace WideErr

def init : WideErr := ⟨0, fun _ => 0⟩

/-- `vmulq_s16` and the pairwise additions, which widen -/
def weigh (k : Fin 8) (w : Window Int16) : Int :=
  let p := fun i => (w i * sWeight k i).toInt
  ((p 0 + p 1) + (p 2 + p 3)) + ((p 4 + p 5) + (p 6 + p 7))

/-- One pixel: the next error of the colour, and its byte. -/
def step (shift : Nat) (k : Fin 8) (e : WideErr) (src : UInt8) : WideErr × UInt8 :=
  let value := clip8 (src.toNat + e.err >>> (3 : Nat)) >>> shift
  let window := Function.update e.window k (Int16.ofInt (src.toNat - value <<< shift))
  (⟨weigh k window, window⟩, UInt8.ofInt (value <<< shift))

end WideErr

/-- `dither_single_block` before a pixel; `k` is the place of the pixel in the unrolled loop. -/
structure SingleState where
  k : Fin 8
  b : WideErr
  g : WideErr
  r : WideErr

namespace SingleState

def init : SingleState := ⟨0, .init, .init, .init⟩

def step (s : SingleState) (argb : Pixel) : SingleState × Pixel :=
  (⟨s.k + 1, (s.b.step 3 s.k argb.b).1, (s.g.step 2 s.k argb.g).1, (s.r.step 3 s.k argb.r).1⟩,
    ⟨(s.b.step 3 s.k argb.b).2, (s.g.step 2 s.k argb.g).2, (s.r.step 3 s.k argb.r).2, argb.a⟩)

end SingleState

/-- `dither_single_block` -/
def ditherSingleBlock (srcPtr : Nat) (offsetTbl : Fin 256 → UInt16) (img : Sheet Nat Pixel) :
    Sheet Nat Pixel :=
  sweep SingleState.step (n := 1) (fun _ => .init)
    ((List.finRange 256).map fun i _ => srcPtr + (offsetTbl i).toNat) img

/-! ## Four blocks -/

/-- `vaddw_s8` on a byte that was widened -/
def vaddwS8 (a : UInt8) (b : Int8) : Int16 := Int16.ofNat a.toNat + b.toInt16

/-- `vqmovun_s16` saturates to a byte. -/
def vqmovunS16 (a : Int16) : UInt8 := UInt8.ofNat (max 0 (min 255 a.toInt)).toNat

/-- `vqaddq_s8` saturates. -/
def vqaddqS8 (a b : Int8) : Int8 := Int8.ofInt (max (-128) (min 127 (a.toInt + b.toInt)))

/-- A byte lane in `dither_four_block`: `v_err_s8x16`, and `v_err_0` to `v_err_7`. -/
structure NarrowErr where
  err : Int8
  window : Window Int8

namespace NarrowErr

def init : NarrowErr := ⟨0, fun _ => 0⟩

/-- The weighted errors: 8x + 1x and 4x + 2x wrap, their sum saturates. -/
def weigh (k : Fin 8) (w : Window Int8) : Int8 :=
  let x8 := w k <<< 3
  let x1 := w (k + 1) + w (k + 2)
  let x2 := w (k + 3) + w (k + 4) + w (k + 5)
  let x4 := w (k + 6) + w (k + 7)
  vqaddqS8 (x8 + x1) (x4 <<< 2 + x2 <<< 1)

def step (m : UInt8) (k : Fin 8) (e : NarrowErr) (src : UInt8) : NarrowErr × UInt8 :=
  let dst := vqmovunS16 (vaddwS8 src e.err) &&& m
  let window := Function.update e.window k (src - dst).toInt8
  (⟨weigh k window >>> 3, window⟩, dst)

end NarrowErr

/-- The four byte lanes of one block in `dither_four_block` before a pixel. -/
structure FourState where
  k : Fin 8
  b : NarrowErr
  g : NarrowErr
  r : NarrowErr
  a : NarrowErr

namespace FourState

def init : FourState := ⟨0, .init, .init, .init, .init⟩

def step (s : FourState) (p : Pixel) : FourState × Pixel :=
  (⟨s.k + 1, (s.b.step mask.b s.k p.b).1, (s.g.step mask.g s.k p.g).1,
      (s.r.step mask.r s.k p.r).1, (s.a.step mask.a s.k p.a).1⟩,
    ⟨(s.b.step mask.b s.k p.b).2, (s.g.step mask.g s.k p.g).2, (s.r.step mask.r s.k p.r).2,
      (s.a.step mask.a s.k p.a).2⟩)

end FourState

/-- `dither_four_block` -/
def ditherFourBlock (srcPtr : Fin 4 → Nat) (offsetTbl : Fin 4 → Fin 256 → UInt16)
    (img : Sheet Nat Pixel) : Sheet Nat Pixel :=
  sweep FourState.step (n := 4) (fun _ => .init)
    ((List.finRange 256).map fun i j => srcPtr j + (offsetTbl j i).toNat) img

/-! ## Irregular blocks -/

/-- `argb &= 0xfff8fcf8` -/
def Pixel.cut (p : Pixel) : Pixel := ⟨p.b &&& mask.b, p.g &&& mask.g, p.r &&& mask.r, p.a &&& mask.a⟩

/-- The pixels of a block in `dither_irregular_block`, line by line. -/
def lines (srcPtr blkW blkH imgW : Nat) : List Nat :=
  (List.range blkH).flatMap fun i => (List.range blkW).map fun j => srcPtr + i * imgW + j

/-- `dither_irregular_block` -/
def ditherIrregularBlock (srcPtr blkW blkH imgW : Nat) (img : Sheet Nat Pixel) : Sheet Nat Pixel :=
  sweep (fun (_ : Unit) p => ((), p.cut)) (n := 1) (fun _ => ())
    ((lines srcPtr blkW blkH imgW).map fun i _ => i) img

/-! ## What a pixel becomes -/

/-- The byte nearest to a value. -/
def clamp (v : Int) : UInt8 := UInt8.ofNat (max 0 (min 255 v)).toNat

/-- The two sums of a window of errors give the next pixel of the colour the same level. -/
def RoundsAlike (m : UInt8) (k : Fin 8) (w : Window Int16) (src : UInt8) : Prop :=
  clamp (src.toNat + (NarrowErr.weigh (k - 1) (fun i => (w i).toInt8) >>> 3).toInt) &&& m =
    clamp (src.toNat + WideErr.weigh (k - 1) w >>> (3 : Nat)) &&& m

theorem toNat_clamp (v : Int) : ((clamp v).toNat : Int) = max 0 (min 255 v) := by
  have hlt : (max 0 (min 255 v)).toNat < 2 ^ 8 := by
    have : max 0 (min 255 v) ≤ 255 := by omega
    omega
  unfold clamp
  rw [UInt8.toNat_ofNat_of_lt' hlt]
  omega

/-- `CLIP8` is right for what is not too far off. -/
theorem clip8_eq {v : Int} (hlo : -65536 < v) (hhi : v ≤ 65536) :
    clip8 v = ((clamp v).toNat : Int) := by
  rw [toNat_clamp]
  unfold clip8
  have hpow : ((2 ^ 16 : Nat) : Int) = 65536 := rfl
  rw [Int.shiftRight_eq_div_pow, hpow]
  split
  · omega
  · omega

/-- A level of a colour, and the mask that cuts to the levels. -/
def Levels (shift : Nat) (m : UInt8) : Prop :=
  ∀ c : UInt8, (c.toNat : Int) >>> shift <<< shift = ((c &&& m).toNat : Int)

theorem levels_of_fin {shift : Nat} {m : UInt8} (h : ∀ n : Fin 256,
    (n.val : Int) >>> shift <<< shift = ((UInt8.ofNat n.val &&& m).toNat : Int)) :
    Levels shift m := by
  intro c
  have := h ⟨c.toNat, c.toNat_lt⟩
  rwa [UInt8.ofNat_toNat] at this

theorem levels_three : Levels 3 0xf8 := levels_of_fin (by decide +kernel)

theorem levels_two : Levels 2 0xfc := levels_of_fin (by decide +kernel)

theorem weigh_bounds (k : Fin 8) (w : Window Int16) :
    -2 ^ 18 ≤ WideErr.weigh k w ∧ WideErr.weigh k w ≤ 2 ^ 18 := by
  have hp : ∀ i, -2 ^ 15 ≤ (w i * sWeight k i).toInt ∧ (w i * sWeight k i).toInt < 2 ^ 15 :=
    fun i => ⟨Int16.le_toInt _, Int16.toInt_lt _⟩
  unfold WideErr.weigh
  have := hp 0
  have := hp 1
  have := hp 2
  have := hp 3
  have := hp 4
  have := hp 5
  have := hp 6
  have := hp 7
  dsimp only
  omega

theorem ofInt_toNat (c : UInt8) : UInt8.ofInt (c.toNat : Int) = c := by
  have hmod : ((c.toNat : Int) % 2 ^ 8).toNat = c.toNat := by
    have := c.toNat_lt
    omega
  unfold UInt8.ofInt
  rw [hmod, UInt8.ofNat_toNat]

/-- The level of a colour in the plain dither. -/
theorem WideErr.step_level {shift : Nat} {m : UInt8} (hm : Levels shift m) {e : WideErr}
    (hlo : -2 ^ 18 ≤ e.err) (hhi : e.err ≤ 2 ^ 18) (src : UInt8) :
    clip8 (src.toNat + e.err >>> (3 : Nat)) >>> shift <<< shift =
      ((clamp (src.toNat + e.err >>> (3 : Nat)) &&& m).toNat : Int) := by
  have hsrc := src.toNat_lt
  have hpow : ((2 ^ 3 : Nat) : Int) = 8 := rfl
  have hclip : clip8 (src.toNat + e.err >>> (3 : Nat)) =
      ((clamp (src.toNat + e.err >>> (3 : Nat))).toNat : Int) := by
    rw [Int.shiftRight_eq_div_pow, hpow]
    exact clip8_eq (by omega) (by omega)
  rw [hclip, hm (clamp (src.toNat + e.err >>> (3 : Nat)))]

/-- A byte of the plain dither: the byte nearest to the source and the error, cut to a level. -/
theorem WideErr.step_out {shift : Nat} {m : UInt8} (hm : Levels shift m) (k : Fin 8) {e : WideErr}
    (hlo : -2 ^ 18 ≤ e.err) (hhi : e.err ≤ 2 ^ 18) (src : UInt8) :
    (e.step shift k src).2 = clamp (src.toNat + e.err >>> (3 : Nat)) &&& m := by
  have hout : (e.step shift k src).2 =
      UInt8.ofInt (clip8 (src.toNat + e.err >>> (3 : Nat)) >>> shift <<< shift) := rfl
  rw [hout, step_level hm hlo hhi, ofInt_toNat]

/-- A byte of the vectorised dither. -/
theorem NarrowErr.step_out (m : UInt8) (k : Fin 8) (e : NarrowErr) (src : UInt8) :
    (e.step m k src).2 = clamp (src.toNat + e.err.toInt) &&& m := by
  have hsrc := src.toNat_lt
  have hadd : (vaddwS8 src e.err).toInt = src.toNat + e.err.toInt := by
    have hnat : (Int16.ofNat src.toNat).toInt = src.toNat :=
      Int16.toInt_ofNat_of_lt (by omega)
    have hlo := e.err.le_toInt
    have hhi := e.err.toInt_lt
    unfold vaddwS8
    rw [Int16.toInt_add, hnat, Int8.toInt_toInt16]
    exact Int.bmod_eq_of_le (by omega) (by omega)
  unfold step vqmovunS16
  simp only [hadd]
  rfl

/-- What dithering does to a pixel: alpha is kept, and the bits that the mask cuts are clear. -/
structure Dithered (old new : Pixel) : Prop where
  alpha : new.a = old.a
  cut : new.cut = new

theorem and_and_self (c m : UInt8) : c &&& m &&& m = c &&& m := by
  rw [UInt8.and_assoc, UInt8.and_self]

theorem and_mask_a (c : UInt8) : c &&& mask.a = c := by
  rw [← UInt8.toNat_inj, UInt8.toNat_and]
  exact Nat.and_two_pow_sub_one_of_lt_two_pow c.toNat_lt

theorem Pixel.cut_dithered (p : Pixel) : Dithered p p.cut := by
  refine ⟨and_mask_a p.a, ?_⟩
  simp only [cut, and_and_self]

/-- The errors of the colours are bounded. -/
structure SingleState.Bounded (s : SingleState) : Prop where
  b : -2 ^ 18 ≤ s.b.err ∧ s.b.err ≤ 2 ^ 18
  g : -2 ^ 18 ≤ s.g.err ∧ s.g.err ≤ 2 ^ 18
  r : -2 ^ 18 ≤ s.r.err ∧ s.r.err ≤ 2 ^ 18

theorem SingleState.bounded_init : SingleState.init.Bounded :=
  ⟨by decide, by decide, by decide⟩

theorem SingleState.bounded_step (s : SingleState) (p : Pixel) : (s.step p).1.Bounded :=
  ⟨weigh_bounds _ _, weigh_bounds _ _, weigh_bounds _ _⟩

theorem SingleState.step_dithered {s : SingleState} (h : s.Bounded) (p : Pixel) :
    Dithered p (s.step p).2 := by
  refine ⟨rfl, ?_⟩
  have hb := s.b.step_out levels_three s.k h.b.1 h.b.2 p.b
  have hg := s.g.step_out levels_two s.k h.g.1 h.g.2 p.g
  have hr := s.r.step_out levels_three s.k h.r.1 h.r.2 p.r
  simp only [step, Pixel.cut, hb, hg, hr, and_mask_a]
  simp only [mask, and_and_self]

/-- Alpha has no error. -/
structure FourState.AlphaExact (s : FourState) : Prop where
  err : s.a.err = 0
  window : ∀ i, s.a.window i = 0

theorem FourState.alphaExact_init : FourState.init.AlphaExact := ⟨rfl, fun _ => rfl⟩

theorem clamp_toNat (c : UInt8) : clamp c.toNat = c := by
  have hval := toNat_clamp c.toNat
  have := c.toNat_lt
  rw [← UInt8.toNat_inj]
  omega

theorem FourState.alpha_out {s : FourState} (h : s.AlphaExact) (p : Pixel) :
    (s.step p).2.a = p.a := by
  have hout := s.a.step_out mask.a s.k p.a
  rw [h.err, Int8.toInt_zero, Int.add_zero, clamp_toNat, and_mask_a] at hout
  exact hout

theorem NarrowErr.weigh_zero (k : Fin 8) : NarrowErr.weigh k (fun _ => 0) = 0 := by
  revert k
  decide

theorem FourState.alphaExact_step {s : FourState} (h : s.AlphaExact) (p : Pixel) :
    (s.step p).1.AlphaExact := by
  have hwindow : ∀ i, (s.step p).1.a.window i = 0 := by
    intro i
    have hdst : vqmovunS16 (vaddwS8 p.a s.a.err) &&& mask.a = p.a := alpha_out h p
    have herr : (p.a - p.a).toInt8 = 0 := by
      rw [UInt8.sub_self]
      rfl
    simp only [step, NarrowErr.step, hdst, herr]
    by_cases hi : i = s.k
    · rw [hi, Function.update_self]
    · rw [Function.update_of_ne hi, h.window]
  have hzero : (s.step p).1.a.window = fun _ => 0 := funext hwindow
  refine ⟨?_, hwindow⟩
  have herr : (s.step p).1.a.err = NarrowErr.weigh s.k (s.step p).1.a.window >>> 3 := rfl
  rw [herr, hzero, NarrowErr.weigh_zero]
  rfl

theorem FourState.step_dithered {s : FourState} (h : s.AlphaExact) (p : Pixel) :
    Dithered p (s.step p).2 := by
  refine ⟨alpha_out h p, ?_⟩
  have hb := s.b.step_out mask.b s.k p.b
  have hg := s.g.step_out mask.g s.k p.g
  have hr := s.r.step_out mask.r s.k p.r
  have ha := s.a.step_out mask.a s.k p.a
  simp only [step, Pixel.cut, hb, hg, hr, ha, and_and_self]

end SprdHal.Dither
