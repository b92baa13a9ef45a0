import Mathlib.Tactic.Ring
import SprdHal.Lib.Memory
import SprdHal.Lib.Picks

/-!
# Subsampling of preview pictures (`isp_video.c`)

A picture that is larger than the preview is halved until it fits, and `ispvideo_Scale` then copies
every second pair of samples, or every fourth and so on, of every second pair of lines. It goes
through the picture with a pointer that is only ever moved on, by skips that are computed from the
number of halvings.
-/

namespace SprdHal.Isp

open SprdHal.Lib

/-- `PREVIEW_MAX_WIDTH` -/
def previewMaxWidth : Nat := 640

/-- `PREVIEW_MAX_HEIGHT` -/
def previewMaxHeight : Nat := 480

/-- The length of the block that `preview_buf_ptr` points to. -/
def previewBufSize : Nat := previewMaxWidth * previewMaxHeight * 2

/-- A `uint32_t` that is assigned a greater number. -/
def u32 (n : Nat) : Nat := n % 4294967296

/-- The size fits the preview. -/
def Fits (w h : Nat) : Prop := w ≤ previewMaxWidth ∧ h ≤ previewMaxHeight

instance (w h : Nat) : Decidable (Fits w h) := inferInstanceAs (Decidable (_ ∧ _))

/-- The first loop: `img_w`, `img_h` and `shift_num`. -/
def halve (imgW imgH shiftNum : Nat) : Nat × Nat × Nat :=
  if Fits imgW imgH then (imgW, imgH, shiftNum)
  else halve (imgW >>> 1) (imgH >>> 1) (u32 (shiftNum <<< 1))
termination_by imgW + imgH
decreasing_by
  rename_i h
  rw [Nat.shiftRight_eq_div_pow, Nat.shiftRight_eq_div_pow]
  unfold Fits previewMaxWidth previewMaxHeight at h
  omega

/-- Two bytes are copied and `shift_num` bytes skipped. -/
def copyPair (img : Mem) (shiftNum : Nat) (c : Pointers UInt8) : Pointers UInt8 :=
  ((c.copy img).copy img).skip shiftNum

/-- `for(x=0x00; x<img_w; x+=0x02)` -/
def copyRow (img : Mem) (imgW shiftNum : Nat) (c : Pointers UInt8) : Pointers UInt8 :=
  (copyPair img shiftNum)^[(imgW + 1) / 2] c

/-- The body of the loop over the lines of the luma samples. -/
def copyLumaRows (img : Mem) (srcW imgW shiftNum : Nat) (c : Pointers UInt8) : Pointers UInt8 :=
  (copyRow img imgW shiftNum (copyRow img imgW shiftNum c)).skip (u32 (srcW * shiftNum))

/-- The body of the loop over the lines of the chroma samples. -/
def copyChromaRow (img : Mem) (srcW imgW shiftNum : Nat) (c : Pointers UInt8) : Pointers UInt8 :=
  (copyRow img imgW shiftNum c).skip (u32 (srcW * (shiftNum / 2)))

/-- What `ispvideo_Scale` returns and leaves behind. -/
structure Scaled where
  outW : Nat
  outH : Nat
  /-- `*out_imgptr` is the picture itself -/
  isInput : Bool
  /-- `none` if `*out_imglen` is not assigned -/
  outImglen : Option Nat
  /-- the buffer `*out_imgptr` points to at the beginning -/
  out : Mem
  reads : List Nat
  writes : List Nat

/-- `ispvideo_Scale`; places in the picture `img` and in the preview buffer `out` count from their
beginnings. -/
def ispvideoScale (format inW inH : Nat) (img : Mem) (inImglen : Nat) (out : Mem) : Scaled :=
  if Fits inW inH then ⟨inW, inH, true, some inImglen, out, [], []⟩
  else
    let (imgW, imgH, shiftNum) := halve inW inH 1
    if format = 2 then
      let imglen := u32 (u32 (imgW * imgH) + u32 (imgW * imgH) / 2)
      let shiftNum := u32 ((shiftNum - 1) <<< 1)
      let luma := (copyLumaRows img inW imgW shiftNum)^[(imgH + 1) / 2] ⟨0, 0, out, [], []⟩
      let chroma := (copyChromaRow img inW imgW shiftNum)^[imgH >>> 1]
        { luma with src := u32 (inW * inH), dst := u32 (imgW * imgH) }
      ⟨imgW, imgH, false, some imglen, chroma.out, chroma.reads, chroma.writes⟩
    else ⟨imgW, imgH, false, none, out, [], []⟩

/-- A picture of `w` by `h` samples, of which every `2^k`-th pair was taken from every `2^k`-th pair
of lines, the chroma pairs likewise. -/
structure Subsampled (k w h : Nat) (img : Mem) (r : Scaled) : Prop where
  outW : r.outW = w >>> k
  outH : r.outH = h >>> k
  isInput : r.isInput = false
  outImglen : r.outImglen = some (3 * (r.outW * r.outH) / 2)
  luma : ∀ x y, x < r.outW → y < r.outH → r.out (r.outW * y + x) =
    img (w * (2 ^ (k + 1) * (y / 2) + y % 2) + (2 ^ (k + 1) * (x / 2) + x % 2))
  chroma : ∀ x y c, x < r.outW / 2 → y < r.outH / 2 → c < 2 →
    r.out (r.outW * r.outH + r.outW * y + 2 * x + c) =
      img (w * h + w * (2 ^ k * y) + 2 * (2 ^ k * x) + c)
  reads : ∀ a ∈ r.reads, a < 3 * (w * h) / 2
  writes : ∀ a ∈ r.writes, a < previewBufSize

/-! ## The size -/

theorem halve_of_fits {w h s : Nat} (hf : Fits w h) : halve w h s = (w, h, s) := by
  rw [halve, if_pos hf]

/-- The picture is halved until it fits for the first time. -/
theorem halve_eq {k : Nat} {w h s : Nat} (hs : s * 2 ^ k < 4294967296)
    (hk : Fits (w >>> k) (h >>> k)) (hleast : ∀ j, j < k → ¬Fits (w >>> j) (h >>> j)) :
    halve w h s = (w >>> k, h >>> k, s * 2 ^ k) := by
  induction k generalizing w h s with
  | zero =>
    have hfits : Fits w h := hk
    rw [halve_of_fits hfits, Nat.pow_zero, Nat.mul_one]
    rfl
  | succ k ih =>
    have hstep : ∀ j, w >>> 1 >>> j = w >>> (j + 1) ∧ h >>> 1 >>> j = h >>> (j + 1) := by
      intro j
      rw [← Nat.shiftRight_add, ← Nat.shiftRight_add, Nat.add_comm]
      exact ⟨rfl, rfl⟩
    have hdouble : u32 (s <<< 1) = s * 2 := by
      rw [u32, Nat.shiftLeft_eq, Nat.pow_one]
      refine Nat.mod_eq_of_lt (Nat.lt_of_le_of_lt (Nat.mul_le_mul_left s ?_) hs)
      exact Nat.le_self_pow (Nat.succ_ne_zero k) 2
    have hpow : s * 2 * 2 ^ k = s * 2 ^ (k + 1) := by rw [Nat.pow_succ', Nat.mul_assoc]
    have hnot : ¬Fits w h := hleast 0 (Nat.succ_pos k)
    rw [halve, if_neg hnot, hdouble, ih (hpow ▸ hs), (hstep k).1, (hstep k).2,
      hpow]
    · rw [(hstep k).1, (hstep k).2]
      exact hk
    · intro j hj
      rw [(hstep j).1, (hstep j).2]
      exact hleast (j + 1) (Nat.succ_lt_succ hj)

/-! ## The loops -/

theorem mul_add_lt_mul {a b i n : Nat} (hi : i < n) (hb : b < a) : a * i + b < a * n :=
  calc a * i + b < a * (i + 1) := by rw [Nat.mul_succ]; omega
    _ ≤ a * n := Nat.mul_le_mul_left a hi

/-- Where the element with number `j` of a line is copied from, counted from the beginning of the
line; `2 * a` is the distance of two pairs. -/
def rowPlace (a j : Nat) : Nat := 2 * a * (j / 2) + j % 2

/-- The same for two lines that lie `w` apart. -/
def lumaPlace (a m w j : Nat) : Nat :=
  if j < 2 * m then rowPlace a j else w + rowPlace a (j - 2 * m)

section Loops

variable (img : Mem) {a m w : Nat} (ha : 0 < a)

include ha

theorem rowPlace_lt {j : Nat} (hj : j < 2 * m) : rowPlace a j < 2 * a * m :=
  mul_add_lt_mul (by omega) (by omega)

/-- Two lines lie within `2 * a` lines. -/
theorem lumaPlace_lt {j : Nat} (hj : j < 2 * m + 2 * m) :
    lumaPlace a m (2 * a * m) j < 2 * a * m * (2 * a) := by
  have hlines : 2 * a * m * 2 ≤ 2 * a * m * (2 * a) := Nat.mul_le_mul_left _ (by omega)
  unfold lumaPlace
  split
  · next h =>
    have := rowPlace_lt ha h
    omega
  · next h =>
    have := rowPlace_lt (m := m) (j := j - 2 * m) ha (by omega)
    omega

theorem picks_copyPair (c : Pointers UInt8) :
    Picks img 2 id (2 * a) c (copyPair img ((a - 1) * 2) c) := by
  have htwo := ((Picks.copy img c).append (Picks.copy img _)).skip ((a - 1) * 2)
  have hadv : 1 + 1 + (a - 1) * 2 = 2 * a := by omega
  rw [hadv] at htwo
  refine htwo.congr fun j hj => ?_
  rcases (by omega : j = 0 ∨ j = 1) with rfl | rfl <;> rfl

theorem picks_copyRow (c : Pointers UInt8) :
    Picks img (2 * m) (rowPlace a) (2 * a * m) c (copyRow img (2 * m) ((a - 1) * 2) c) := by
  have hcount : (2 * m + 1) / 2 = m := by omega
  have hrow := Picks.iterate (picks_copyPair img ha) m c
  rw [copyRow, hcount]
  exact hrow

variable (hw : w = 2 * a * m) (hfit : w * (2 * a) < 4294967296)

include hw hfit

theorem picks_copyLumaRows (c : Pointers UInt8) :
    Picks img (2 * m + 2 * m) (lumaPlace a m w) (w * (2 * a)) c
      (copyLumaRows img w (2 * m) ((a - 1) * 2) c) := by
  subst hw
  have hskip : u32 (2 * a * m * ((a - 1) * 2)) = 2 * a * m * ((a - 1) * 2) := by
    refine Nat.mod_eq_of_lt (Nat.lt_of_le_of_lt (Nat.mul_le_mul_left _ ?_) hfit)
    omega
  have hadv : 2 * a * m + 2 * a * m + 2 * a * m * ((a - 1) * 2) = 2 * a * m * (2 * a) := by
    obtain ⟨b, rfl⟩ : ∃ b, a = b + 1 := ⟨a - 1, by omega⟩
    rw [Nat.add_sub_cancel]
    ring
  have hrows := ((picks_copyRow img (m := m) ha c).append
    (picks_copyRow img (m := m) ha _)).skip (2 * a * m * ((a - 1) * 2))
  rw [hadv] at hrows
  rw [copyLumaRows, hskip]
  exact hrows

theorem picks_copyChromaRow (c : Pointers UInt8) :
    Picks img (2 * m) (rowPlace a) (w * a) c
      (copyChromaRow img w (2 * m) ((a - 1) * 2) c) := by
  subst hw
  have hskip : u32 (2 * a * m * ((a - 1) * 2 / 2)) = 2 * a * m * (a - 1) := by
    rw [Nat.mul_div_cancel _ (by decide)]
    refine Nat.mod_eq_of_lt (Nat.lt_of_le_of_lt (Nat.mul_le_mul_left _ ?_) hfit)
    omega
  have hadv : 2 * a * m + 2 * a * m * (a - 1) = 2 * a * m * a := by
    obtain ⟨b, rfl⟩ : ∃ b, a = b + 1 := ⟨a - 1, by omega⟩
    rw [Nat.add_sub_cancel]
    ring
  have hrow := (picks_copyRow img (m := m) ha c).skip (2 * a * m * (a - 1))
  rw [hadv] at hrow
  rw [copyChromaRow, hskip]
  exact hrow

/-- The places of the luma samples. -/
theorem picks_luma (n : Nat) (c : Pointers UInt8) :
    Picks img ((2 * m + 2 * m) * n)
      (fun j => w * (2 * a) * (j / (2 * m + 2 * m)) + lumaPlace a m w (j % (2 * m + 2 * m)))
      (w * (2 * a) * n) c ((copyLumaRows img w (2 * m) ((a - 1) * 2))^[n] c) :=
  Picks.iterate (picks_copyLumaRows img ha hw hfit) n c

/-- The places of the chroma samples. -/
theorem picks_chroma (n : Nat) (c : Pointers UInt8) :
    Picks img (2 * m * n) (fun j => w * a * (j / (2 * m)) + rowPlace a (j % (2 * m)))
      (w * a * n) c ((copyChromaRow img w (2 * m) ((a - 1) * 2))^[n] c) :=
  Picks.iterate (picks_copyChromaRow img ha hw hfit) n c

end Loops

/-! ## The picture -/

/-- The place of sample `x` of line `y`. -/
theorem lumaPlace_eq {a m w x y : Nat} (hx : x < 2 * m) :
    w * (2 * a) * ((2 * m * y + x) / (2 * m + 2 * m)) +
        lumaPlace a m w ((2 * m * y + x) % (2 * m + 2 * m)) =
      w * (2 * a * (y / 2) + y % 2) + (2 * a * (x / 2) + x % 2) := by
  have hm : 0 < 2 * m + 2 * m := by omega
  have hlt : 2 * m * (y % 2) + x < 2 * m + 2 * m := by
    rcases Nat.mod_two_eq_zero_or_one y with h | h <;> rw [h] <;> omega
  have hsplit : 2 * m * y + x = (2 * m + 2 * m) * (y / 2) + (2 * m * (y % 2) + x) := by
    conv_lhs => rw [← Nat.div_add_mod y 2]
    ring
  have hline : lumaPlace a m w (2 * m * (y % 2) + x) = w * (y % 2) + rowPlace a x := by
    unfold lumaPlace
    rcases Nat.mod_two_eq_zero_or_one y with h | h
    · rw [h, if_pos (by omega), Nat.mul_zero, Nat.mul_zero, Nat.zero_add, Nat.zero_add]
    · rw [h, if_neg (by omega), Nat.mul_one, Nat.mul_one, Nat.add_sub_cancel_left]
  rw [hsplit, Nat.mul_add_div hm, Nat.div_eq_of_lt hlt, Nat.mul_add_mod, Nat.mod_eq_of_lt hlt,
    hline, rowPlace]
  ring

/-- The place of byte `c` of chroma pair `x` of line `y`. -/
theorem chromaPlace_eq {a m w x y c : Nat} (hx : x < m) (hc : c < 2) :
    w * a * ((2 * m * y + 2 * x + c) / (2 * m)) + rowPlace a ((2 * m * y + 2 * x + c) % (2 * m)) =
      w * (a * y) + 2 * (a * x) + c := by
  have hlt : 2 * x + c < 2 * m := by omega
  have hhalf : (2 * x + c) / 2 = x ∧ (2 * x + c) % 2 = c := by omega
  rw [Nat.add_assoc (2 * m * y), Nat.mul_add_div (by omega), Nat.div_eq_of_lt hlt, Nat.mul_add_mod,
    Nat.mod_eq_of_lt hlt, rowPlace, hhalf.1, hhalf.2]
  ring

section Picture

variable {img out : Mem} {a k m n w h : Nat} (hw : w = 2 * a * m) (hh : h = 2 * a * n) (ha : 0 < a)
  {luma chroma : Pointers UInt8}
  (hl : Picks img ((2 * m + 2 * m) * n)
    (fun j => w * (2 * a) * (j / (2 * m + 2 * m)) + lumaPlace a m w (j % (2 * m + 2 * m)))
    (w * (2 * a) * n) ⟨0, 0, out, [], []⟩ luma)
  (hc : Picks img (2 * m * n) (fun j => w * a * (j / (2 * m)) + rowPlace a (j % (2 * m)))
    (w * a * n) { luma with src := w * h, dst := 2 * m * (2 * n) } chroma)

include hc

theorem chroma_out {x y c : Nat} (hx : x < m) (hy : y < n) (hc2 : c < 2) :
    chroma.out (2 * m * (2 * n) + 2 * m * y + 2 * x + c) =
      img (w * h + w * (a * y) + 2 * (a * x) + c) := by
  have hj : 2 * m * y + (2 * x + c) < 2 * m * n := mul_add_lt_mul hy (by omega)
  have hcopied := hc.copied (2 * m * y + 2 * x + c) (by omega)
  rw [chromaPlace_eq hx hc2] at hcopied
  have hdst : 2 * m * (2 * n) + 2 * m * y + 2 * x + c =
      2 * m * (2 * n) + (2 * m * y + 2 * x + c) := by omega
  have hsrc : w * h + w * (a * y) + 2 * (a * x) + c =
      w * h + (w * (a * y) + 2 * (a * x) + c) := by omega
  rw [hdst, hsrc]
  exact hcopied

include hl

theorem luma_out {x y : Nat} (hx : x < 2 * m) (hy : y < 2 * n) :
    chroma.out (2 * m * y + x) =
      img (w * (2 * a * (y / 2) + y % 2) + (2 * a * (x / 2) + x % 2)) := by
  have hcount : (2 * m + 2 * m) * n = 2 * m * (2 * n) := by ring
  have hj : 2 * m * y + x < 2 * m * (2 * n) := mul_add_lt_mul hy hx
  have hcopied := hl.copied (2 * m * y + x) (hcount ▸ hj)
  rw [lumaPlace_eq hx, Nat.zero_add, Nat.zero_add] at hcopied
  exact (hc.frame _ (Or.inl hj)).trans hcopied

include hw hh ha

theorem reads_lt {r : Nat} (hr : r ∈ chroma.reads) : r < 3 * (w * h) / 2 := by
  have hall : w * h = w * (2 * a) * n := by rw [hh, ← Nat.mul_assoc]
  have htwice : w * (2 * a) * n = 2 * (w * a * n) := by ring
  rcases hc.reads r hr with hr | ⟨j, hj, rfl⟩
  · rcases hl.reads r hr with hr | ⟨j, hj, rfl⟩
    · exact absurd hr List.not_mem_nil
    · have hm : 0 < 2 * m + 2 * m := by
        rcases Nat.eq_zero_or_pos (2 * m + 2 * m) with h | h
        · rw [h, Nat.zero_mul] at hj
          exact absurd hj (Nat.not_lt_zero j)
        · exact h
      have hline : lumaPlace a m w (j % (2 * m + 2 * m)) < w * (2 * a) := by
        rw [hw]
        exact lumaPlace_lt ha (Nat.mod_lt j hm)
      have hlt := mul_add_lt_mul (Nat.div_lt_of_lt_mul hj) hline
      show 0 + _ < _
      omega
  · have hm : 0 < 2 * m := by
      rcases Nat.eq_zero_or_pos (2 * m) with h | h
      · rw [h, Nat.zero_mul] at hj
        exact absurd hj (Nat.not_lt_zero j)
      · exact h
    have hline : rowPlace a (j % (2 * m)) < w * a := by
      have hrow : rowPlace a (j % (2 * m)) < w := by
        rw [hw]
        exact rowPlace_lt ha (Nat.mod_lt j hm)
      exact Nat.lt_of_lt_of_le hrow (Nat.le_mul_of_pos_right w ha)
    have hlt := mul_add_lt_mul (Nat.div_lt_of_lt_mul hj) hline
    show w * h + _ < _
    omega

end Picture

theorem shiftRight_of_factor (k b : Nat) : (2 * 2 ^ k * b) >>> k = 2 * b := by
  rw [Nat.shiftRight_eq_div_pow, Nat.mul_comm 2, Nat.mul_assoc]
  exact Nat.mul_div_cancel_left _ (Nat.two_pow_pos k)

/-- A picture whose size is a multiple of the distance of two pairs that are copied. -/
theorem subsampled_of_factors {img out : Mem} {k m n inImglen : Nat} {w h : Nat}
    (hw : w = 2 * 2 ^ k * m) (hh : h = 2 * 2 ^ k * n) (hm : 2 * m ≤ 640) (hn : 2 * n ≤ 480)
    (hk : k ≤ 3) (hleast : ∀ j, j < k → ¬Fits (w >>> j) (h >>> j)) (hpos : 0 < k) :
    Subsampled k w h img (ispvideoScale 2 w h img inImglen out) := by
  have hshift := shiftRight_of_factor k
  have hpow : 2 ^ k ≤ 8 := Nat.pow_le_pow_right (by decide) hk
  have hhalve : halve w h 1 = (2 * m, 2 * n, 2 ^ k) := by
    have hfits : Fits (w >>> k) (h >>> k) := by
      rw [hw, hh, hshift, hshift]
      exact ⟨hm, hn⟩
    rw [halve_eq (by omega) hfits hleast, hw, hh, hshift, hshift, Nat.one_mul]
  have hwk : 2 * m = w >>> k := by rw [hw, hshift]
  have hhk : 2 * n = h >>> k := by rw [hh, hshift]
  have ha : 0 < 2 ^ k := Nat.two_pow_pos k
  have hnot : ¬Fits w h := hleast 0 hpos
  have hwle : w ≤ 5120 := by
    rw [hw]
    exact (Nat.mul_le_mul (by omega : 2 * 2 ^ k ≤ 16) (by omega : m ≤ 320)).trans (by decide)
  have hhle : h ≤ 3840 := by
    rw [hh]
    exact (Nat.mul_le_mul (by omega : 2 * 2 ^ k ≤ 16) (by omega : n ≤ 240)).trans (by decide)
  have hwh : w * h ≤ 19660800 := (Nat.mul_le_mul hwle hhle).trans (by decide)
  have hmn : 2 * m * (2 * n) ≤ 307200 := (Nat.mul_le_mul hm hn).trans (by decide)
  have hfit : w * (2 * 2 ^ k) < 4294967296 :=
    Nat.lt_of_le_of_lt (Nat.mul_le_mul hwle (by omega : 2 * 2 ^ k ≤ 16)) (by decide)
  have hskip : u32 ((2 ^ k - 1) <<< 1) = (2 ^ k - 1) * 2 := by
    rw [u32, Nat.shiftLeft_eq]
    omega
  have hin : u32 (w * h) = w * h := Nat.mod_eq_of_lt (by omega)
  have hout : u32 (2 * m * (2 * n)) = 2 * m * (2 * n) := Nat.mod_eq_of_lt (by omega)
  have hlen : u32 (2 * m * (2 * n) + 2 * m * (2 * n) / 2) = 3 * (2 * m * (2 * n)) / 2 := by
    have heven : 2 * m * (2 * n) = 2 * (m * (2 * n)) := Nat.mul_assoc _ _ _
    rw [u32]
    omega
  have hrows : (2 * n + 1) / 2 = n := by omega
  have hchroma : (2 * n) >>> 1 = n := by
    rw [Nat.shiftRight_eq_div_pow]
    omega
  rw [ispvideoScale, if_neg hnot, hhalve]
  simp only [if_pos, hskip, hin, hout, hlen, hrows, hchroma]
  have hl := picks_luma img ha hw hfit n ⟨0, 0, out, [], []⟩
  generalize (copyLumaRows img w (2 * m) ((2 ^ k - 1) * 2))^[n] ⟨0, 0, out, [], []⟩ = luma at hl ⊢
  have hc := picks_chroma img ha hw hfit n
    { luma with src := w * h, dst := 2 * m * (2 * n) }
  generalize (copyChromaRow img w (2 * m) ((2 ^ k - 1) * 2))^[n]
    { luma with src := w * h, dst := 2 * m * (2 * n) } = chroma at hc ⊢
  refine ⟨hwk, hhk, rfl, rfl, ?_, ?_, ?_, ?_⟩
  · intro x y hx hy
    rw [Nat.pow_succ']
    exact luma_out hl hc hx hy
  · intro x y c hx hy hc2
    have hx : x < 2 * m / 2 := hx
    have hy : y < 2 * n / 2 := hy
    exact chroma_out hc (by omega) (by omega) hc2
  · exact fun r hr => reads_lt hw hh ha hl hc hr
  · intro v hv
    have hsize : 2 * m * n ≤ 153600 := by
      have htwice : 2 * m * (2 * n) = 2 * (2 * m * n) := by ring
      omega
    have hcount : (2 * m + 2 * m) * n = 2 * m * (2 * n) := by ring
    unfold previewBufSize previewMaxWidth previewMaxHeight
    rcases hc.writes v hv with hv | ⟨j, hj, rfl⟩
    · rcases hl.writes v hv with hv | ⟨j, hj, rfl⟩
      · exact absurd hv List.not_mem_nil
      · show 0 + j < _
        omega
    · show 2 * m * (2 * n) + j < _
      omega

/-- **The preview picture** of a picture that is too large, in the format of the preview. -/
theorem ispvideoScale_subsampled (w h : Nat) (img out : Mem) (inImglen k : Nat) (hw : 16 ∣ w)
    (hh : 16 ∣ h) (hwle : w ≤ 5120) (hhle : h ≤ 3840) (hlarge : 640 < w ∨ 480 < h)
    (hk : w >>> k ≤ 640 ∧ h >>> k ≤ 480)
    (hleast : ∀ j, j < k → ¬(w >>> j ≤ 640 ∧ h >>> j ≤ 480)) :
    Subsampled k w h img (ispvideoScale 2 w h img inImglen out) := by
  have hpos : 0 < k := by
    refine Nat.pos_of_ne_zero fun h0 => ?_
    rw [h0] at hk
    have : w ≤ 640 ∧ h ≤ 480 := hk
    omega
  have hk3 : k ≤ 3 := by
    refine Nat.le_of_not_lt fun hlt => hleast 3 hlt ?_
    rw [Nat.shiftRight_eq_div_pow, Nat.shiftRight_eq_div_pow]
    omega
  have hdvd : 2 * 2 ^ k ∣ 16 := by
    rw [← Nat.pow_succ']
    exact Nat.pow_dvd_pow 2 (Nat.succ_le_succ hk3)
  obtain ⟨m, hm⟩ := hdvd.trans hw
  obtain ⟨n, hn⟩ := hdvd.trans hh
  have hwk := hk.1
  have hhk := hk.2
  rw [hm, shiftRight_of_factor] at hwk
  rw [hn, shiftRight_of_factor] at hhk
  exact subsampled_of_factors hm hn hwk hhk hk3 hleast hpos

/-- The largest picture. -/
theorem subsampled_5120x3840 :
    Subsampled 3 5120 3840 UInt8.ofNat
      (ispvideoScale 2 5120 3840 UInt8.ofNat 29491200 fun _ => 0) :=
  ispvideoScale_subsampled 5120 3840 UInt8.ofNat (fun _ => 0) 29491200 3 (by decide) (by decide)
    (by decide) (by decide) (by decide) (by decide) (by decide)

end SprdHal.Isp
