import Mathlib.Data.List.Basic
import Mathlib.Data.Nat.Bitwise
import Mathlib.Tactic.Common
import SprdHal.Calibration.Bayer

/-!
# Unpacking RAW10 (`isp_cali_interface.c`)

Four samples of ten bits are packed into five bytes, their high bytes and one byte of low bits.
`ISP_Cali_UnCompressedPacket` copies the packed bytes to a temporary buffer, the bytes of each word
in reverse order if `edn_type` is 1, and unpacks them from there. The buffer has
`width * width * 2` bytes where `width * height * 5 / 4` are needed: an image that is too tall for its
width runs over it (`unCompressedPacket_iff`).
-/

namespace SprdHal.Calibration

/-- The number of samples of an image. -/
def IspSize.samples (s : IspSize) : Nat := s.width.toNat * s.height.toNat

/-- A number as an `int`. -/
def asInt (n : Nat) : Int :=
  if n % 2 ^ 32 < 2 ^ 31 then (n % 2 ^ 32 : Nat) else (n % 2 ^ 32 : Nat) - 2 ^ 32

/-- `img_size.width * img_size.width *2` -/
def tmpLength (s : IspSize) : Nat := 2 * (s.width.toNat * s.width.toNat) % 2 ^ 32

/-- `img_size.width * img_size.height *5 /4`: a product of `int`, and what is left of it in a
`uint32_t`. -/
def packedLength (s : IspSize) : Nat := ((asInt (5 * s.samples)).tdiv 4 % 2 ^ 32).toNat

/-! ## The copy -/

/-- The loop for `edn_type` 1 in so many rounds. There is no result if it reads behind the source. -/
def reverseWords : Nat → List UInt8 → Option (List UInt8)
  | 0, _ => some []
  | n + 1, val0 :: val1 :: val2 :: val3 :: src =>
    (reverseWords n src).map ([val3, val2, val1, val0] ++ ·)
  | _ + 1, _ => none

/-- What is copied to `tmp_buf`. -/
def copied (edn : UInt32) (length : Nat) (src : List UInt8) : Option (List UInt8) :=
  if edn = 0 then if length ≤ src.length then some (src.take length) else none
  else if edn = 1 then reverseWords ((length + 3) / 4) src
  else some []

/-- `tmp_buf`, which was set to zero, after bytes are written to it from its start. -/
def fillTmp (size : Nat) (bytes : List UInt8) : Option (List UInt8) :=
  if bytes.length ≤ size then some (bytes ++ List.replicate (size - bytes.length) 0) else none

/-! ## The unpacking -/

/-- `(val0<<2)|((val4>>shift)&0x03)` -/
def sample (hi val4 : UInt8) (shift : UInt8) : UInt16 :=
  hi.toUInt16 <<< 2 ||| ((val4 >>> shift) &&& 3).toUInt16

/-- The loop over groups of five bytes, in so many rounds. -/
def unpack : Nat → List UInt8 → Option (List UInt16)
  | 0, _ => some []
  | n + 1, val0 :: val1 :: val2 :: val3 :: val4 :: buf =>
    (unpack n buf).map
      ([sample val0 val4 0, sample val1 val4 2, sample val2 val4 4, sample val3 val4 6] ++ ·)
  | _ + 1, _ => none

/-- What the function leaves: how many bytes of the source it has read, and the destination. -/
structure Unpacked where
  read : Nat
  dst : List UInt16
  deriving DecidableEq

/-- `ISP_Cali_UnCompressedPacket` with a `malloc` that succeeds, for a destination of
`width * height` samples. There is no result if it leaves the source, its buffer or the
destination. -/
def unCompressedPacket (s : IspSize) (edn : UInt32) (src : List UInt8) : Option Unpacked := do
  let bytes ← copied edn (packedLength s) src
  let tmp ← fillTmp (tmpLength s) bytes
  let dst ← unpack ((s.samples + 3) / 4) tmp
  if dst.length ≤ s.samples then return ⟨bytes.length, dst⟩ else none

/-! ## The packing -/

/-- Four samples: their high bytes, and their low bits. -/
def pack4 (a b c d : Fin 1024) : List UInt8 :=
  [UInt8.ofNat (a / 4), UInt8.ofNat (b / 4), UInt8.ofNat (c / 4), UInt8.ofNat (d / 4),
    UInt8.ofNat (a % 4 + 4 * (b % 4) + 16 * (c % 4) + 64 * (d % 4))]

/-- MIPI RAW10 -/
def pack : List (Fin 1024) → List UInt8
  | a :: b :: c :: d :: rest => pack4 a b c d ++ pack rest
  | _ => []

/-- The bytes of each word in reverse order. -/
def byteReversed : List UInt8 → List UInt8
  | a :: b :: c :: d :: rest => d :: c :: b :: a :: byteReversed rest
  | rest => rest

/-- The samples as the destination has them. -/
def words (image : List (Fin 1024)) : List UInt16 := image.map fun x : Fin 1024 => UInt16.ofNat x

/-- The source of an image. -/
def packedImage (edn : UInt32) (image : List (Fin 1024)) : List UInt8 :=
  if edn = 1 then byteReversed (pack image) else pack image

/-- The order of the bytes is one that is copied. -/
def Ordered (s : IspSize) (edn : UInt32) : Prop := edn = 0 ∨ edn = 1 ∨ s.samples = 0

/-- The lengths are computed right, and the packed image fits the temporary buffer. -/
def Fits (s : IspSize) : Prop :=
  (5 * s.samples < 2 ^ 31 ∨ 2 ^ 34 - 2 ^ 31 ≤ 5 * s.samples ∧ 5 * s.samples < 2 ^ 34) ∧
    5 * s.samples / 4 ≤ tmpLength s

/-! ## Lengths -/

/-- A quarter of an `int` that is a multiple of 16, in a word. -/
theorem quarter_asInt {t : Nat} (h : t < 2 ^ 28) :
    ((asInt (16 * t)).tdiv 4 % 2 ^ 32).toNat =
      if 16 * t < 2 ^ 31 then 4 * t else 4 * t + 3 * 2 ^ 30 := by
  have hword : 16 * t % 2 ^ 32 = 16 * t := by omega
  rw [asInt, hword]
  by_cases hsmall : 16 * t < 2 ^ 31
  · rw [if_pos hsmall, if_pos hsmall]
    have hfour : ((16 * t : Nat) : Int) = 4 * (4 * t : Nat) := by omega
    rw [hfour, Int.mul_tdiv_cancel_left _ (by decide)]
    omega
  · rw [if_neg hsmall, if_neg hsmall]
    have hfour : ((16 * t : Nat) : Int) - 2 ^ 32 = 4 * ((4 * t : Nat) - 2 ^ 30) := by omega
    rw [hfour, Int.mul_tdiv_cancel_left _ (by decide)]
    omega

theorem asInt_congr {a b : Nat} (h : a % 2 ^ 32 = b % 2 ^ 32) : asInt a = asInt b := by
  rw [asInt, asInt, h]

theorem packedLength_eq {s : IspSize} {q t : Nat} (h : 5 * s.samples = 2 ^ 32 * q + 16 * t)
    (ht : t < 2 ^ 28) :
    packedLength s = if 16 * t < 2 ^ 31 then 4 * t else 4 * t + 3 * 2 ^ 30 := by
  have hword : 5 * s.samples % 2 ^ 32 = 16 * t % 2 ^ 32 := by omega
  rw [packedLength, asInt_congr hword, quarter_asInt ht]

/-- The product in multiples of 16. -/
theorem exists_five_samples {s : IspSize} (h : 16 ∣ s.samples) :
    ∃ q t, 5 * s.samples = 2 ^ 32 * q + 16 * t ∧ t < 2 ^ 28 ∧ q < 5 := by
  obtain ⟨m, hm⟩ := h
  have hlt : s.samples < 2 ^ 32 := by
    have hw := s.width.toNat_lt
    have hh := s.height.toNat_lt
    calc s.samples ≤ 65535 * 65535 := Nat.mul_le_mul (by omega) (by omega)
      _ < 2 ^ 32 := by decide
  exact ⟨5 * m / 2 ^ 28, 5 * m % 2 ^ 28, by omega, by omega, by omega⟩

/-- The number of packed bytes is computed right up to the largest `int`, and by chance below
2 ^ 34. -/
theorem packedLength_eq_iff {s : IspSize} (h : 16 ∣ s.samples) :
    packedLength s = 5 * s.samples / 4 ↔
      5 * s.samples < 2 ^ 31 ∨ 2 ^ 34 - 2 ^ 31 ≤ 5 * s.samples ∧ 5 * s.samples < 2 ^ 34 := by
  obtain ⟨q, t, hqt, ht, hq⟩ := exists_five_samples h
  rw [packedLength_eq hqt ht]
  by_cases hsmall : 16 * t < 2 ^ 31
  · rw [if_pos hsmall]
    omega
  · rw [if_neg hsmall]
    omega

theorem packedLength_dvd {s : IspSize} (h : 16 ∣ s.samples) : 4 ∣ packedLength s := by
  obtain ⟨q, t, hqt, ht, -⟩ := exists_five_samples h
  rw [packedLength_eq hqt ht]
  by_cases hsmall : 16 * t < 2 ^ 31
  · rw [if_pos hsmall]
    omega
  · rw [if_neg hsmall]
    omega

/-! ## Samples -/

theorem toNat_sample {hi val4 shift : UInt8} (hs : shift.toNat < 8) :
    (sample hi val4 shift).toNat = 4 * hi.toNat + val4.toNat / 2 ^ shift.toNat % 4 := by
  have hlow : ((val4 >>> shift) &&& 3).toUInt16.toNat = val4.toNat / 2 ^ shift.toNat % 4 := by
    rw [UInt8.toNat_toUInt16, UInt8.toNat_and, UInt8.toNat_shiftRight, Nat.mod_eq_of_lt hs,
      Nat.shiftRight_eq_div_pow]
    exact Nat.and_two_pow_sub_one_eq_mod _ 2
  have hhigh : (hi.toUInt16 <<< 2).toNat = hi.toNat <<< 2 := by
    have hlt := hi.toNat_lt
    rw [UInt16.toNat_shiftLeft, UInt8.toNat_toUInt16, Nat.shiftLeft_eq]
    have hshift : hi.toNat * 2 ^ 2 < 2 ^ 16 := by omega
    rw [Nat.shiftLeft_eq]
    exact Nat.mod_eq_of_lt hshift
  rw [sample, UInt16.toNat_or, hlow, hhigh, ← Nat.shiftLeft_add_eq_or_of_lt (Nat.mod_lt _ (by decide)),
    Nat.shiftLeft_eq, Nat.mul_comm]

/-- The samples of a group are unpacked. -/
theorem unpack_pack4 (a b c d : Fin 1024) (n : Nat) (buf : List UInt8) :
    unpack (n + 1) (pack4 a b c d ++ buf) = (unpack n buf).map
      ([UInt16.ofNat a, UInt16.ofNat b, UInt16.ofNat c, UInt16.ofNat d] ++ ·) := by
  have hsample (x : Fin 1024) (shift : UInt8) (hs : shift.toNat < 8)
      (hlow : (a % 4 + 4 * (b % 4) + 16 * (c % 4) + 64 * (d % 4) : Nat) / 2 ^ shift.toNat % 4 = x % 4) :
      sample (UInt8.ofNat (x / 4))
        (UInt8.ofNat (a % 4 + 4 * (b % 4) + 16 * (c % 4) + 64 * (d % 4))) shift = UInt16.ofNat x := by
    have hx := x.isLt
    have hhigh : (x / 4 : Nat) < 2 ^ 8 := by omega
    have hval4 : (a % 4 + 4 * (b % 4) + 16 * (c % 4) + 64 * (d % 4) : Nat) < 2 ^ 8 := by omega
    have hword : (x : Nat) < 2 ^ 16 := by omega
    apply UInt16.toNat.inj
    rw [toNat_sample hs, UInt8.toNat_ofNat_of_lt' hhigh, UInt8.toNat_ofNat_of_lt' hval4, hlow,
      UInt16.toNat_ofNat_of_lt' hword]
    omega
  rw [pack4]
  simp only [List.cons_append, List.nil_append, unpack]
  rw [hsample a 0 (by decide) (by simp; omega), hsample b 2 (by decide) (by simp; omega),
    hsample c 4 (by decide) (by simp; omega), hsample d 6 (by decide) (by simp; omega)]

/-- **Unpacking** is the inverse of packing; what lies behind is not looked at. -/
theorem unpack_pack {image : List (Fin 1024)} {n : Nat} (h : image.length = 4 * n)
    (rest : List UInt8) :
    unpack n (pack image ++ rest) = some (words image) := by
  induction n generalizing image with
  | zero =>
    rw [List.eq_nil_of_length_eq_zero h]
    rfl
  | succ n ih =>
    match image with
    | a :: b :: c :: d :: image =>
      have hlen : image.length = 4 * n := by
        simp only [List.length_cons] at h
        omega
      rw [pack, List.append_assoc, unpack_pack4, ih hlen]
      rfl
    | [] | [_] | [_, _] | [_, _, _] =>
      simp only [List.length_cons, List.length_nil] at h
      omega

/-- Five bytes are read for each group. -/
theorem unpack_isSome_iff (n : Nat) (buf : List UInt8) :
    (unpack n buf).isSome ↔ 5 * n ≤ buf.length := by
  induction n generalizing buf with
  | zero => simp [unpack]
  | succ n ih =>
    match buf with
    | _ :: _ :: _ :: _ :: _ :: buf =>
      rw [unpack, Option.isSome_map, ih]
      simp only [List.length_cons]
      omega
    | [] | [_] | [_, _] | [_, _, _] | [_, _, _, _] =>
      simp only [unpack, Option.isSome_none, List.length_cons, List.length_nil, Bool.false_eq_true,
        false_iff]
      omega

theorem length_pack {image : List (Fin 1024)} {n : Nat} (h : image.length = 4 * n) :
    (pack image).length = 5 * n := by
  induction n generalizing image with
  | zero =>
    rw [List.eq_nil_of_length_eq_zero h]
    rfl
  | succ n ih =>
    match image with
    | a :: b :: c :: d :: image =>
      have hlen : image.length = 4 * n := by
        simp only [List.length_cons] at h
        omega
      rw [pack, List.length_append, ih hlen]
      simp only [pack4, List.length_cons, List.length_nil]
      omega
    | [] | [_] | [_, _] | [_, _, _] =>
      simp only [List.length_cons, List.length_nil] at h
      omega

/-! ## Words -/

theorem length_byteReversed (src : List UInt8) : (byteReversed src).length = src.length := by
  induction src using byteReversed.induct with
  | case1 a b c d rest ih => simp only [byteReversed, List.length_cons, ih]
  | case2 rest h => rw [byteReversed.eq_2 rest h]

/-- **The copy of reversed words** puts them right. -/
theorem reverseWords_byteReversed {src : List UInt8} {n : Nat} (h : 4 * n ≤ src.length) :
    reverseWords n (byteReversed src) = some (src.take (4 * n)) := by
  induction n generalizing src with
  | zero => rfl
  | succ n ih =>
    match src with
    | a :: b :: c :: d :: rest =>
      have hlen : 4 * n ≤ rest.length := by
        simp only [List.length_cons] at h
        omega
      rw [byteReversed, reverseWords, ih hlen]
      rfl
    | [] | [_] | [_, _] | [_, _, _] =>
      simp only [List.length_cons, List.length_nil] at h
      omega

theorem reverseWords_isSome_iff (n : Nat) (src : List UInt8) :
    (reverseWords n src).isSome ↔ 4 * n ≤ src.length := by
  induction n generalizing src with
  | zero => simp [reverseWords]
  | succ n ih =>
    match src with
    | _ :: _ :: _ :: _ :: src =>
      rw [reverseWords, Option.isSome_map, ih]
      simp only [List.length_cons]
      omega
    | [] | [_] | [_, _] | [_, _, _] =>
      simp only [reverseWords, Option.isSome_none, List.length_cons, List.length_nil,
        Bool.false_eq_true, false_iff]
      omega

/-- Either copy leaves the packed bytes in their order. -/
theorem copied_packedImage {edn : UInt32} {image : List (Fin 1024)} {length : Nat}
    (hedn : edn = 0 ∨ edn = 1) (hlength : 4 ∣ length) :
    copied edn length (packedImage edn image) =
      if length ≤ (pack image).length then some ((pack image).take length) else none := by
  rcases hedn with rfl | rfl
  · rfl
  · have hrounds : 4 * ((length + 3) / 4) = length := by omega
    have hcopied : copied 1 length (packedImage 1 image) =
        reverseWords ((length + 3) / 4) (byteReversed (pack image)) := rfl
    rw [hcopied]
    by_cases hle : length ≤ (pack image).length
    · rw [if_pos hle, reverseWords_byteReversed (by omega), hrounds]
    · rw [if_neg hle, ← Option.not_isSome_iff_eq_none, reverseWords_isSome_iff, length_byteReversed]
      omega

/-! ## The image -/

/-- With its bytes in the buffer, the image is restored. -/
theorem unCompressedPacket_of_fits {s : IspSize} {edn : UInt32} {image : List (Fin 1024)}
    (hedn : edn = 0 ∨ edn = 1) (h : 16 ∣ s.samples) (himage : image.length = s.samples)
    (hfits : Fits s) :
    unCompressedPacket s edn (packedImage edn image) =
      some ⟨5 * s.samples / 4, words image⟩ := by
  obtain ⟨m, hm⟩ := h
  have hrounds : image.length = 4 * ((s.samples + 3) / 4) := by omega
  have hlen : (pack image).length = 5 * s.samples / 4 := by
    rw [length_pack hrounds]
    omega
  have hpacked : packedLength s = (pack image).length := by
    rw [hlen]
    exact (packedLength_eq_iff ⟨m, hm⟩).mpr hfits.1
  have hcopied : copied edn (packedLength s) (packedImage edn image) = some (pack image) := by
    rw [copied_packedImage hedn (packedLength_dvd ⟨m, hm⟩), hpacked, if_pos le_rfl, List.take_length]
  have hfill : fillTmp (tmpLength s) (pack image) =
      some (pack image ++ List.replicate (tmpLength s - (pack image).length) 0) :=
    if_pos (hlen ▸ hfits.2)
  have hdst : (words image).length ≤ s.samples := by
    rw [words, List.length_map, himage]
  simp only [unCompressedPacket, hcopied, hfill, unpack_pack hrounds, Option.bind_eq_bind,
    Option.bind_some, if_pos hdst, hlen]
  rfl

/-- A run that restores the image has computed the lengths right and had the room. -/
theorem fits_of_unCompressedPacket {s : IspSize} {edn : UInt32} {image : List (Fin 1024)}
    {dst : List UInt16} (hedn : edn = 0 ∨ edn = 1) (h : 16 ∣ s.samples)
    (hrun : unCompressedPacket s edn (packedImage edn image) = some ⟨5 * s.samples / 4, dst⟩) :
    Fits s := by
  simp only [unCompressedPacket, Option.bind_eq_bind, Option.bind_eq_some_iff] at hrun
  obtain ⟨bytes, hcopied, tmp, hfill, words, -, hread⟩ := hrun
  have hbytes : bytes.length = 5 * s.samples / 4 := by
    split at hread
    · exact congrArg Unpacked.read (Option.some.inj hread)
    · cases hread
  rw [copied_packedImage hedn (packedLength_dvd h)] at hcopied
  split at hcopied
  case isFalse => cases hcopied
  case isTrue hle =>
    cases hcopied
    rw [List.length_take, Nat.min_eq_left hle] at hbytes
    rw [fillTmp, List.length_take, Nat.min_eq_left hle] at hfill
    split at hfill
    case isFalse => cases hfill
    case isTrue hroom => exact ⟨(packedLength_eq_iff h).mp hbytes, hbytes ▸ hroom⟩

/-- Nothing is copied in any other order. -/
theorem unCompressedPacket_other {s : IspSize} {edn : UInt32} {src : List UInt8} {u : Unpacked}
    (h₀ : edn ≠ 0) (h₁ : edn ≠ 1) (hrun : unCompressedPacket s edn src = some u) : u.read = 0 := by
  have hcopied : copied edn (packedLength s) src = some [] := by rw [copied, if_neg h₀, if_neg h₁]
  simp only [unCompressedPacket, hcopied, Option.bind_eq_bind, Option.bind_some,
    Option.bind_eq_some_iff] at hrun
  obtain ⟨tmp, -, dst, -, hread⟩ := hrun
  split at hread
  · rw [← Option.some.inj hread]
    rfl
  · cases hread

theorem unCompressedPacket_empty {s : IspSize} (edn : UInt32) (h : s.samples = 0) :
    unCompressedPacket s edn [] = some ⟨5 * s.samples / 4, []⟩ := by
  have hlength : packedLength s = 0 := by
    rw [packedLength, h]
    rfl
  have hcopied : copied edn 0 [] = some [] := by simp [copied, reverseWords]
  have hfill : fillTmp (tmpLength s) [] = some (List.replicate (tmpLength s) 0) :=
    if_pos (Nat.zero_le _)
  simp only [unCompressedPacket, hlength, hcopied, hfill, h, Option.bind_eq_bind, Option.bind_some]
  rfl

/-- **Unpacking restores what was packed**, reading exactly its bytes and inside the temporary
buffer, if and only if the buffer, sized by the width alone, has room for them. -/
theorem unCompressedPacket_iff (s : IspSize) (edn : UInt32) (image : List (Fin 1024))
    (h : 16 ∣ s.samples) (himage : image.length = s.samples) :
    unCompressedPacket s edn (packedImage edn image) =
      some ⟨5 * s.samples / 4, words image⟩ ↔ Ordered s edn ∧ Fits s := by
  by_cases hedn : edn = 0 ∨ edn = 1
  · have hordered : Ordered s edn := hedn.elim .inl fun h => .inr (.inl h)
    exact ⟨fun hrun => ⟨hordered, fits_of_unCompressedPacket hedn h hrun⟩, fun hfits =>
      unCompressedPacket_of_fits hedn h himage hfits.2⟩
  · obtain ⟨h₀, h₁⟩ := not_or.mp hedn
    constructor
    · intro hrun
      have hread : 5 * s.samples / 4 = 0 := unCompressedPacket_other h₀ h₁ hrun
      have hzero : s.samples = 0 := by omega
      exact ⟨.inr (.inr hzero), by rw [Fits, hzero]; omega⟩
    · rintro ⟨hordered | hordered | hzero, -⟩
      · exact absurd hordered h₀
      · exact absurd hordered h₁
      · have hnil : image = [] := List.eq_nil_of_length_eq_zero (himage.trans hzero)
        have hsrc : packedImage edn image = [] := by
          rw [packedImage, if_neg h₁, hnil]
          rfl
        rw [hsrc, hnil]
        exact unCompressedPacket_empty edn hzero

theorem unCompressedPacket_four_by_four :
    unCompressedPacket ⟨4, 4⟩ 1 (packedImage 1 (List.replicate 16 1023)) =
      some ⟨20, words (List.replicate 16 1023)⟩ ↔ Ordered ⟨4, 4⟩ 1 ∧ Fits ⟨4, 4⟩ :=
  unCompressedPacket_iff ⟨4, 4⟩ 1 (List.replicate 16 1023) (by decide) (by decide)

/-- An image of 4 by 8 needs 40 bytes of a buffer of 32. -/
theorem tall_image_leaves_buffer :
    unCompressedPacket ⟨4, 8⟩ 0 (packedImage 0 (List.replicate 32 0)) = none := by
  decide

end SprdHal.Calibration
