import SprdHal.Exif.Layout
import Mathlib.Data.List.TakeWhile

/-!
# What a reader finds in one block

The value of an entry goes through the memory of the target, one of the four writers, and the reader.
For each pair of a writer and a type that belong together, the reader finds the value that was in
memory. Two pairs of the source do not belong together: the size of the picture loses its upper half
(`item_imageSize`), and the words of the subject area change places (`item_swapped`).
-/

namespace SprdHal.Exif

open Lib

/-! ## Words in memory -/

section Words

theorem leShort_leShortBytes (w : UInt16) (r : List UInt8) : leShort (leShortBytes w ++ r) 0 = w := by
  have hw := w.toNat_lt
  apply UInt16.toNat_inj.mp
  show (ofBytes2 (UInt8.ofNat (w.toNat / 256)) (UInt8.ofNat w.toNat)).toNat = w.toNat
  simp only [ofBytes2, UInt16.toNat_ofNat', UInt8.toNat_ofNat']
  omega

theorem leShort_append (w : UInt16) (r : List UInt8) (i : Nat) :
    leShort (leShortBytes w ++ r) (i + 2) = leShort r i := rfl

theorem leWord_leBytes_append (l : UInt32) (r : List UInt8) : leWord (leBytes l ++ r) 0 = l :=
  leWord_leBytes [] l r

theorem leShort_leBytes_low (l : UInt32) :
    leShort (leBytes l) 0 = UInt16.ofNat (l.toNat % 65536) := by
  apply UInt16.toNat_inj.mp
  show (ofBytes2 (UInt8.ofNat (l.toNat / 256)) (UInt8.ofNat l.toNat)).toNat = _
  simp only [ofBytes2, UInt16.toNat_ofNat', UInt8.toNat_ofNat']
  omega

theorem leShort_leBytes_high (l : UInt32) :
    leShort (leBytes l) 2 = UInt16.ofNat (l.toNat / 65536) := by
  have hl := l.toNat_lt
  apply UInt16.toNat_inj.mp
  show (ofBytes2 (UInt8.ofNat (l.toNat / 16777216)) (UInt8.ofNat (l.toNat / 65536))).toNat = _
  simp only [ofBytes2, UInt16.toNat_ofNat', UInt8.toNat_ofNat']
  omega

/-- Words are read from memory as they were put there. -/
theorem shortsAt_flatMap (ws : List UInt16) : shortsAt (ws.flatMap leShortBytes) ws.length = ws := by
  induction ws with
  | nil => rfl
  | cons w ws ih =>
    unfold shortsAt at ih ⊢
    rw [List.flatMap_cons, List.length_cons, List.range_succ_eq_map, List.map_cons, List.map_map,
      Nat.mul_zero, leShort_leShortBytes]
    congr 1

theorem longsAt_flatMap (ls : List UInt32) : longsAt (ls.flatMap leBytes) ls.length = ls := by
  induction ls with
  | nil => rfl
  | cons l ls ih =>
    unfold longsAt at ih ⊢
    rw [List.flatMap_cons, List.length_cons, List.range_succ_eq_map, List.map_cons, List.map_map,
      Nat.mul_zero, leWord_leBytes_append]
    congr 1

theorem length_flatMap_beShort (ws : List UInt16) : (ws.flatMap beShort).length = 2 * ws.length := by
  induction ws with
  | nil => rfl
  | cons w ws ih =>
    rw [List.flatMap_cons, List.length_append, ih, length_beShort, List.length_cons]
    omega

theorem length_flatMap_beLong (ls : List UInt32) : (ls.flatMap beLong).length = 4 * ls.length := by
  induction ls with
  | nil => rfl
  | cons l ls ih =>
    rw [List.flatMap_cons, List.length_append, ih, length_beLong, List.length_cons]
    omega

@[simp] theorem length_shortsAt (bs : List UInt8) (n : Nat) : (shortsAt bs n).length = n := by
  rw [shortsAt, List.length_map, List.length_range]

@[simp] theorem length_longsAt (bs : List UInt8) (n : Nat) : (longsAt bs n).length = n := by
  rw [longsAt, List.length_map, List.length_range]

/-- A long word in the file is its two halves. -/
theorem beLong_halves (hi lo : UInt16) :
    beLong (UInt32.ofNat (hi.toNat * 65536 + lo.toNat)) = beShort hi ++ beShort lo := by
  have hh := hi.toNat_lt
  have hl := lo.toNat_lt
  have hn : (UInt32.ofNat (hi.toNat * 65536 + lo.toNat)).toNat = hi.toNat * 65536 + lo.toNat := by
    rw [UInt32.toNat_ofNat']
    exact Nat.mod_eq_of_lt (by omega)
  have e1 : (hi.toNat * 65536 + lo.toNat) / 16777216 = hi.toNat / 256 := by omega
  have e2 : (hi.toNat * 65536 + lo.toNat) / 65536 = hi.toNat := by omega
  have e3 : UInt8.ofNat ((hi.toNat * 65536 + lo.toNat) / 256) = UInt8.ofNat (lo.toNat / 256) := by
    apply UInt8.toNat_inj.mp
    rw [UInt8.toNat_ofNat', UInt8.toNat_ofNat']
    omega
  have e4 : UInt8.ofNat (hi.toNat * 65536 + lo.toNat) = UInt8.ofNat lo.toNat := by
    apply UInt8.toNat_inj.mp
    rw [UInt8.toNat_ofNat', UInt8.toNat_ofNat']
    omega
  unfold beLong
  rw [hn, e1, e2, e3, e4]
  rfl

/-- A long word in memory is its two halves, the lower one first. -/
theorem leWord_halves (bs : List UInt8) (i : Nat) :
    leWord bs i =
      UInt32.ofNat ((leShort bs (i + 2)).toNat * 65536 + (leShort bs i).toNat) := by
  have h0 := (bs.getD i 0).toNat_lt
  have h1 := (bs.getD (i + 1) 0).toNat_lt
  have h2 := (bs.getD (i + 2) 0).toNat_lt
  have h3 := (bs.getD (i + 3) 0).toNat_lt
  apply UInt32.toNat_inj.mp
  simp only [leWord, leShort, ofBytes2, UInt32.toNat_ofNat', UInt16.toNat_ofNat']
  rw [show i + 2 + 1 = i + 3 from rfl]
  omega

end Words

/-! ## Good blocks -/

section Good

variable {b : Block}

/-- A value that does not fit is represented by the offset. -/
theorem offsetValue_of_large (info : IfdInfo) (h : 4 < info.count * info.type.size) :
    info.offsetValue = leWord info.valueOffset 0 := by
  obtain ⟨tag, type, count, u, value⟩ := info
  unfold IfdInfo.offsetValue
  cases type with
  | byte => exact if_neg (by simp only [TiffType.size] at h ⊢; omega)
  | ascii => exact if_neg (by simp only [TiffType.size] at h ⊢; omega)
  | undefined => exact if_neg (by simp only [TiffType.size] at h ⊢; omega)
  | short => exact if_neg (by simp only [TiffType.size] at h ⊢; omega)
  | long => rfl
  | slong => rfl
  | rational => rfl
  | srational => rfl

/-- One or two words are the two halves of the value. -/
theorem offsetValue_short (info : IfdInfo) (ht : info.type = .short) (h : info.count ≤ 2) :
    info.offsetValue = UInt32.ofNat ((leShort info.valueOffset 0).toNat * 65536 +
      (leShort info.valueOffset 2).toNat) := by
  obtain ⟨tag, type, count, u, value⟩ := info
  subst ht
  exact if_pos h

/-- Up to four bytes are the bytes of the value. -/
theorem offsetValue_byte {info : IfdInfo} (ht : info.type.size = 1) (h : info.count ≤ 4) :
    info.offsetValue = ofBytes4 (info.valueOffset.getD 0 0) (info.valueOffset.getD 1 0)
      (info.valueOffset.getD 2 0) (info.valueOffset.getD 3 0) := by
  obtain ⟨tag, type, count, u, value⟩ := info
  cases type with
  | byte => exact if_pos h
  | ascii => exact if_pos h
  | undefined => exact if_pos h
  | short => cases ht
  | long => cases ht
  | slong => cases ht
  | rational => cases ht
  | srational => cases ht

theorem inlineShort_small (info : IfdInfo) (h : info.count ≤ 2) : info.inlineShort =
    { info with
      valueOffset := leShortBytes (leShort info.value 0) ++
        if info.count = 2 then leShortBytes (leShort info.value 2) else [0, 0] } := if_pos h

theorem inlineByte_small (info : IfdInfo) (h : info.count ≤ 4) : info.inlineByte =
    { info with valueOffset := info.value.take info.count ++ info.valueOffset.drop info.count } :=
  if_pos h

/-- The writer of rationals always writes enough. -/
theorem good_of_rational (hw : b.writer = .rational) (hc : b.count < 2 ^ 32) : b.Good where
  count_lt := hc
  data_length := by
    intro _
    unfold Block.data
    rw [hw]
    show _ ≤ ((longsAt b.value (2 * b.count)).flatMap beLong).length
    rw [length_flatMap_beLong, length_longsAt]
    have hsize : b.type.size ≤ 8 := by
      cases b.type <;> simp only [TiffType.size] <;> omega
    have hmul := Nat.mul_le_mul_left b.count hsize
    omega
  field_eq := by
    intro h off
    unfold Block.field
    rw [hw]
    show (b.info off).offsetValue = off
    rw [offsetValue_of_large (b.info off) h]
    exact leWord_leBytes_zero off

theorem good_of_short (hw : b.writer = .short) (ht : b.type = .short) (hc : b.count < 2 ^ 32) :
    b.Good where
  count_lt := hc
  data_length := by
    intro h
    rw [ht] at h ⊢
    have h2 : 2 < b.count := by
      simp only [TiffType.size] at h
      omega
    unfold Block.data
    rw [hw]
    simp only [Writer.data]
    rw [if_pos h2, length_flatMap_beShort, length_shortsAt, Nat.mul_comm]
    exact Nat.le_refl _
  field_eq := by
    intro h off
    have h2 : ¬ b.count ≤ 2 := by
      rw [ht] at h
      simp only [TiffType.size] at h
      omega
    have hinline : Writer.short.inline (b.info off) = b.info off := if_neg h2
    unfold Block.field
    rw [hw, hinline, offsetValue_of_large (b.info off) h]
    exact leWord_leBytes_zero off

theorem good_of_byte (hw : b.writer = .byte) (ht : b.type.size = 1) (hc : b.count < 2 ^ 32)
    (hv : b.count ≤ b.value.length) : b.Good where
  count_lt := hc
  data_length := by
    intro h
    rw [ht, Nat.mul_one] at h ⊢
    unfold Block.data
    rw [hw]
    simp only [Writer.data]
    rw [if_pos h, List.length_take, Nat.min_eq_left hv]
  field_eq := by
    intro h off
    have h4 : ¬ b.count ≤ 4 := by
      rw [ht] at h
      omega
    have hinline : Writer.byte.inline (b.info off) = b.info off := if_neg h4
    unfold Block.field
    rw [hw, hinline, offsetValue_of_large (b.info off) h]
    exact leWord_leBytes_zero off

/-- The terminator is inside of the array. -/
theorem getAsciiStringSize_lt (s : AsciiStr) : getAsciiStringSize s.chars.toList < 256 := by
  have hlen : s.chars.toList.length = 256 := Vector.length_toList
  have hpre := List.takeWhile_prefix (l := s.chars.toList) (fun c => decide (c ≠ 0))
  have hle := hpre.length_le
  have hne : (s.chars.toList.takeWhile fun c => decide (c ≠ 0)).length ≠ s.chars.toList.length := by
    intro heq
    have hmem := s.terminated
    rw [← hpre.eq_of_length heq] at hmem
    have hne0 := List.mem_takeWhile_imp hmem
    exact of_decide_eq_true hne0 rfl
  unfold getAsciiStringSize
  omega

theorem size_of_bytes {type : TiffType} (ht : type = .byte ∨ type = .ascii ∨ type = .undefined) :
    type.size = 1 := by
  rcases ht with rfl | rfl | rfl
  · rfl
  · rfl
  · rfl

variable {n : Nat} (present : Bool) (tag : UInt16)

theorem rationalBlock_good (hn : n < 2 ^ 32) (v : Vector Rational n) :
    (rationalBlock present tag v).Good := good_of_rational rfl hn

theorem srationalBlock_good (hn : n < 2 ^ 32) (v : Vector SRational n) :
    (srationalBlock present tag v).Good := good_of_rational rfl hn

theorem shortBlock_good (hn : n < 2 ^ 32) (v : Vector UInt16 n) :
    (shortBlock present tag v).Good := good_of_short rfl rfl hn

theorem byteBlock_good {type : TiffType} (ht : type = .byte ∨ type = .ascii ∨ type = .undefined)
    (hn : n < 2 ^ 32) (v : Vector UInt8 n) : (byteBlock present tag type v).Good :=
  good_of_byte rfl (size_of_bytes ht) hn (Nat.le_of_eq Vector.length_toList.symm)

theorem stringBlock_good (s : AsciiStr) : (stringBlock present tag s).Good := by
  have hlt := getAsciiStringSize_lt s
  have hlen : s.chars.toList.length = 256 := Vector.length_toList
  refine good_of_byte rfl rfl ?_ ?_
  · show getAsciiStringSize s.chars.toList + 1 < 2 ^ 32
    omega
  · show getAsciiStringSize s.chars.toList + 1 ≤ s.chars.toList.length
    omega

theorem customBytes_good {type : TiffType} (ht : type = .byte ∨ type = .ascii ∨ type = .undefined)
    (c : Custom 1) : (customBlock present tag type .byte c).Good := by
  have hfits := c.fits
  have hlen : c.ptr.toList.length = 256 := Vector.length_toList
  refine good_of_byte rfl (size_of_bytes ht) c.count.toNat_lt ?_
  show c.count.toNat ≤ c.ptr.toList.length
  omega

theorem customShorts_good (c : Custom 2) : (customBlock present tag .short .short c).Good :=
  good_of_short rfl rfl c.count.toNat_lt

theorem customSwapped_good (c : Custom 2) : (customBlock present tag .short .rational c).Good :=
  good_of_rational rfl c.count.toNat_lt

theorem imageSizeBlock_good (l : UInt32) : (imageSizeBlock tag l).Good where
  count_lt := show 1 < 2 ^ 32 by omega
  data_length := fun h => absurd h (Nat.lt_irrefl 4)
  field_eq := fun h => absurd h (Nat.lt_irrefl 4)

end Good

/-! ## The blocks of the directories -/

theorem interBlocks_good (inter : InteroperabilityInfo) : ∀ b ∈ interBlocks inter, b.Good :=
  List.forall_mem_singleton.mpr (customBytes_good _ _ (.inr (.inl rfl)) _)

theorem specBlocks_good (spec : SpecificInfo) : ∀ b ∈ specBlocks spec, b.Good := by
  simp [specBlocks, rationalBlock_good, srationalBlock_good, shortBlock_good, byteBlock_good,
    stringBlock_good, customBytes_good, customShorts_good, customSwapped_good, longBlock_good]

theorem specTailBlocks_good (spec : SpecificInfo) : ∀ b ∈ specTailBlocks spec, b.Good := by
  simp [specTailBlocks, rationalBlock_good, shortBlock_good, byteBlock_good, customBytes_good]

theorem gpsBlocks_good (gps : GpsInfo) : ∀ b ∈ gpsBlocks gps, b.Good := by
  simp [gpsBlocks, rationalBlock_good, shortBlock_good, byteBlock_good, stringBlock_good,
    customBytes_good]

theorem primaryBlocks_good (primary : PrimaryInfo) : ∀ b ∈ primaryBlocks primary, b.Good := by
  simp [primaryBlocks, rationalBlock_good, shortBlock_good, byteBlock_good, stringBlock_good]

theorem thumbnailBlocks_good (thumbnail : List UInt8) :
    ∀ b ∈ thumbnailBlocks thumbnail, b.Good := by
  simp [thumbnailBlocks, longBlock_good]

theorem primaryTailBlocks_good (primary : PrimaryInfo) :
    ∀ b ∈ primaryTailBlocks primary, b.Good := by
  simp [primaryTailBlocks, rationalBlock_good, shortBlock_good, stringBlock_good,
    imageSizeBlock_good]

/-! ## Values -/

section Values

variable {b : Block} {n : Nat}

theorem pairsOf_flatMap {α β : Type} (f g : α → β) (l : List α) :
    pairsOf (l.flatMap fun r => [f r, g r]) = l.map fun r => (f r, g r) := by
  induction l with
  | nil => rfl
  | cons r l ih =>
    rw [List.flatMap_cons, List.map_cons, ← ih]
    rfl

theorem length_flatMap_pair {α β : Type} (f g : α → β) (l : List α) :
    (l.flatMap fun r => [f r, g r]).length = 2 * l.length := by
  induction l with
  | nil => rfl
  | cons r l ih =>
    rw [List.flatMap_cons, List.length_append, ih]
    show 2 + 2 * l.length = 2 * (l.length + 1)
    omega

/-- Pairs of long words are read from memory as they were put there. -/
theorem longsAt_pairs {α : Type} (f g : α → UInt32) (l : List α) :
    longsAt (l.flatMap fun r => leBytes (f r) ++ leBytes (g r)) (2 * l.length) =
      l.flatMap fun r => [f r, g r] := by
  have h := longsAt_flatMap (l.flatMap fun r => [f r, g r])
  rw [length_flatMap_pair, List.flatMap_assoc] at h
  simp only [List.flatMap_cons, List.flatMap_nil, List.append_nil] at h
  exact h

/-- The bytes of a value of pairs. -/
theorem raw_rational (hw : b.writer = .rational) (hs : b.type.size = 8) (off : UInt32) :
    b.raw off = (longsAt b.value (2 * b.count)).flatMap beLong := by
  have hlen : ((longsAt b.value (2 * b.count)).flatMap beLong).length = b.count * 8 := by
    rw [length_flatMap_beLong, length_longsAt]
    omega
  by_cases h4 : b.count * b.type.size ≤ 4
  · have h0 : b.count = 0 := by
      rw [hs] at h4
      omega
    rw [Block.raw_small h4, h0, Nat.zero_mul]
    rfl
  · rw [Block.raw_large h4, Block.data, hw, hs]
    show ((longsAt b.value (2 * b.count)).flatMap beLong).take (b.count * 8) = _
    rw [← hlen, List.take_length]

theorem item_rationalBlock (present : Bool) (tag : UInt16) (v : Vector Rational n) (off : UInt32) :
    (rationalBlock present tag v).item off =
      ⟨tag, .rational, .rationals (v.toList.map fun r => (r.numerator, r.denominator))⟩ := by
  have hpairs := longsAt_pairs Rational.numerator Rational.denominator v.toList
  rw [Vector.length_toList] at hpairs
  unfold Block.item
  rw [raw_rational rfl rfl]
  show TiffItem.mk tag .rational (.rationals (pairsOf (longsOf
    ((longsAt (hostRationals v.toList) (2 * n)).flatMap beLong)))) = _
  rw [longsOf_flatMap_beLong, hostRationals, hpairs, pairsOf_flatMap]

theorem item_srationalBlock (present : Bool) (tag : UInt16) (v : Vector SRational n) (off : UInt32) :
    (srationalBlock present tag v).item off =
      ⟨tag, .srational, .srationals (v.toList.map fun r => (r.numerator, r.denominator))⟩ := by
  have hpairs := longsAt_pairs (fun r : SRational => r.numerator.toUInt32)
    (fun r => r.denominator.toUInt32) v.toList
  rw [Vector.length_toList] at hpairs
  unfold Block.item
  rw [raw_rational rfl rfl]
  show TiffItem.mk tag .srational (.srationals (pairsOf ((longsOf
    ((longsAt (hostSRationals v.toList) (2 * n)).flatMap beLong)).map UInt32.toInt32))) = _
  rw [longsOf_flatMap_beLong, hostSRationals, hpairs, List.map_flatMap]
  simp only [List.map_cons, List.map_nil, Int32.toInt32_toUInt32]
  rw [pairsOf_flatMap]

/-- The bytes of a value of words. -/
theorem raw_short (hw : b.writer = .short) (ht : b.type = .short) (off : UInt32) :
    b.raw off = (shortsAt b.value b.count).flatMap beShort := by
  have hlen : ((shortsAt b.value b.count).flatMap beShort).length = b.count * 2 := by
    rw [length_flatMap_beShort, length_shortsAt]
    omega
  obtain ⟨present, tag, type, count, writer, value⟩ := b
  subst hw ht
  by_cases h4 : count * 2 ≤ 4
  · rw [Block.raw_small h4]
    -- the two words of the union become the two halves of the entry's last long word
    have hcount : count ≤ 2 := by omega
    have hfield : Block.field ⟨present, tag, .short, count, .short, value⟩ off =
        UInt32.ofNat ((leShort value 0).toNat * 65536 +
          (leShort (if count = 2 then leShortBytes (leShort value 2) else [0, 0]) 0).toNat) := by
      show (IfdInfo.inlineShort ⟨tag, .short, count, leBytes off, value⟩).offsetValue = _
      rw [inlineShort_small _ hcount, offsetValue_short _ rfl hcount, leShort_leShortBytes,
        leShort_append]
    rw [hfield, beLong_halves]
    show (beShort (leShort value 0) ++ beShort (leShort _ 0)).take (count * 2) =
      (shortsAt value count).flatMap beShort
    obtain rfl | rfl | rfl : count = 0 ∨ count = 1 ∨ count = 2 := by omega
    · rfl
    · rfl
    · have h := leShort_leShortBytes (leShort value 2) []
      rw [List.append_nil] at h
      rw [if_pos rfl, h]
      rfl
  · have hdata : Block.data ⟨present, tag, .short, count, .short, value⟩ =
        (shortsAt value count).flatMap beShort :=
      if_pos (show 2 < count by omega)
    rw [Block.raw_large h4, hdata]
    show ((shortsAt value count).flatMap beShort).take (count * 2) = _
    rw [← show ((shortsAt value count).flatMap beShort).length = count * 2 from hlen,
      List.take_length]

theorem item_short (hw : b.writer = .short) (ht : b.type = .short) (off : UInt32) :
    b.item off = ⟨b.tag, .short, .shorts (shortsAt b.value b.count)⟩ := by
  unfold Block.item
  rw [raw_short hw ht, ht]
  show TiffItem.mk b.tag .short (.shorts (shortsOf ((shortsAt b.value b.count).flatMap beShort))) = _
  rw [shortsOf_flatMap_beShort]

theorem item_shortBlock (present : Bool) (tag : UInt16) (v : Vector UInt16 n) (off : UInt32) :
    (shortBlock present tag v).item off = ⟨tag, .short, .shorts v.toList⟩ := by
  have hwords := shortsAt_flatMap v.toList
  rw [Vector.length_toList] at hwords
  rw [item_short rfl rfl]
  show TiffItem.mk tag .short (.shorts (shortsAt (v.toList.flatMap leShortBytes) n)) = _
  rw [hwords]

theorem beLong_ofBytes4 (a b c d : UInt8) : beLong (ofBytes4 a b c d) = [a, b, c, d] := by
  have ha := a.toNat_lt
  have hb := b.toNat_lt
  have hc := c.toNat_lt
  have hd := d.toNat_lt
  have hn : (ofBytes4 a b c d).toNat =
      a.toNat * 16777216 + b.toNat * 65536 + c.toNat * 256 + d.toNat := by
    rw [ofBytes4, UInt32.toNat_ofNat']
    exact Nat.mod_eq_of_lt (by omega)
  unfold beLong
  rw [hn]
  refine congrArg₂ _ ?_ (congrArg₂ _ ?_ (congrArg₂ _ ?_ (congrArg₂ _ ?_ rfl)))
  all_goals
    apply UInt8.toNat_inj.mp
    rw [UInt8.toNat_ofNat']
    omega

theorem eq_of_length_four {u : List UInt8} (h : u.length = 4) :
    [u.getD 0 0, u.getD 1 0, u.getD 2 0, u.getD 3 0] = u := by
  match u, h with
  | [a, b, c, d], _ => rfl

/-- The bytes of a value of bytes. -/
theorem raw_byte (hw : b.writer = .byte) (ht : b.type.size = 1) (hv : b.count ≤ b.value.length)
    (off : UInt32) : b.raw off = b.value.take b.count := by
  by_cases h4 : b.count ≤ 4
  · have hsmall : b.count * b.type.size ≤ 4 := by
      rw [ht]
      omega
    have hu : (b.value.take b.count ++ (leBytes off).drop b.count).length = 4 := by
      rw [List.length_append, List.length_take, List.length_drop, length_leBytes]
      omega
    have hfield : beLong (b.field off) = b.value.take b.count ++ (leBytes off).drop b.count := by
      unfold Block.field
      rw [hw]
      show beLong (b.info off).inlineByte.offsetValue = _
      rw [inlineByte_small (b.info off) h4, offsetValue_byte ht h4, beLong_ofBytes4]
      exact eq_of_length_four hu
    have htake : (b.value.take b.count).length = b.count := by
      rw [List.length_take]
      omega
    rw [Block.raw_small hsmall, hfield, ht, Nat.mul_one]
    exact List.take_left' htake
  · have hlarge : ¬ b.count * b.type.size ≤ 4 := by
      rw [ht]
      omega
    have hdata : b.data = b.value.take b.count := by
      unfold Block.data
      rw [hw]
      exact if_pos (Nat.lt_of_not_le h4)
    rw [Block.raw_large hlarge, hdata, ht, Nat.mul_one, List.take_take, Nat.min_self]

theorem decode_of_size_one {t : TiffType} (h : t.size = 1) (raw : List UInt8) :
    t.decode raw = .bytes raw := by
  cases t with
  | byte => rfl
  | ascii => rfl
  | undefined => rfl
  | short => cases h
  | long => cases h
  | slong => cases h
  | rational => cases h
  | srational => cases h

theorem item_byte (hw : b.writer = .byte) (ht : b.type.size = 1) (hv : b.count ≤ b.value.length)
    (off : UInt32) : b.item off = ⟨b.tag, b.type, .bytes (b.value.take b.count)⟩ := by
  unfold Block.item
  rw [raw_byte hw ht hv, decode_of_size_one ht]

/-- **The size of the picture**: only the lower half of the long word is left. -/
theorem item_imageSize (tag : UInt16) (l off : UInt32) :
    (imageSizeBlock tag l).item off = ⟨tag, .long, .longs [UInt32.ofNat (l.toNat % 65536)]⟩ := by
  have hfield : (imageSizeBlock tag l).field off = UInt32.ofNat (l.toNat % 65536) := by
    show leWord (leShortBytes (leShort (leBytes l) 0) ++ [0, 0]) 0 = _
    rw [leWord_halves, leShort_append, leShort_leShortBytes, leShort_leBytes_low, UInt16.toNat_ofNat',
      Nat.mod_mod]
    rw [show (leShort [0, 0] 0).toNat = 0 from rfl, Nat.zero_mul, Nat.zero_add]
  have hlongs := longsOf_beLong_append (UInt32.ofNat (l.toNat % 65536)) []
  rw [List.append_nil] at hlongs
  have hraw : (imageSizeBlock tag l).raw off = beLong (UInt32.ofNat (l.toNat % 65536)) := by
    rw [Block.raw_small (b := imageSizeBlock tag l) (Nat.le_refl 4), hfield]
    rfl
  unfold Block.item
  rw [hraw]
  show TiffItem.mk tag .long (.longs (longsOf (beLong _))) = _
  rw [hlongs]
  rfl

/-- The neighbour of a word in its long word. -/
def neighbour (k : Nat) : Nat := if k % 2 = 0 then k + 1 else k - 1

/-- Words that are written as long words change places with their neighbours. -/
theorem longsAt_flatMap_neighbour (bs : List UInt8) (n : Nat) :
    (longsAt bs n).flatMap beLong =
      ((List.range (2 * n)).map fun k => leShort bs (2 * neighbour k)).flatMap beShort := by
  induction n with
  | zero => rfl
  | succ n ih =>
    have hrange : List.range (2 * (n + 1)) = List.range (2 * n) ++ [2 * n, 2 * n + 1] := by
      rw [Nat.mul_add, List.range_succ, List.range_succ, List.append_assoc]
      rfl
    have heven : neighbour (2 * n) = 2 * n + 1 := if_pos (by omega)
    have hodd : neighbour (2 * n + 1) = 2 * n := if_neg (by omega)
    have hword := beLong_halves (leShort bs (4 * n + 2)) (leShort bs (4 * n))
    rw [← leWord_halves] at hword
    have hlongs : longsAt bs (n + 1) = longsAt bs n ++ [leWord bs (4 * n)] := by
      unfold longsAt
      rw [List.range_succ, List.map_append]
      rfl
    rw [hlongs, hrange, List.flatMap_append, ih, List.map_append, List.flatMap_append,
      List.flatMap_singleton, hword]
    simp only [List.map_cons, List.map_nil, List.flatMap_cons, List.flatMap_nil, List.append_nil,
      heven, hodd]
    rw [show 2 * (2 * n + 1) = 4 * n + 2 by omega, show 2 * (2 * n) = 4 * n by omega]

theorem take_flatMap_beShort (ws : List UInt16) (n : Nat) :
    (ws.flatMap beShort).take (2 * n) = (ws.take n).flatMap beShort := by
  induction ws generalizing n with
  | nil => simp
  | cons w ws ih =>
    cases n with
    | zero => rfl
    | succ n =>
      rw [List.take_succ_cons, List.flatMap_cons, List.flatMap_cons, ← ih n]
      rfl

/-- What a reader finds in words that were written as rationals: the offset itself if they would have
fitted into the entry, else every word in the place of its neighbour. -/
def swappedWords (value : List UInt8) (count : Nat) (off : UInt32) : List UInt16 :=
  if count ≤ 2 then
    [UInt16.ofNat (off.toNat % 65536), UInt16.ofNat (off.toNat / 65536)].take count
  else (List.range count).map fun k => leShort value (2 * neighbour k)

theorem item_swapped (hw : b.writer = .rational) (ht : b.type = .short) (off : UInt32) :
    b.item off = ⟨b.tag, .short, .shorts (swappedWords b.value b.count off)⟩ := by
  obtain ⟨present, tag, type, count, writer, value⟩ := b
  subst hw ht
  have hraw : Block.raw ⟨present, tag, .short, count, .rational, value⟩ off =
      (swappedWords value count off).flatMap beShort := by
    by_cases h2 : count ≤ 2
    · have hfield : Block.field ⟨present, tag, .short, count, .rational, value⟩ off =
          UInt32.ofNat ((leShort (leBytes off) 0).toNat * 65536 +
            (leShort (leBytes off) 2).toNat) :=
        offsetValue_short ⟨tag, .short, count, leBytes off, value⟩ rfl h2
      rw [Block.raw_small (b := ⟨present, tag, .short, count, .rational, value⟩)
        (show count * 2 ≤ 4 by omega), hfield, beLong_halves, leShort_leBytes_low,
        leShort_leBytes_high]
      unfold swappedWords
      rw [if_pos h2, ← take_flatMap_beShort, Nat.mul_comm 2]
      simp only [List.flatMap_cons, List.flatMap_nil, List.append_nil]
      rfl
    · have hdata : Block.data ⟨present, tag, .short, count, .rational, value⟩ =
          (longsAt value (2 * count)).flatMap beLong := rfl
      rw [Block.raw_large (b := ⟨present, tag, .short, count, .rational, value⟩)
        (show ¬ count * 2 ≤ 4 by omega), hdata, longsAt_flatMap_neighbour]
      show (_ : List UInt8).take (count * 2) = _
      unfold swappedWords
      rw [Nat.mul_comm count 2, take_flatMap_beShort, if_neg h2, ← List.map_take, List.take_range,
        Nat.min_eq_left (by omega)]
  unfold Block.item
  rw [hraw]
  show TiffItem.mk tag .short (.shorts (shortsOf _)) = _
  rw [shortsOf_flatMap_beShort]

end Values

end SprdHal.Exif
