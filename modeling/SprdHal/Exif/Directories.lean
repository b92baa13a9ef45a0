import SprdHal.Exif.Tags

/-!
# The directories

Each directory is written from an aligned place on and takes a number of bytes that depends on the
information only. What it leaves there is a directory that can be read, with its sub-directories
behind the values that were written before them.
-/

namespace SprdHal.Exif

open Lib

/-! ## Sizes -/

theorem dvd_blocksSize (bs : List Block) : 4 ∣ blocksSize bs := by
  induction bs with
  | nil => exact Nat.dvd_zero 4
  | cons b bs ih =>
    refine Nat.dvd_add ?_ ih
    unfold Block.size
    split
    · exact dvd_align4 _
    · exact Nat.dvd_zero 4

theorem valuesStart_eq {B : Nat} (n : Nat) (h : 4 ∣ B) :
    valuesStart B n = B + valuesStart 0 n := by
  unfold valuesStart
  rw [show B + 2 + n * 12 + 4 = B + (0 + 2 + n * 12 + 4) by omega, align4_add h]

theorem le_valuesStart (B n : Nat) : B + 2 + 12 * n + 4 ≤ valuesStart B n := by
  have h : B + 2 + n * 12 + 4 ≤ valuesStart B n := le_align4 _
  omega

/-! ## Directories without sub-directories -/

/-- The bytes of a directory of blocks. -/
def dirSize (maxEntries : Nat) (bs : List Block) : Nat := valuesStart 0 maxEntries + blocksSize bs

theorem dvd_dirSize (maxEntries : Nat) (bs : List Block) : 4 ∣ dirSize maxEntries bs :=
  Nat.dvd_add (dvd_align4 _) (dvd_blocksSize bs)

/-- The entries of a directory of blocks at `v`. -/
def dirItems (maxEntries : Nat) (bs : List Block) (v : Nat) : List TiffItem :=
  blocksItems bs (v + valuesStart 0 maxEntries)

theorem writeDir_ok {maxEntries : Nat} {bs : List Block} (hg : ∀ b ∈ bs, b.Good)
    (hmax : bs.length ≤ maxEntries) (hsmall : maxEntries < 2 ^ 16) :
    SubOk (fun v => do
        let c ← openIFD maxEntries v
        let c ← writeBlocks 10 bs c
        closeIFD v 0 c)
      (dirSize maxEntries bs)
      (fun v buf => DirAt buf 10 v (v + dirSize maxEntries bs) (dirItems maxEntries bs v) 0) := by
  intro v buf pos hv hten hlen h32
  have hstart := valuesStart_eq maxEntries hv
  have hle := le_valuesStart v maxEntries
  have hsize : v + dirSize maxEntries bs = valuesStart v maxEntries + blocksSize bs := by
    unfold dirSize
    omega
  rw [hsize] at hlen h32
  obtain ⟨c, buf1, pos1, hrun1, hi, hc, hfilled, hlen1, hsame1⟩ :=
    openIFD_ok pos v maxEntries buf (by omega)
  obtain ⟨c', buf2, pos2, hrun2, hstep⟩ := writeBlocks_ok pos1 hg hfilled (by omega)
    (by omega) (by omega) (by omega)
  have hfilled' := hstep.filled
  have hvalue := hstep.valueOffset
  have hifd := hstep.ifdOffset_le
  have hlist := hfilled'.ifdOffset
  obtain ⟨buf3, pos3, hrun3, hdir, hlen3, hsame3⟩ := closeIFD_ok pos2 0 hfilled'.toListed
    (by omega) (by omega) (by rw [hstep.frame.length]; omega) (by omega)
  refine ⟨buf3, pos3, ?_, by rw [hlen3, hstep.frame.length, hlen1], fun k hk => ?_, ?_⟩
  · simp only
    rw [bind_ok hrun1, bind_ok hrun2, hrun3, hsize, hvalue, hc]
  · rw [hsame3 k (by omega), hstep.frame.same k (by omega) (by omega), hsame1 k (by omega)]
  · rw [hvalue, hc, ← hsize, hstart] at hdir
    exact hdir

theorem writeExifInteroperabilityInfo_ok (inter : InteroperabilityInfo) :
    SubOk (writeExifInteroperabilityInfo inter 10) (dirSize 1 (interBlocks inter))
      (fun v buf => DirAt buf 10 v (v + dirSize 1 (interBlocks inter))
        (dirItems 1 (interBlocks inter) v) 0) :=
  writeDir_ok (interBlocks_good inter) (Nat.le_refl 1) (by decide)

theorem writeExifGPSInfo_ok (gps : GpsInfo) :
    SubOk (writeExifGPSInfo gps 10) (dirSize 31 (gpsBlocks gps))
      (fun v buf => DirAt buf 10 v (v + dirSize 31 (gpsBlocks gps))
        (dirItems 31 (gpsBlocks gps) v) 0) :=
  writeDir_ok (gpsBlocks_good gps) (Nat.le_refl 31) (by decide)

/-! ## The Exif directory -/

section Spec

variable (spec : SpecificInfo) (inter : Option InteroperabilityInfo)

/-- The room for the interoperability directory. -/
def interSize : Nat := (inter.map fun i => dirSize 1 (interBlocks i)).getD 0

/-- Where the interoperability directory is. -/
def interPlace (v : Nat) : Nat := v + valuesStart 0 57 + blocksSize (specBlocks spec)

def specSize : Nat :=
  valuesStart 0 57 + blocksSize (specBlocks spec) + interSize inter +
    blocksSize (specTailBlocks spec)

def specItems (v : Nat) : List TiffItem :=
  blocksItems (specBlocks spec) (v + valuesStart 0 57) ++
    (inter.toList.map fun _ => pointerItem 0xA005 (interPlace spec v)) ++
    blocksItems (specTailBlocks spec) (interPlace spec v + interSize inter)

/-- The Exif directory at `v`, and the interoperability directory that it points to. -/
structure SpecAt (v : Nat) (buf : List UInt8) : Prop where
  dir : DirAt buf 10 v (v + specSize spec inter) (specItems spec inter v) 0
  inter : ∀ i, inter = some i → DirAt buf 10 (interPlace spec v)
    (interPlace spec v + dirSize 1 (interBlocks i)) (dirItems 1 (interBlocks i) (interPlace spec v)) 0

theorem SpecAt.congr {spec : SpecificInfo} {inter : Option InteroperabilityInfo} {v : Nat}
    {buf buf' : List UInt8} (h : SpecAt spec inter v buf)
    (hs : ∀ k, v ≤ k → k < v + specSize spec inter → buf'[k]? = buf[k]?) :
    SpecAt spec inter v buf' := by
  refine ⟨h.dir.congr hs, fun i hi => (h.inter i hi).congr fun k h1 h2 => hs k ?_ ?_⟩
  · unfold interPlace at h1
    omega
  · subst hi
    simp only [interPlace, specSize, interSize, Option.map_some, Option.getD_some] at h2 ⊢
    omega

theorem dvd_interSize : 4 ∣ interSize inter := by
  cases inter with
  | none => exact Nat.dvd_zero 4
  | some i => exact dvd_dirSize _ _

theorem dvd_specSize : 4 ∣ specSize spec inter :=
  Nat.dvd_add (Nat.dvd_add (Nat.dvd_add (dvd_align4 _) (dvd_blocksSize _)) (dvd_interSize inter))
    (dvd_blocksSize _)

theorem writeExifSpecInfo_ok :
    SubOk (writeExifSpecInfo spec inter 10) (specSize spec inter) (SpecAt spec inter) := by
  intro v buf pos hv hten hlen h32
  have hstart := valuesStart_eq 57 hv
  have hle := le_valuesStart v 57
  have hsize : v + specSize spec inter = valuesStart v 57 + blocksSize (specBlocks spec) +
      interSize inter + blocksSize (specTailBlocks spec) := by
    unfold specSize
    omega
  rw [hsize] at hlen h32
  have hcount : (specBlocks spec).length = 32 := rfl
  have hcount' : (specTailBlocks spec).length = 24 := rfl
  obtain ⟨c, buf1, pos1, hrun1, hi, hc, hfilled, hlen1, hsame1⟩ :=
    openIFD_ok pos v 57 buf (by omega)
  obtain ⟨c2, buf2, pos2, hrun2, hstep2⟩ := writeBlocks_ok pos1 (specBlocks_good spec)
    hfilled (by omega) (by omega) (by omega) (by omega)
  have hv2 := hstep2.valueOffset
  have hi2 := hstep2.ifdOffset_le
  have hl2 := hstep2.frame.length
  obtain ⟨c3, buf3, pos3, hrun3, hstep3, hinter⟩ := writeOptIFD_ok pos2 0xA005 inter
    writeExifInteroperabilityInfo_ok (fun i => dvd_dirSize _ _) hstep2.filled
    (by omega) (show c2.valueOffset + interSize inter ≤ buf2.length by omega) (by omega)
    (show c2.valueOffset + interSize inter ≤ 2 ^ 32 by omega)
  have hv3 : c3.valueOffset = c2.valueOffset + interSize inter := hstep3.valueOffset
  have hi3 := hstep3.ifdOffset_le
  have hl3 := hstep3.frame.length
  obtain ⟨c4, buf4, pos4, hrun4, hstep4⟩ := writeBlocks_ok pos3 (specTailBlocks_good spec)
    hstep3.filled (by omega) (by omega) (by omega) (by omega)
  have hv4 := hstep4.valueOffset
  have hi4 := hstep4.ifdOffset_le
  have hl4 := hstep4.frame.length
  have hlist := hstep4.filled.ifdOffset
  obtain ⟨buf5, pos5, hrun5, hdir, hlen5, hsame5⟩ := closeIFD_ok pos4 0
    hstep4.filled.toListed (by omega) (by omega) (by omega) (by omega)
  have hplace : c2.valueOffset = interPlace spec v := by
    unfold interPlace
    omega
  have hle2 := hstep2.le_ifdOffset
  have hle3 := hstep3.le_ifdOffset
  have hle4 := hstep4.le_ifdOffset
  refine ⟨buf5, pos5, ?_, by omega, fun k hk => ?_, ⟨?_, fun i hi => ?_⟩⟩
  · unfold writeExifSpecInfo
    rw [bind_ok hrun1, bind_ok hrun2, bind_ok hrun3, bind_ok hrun4, hrun5, hv4, hv3, hv2, hc, hsize]
  · rw [hsame5 k (by omega), hstep4.frame.same k (by omega) (by omega),
      hstep3.frame.same k (by omega) (by omega), hstep2.frame.same k (by omega) (by omega),
      hsame1 k (by omega)]
  · rw [hv4, hv3, hplace, hc, hstart, List.nil_append] at hdir
    have hend : interPlace spec v + interSize inter + blocksSize (specTailBlocks spec) =
        v + specSize spec inter := by omega
    rw [hend] at hdir
    exact hdir
  · -- what comes after the interoperability directory is written behind it
    have hsizei : interSize inter = dirSize 1 (interBlocks i) := by
      rw [hi]
      rfl
    have hdiri := hinter i hi
    rw [hplace] at hdiri
    refine hdiri.congr fun k h1 h2 => ?_
    rw [hsame5 k (by omega), hstep4.frame.same k (by omega) (by omega)]

end Spec

/-! ## The thumbnail -/

section Thumbnail

variable {B V : Nat} {c : Cursor} {items : List TiffItem} {buf : List UInt8} (pos : Nat)
  {thumbnail : List UInt8}

/-- The entries of a thumbnail at `off`. -/
def thumbnailItems (thumbnail : List UInt8) (off : UInt32) : List TiffItem :=
  if 0 < thumbnail.length then
    [⟨0x0201, .long, .longs [off]⟩, ⟨0x0202, .long, .longs [UInt32.ofNat thumbnail.length]⟩]
  else []

theorem blocksSize_thumbnailBlocks (thumbnail : List UInt8) :
    blocksSize (thumbnailBlocks thumbnail) = 0 := by
  have h : ∀ p t l, (longBlock p t l).size = 0 := by
    intro p t l
    unfold Block.size
    rw [longBlock_data]
    exact ite_self 0
  show (longBlock _ _ _).size + ((longBlock _ _ _).size + 0) = 0
  rw [h, h]

theorem blocksItems_thumbnailBlocks (v : Nat) :
    blocksItems (thumbnailBlocks thumbnail) v = thumbnailItems thumbnail 0 := by
  unfold thumbnailItems
  simp only [thumbnailBlocks, blocksItems, Block.items, longBlock_item]
  by_cases h : 0 < thumbnail.length
  · rw [if_pos h, decide_eq_true h]
    rfl
  · rw [if_neg h, decide_eq_false h]
    rfl

/-- The thumbnail goes behind all values, and its entry is written again. -/
theorem writeThumbnail_ok {j : Nat} (h : Filled B V c items buf) (hj : j < items.length)
    (hroom : c.ifdOffset ≤ V) (hlen : c.valueOffset + thumbnail.length ≤ buf.length)
    (hne : 0 < thumbnail.length) :
    ∃ buf' pos', writeThumbnail 10 (B + 2 + 12 * j) thumbnail c ⟨buf, pos⟩ =
        .ok { c with valueOffset := c.valueOffset + thumbnail.length } ⟨buf', pos'⟩ ∧
      Listed B V { c with valueOffset := c.valueOffset + thumbnail.length }
        (items.set j ⟨0x0201, .long, .longs [UInt32.ofNat (c.valueOffset - 10)]⟩) buf' ∧
      Has buf' c.valueOffset thumbnail ∧
      Frame (B + 2) V c.valueOffset (c.valueOffset + thumbnail.length) buf buf' := by
  have hifd := h.ifdOffset
  have hV := h.le
  generalize hoff : UInt32.ofNat (c.valueOffset - 10) = off
  generalize hb1 : patch buf c.valueOffset thumbnail = buf1
  have hlen1 : buf1.length = buf.length := by rw [← hb1, length_patch]
  have hi : B + 2 + 12 * j + 12 ≤ buf1.length := by omega
  have hsame1 : ∀ k, k < c.valueOffset ∨ c.valueOffset + thumbnail.length ≤ k →
      buf1[k]? = buf[k]? := by
    intro k hk
    rw [← hb1]
    exact getElem?_patch_of_out _ _ _ hk
  have hhas1 : Has buf1 c.valueOffset thumbnail := by
    rw [← hb1]
    exact has_patch hlen
  generalize hb2 : patch buf1 (B + 2 + 12 * j) (entryBytes 0x0201 .long 1 off) = buf2
  have hsame2 : ∀ k, k < B + 2 + 12 * j ∨ B + 2 + 12 * j + 12 ≤ k → buf2[k]? = buf1[k]? := by
    intro k hk
    rw [← hb2]
    exact getElem?_patch_of_out _ _ _ (by rw [length_entryBytes]; exact hk)
  have hset : setWritePos c.valueOffset ⟨buf, pos⟩ = .ok true ⟨buf, c.valueOffset⟩ :=
    setWritePos_ok (by omega)
  have hset' : setWritePos (B + 2 + 12 * j) ⟨buf1, c.valueOffset + thumbnail.length⟩ =
      .ok true ⟨buf1, B + 2 + 12 * j⟩ := setWritePos_ok (by omega)
  refine ⟨buf2, B + 2 + 12 * j + 12, ?_, ⟨?_, ?_, Nat.le_add_right_of_le hV, ?_⟩, ?_, ?_, ?_⟩
  · unfold writeThumbnail
    rw [if_pos hne]
    simp only
    rw [hoff, bind_ok hset, bind_orFail (writeCs_ok hlen), bind_ok (m := getWritePos) rfl, hb1,
      bind_ok hset', bind_ok (writeLongIFD_one _ 0x0201 off _ hi), hb2]
    rfl
  · rw [List.length_set]
    exact hifd
  · rw [List.length_set]
    exact h.entries
  · refine h.found.set (fun k h1 h2 h3 => ?_) (fun k h1 h2 => ?_) (Nat.le_add_right _ _) ?_
    · rw [hsame2 k h3, hsame1 k (by omega)]
    · rw [hsame2 k (by omega), hsame1 k (by omega)]
    · rw [← hb2]
      exact itemAt_long 0x0201 off hi
  · exact hhas1.congr fun k h1 h2 => hsame2 k (by omega)
  · rw [← hb2, length_patch, hlen1]
  · intro k h1 h2
    rw [hsame2 k (by omega), hsame1 k h2]

end Thumbnail

/-! ## IFD0 and IFD1 -/

/-- The arguments of `Jpeg_WriteExifIFD` that are written. -/
structure Ifd where
  primary : PrimaryInfo
  spec : Option SpecificInfo
  gps : Option GpsInfo
  inter : Option InteroperabilityInfo
  thumbnail : List UInt8

namespace Ifd

variable (d : Ifd)

def specSize : Nat := (d.spec.map fun spec => Exif.specSize spec d.inter).getD 0

def gpsSize : Nat := (d.gps.map fun gps => dirSize 31 (gpsBlocks gps)).getD 0

/-- The values of the entries before those of the thumbnail. -/
def firstPlace (B : Nat) : Nat := valuesStart B 24

def tailPlace (B : Nat) : Nat := firstPlace B + blocksSize (primaryBlocks d.primary)

/-- Where the sub-directories and the thumbnail are. -/
def specPlace (B : Nat) : Nat := d.tailPlace B + blocksSize (primaryTailBlocks d.primary)

def gpsPlace (B : Nat) : Nat := d.specPlace B + d.specSize

def thumbnailPlace (B : Nat) : Nat := d.gpsPlace B + d.gpsSize

def endPlace (B : Nat) : Nat := d.thumbnailPlace B + d.thumbnail.length

/-- The entries of the directory at `B`, if the offset of the thumbnail is `off`. -/
def itemsWith (B : Nat) (off : UInt32) : List TiffItem :=
  blocksItems (primaryBlocks d.primary) (firstPlace B) ++ thumbnailItems d.thumbnail off ++
    blocksItems (primaryTailBlocks d.primary) (d.tailPlace B) ++
    (d.spec.toList.map fun _ => pointerItem 0x8769 (d.specPlace B)) ++
    (d.gps.toList.map fun _ => pointerItem 0x8825 (d.gpsPlace B))

def items (B : Nat) : List TiffItem := d.itemsWith B (UInt32.ofNat (d.thumbnailPlace B - 10))

/-- The directory at `B` with all that it points to. -/
structure At (B : Nat) (next : UInt32) (buf : List UInt8) : Prop where
  dir : DirAt buf 10 B (d.endPlace B) (d.items B) next
  spec : ∀ spec, d.spec = some spec → SpecAt spec d.inter (d.specPlace B) buf
  gps : ∀ gps, d.gps = some gps → DirAt buf 10 (d.gpsPlace B)
    (d.gpsPlace B + dirSize 31 (gpsBlocks gps)) (dirItems 31 (gpsBlocks gps) (d.gpsPlace B)) 0
  thumbnail : Has buf (d.thumbnailPlace B) d.thumbnail

def write (isNextIfdExist : Bool) (B : Nat) : Write Nat :=
  writeExifIFD d.primary d.spec d.gps d.inter d.thumbnail isNextIfdExist 10 B

variable {d}

theorem specSize_of_some {spec : SpecificInfo} (h : d.spec = some spec) :
    d.specSize = Exif.specSize spec d.inter := by
  unfold Ifd.specSize
  rw [h, Option.map_some, Option.getD_some]

theorem gpsSize_of_some {gps : GpsInfo} (h : d.gps = some gps) :
    d.gpsSize = dirSize 31 (gpsBlocks gps) := by
  unfold Ifd.gpsSize
  rw [h, Option.map_some, Option.getD_some]

theorem places (B : Nat) : firstPlace B ≤ d.tailPlace B ∧ d.tailPlace B ≤ d.specPlace B ∧
    d.specPlace B + d.specSize = d.gpsPlace B ∧ d.gpsPlace B + d.gpsSize = d.thumbnailPlace B ∧
    d.thumbnailPlace B + d.thumbnail.length = d.endPlace B :=
  ⟨Nat.le_add_right _ _, Nat.le_add_right _ _, rfl, rfl, rfl⟩

theorem At.congr {B : Nat} {next : UInt32} {buf buf' : List UInt8} (h : d.At B next buf)
    (hs : ∀ k, B ≤ k → k < d.endPlace B → buf'[k]? = buf[k]?) : d.At B next buf' := by
  obtain ⟨h1, h2, h3, h4, h5⟩ := d.places B
  have hB : B ≤ firstPlace B := by
    have h := le_valuesStart B 24
    unfold firstPlace
    omega
  refine ⟨h.dir.congr hs, fun spec hspec => ?_, fun gps hgps => ?_, ?_⟩
  · have hsize := specSize_of_some hspec
    exact (h.spec spec hspec).congr fun k hk hk' => hs k (by omega) (by omega)
  · have hsize := gpsSize_of_some hgps
    exact (h.gps gps hgps).congr fun k hk hk' => hs k (by omega) (by omega)
  · exact h.thumbnail.congr fun k hk hk' => hs k (by omega) (by omega)

/-- The offset of the thumbnail is in the entry behind those of the picture. -/
theorem set_itemsWith (B : Nat) (off off' : UInt32) (hne : 0 < d.thumbnail.length) :
    (d.itemsWith B off).set (blocksItems (primaryBlocks d.primary) (firstPlace B)).length
      ⟨0x0201, .long, .longs [off']⟩ = d.itemsWith B off' := by
  unfold itemsWith thumbnailItems
  rw [if_pos hne, if_pos hne]
  simp only [List.append_assoc]
  rw [List.set_append_right _ _ (Nat.le_refl _), Nat.sub_self]
  rfl

theorem itemsWith_of_nil (B : Nat) (off off' : UInt32) (h : ¬ 0 < d.thumbnail.length) :
    d.itemsWith B off = d.itemsWith B off' := by
  unfold itemsWith thumbnailItems
  rw [if_neg h, if_neg h]

/-- The last part: the thumbnail, the next directory and the number of entries. -/
theorem finish_ok {B : Nat} {c : Cursor} {buf : List UInt8} (pos : Nat) (isNextIfdExist : Bool)
    (h : Filled B (firstPlace B) c (d.itemsWith B 0) buf) (hc : c.valueOffset = d.thumbnailPlace B)
    (hroom : c.ifdOffset + 4 ≤ firstPlace B) (hlen : d.endPlace B ≤ buf.length)
    (hsmall : (d.itemsWith B 0).length < 2 ^ 16) :
    ∃ buf' pos', (do
        let c ← writeThumbnail 10
          (B + 2 + 12 * (blocksItems (primaryBlocks d.primary) (firstPlace B)).length) d.thumbnail c
        closeIFD B (if isNextIfdExist then UInt32.ofNat (c.valueOffset - 10) else 0) c : Write Nat)
        ⟨buf, pos⟩ = .ok (d.endPlace B) ⟨buf', pos'⟩ ∧
      DirAt buf' 10 B (d.endPlace B) (d.items B)
        (if isNextIfdExist then UInt32.ofNat (d.endPlace B - 10) else 0) ∧
      Has buf' (d.thumbnailPlace B) d.thumbnail ∧
      Frame B (firstPlace B) (d.thumbnailPlace B) (d.endPlace B) buf buf' := by
  have hle : B + 2 + 12 * 24 + 4 ≤ firstPlace B := le_valuesStart B 24
  have hend : d.endPlace B = d.thumbnailPlace B + d.thumbnail.length := rfl
  have hV := h.le
  by_cases hne : 0 < d.thumbnail.length
  · have hj : (blocksItems (primaryBlocks d.primary) (firstPlace B)).length <
        (d.itemsWith B 0).length := by
      unfold itemsWith thumbnailItems
      rw [if_pos hne]
      simp only [List.length_append, List.length_cons]
      omega
    obtain ⟨buf1, pos1, hrun1, hlisted, hhas, hframe⟩ :=
      writeThumbnail_ok pos h hj (by omega) (by omega) hne
    rw [set_itemsWith B _ _ hne] at hlisted
    rw [hc] at hrun1 hlisted hhas hframe
    have hlen1 := hframe.length
    have hsmall' : (d.items B).length < 2 ^ 16 := by
      rw [show d.items B = _ from (set_itemsWith B 0 _ hne).symm, List.length_set]
      exact hsmall
    obtain ⟨buf2, pos2, hrun2, hdir, hlen2, hsame2⟩ := closeIFD_ok pos1
      (if isNextIfdExist then UInt32.ofNat (d.endPlace B - 10) else 0) hlisted hroom (by omega)
      (show d.endPlace B ≤ buf1.length by omega) hsmall'
    refine ⟨buf2, pos2, ?_, hdir, hhas.congr fun k h1 h2 => hsame2 k (by omega), by omega,
      fun k h1 h2 => ?_⟩
    · rw [bind_ok hrun1]
      exact hrun2
    · rw [hsame2 k (by omega), hframe.same k (by omega) (by omega)]
  · have hzero : d.thumbnail.length = 0 := by omega
    have hc' : c.valueOffset = d.endPlace B := by omega
    have hrun1 : writeThumbnail 10 (B + 2 +
        12 * (blocksItems (primaryBlocks d.primary) (firstPlace B)).length) d.thumbnail c
        ⟨buf, pos⟩ = .ok c ⟨buf, pos⟩ := by
      unfold writeThumbnail
      rw [if_neg hne]
      rfl
    rw [itemsWith_of_nil B 0 (UInt32.ofNat (d.thumbnailPlace B - 10)) hne] at h hsmall
    obtain ⟨buf2, pos2, hrun2, hdir, hlen2, hsame2⟩ := closeIFD_ok pos
      (if isNextIfdExist then UInt32.ofNat (d.endPlace B - 10) else 0) h.toListed hroom (by omega)
      (by omega) hsmall
    rw [hc'] at hdir hrun2
    refine ⟨buf2, pos2, ?_, hdir, fun k hk => ?_, hlen2, fun k h1 h2 => hsame2 k (by omega)⟩
    · rw [bind_ok hrun1, hc']
      exact hrun2
    · omega

/-- The entries of the picture. -/
theorem picture_ok {B : Nat} {c : Cursor} {buf : List UInt8} (pos : Nat)
    (h : Filled B (firstPlace B) c [] buf) (hi : c.ifdOffset = B + 2)
    (hc : c.valueOffset = firstPlace B) (hlen : d.specPlace B ≤ buf.length)
    (h32 : d.specPlace B ≤ 2 ^ 32) :
    ∃ c1 s1 c2 s2 c3 buf' pos',
      writeBlocks 10 (primaryBlocks d.primary) c ⟨buf, pos⟩ = .ok c1 s1 ∧
      writeBlocks 10 (thumbnailBlocks d.thumbnail) c1 s1 = .ok c2 s2 ∧
      writeBlocks 10 (primaryTailBlocks d.primary) c2 s2 = .ok c3 ⟨buf', pos'⟩ ∧
      c1.ifdOffset = B + 2 + 12 * (blocksItems (primaryBlocks d.primary) (firstPlace B)).length ∧
      c3.valueOffset = d.specPlace B ∧
      Step B (firstPlace B) c [] (blocksItems (primaryBlocks d.primary) (firstPlace B) ++
        thumbnailItems d.thumbnail 0 ++ blocksItems (primaryTailBlocks d.primary) (d.tailPlace B))
        (d.specPlace B - firstPlace B) 22 buf c3 buf' := by
  have hle : B + 2 + 12 * 24 + 4 ≤ firstPlace B := le_valuesStart B 24
  have htail : d.tailPlace B = firstPlace B + blocksSize (primaryBlocks d.primary) := rfl
  have hspec : d.specPlace B = d.tailPlace B + blocksSize (primaryTailBlocks d.primary) := rfl
  have hn1 : (primaryBlocks d.primary).length = 14 := rfl
  have hn2 : (thumbnailBlocks d.thumbnail).length = 2 := rfl
  have hn3 : (primaryTailBlocks d.primary).length = 6 := rfl
  have hzero := blocksSize_thumbnailBlocks d.thumbnail
  obtain ⟨c1, buf1, pos1, hrun1, hstep1⟩ := writeBlocks_ok pos (primaryBlocks_good d.primary) h
    (by omega) (by omega) (by omega) (by omega)
  have hv1 := hstep1.valueOffset
  have hi1 := hstep1.ifdOffset_le
  have hl1 := hstep1.frame.length
  obtain ⟨c2, buf2, pos2, hrun2, hstep2⟩ := writeBlocks_ok pos1 (thumbnailBlocks_good d.thumbnail)
    hstep1.filled (by omega) (by omega) (by omega) (by omega)
  have hv2 := hstep2.valueOffset
  have hi2 := hstep2.ifdOffset_le
  have hl2 := hstep2.frame.length
  obtain ⟨c3, buf3, pos3, hrun3, hstep3⟩ := writeBlocks_ok pos2 (primaryTailBlocks_good d.primary)
    hstep2.filled (by omega) (by omega) (by omega) (by omega)
  have hv3 := hstep3.valueOffset
  have hthumb := hstep1.filled.ifdOffset
  rw [hc, List.nil_append] at hthumb
  have hstep := (hstep1.trans hstep2).trans hstep3
  rw [blocksItems_thumbnailBlocks, hc, show c2.valueOffset = d.tailPlace B by omega,
    show blocksSize (primaryBlocks d.primary) + blocksSize (thumbnailBlocks d.thumbnail) +
      blocksSize (primaryTailBlocks d.primary) = d.specPlace B - firstPlace B by omega] at hstep
  exact ⟨c1, _, c2, _, c3, buf3, pos3, hrun1, hrun2, hrun3, hthumb, by omega, hstep⟩

/-- The sub-directories, behind the values of the picture. -/
theorem subs_ok {B : Nat} {c : Cursor} {items : List TiffItem} {buf : List UInt8} (pos : Nat)
    (h : Filled B (firstPlace B) c items buf) (hc : c.valueOffset = d.specPlace B)
    (hroom : c.ifdOffset + 24 ≤ firstPlace B) (hlen : d.thumbnailPlace B ≤ buf.length)
    (h32 : d.thumbnailPlace B ≤ 2 ^ 32) :
    ∃ c1 s1 c2 buf' pos',
      writeOptIFD 10 0x8769 (d.spec.map fun spec => writeExifSpecInfo spec d.inter 10) c
        ⟨buf, pos⟩ = .ok c1 s1 ∧
      writeOptIFD 10 0x8825 (d.gps.map fun gps => writeExifGPSInfo gps 10) c1 s1 =
        .ok c2 ⟨buf', pos'⟩ ∧
      c2.valueOffset = d.thumbnailPlace B ∧
      Step B (firstPlace B) c items
        ((d.spec.toList.map fun _ => pointerItem 0x8769 (d.specPlace B)) ++
          (d.gps.toList.map fun _ => pointerItem 0x8825 (d.gpsPlace B)))
        (d.specSize + d.gpsSize) 2 buf c2 buf' ∧
      (∀ spec, d.spec = some spec → SpecAt spec d.inter (d.specPlace B) buf') ∧
      ∀ gps, d.gps = some gps → DirAt buf' 10 (d.gpsPlace B)
        (d.gpsPlace B + dirSize 31 (gpsBlocks gps)) (dirItems 31 (gpsBlocks gps) (d.gpsPlace B)) 0 := by
  have hle : B + 2 + 12 * 24 + 4 ≤ firstPlace B := le_valuesStart B 24
  obtain ⟨hp1, hp2, hp3, hp4, -⟩ := d.places B
  obtain ⟨c1, buf1, pos1, hrun1, hstep1, hspec⟩ := writeOptIFD_ok pos 0x8769 d.spec
    (fun spec => writeExifSpecInfo_ok spec d.inter) (fun spec => dvd_specSize spec d.inter)
    h (by omega) (show c.valueOffset + d.specSize ≤ buf.length by omega) (by omega)
    (show c.valueOffset + d.specSize ≤ 2 ^ 32 by omega)
  have hv1 : c1.valueOffset = c.valueOffset + d.specSize := hstep1.valueOffset
  have hi1 := hstep1.ifdOffset_le
  have hl1 := hstep1.frame.length
  obtain ⟨c2, buf2, pos2, hrun2, hstep2, hgps⟩ := writeOptIFD_ok pos1 0x8825 d.gps
    writeExifGPSInfo_ok (fun gps => dvd_dirSize 31 (gpsBlocks gps))
    hstep1.filled (by omega) (show c1.valueOffset + d.gpsSize ≤ buf1.length by omega) (by omega)
    (show c1.valueOffset + d.gpsSize ≤ 2 ^ 32 by omega)
  have hv2 : c2.valueOffset = c1.valueOffset + d.gpsSize := hstep2.valueOffset
  have hstep := hstep1.trans hstep2
  have hc1 : c1.valueOffset = d.gpsPlace B := by omega
  rw [hc1] at hstep hgps
  rw [hc] at hstep hspec
  refine ⟨c1, _, c2, buf2, pos2, hrun1, hrun2, by omega, hstep, fun spec hs => ?_, hgps⟩
  -- the GPS directory goes behind the Exif directory
  have hsize := specSize_of_some hs
  exact (hspec spec hs).congr fun k h1 h2 => hstep2.same (by omega) (by omega) (by omega)

/-- **A directory of pictures**: everything is where its entries say. -/
theorem write_ok (B : Nat) (buf : List UInt8) (pos : Nat) (isNextIfdExist : Bool)
    (hlen : d.endPlace B ≤ buf.length) (h32 : d.endPlace B ≤ 2 ^ 32) :
    ∃ buf' pos', d.write isNextIfdExist B ⟨buf, pos⟩ = .ok (d.endPlace B) ⟨buf', pos'⟩ ∧
      d.At B (if isNextIfdExist then UInt32.ofNat (d.endPlace B - 10) else 0) buf' ∧
      buf'.length = buf.length ∧
      ∀ k, k < B ∨ d.endPlace B ≤ k → buf'[k]? = buf[k]? := by
  have hle : B + 2 + 12 * 24 + 4 ≤ firstPlace B := le_valuesStart B 24
  obtain ⟨hp1, hp2, hp3, hp4, hp5⟩ := d.places B
  obtain ⟨c, buf1, pos1, hrun1, hi, hc, hfilled, hlen1, hsame1⟩ :=
    openIFD_ok pos B 24 buf (show firstPlace B ≤ buf.length by omega)
  rw [show valuesStart B 24 = firstPlace B from rfl] at hc hfilled
  obtain ⟨c2, s2, c3, s3, c4, buf4, pos4, hrun2, hrun3, hrun4, hthumb, hc4, hstep4⟩ :=
    picture_ok (d := d) pos1 hfilled hi hc (by omega) (by omega)
  have hi4 := hstep4.ifdOffset_le
  have hl4 := hstep4.frame.length
  obtain ⟨c5, s5, c6, buf6, pos6, hrun5, hrun6, hc6, hstep6, hspec, hgps⟩ :=
    subs_ok pos4 hstep4.filled hc4 (by omega) (by omega) (by omega)
  have hl6 := hstep6.frame.length
  have hstep := hstep4.trans hstep6
  have hi6 := hstep.ifdOffset_le
  have hle6 := hstep.le_ifdOffset
  -- the entries so far are those with no offset for the thumbnail yet
  have hitems : Filled B (firstPlace B) c6 (d.itemsWith B 0) buf6 := by
    have hf := hstep.filled
    rw [List.nil_append, ← List.append_assoc] at hf
    exact hf
  have hcount := hitems.ifdOffset
  obtain ⟨buf7, pos7, hrun7, hdir, hthumbnail, hframe7⟩ := finish_ok pos6 isNextIfdExist hitems hc6
    (by omega) (by omega) (by omega)
  have hl7 := hframe7.length
  refine ⟨buf7, pos7, ?_, ⟨hdir, fun spec hs => ?_, fun gps hg => ?_, hthumbnail⟩, by omega,
    fun k hk => ?_⟩
  · unfold write writeExifIFD
    rw [bind_ok hrun1, bind_ok hrun2, bind_ok hrun3, bind_ok hrun4, bind_ok hrun5, bind_ok hrun6,
      hthumb]
    exact hrun7
  · have hsize := specSize_of_some hs
    exact (hspec spec hs).congr fun k h1 h2 => hframe7.same k (by omega) (by omega)
  · have hsize := gpsSize_of_some hg
    exact (hgps gps hg).congr fun k h1 h2 => hframe7.same k (by omega) (by omega)
  · rw [hframe7.same k (by omega) (by omega), hstep.frame.same k (by omega) (by omega),
      hsame1 k (by omega)]

end Ifd

/-! ## The segment -/

def ifd0 (exif : ExifInfo) : Ifd := ⟨exif.primary, exif.spec, exif.gps, exif.inter, []⟩

def ifd1 (thumbnail : List UInt8) : Ifd := ⟨ifd1Primary, none, none, none, thumbnail⟩

/-- Where IFD0 ends, and IFD1 starts. -/
def ifd0End (exif : ExifInfo) : Nat := (ifd0 exif).endPlace 18

/-- The size of the segment. -/
def app1Size (exif : ExifInfo) (thumbnail : List UInt8) : Nat :=
  if 0 < thumbnail.length then (ifd1 thumbnail).endPlace (ifd0End exif) else ifd0End exif

def tiffHeader : List UInt8 := beShort 0x4D4D ++ beShort 0x002A ++ beLong 8

section Segment

variable {exif : ExifInfo} {thumbnail buf buf' : List UInt8} (pos : Nat)

theorem Ifd.lt_endPlace (d : Ifd) (B : Nat) : B + 294 ≤ d.endPlace B := by
  have hle : B + 2 + 12 * 24 + 4 ≤ Ifd.firstPlace B := le_valuesStart B 24
  obtain ⟨h1, h2, h3, h4, h5⟩ := d.places B
  omega

theorem ifd0End_le (exif : ExifInfo) (thumbnail : List UInt8) :
    ifd0End exif ≤ app1Size exif thumbnail := by
  unfold app1Size
  split
  · exact Nat.le_trans (Nat.le_add_right _ _) (Ifd.lt_endPlace _ _)
  · exact Nat.le_refl _

theorem lt_app1Size (exif : ExifInfo) (thumbnail : List UInt8) : 312 ≤ app1Size exif thumbnail :=
  Nat.le_trans (Ifd.lt_endPlace (ifd0 exif) 18) (ifd0End_le exif thumbnail)

/-- What the segment contains, from the TIFF header on. -/
structure SegmentAt (exif : ExifInfo) (thumbnail buf : List UInt8) : Prop where
  header : Has buf 10 tiffHeader
  ifd0 : (ifd0 exif).At 18
    (if 0 < thumbnail.length then UInt32.ofNat (ifd0End exif - 10) else 0) buf
  ifd1 : 0 < thumbnail.length → (ifd1 thumbnail).At (ifd0End exif) 0 buf

theorem SegmentAt.congr (h : SegmentAt exif thumbnail buf)
    (hs : ∀ k, 10 ≤ k → k < app1Size exif thumbnail → buf'[k]? = buf[k]?) :
    SegmentAt exif thumbnail buf' := by
  have hle := ifd0End_le exif thumbnail
  have hlt := lt_app1Size exif thumbnail
  refine ⟨h.header.congr fun k h1 h2 => hs k h1 ?_, h.ifd0.congr fun k h1 h2 => hs k ?_ ?_,
    fun hne => (h.ifd1 hne).congr fun k h1 h2 => hs k ?_ ?_⟩
  · have h2 : k < 10 + 8 := h2
    omega
  · omega
  · exact Nat.lt_of_lt_of_le h2 hle
  · have hend := Ifd.lt_endPlace (Exif.ifd0 exif) 18
    exact Nat.le_trans (Nat.le_trans (by decide) hend) h1
  · unfold app1Size
    rw [if_pos hne]
    exact h2

theorem writeIFH_ok (h : 18 ≤ buf.length) :
    writeIFH 10 ⟨buf, pos⟩ = .ok 18 ⟨patch buf 10 tiffHeader, 18⟩ := by
  have hset : setWritePos 10 ⟨buf, pos⟩ = .ok true ⟨buf, 10⟩ := setWritePos_ok (by omega)
  have e1 : patch (patch buf 10 (beShort 0x4D4D)) (10 + 2) (beShort 0x002A) =
      patch buf 10 (beShort 0x4D4D ++ beShort 0x002A) := patch_append _ _ _ _
  have e2 : patch (patch buf 10 (beShort 0x4D4D ++ beShort 0x002A)) (10 + 2 + 2) (beLong 8) =
      patch buf 10 tiffHeader := patch_append _ _ _ _
  unfold writeIFH
  rw [bind_ok hset, bind_orFail (writeW_ok (by omega)),
    bind_orFail (writeW_ok (by rw [length_patch]; omega)),
    bind_orFail (writeL_ok (by rw [length_patch, length_patch]; omega)), e1, e2]
  rfl

/-- **The directories in a buffer that is large enough.** -/
theorem writeDirectories_ok (hlen : app1Size exif thumbnail ≤ buf.length)
    (h32 : app1Size exif thumbnail ≤ 2 ^ 32) :
    ∃ buf' pos', writeDirectories exif thumbnail ⟨buf, pos⟩ =
        .ok (app1Size exif thumbnail) ⟨buf', pos'⟩ ∧
      buf'.length = buf.length ∧ SegmentAt exif thumbnail buf' := by
  have hle := ifd0End_le exif thumbnail
  have hlt : 18 + 294 ≤ ifd0End exif := Ifd.lt_endPlace (ifd0 exif) 18
  have hrun1 := writeIFH_ok pos (show 18 ≤ buf.length by omega)
  have hhead : Has (patch buf 10 tiffHeader) 10 tiffHeader :=
    has_patch (show 10 + 8 ≤ buf.length by omega)
  obtain ⟨buf2, pos2, hrun2, hat, hlen2, hsame2⟩ := Ifd.write_ok (d := ifd0 exif) 18
    (patch buf 10 tiffHeader) 18 (decide (0 < thumbnail.length))
    (show ifd0End exif ≤ _ by rw [length_patch]; omega) (show ifd0End exif ≤ 2 ^ 32 by omega)
  rw [length_patch] at hlen2
  have hhead2 : Has buf2 10 tiffHeader := hhead.congr fun k h1 h2 => hsame2 k (.inl h2)
  simp only [decide_eq_true_eq] at hat
  unfold writeDirectories
  simp only
  rw [bind_ok hrun1, bind_ok (show writeExifIFD exif.primary exif.spec exif.gps exif.inter []
    (decide (0 < thumbnail.length)) 10 18 ⟨patch buf 10 tiffHeader, 18⟩ = _ from hrun2)]
  by_cases hne : 0 < thumbnail.length
  · have hsize : app1Size exif thumbnail = (ifd1 thumbnail).endPlace (ifd0End exif) := if_pos hne
    obtain ⟨buf3, pos3, hrun3, hat3, hlen3, hsame3⟩ := Ifd.write_ok (d := ifd1 thumbnail)
      (ifd0End exif) buf2 pos2 false (by omega) (by omega)
    rw [if_pos (decide_eq_true hne), hsize]
    refine ⟨buf3, pos3, hrun3, by omega, ?_, ?_, fun _ => hat3⟩
    · exact hhead2.congr fun k h1 h2 => hsame3 k (.inl (by
        have h2 : k < 10 + 8 := h2
        omega))
    · exact hat.congr fun k h1 h2 => hsame3 k (.inl h2)
  · have hsize : app1Size exif thumbnail = ifd0End exif := if_neg hne
    rw [if_neg (by rw [decide_eq_false hne]; exact Bool.false_ne_true), hsize]
    exact ⟨buf2, pos2, rfl, hlen2, hhead2, hat, fun h => absurd h hne⟩

theorem writeAPP1Header_ok (app1Length : UInt16) (h : 10 ≤ buf.length) :
    writeAPP1Header app1Length ⟨buf, pos⟩ = .ok () ⟨patch buf 0 (app1Head app1Length), 10⟩ := by
  have hset : setWritePos 0 ⟨buf, pos⟩ = .ok true ⟨buf, 0⟩ := setWritePos_ok (Nat.zero_le _)
  have e1 : patch (patch buf 0 [0xFF]) (0 + 1) [0xE1] = patch buf 0 [0xFF, 0xE1] :=
    patch_append _ _ _ _
  have e2 : patch (patch buf 0 [0xFF, 0xE1]) (0 + 1 + 1) (beShort app1Length) =
      patch buf 0 ([0xFF, 0xE1] ++ beShort app1Length) := patch_append _ _ _ _
  have e3 : patch (patch buf 0 ([0xFF, 0xE1] ++ beShort app1Length)) (0 + 1 + 1 + 2)
      [0x45, 0x78, 0x69, 0x66, 0, 0] = patch buf 0 (app1Head app1Length) := patch_append _ _ _ _
  unfold writeAPP1Header
  rw [bind_ok hset, bind_orFail (writeC_ok (by omega)),
    bind_orFail (writeC_ok (by rw [length_patch]; omega)), e1,
    bind_orFail (writeW_ok (by rw [length_patch]; omega)), e2]
  unfold orFail
  rw [bind_ok (writeCs_ok (show _ + 6 ≤ _ by rw [length_patch]; omega)), e3]
  rfl

/-- **The whole segment in a buffer that is large enough**; the length is cut to 16 bits. -/
theorem writeAPP1_room (hlen : app1Size exif thumbnail ≤ buf.length)
    (h32 : app1Size exif thumbnail ≤ 2 ^ 32) :
    ∃ buf' pos', writeAPP1 (some exif) thumbnail ⟨buf, pos⟩ =
        .ok ((UInt16.ofNat (app1Size exif thumbnail) - 2).toNat + 2) ⟨buf', pos'⟩ ∧
      buf'.length = buf.length ∧
      Has buf' 0 (app1Head (UInt16.ofNat (app1Size exif thumbnail) - 2)) ∧
      SegmentAt exif thumbnail buf' := by
  have hlt := lt_app1Size exif thumbnail
  obtain ⟨buf1, pos1, hrun1, hlen1, hseg⟩ := writeDirectories_ok pos hlen h32
  have hrun2 := writeAPP1Header_ok pos1 (UInt16.ofNat (app1Size exif thumbnail) - 2)
    (show 10 ≤ buf1.length by omega)
  refine ⟨_, 10, ?_, (length_patch _ _ _).trans hlen1, has_patch (by show 0 + 10 ≤ _; omega),
    hseg.congr fun k h1 h2 => getElem?_patch_of_out _ _ _ (.inr h1)⟩
  unfold writeAPP1
  simp only
  rw [bind_ok (show (get : Write Stream) ⟨buf, pos⟩ = .ok ⟨buf, pos⟩ ⟨buf, pos⟩ from rfl),
    if_neg (show ¬ buf.length < 10 by omega), bind_ok hrun1, bind_ok hrun2]
  rfl

/-- The same with a length that fits. -/
theorem writeAPP1_ok (hlen : app1Size exif thumbnail ≤ buf.length)
    (h16 : app1Size exif thumbnail < 65536) :
    ∃ buf' pos', writeAPP1 (some exif) thumbnail ⟨buf, pos⟩ =
        .ok (app1Size exif thumbnail) ⟨buf', pos'⟩ ∧ buf'.length = buf.length ∧
      Has buf' 0 (app1Head (UInt16.ofNat (app1Size exif thumbnail) - 2)) ∧
      SegmentAt exif thumbnail buf' := by
  have hlt := lt_app1Size exif thumbnail
  have hroom := writeAPP1_room pos hlen (by omega)
  rwa [toNat_app1Length (show 2 ≤ app1Size exif thumbnail by omega) (by omega),
    Nat.sub_add_cancel (by omega)] at hroom

end Segment

end SprdHal.Exif
