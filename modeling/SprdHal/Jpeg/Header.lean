import SprdHal.Jpeg.Framing

/-!
# Headers of the encoder (`jpegenc_header.c`)

`JPEG_HWWriteHeadForThumbnail` writes the header of a picture segment by segment through the
bitstream hardware, which stores the bytes as they come. The tables are arbitrary: the structures
say what makes them tables.
-/

namespace SprdHal.Jpeg

/-! ## State of the encoder -/

/-- The number of symbols of a Huffman table. -/
def symbolCount (bits : List UInt8) : Nat := (bits.tail.map UInt8.toNat).sum

/-- A Huffman table: `bits[0]` is not used, and there is a symbol for every code. -/
structure HuffTable extends HuffTbl where
  length_bits : bits.length = 17
  count_le : symbolCount bits ≤ 256
  count_le_length : symbolCount bits ≤ huffval.length

/-- A quantisation table. -/
structure QuantTable where
  values : List UInt8
  length_values : values.length = 64

/-- A table map whose numbers fit into the header. -/
structure TblMapEntry extends TblMap where
  dc_lt : dcHuffTblId < 16
  ac_lt : acHuffTblId < 16
  quant_le : quantTblId ≤ 2

/-- The tables of the encoder, for luminance (0) and chrominance (1), and the table map of the three
components. -/
structure Tables where
  quantTbl : Fin 2 → QuantTable
  dcHuffTbl : Fin 2 → HuffTable
  acHuffTbl : Fin 2 → HuffTable
  tblMap : Fin 3 → TblMapEntry

/-- The input parameters of the encoder. -/
structure EncInput where
  mcu0 : McuInfo
  mcu1 : McuInfo
  width : Nat
  height : Nat
  restartInterval : Nat

/-- What `JpegEnc_InitParam` sets and the header needs. -/
structure EncParam where
  width : Nat
  height : Nat
  inputMcuInfo : McuInfo
  ratio : Fin 3 → Nat × Nat
  restartInterval : Nat

/-- `JPEG_QUALITY_MAX` -/
def jpegQualityMax : Nat := 5

/-- The sample ratios of `JpegEnc_InitParam`. -/
def ratioOf : McuInfo → Option (Fin 3 → Nat × Nat)
  | .yuv420 => some fun i => if i = 0 then (2, 2) else (1, 1)
  | .yuv422 => some fun i => if i = 0 then (2, 1) else (1, 1)
  | _ => none

/-- `JpegEnc_InitParam`; the level that is checked is the one of the picture before. -/
def initParam (compressLevel : Nat) (input : EncInput) : Option EncParam :=
  if input.mcu0 ≠ .yuv422 ∧ input.mcu0 ≠ .yuv420 ∧ input.mcu1 ≠ .yuv422 ∧ input.mcu1 ≠ .yuv420 then
    none
  else if jpegQualityMax < compressLevel then none
  else if input.width < 1 ∨ input.height < 1 then none
  else
    match ratioOf input.mcu0 with
    | none => none
    | some ratio =>
      some ⟨input.width % 2 ^ 16, input.height % 2 ^ 16, input.mcu0, ratio, input.restartInterval⟩

/-! ## Segments -/

/-- `JPEGFW_PutW` -/
def putW (w : Nat) : List UInt8 := [UInt8.ofNat (w / 256), UInt8.ofNat w]

/-- `PutMarker` -/
def putMarker (mark : UInt8) : List UInt8 := [0xFF, mark]

/-- `PutAPP0` -/
def putAPP0 : List UInt8 :=
  putMarker 0xE0 ++ putW 16 ++ [0x4A, 0x46, 0x49, 0x46, 0, 1, 1, 0] ++ putW 1 ++ putW 1 ++ [0, 0]

/-- One component of `PutSOF0`. -/
def putFrameComponent (e : EncParam) (t : Tables) (i : Fin 3) : List UInt8 :=
  [UInt8.ofNat (i.val + 1), UInt8.ofNat ((e.ratio i).1 <<< 4 ||| (e.ratio i).2),
    UInt8.ofNat (t.tblMap i).quantTblId]

/-- `PutSOF0` -/
def putSOF0 (e : EncParam) (t : Tables) : List UInt8 :=
  putMarker 0xC0 ++ putW (3 * 3 + 2 + 5 + 1) ++ [8] ++ putW e.height ++ putW e.width ++ [3] ++
    putFrameComponent e t 0 ++ putFrameComponent e t 1 ++ putFrameComponent e t 2

/-- One component of `PutSOS`. -/
def putScanComponent (t : Tables) (i : Fin 3) : List UInt8 :=
  [UInt8.ofNat (i.val + 1),
    UInt8.ofNat ((t.tblMap i).dcHuffTblId <<< 4 ||| (t.tblMap i).acHuffTblId)]

/-- `PutSOS` -/
def putSOS (t : Tables) : List UInt8 :=
  putMarker 0xDA ++ putW (2 * 3 + 2 + 1 + 3) ++ [3] ++ putScanComponent t 0 ++
    putScanComponent t 1 ++ putScanComponent t 2 ++ [0, 63, 0]

/-- One table of `PutQuantTbl`: 32 entries at a time. -/
def putOneQuantTbl (t : Tables) (i : Fin 2) : List UInt8 :=
  let quant (k : Nat) : UInt8 := (t.quantTbl i).values.getD (zigzagOrder.getD k 0) 0
  putMarker 0xDB ++ putW (64 + 1 + 2) ++ [UInt8.ofNat i.val] ++ (List.range 32).map quant ++
    (List.range 32).map fun k => quant (32 + k)

/-- `PutQuantTbl` -/
def putQuantTbl (t : Tables) : List UInt8 := putOneQuantTbl t 0 ++ putOneQuantTbl t 1

/-- The groups of 32 symbols of `PutOneHuffTbl`, from symbol `i` on. -/
def putHuffGroups (huffval : List UInt8) : Nat → Nat → List UInt8
  | 0, _ => []
  | n + 1, i => (List.range 32).map (fun j => huffval.getD (i + j) 0) ++
      putHuffGroups huffval n (i + 32)

/-- `PutOneHuffTbl` -/
def putOneHuffTbl (index : UInt8) (t : HuffTbl) : List UInt8 :=
  let count := symbolCount t.bits
  putMarker 0xC4 ++ putW (2 + 1 + 16 + count) ++ [index] ++ t.bits.tail ++
    putHuffGroups t.huffval (count / 32) 0 ++
    (List.range (count % 32)).map fun j => t.huffval.getD (32 * (count / 32) + j) 0

/-- `PutHuffTbl` -/
def putHuffTbl (t : Tables) : List UInt8 :=
  putOneHuffTbl 0x00 (t.dcHuffTbl 0).toHuffTbl ++ putOneHuffTbl 0x10 (t.acHuffTbl 0).toHuffTbl ++
    putOneHuffTbl 0x01 (t.dcHuffTbl 1).toHuffTbl ++ putOneHuffTbl 0x11 (t.acHuffTbl 1).toHuffTbl

/-- `WriteDRI` -/
def writeDRI (e : EncParam) : List UInt8 :=
  if e.restartInterval ≠ 0 then putMarker 0xDD ++ putW 4 ++ putW e.restartInterval else []

/-- `JPEG_HWWriteHeadForThumbnail` -/
def writeHead (e : EncParam) (t : Tables) : List UInt8 :=
  putMarker 0xD8 ++ putAPP0 ++ putQuantTbl t ++ putSOF0 e t ++ putHuffTbl t ++ writeDRI e ++ putSOS t

/-! ## What the header says -/

/-- The codec after the frame header. -/
def frameCodec (e : EncParam) (t : Tables) (k : Codec) : Codec :=
  { k with
    progressiveMode := false
    inputHeight := e.height
    inputWidth := e.width
    numComponents := 3
    compInfo :=
      [⟨0, 1, (e.ratio 0).1, (e.ratio 0).2, (e.ratio 0).1, (e.ratio 0).2⟩,
        ⟨1, 2, (e.ratio 1).1, (e.ratio 1).2, 1, 1⟩, ⟨2, 3, (e.ratio 2).1, (e.ratio 2).2, 1, 1⟩]
    inputMcuInfo := e.inputMcuInfo
    tblMap := ((k.tblMap.modify 0 fun m => { m with quantTblId := (t.tblMap 0).quantTblId }).modify 1
      fun m => { m with quantTblId := (t.tblMap 1).quantTblId }).modify 2
      fun m => { m with quantTblId := (t.tblMap 2).quantTblId } }

/-- The byte with the Huffman tables of a component. -/
def scanByte (t : Tables) (i : Fin 3) : UInt8 :=
  UInt8.ofNat ((t.tblMap i).dcHuffTblId <<< 4 ||| (t.tblMap i).acHuffTblId)

/-- All components of the scan. -/
def scanCodec (t : Tables) (k : Codec) : Codec :=
  ((k.setScanTbl 0 (UInt8.ofNat 1) (scanByte t 0)).setScanTbl 1 (UInt8.ofNat 2)
    (scanByte t 1)).setScanTbl 2 (UInt8.ofNat 3) (scanByte t 2)

/-- The codec after the scan header. -/
def finalCodec (t : Tables) (k : Codec) : Codec :=
  { scanCodec t { k with compsInScan := 3 } with
    ss := 0, se := 63, ah := 0, al := 0, nextRestartNum := 0
    inputScanNumber := (k.inputScanNumber + 1) % 256 }

/-- The codec after the table segments. -/
def tablesCodec (e : EncParam) (t : Tables) : Codec :=
  let k := { Codec.init with
    quantTbl := (Codec.init.quantTbl.set 0 (some (t.quantTbl 0).values)).set 1
      (some (t.quantTbl 1).values) }
  let put (k : Codec) (index : Nat) (h : HuffTable) : Codec :=
    k.setHuffTbl index h.bits.tail (h.huffval.take (symbolCount h.bits))
  put (put (put (put (frameCodec e t k) 0 (t.dcHuffTbl 0)) 0x10 (t.acHuffTbl 0)) 1 (t.dcHuffTbl 1))
    0x11 (t.acHuffTbl 1)

/-- What the decoder must know after the header. `bits[0]` is not in the header. -/
structure Restores (e : EncParam) (t : Tables) (c : Codec) : Prop where
  width : c.inputWidth = e.width
  height : c.inputHeight = e.height
  mcuInfo : c.inputMcuInfo = e.inputMcuInfo
  components : c.compInfo.map (fun i => (i.componentId, i.hSampFactor, i.vSampFactor)) =
    [(1, e.ratio 0), (2, e.ratio 1), (3, e.ratio 2)]
  quantTbl : ∀ i : Fin 2, c.quantTbl[i.val]? = some (some (t.quantTbl i).values)
  dcHuffTbl : ∀ i : Fin 2, ∃ h, c.dcHuffTbl[i.val]? = some h ∧
    h.bits = 0 :: (t.dcHuffTbl i).bits.tail ∧
    h.huffval.take (symbolCount (t.dcHuffTbl i).bits) =
      (t.dcHuffTbl i).huffval.take (symbolCount (t.dcHuffTbl i).bits)
  acHuffTbl : ∀ i : Fin 2, ∃ h, c.acHuffTbl[i.val]? = some h ∧
    h.bits = 0 :: (t.acHuffTbl i).bits.tail ∧
    h.huffval.take (symbolCount (t.acHuffTbl i).bits) =
      (t.acHuffTbl i).huffval.take (symbolCount (t.acHuffTbl i).bits)
  tblMap : c.tblMap = [(t.tblMap 0).toTblMap, (t.tblMap 1).toTblMap, (t.tblMap 2).toTblMap]
  restartInterval : c.restartInterval = e.restartInterval

/-! ## Reading what was written -/

section Reads

variable {k : Codec} {r : List UInt8}

theorem toNat_ofNat_lt {n : Nat} (h : n < 256) : (UInt8.ofNat n).toNat = n := by
  rw [UInt8.toNat_ofNat']
  exact Nat.mod_eq_of_lt h

theorem getChar_cons (c : UInt8) (r : List UInt8) (k : Codec) :
    (⟨c :: r, k⟩ : Decoder).getChar = some (c, ⟨r, k⟩) := rfl

theorem getShortWord_putW {w : Nat} (h : w < 2 ^ 16) :
    (⟨putW w ++ r, k⟩ : Decoder).getShortWord = some (w, ⟨r, k⟩) := by
  have hw : (UInt8.ofNat (w / 256)).toNat * 256 + (UInt8.ofNat w).toNat = w := by
    rw [toNat_ofNat_lt (by omega), UInt8.toNat_ofNat']
    omega
  simp only [putW, List.cons_append, List.nil_append, Decoder.getShortWord, getChar_cons,
    Option.bind_eq_bind, Option.bind_some, hw]
  rfl

theorem getChars_append {cs : List UInt8} {n : Nat} (hn : cs.length = n) :
    (⟨cs ++ r, k⟩ : Decoder).getChars n = some (cs, ⟨r, k⟩) := by
  subst hn
  induction cs with
  | nil => rfl
  | cons c cs ih =>
    simp only [List.length_cons, List.cons_append, Decoder.getChars, getChar_cons,
      Option.bind_eq_bind, Option.bind_some, ih]
    rfl

theorem bind_cons {α : Type} (c : UInt8) (f : UInt8 × Decoder → Option α) :
    ((⟨c :: r, k⟩ : Decoder).getChar >>= f) = f (c, ⟨r, k⟩) := rfl

theorem bind_putW {α : Type} {w : Nat} (h : w < 2 ^ 16) (f : Nat × Decoder → Option α) :
    ((⟨putW w ++ r, k⟩ : Decoder).getShortWord >>= f) = f (w, ⟨r, k⟩) := by
  rw [getShortWord_putW h]
  rfl

theorem bind_append {α : Type} {cs : List UInt8} {n : Nat} (hn : cs.length = n)
    (f : List UInt8 × Decoder → Option α) :
    ((⟨cs ++ r, k⟩ : Decoder).getChars n >>= f) = f (cs, ⟨r, k⟩) := by
  rw [getChars_append hn]
  rfl

theorem getNextMarker_putMarker {m : UInt8} (h0 : m ≠ 0) (hff : m ≠ 0xFF) :
    (⟨putMarker m ++ r, k⟩ : Decoder).getNextMarker = some (m, ⟨r, k⟩) := by
  simp [putMarker, Decoder.getNextMarker, nextMarker, h0, hff]

end Reads

end SprdHal.Jpeg
