import Mathlib.Algebra.Ring.Nat
import Mathlib.Data.List.Basic
import Mathlib.Tactic.Common

/-!
# The header of a JPEG stream (`jpegdec_parse.c`)

`ParseHead` looks for SOI and then handles one marker segment after the other up to SOS. Each
segment begins with its own length; the handlers count the bytes in their own way.

The stream is the list of bytes that `get_char` still returns: reading a file through a buffer gives
the same bytes as reading them from memory.
-/

namespace SprdHal.Jpeg

/-! ## State of the decoder -/

/-- `jpeg_component_info` -/
structure ComponentInfo where
  componentIndex : Nat
  componentId : Nat
  hSampFactor : Nat
  vSampFactor : Nat
  mcuWidth : Nat
  mcuHeight : Nat
  deriving DecidableEq, Repr

/-- `TBL_MAP_T` -/
structure TblMap where
  dcHuffTblId : Nat
  acHuffTblId : Nat
  quantTblId : Nat
  deriving DecidableEq, Repr

/-- `HUFF_TBL_T`: `bits[0..16]` and the symbols. -/
structure HuffTbl where
  bits : List UInt8
  huffval : List UInt8
  deriving DecidableEq, Repr

/-- `JPEG_FW_YUV444` and so on. -/
inductive McuInfo
  | yuv444 | yuv422 | yuv422R | yuv411 | yuv411R | yuv420 | yuv400
  deriving DecidableEq, Repr

/-- The fields of `JPEG_CODEC_T` and of the input parameters that the parser sets. -/
structure Codec where
  progressiveMode : Bool
  inputWidth : Nat
  inputHeight : Nat
  inputMcuInfo : McuInfo
  numComponents : Nat
  compInfo : List ComponentInfo
  tblMap : List TblMap
  dcHuffTbl : List HuffTbl
  acHuffTbl : List HuffTbl
  quantTbl : List (Option (List UInt8))
  restartInterval : Nat
  restartToGo : Nat
  nextRestartNum : Nat
  compsInScan : Nat
  compIdMap : List Nat
  ss : Nat
  se : Nat
  ah : Nat
  al : Nat
  inputScanNumber : Nat
  deriving DecidableEq, Repr

/-- The bytes that have not been read yet and the codec. -/
structure Decoder where
  rest : List UInt8
  codec : Codec

namespace Decoder

/-- `get_char` -/
def getChar (s : Decoder) : Option (UInt8 × Decoder) :=
  match s.rest with
  | [] => none
  | c :: rest => some (c, { s with rest := rest })

/-- `get_short_word` -/
def getShortWord (s : Decoder) : Option (Nat × Decoder) := do
  let (value0, s) ← s.getChar
  let (value1, s) ← s.getChar
  return (value0.toNat * 256 + value1.toNat, s)

/-- A loop of `n` calls of `get_char`. -/
def getChars : Nat → Decoder → Option (List UInt8 × Decoder)
  | 0, s => some ([], s)
  | n + 1, s => do
    let (c, s) ← s.getChar
    let (cs, s) ← getChars n s
    return (c :: cs, s)

/-- A loop of `n` calls of `get_short_word`. -/
def getShortWords : Nat → Decoder → Option (List Nat × Decoder)
  | 0, s => some ([], s)
  | n + 1, s => do
    let (w, s) ← s.getShortWord
    let (ws, s) ← getShortWords n s
    return (w :: ws, s)

end Decoder

/-- The loops of `GetNextMarker`; `seen` says whether the byte before was `FF`. -/
def nextMarker (seen : Bool) : List UInt8 → Option (UInt8 × List UInt8)
  | [] => none
  | c :: rest =>
    if seen = false then nextMarker (c == 0xFF) rest
    else if c = 0xFF then nextMarker true rest
    else if c = 0 then nextMarker false rest
    else some (c, rest)

/-- `GetNextMarker` -/
def Decoder.getNextMarker (s : Decoder) : Option (UInt8 × Decoder) :=
  match nextMarker false s.rest with
  | none => none
  | some (c, rest) => some (c, { s with rest := rest })

/-! ## Segments -/

/-- A component of the frame: its number, sample factors and quantisation table. -/
def Codec.addComponent (codec : Codec) (ci : Nat) (id ratio quant : UInt8) : Codec :=
  let h := ratio.toNat / 16
  let v := ratio.toNat % 16
  { codec with
    compInfo := codec.compInfo ++ [⟨ci, id.toNat, h, v, if ci = 0 then h else 1,
      if ci = 0 then v else 1⟩]
    tblMap := codec.tblMap.modify (id.toNat - 1) fun m => { m with quantTblId := quant.toNat } }

/-- The loop of `GetSOF` over the components. -/
def getSOFComponents (componentNum ci : Nat) (s : Decoder) : Option Decoder :=
  if ci < componentNum then do
    let (id, s) ← s.getChar
    -- `yuv_id` is a signed byte
    if id.toNat < 1 ∨ 3 < id.toNat then none
    else
      let (ratio, s) ← s.getChar
      let (quant, s) ← s.getChar
      if 2 < quant.toNat then none
      else
        getSOFComponents componentNum (ci + 1)
          { s with codec := s.codec.addComponent ci id ratio quant }
  else some s
termination_by componentNum - ci

/-- The sample factors of a component as one byte. -/
def sampleRatio (compInfo : List ComponentInfo) (ci : Nat) : Nat :=
  match compInfo[ci]? with
  | none => 0
  | some info => info.hSampFactor * 16 + info.vSampFactor

/-- The sample format of a picture with more than one component. -/
def mcuInfoOf : Nat → Option McuInfo
  | 0x11 => some .yuv444
  | 0x21 => some .yuv422
  | 0x41 => some .yuv411
  | 0x14 => some .yuv411R
  | 0x22 => some .yuv420
  | 0x12 => some .yuv422R
  | _ => none

/-- The end of `GetSOF`: the sample format. -/
def setMcuInfo (s : Decoder) : Option Decoder :=
  let codec := s.codec
  if codec.numComponents = 1 then
    some { s with codec := { codec with inputMcuInfo := .yuv400 } }
  else
    match mcuInfoOf (sampleRatio codec.compInfo 0) with
    | none => none
    | some info =>
      if sampleRatio codec.compInfo 1 ≠ 0x11 then none
      else if 2 < codec.numComponents ∧ sampleRatio codec.compInfo 2 ≠ 0x11 then none
      else some { s with codec := { codec with inputMcuInfo := info } }

/-- `GetSOF` -/
def getSOF (isProgressive : Bool) (s : Decoder) : Option Decoder := do
  let (length, s) ← s.getShortWord
  if length < 8 then none
  else
    let (precision, s) ← s.getChar
    if precision ≠ 8 then none
    else
      let (height, s) ← s.getShortWord
      let (width, s) ← s.getShortWord
      let (componentNum, s) ← s.getChar
      if length ≠ componentNum.toNat * 3 + 8 then none
      else
        let s ← getSOFComponents componentNum.toNat 0
          { s with
            codec :=
              { s.codec with
                progressiveMode := isProgressive
                inputHeight := height
                inputWidth := width
                numComponents := componentNum.toNat
                compInfo := [] } }
        setMcuInfo s

/-- The Huffman tables of component number `i` of the scan. The tables have three entries. -/
def Codec.setScanTbl (codec : Codec) (i : Nat) (cc c : UInt8) : Codec :=
  { codec with
    tblMap := codec.tblMap.modify i fun m =>
      { m with dcHuffTblId := c.toNat / 16, acHuffTblId := c.toNat % 16 }
    compIdMap := if codec.compInfo.any (·.componentId == cc.toNat) then
      codec.compIdMap.set i cc.toNat else codec.compIdMap }

/-- The loop of `GetSOS` over the components. -/
def getSOSComponents (n i : Nat) (s : Decoder) : Option Decoder :=
  if i < n then do
    let (cc, s) ← s.getChar
    let (c, s) ← s.getChar
    if cc.toNat ≠ i + 1 then none
    else getSOSComponents n (i + 1) { s with codec := s.codec.setScanTbl i cc c }
  else some s
termination_by n - i

/-- `GetSOS` -/
def getSOS (s : Decoder) : Option Decoder := do
  let (length, s) ← s.getShortWord
  if length < 3 then none
  else
    let (n, s) ← s.getChar
    if length - 3 ≠ n.toNat * 2 + 3 then none
    else
      let s ← getSOSComponents n.toNat 0 { s with codec := { s.codec with compsInScan := n.toNat } }
      let (ss, s) ← s.getChar
      let (se, s) ← s.getChar
      let (c, s) ← s.getChar
      return { s with
        codec :=
          { s.codec with
            ss := ss.toNat
            se := se.toNat
            ah := c.toNat / 16
            al := c.toNat % 16
            nextRestartNum := 0
            inputScanNumber := (s.codec.inputScanNumber + 1) % 256 } }

/-- `SkipVariable` -/
def skipVariable (s : Decoder) : Option Decoder := do
  let (length, s) ← s.getShortWord
  if length < 2 then none
  else
    let (_, s) ← s.getChars (length - 2)
    return s

/-- `GetDRI` -/
def getDRI (s : Decoder) : Option Decoder := do
  let (length, s) ← s.getShortWord
  if length ≠ 4 then none
  else
    let (interval, s) ← s.getShortWord
    return { s with
      codec :=
        { s.codec with
          restartInterval := interval, restartToGo := interval, nextRestartNum := 0 } }

/-- `JFIF_LEN` -/
def jfifLen : Nat := 14

/-- `GetAPP0`. A segment that is too short for JFIF is not skipped. -/
def getAPP0 (s : Decoder) : Option Decoder := do
  let (length, s) ← s.getShortWord
  if length < 2 then none
  else if jfifLen ≤ length - 2 then
    let (_, s) ← s.getChars jfifLen
    let (_, s) ← s.getChars (length - 2 - jfifLen)
    return s
  else
    return s

/-- One table of `GetHuffTbl`: the class and number of the table, `bits` and the symbols. -/
def getOneHuffTbl (s : Decoder) : Option ((Nat × List UInt8 × List UInt8) × Decoder) := do
  let (c, s) ← s.getChar
  let (bits, s) ← s.getChars 16
  let count := (bits.map UInt8.toNat).sum
  if 256 < count then none
  else
    let (huffval, s) ← s.getChars count
    return ((c.toNat &&& 0x13, bits, huffval), s)

/-- Put a table into the codec. -/
def Codec.setHuffTbl (codec : Codec) (index : Nat) (bits huffval : List UInt8) : Codec :=
  let set (t : HuffTbl) : HuffTbl := ⟨0 :: bits, huffval ++ t.huffval.drop huffval.length⟩
  if index &&& 0x10 ≠ 0 then
    { codec with acHuffTbl := codec.acHuffTbl.modify (index - 0x10) set }
  else
    { codec with dcHuffTbl := codec.dcHuffTbl.modify index set }

/-- The loop of `GetHuffTbl`. -/
def getHuffTblLoop (length : Nat) (s : Decoder) : Option Decoder :=
  if _ : 0 < length then
    match getOneHuffTbl s with
    | none => none
    | some ((index, bits, huffval), s) =>
      if length < 1 + 16 + huffval.length then none
      else
        getHuffTblLoop (length - (1 + 16 + huffval.length))
          { s with codec := s.codec.setHuffTbl index bits huffval }
  else some s
termination_by length
decreasing_by omega

/-- `GetHuffTbl` -/
def getHuffTbl (s : Decoder) : Option Decoder := do
  let (length, s) ← s.getShortWord
  if length < 2 then none else getHuffTblLoop (length - 2) s

/-- `jpeg_fw_zigzag_order` -/
def zigzagOrder : List Nat :=
  [0, 1, 8, 16, 9, 2, 3, 10, 17, 24, 32, 25, 18, 11, 4, 5, 12, 19, 26, 33, 40, 48, 41, 34, 27, 20,
    13, 6, 7, 14, 21, 28, 35, 42, 49, 56, 57, 50, 43, 36, 29, 22, 15, 23, 30, 37, 44, 51, 58, 59,
    52, 45, 38, 31, 39, 46, 53, 60, 61, 54, 47, 55, 62, 63]

/-- A table from its entries in zigzag order. -/
def unzigzag (values : List UInt8) : List UInt8 :=
  (zigzagOrder.zip values).foldl (fun t e => t.set e.1 e.2) (List.replicate 64 0)

/-- The entries of a table of `GetQuantTbl`: bytes, or words of which the high byte is dropped. -/
def getQuantValues (prec : Nat) (s : Decoder) : Option (List UInt8 × Decoder) :=
  if prec = 0 then s.getChars 64
  else do
    let (ws, s) ← s.getShortWords 64
    return (ws.map UInt8.ofNat, s)

/-- The loop of `GetQuantTbl`, with `has_two_chroma_quant_tbl`. -/
def getQuantTblLoop (length : Nat) (twoChroma : Bool) (s : Decoder) : Option (Bool × Decoder) :=
  if _ : 0 < length then
    match s.getChar with
    | none => none
    | some (c, s) =>
      let prec := c.toNat / 16
      let n := c.toNat % 16
      if 2 < n then none
      else
        match getQuantValues prec s with
        | none => none
        | some (values, s) =>
          if length < 64 + 1 + 64 * prec then none
          else
            getQuantTblLoop (length - (64 + 1 + 64 * prec)) (twoChroma || decide (1 < n))
              { s with
                codec :=
                  { s.codec with quantTbl := s.codec.quantTbl.set n (some (unzigzag values)) } }
  else some (twoChroma, s)
termination_by length
decreasing_by omega

/-- `GetQuantTbl`. Two chroma tables must be the same. -/
def getQuantTbl (s : Decoder) : Option Decoder := do
  let (length, s) ← s.getShortWord
  if length < 2 then none
  else
    let (twoChroma, s) ← getQuantTblLoop (length - 2) false s
    if twoChroma = true ∧ s.codec.quantTbl[1]? ≠ s.codec.quantTbl[2]? then none
    else return s

/-! ## The header -/

/-- The segments that have a handler. -/
inductive Handler
  | sof (isProgressive : Bool) | sos | skip | dri | app0 | dht | dqt
  deriving DecidableEq, Repr

def Handler.run : Handler → Decoder → Option Decoder
  | sof isProgressive => getSOF isProgressive
  | sos => getSOS
  | skip => skipVariable
  | dri => getDRI
  | app0 => getAPP0
  | dht => getHuffTbl
  | dqt => getQuantTbl

def markerSOI : UInt8 := 0xD8
def markerEOI : UInt8 := 0xD9
def markerSOS : UInt8 := 0xDA

/-- What `ProcessTables` does with a marker. -/
inductive Action
  | stop | error | handle (h : Handler)
  deriving DecidableEq, Repr

/-- The switch of `ProcessTables`. -/
def actionOf (c : UInt8) : Action :=
  if c = 0xC0 ∨ c = 0xC1 then .handle (.sof false)
  else if c = 0xC2 then .handle (.sof true)
  else if c = markerSOI ∨ c = markerEOI ∨ c = markerSOS then .stop
  else if c = 0xC4 then .handle .dht
  else if c = 0xDB then .handle .dqt
  else if c = 0xE0 then .handle .app0
  else if c = 0xDD then .handle .dri
  -- SOF3 to SOF15, JPG, DAC, RST0 to RST7 and TEM
  else if (0xC3 ≤ c ∧ c ≤ 0xCF) ∨ (0xD0 ≤ c ∧ c ≤ 0xD7) ∨ c = 0x01 then .error
  else .handle .skip

/-- `ProcessTables`: the marker at which it stops. Every round reads a marker. -/
def processTables (s : Decoder) : Option (UInt8 × Decoder) :=
  match s.getNextMarker with
  | none => none
  | some (c, s') =>
    match actionOf c with
    | .stop => some (c, s')
    | .error => none
    | .handle h =>
      match h.run s' with
      | none => none
      | some s'' => if s''.rest.length < s.rest.length then processTables s'' else none
termination_by s.rest.length

/-- The search for SOI at the start of `ParseHead`. -/
def findSOI (s : Decoder) : Option Decoder :=
  match s.getNextMarker with
  | none => none
  | some (c, s') =>
    if c = markerEOI then none
    else if c = markerSOI then some s'
    else if s'.rest.length < s.rest.length then findSOI s'
    else none
termination_by s.rest.length

/-- `ParseHead` -/
def parseHead (s : Decoder) : Option Decoder := do
  let s ← findSOI s
  let (c, s) ← processTables s
  if c = markerSOS then getSOS s else none

/-- The codec as `JPEG_FWParseHead` clears it, with the tables of `GetHuffTbl` allocated. -/
def Codec.init : Codec where
  progressiveMode := false
  inputWidth := 0
  inputHeight := 0
  inputMcuInfo := .yuv444
  numComponents := 0
  compInfo := []
  tblMap := List.replicate 3 ⟨0, 0, 0⟩
  dcHuffTbl := List.replicate 4 ⟨List.replicate 17 0, List.replicate 257 0⟩
  acHuffTbl := List.replicate 4 ⟨List.replicate 17 0, List.replicate 257 0⟩
  quantTbl := List.replicate 3 none
  restartInterval := 0
  restartToGo := 0
  nextRestartNum := 0
  compsInScan := 0
  compIdMap := List.replicate 3 0
  ss := 0
  se := 0
  ah := 0
  al := 0
  inputScanNumber := 0

/-! ## What is read -/

/-- Every round of `ParseHead` and `ProcessTables` reads a marker. -/
theorem nextMarker_shrinks (seen : Bool) (rest : List UInt8) :
    ∀ c r, nextMarker seen rest = some (c, r) → r.length < rest.length := by
  induction rest generalizing seen with
  | nil => exact fun _ _ => nofun
  | cons b rest ih =>
    intro c r h
    rw [List.length_cons]
    unfold nextMarker at h
    split at h
    · exact Nat.lt_succ_of_lt (ih _ c r h)
    split at h
    · exact Nat.lt_succ_of_lt (ih _ c r h)
    split at h
    · exact Nat.lt_succ_of_lt (ih _ c r h)
    · cases h
      exact Nat.lt_succ_self _

theorem Decoder.getNextMarker_shrinks {d d' : Decoder} {c : UInt8}
    (h : d.getNextMarker = some (c, d')) : d'.rest.length < d.rest.length := by
  unfold Decoder.getNextMarker at h
  split at h
  · cases h
  · next hmark =>
    cases h
    exact nextMarker_shrinks _ _ _ _ hmark

namespace Decoder

variable {s s' s'' : Decoder} {n m : Nat}

/-- From `s` to `s'` the next `n` bytes have been read. -/
def Took (s : Decoder) (n : Nat) (s' : Decoder) : Prop :=
  n ≤ s.rest.length ∧ s'.rest = s.rest.drop n

theorem Took.refl (s : Decoder) : s.Took 0 s := ⟨Nat.zero_le _, rfl⟩

theorem Took.trans (h : s.Took n s') (h' : s'.Took m s'') : s.Took (n + m) s'' := by
  obtain ⟨hle, hrest⟩ := h
  obtain ⟨hle', hrest'⟩ := h'
  rw [hrest, List.length_drop] at hle'
  refine ⟨by omega, ?_⟩
  rw [hrest', hrest, List.drop_drop]

theorem Took.length (h : s.Took n s') : s'.rest.length + n = s.rest.length := by
  rw [h.2, List.length_drop]
  exact Nat.sub_add_cancel h.1

theorem Took.congr (h : s.Took n s') (hr : s''.rest = s'.rest) : s.Took n s'' :=
  ⟨h.1, hr.trans h.2⟩

end Decoder

end SprdHal.Jpeg
