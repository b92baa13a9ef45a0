import SprdHal.Jpeg.Parse
import SprdHal.Jpeg.HuffLanes
import SprdHal.Lib.Requests

/-!
# The header parser as a reader (`jpegdec_parse.c`)

`ParseHead` as a program that asks for the next byte and for memory, and that writes its results
where the source writes them: what a segment has set stays when the rest of it fails. An access
outside of its table stops the parser, for what happens then is not determined.

The two loops that look for a marker and the loop over the segments get a number of rounds.
-/

namespace SprdHal.Jpeg

open Lib (Prog)

/-- What the parser asks for: `get_char` and `JpegDec_ExtraMemAlloc`. -/
inductive Request
  | getChar
  | alloc (size : Nat)

/-- `get_char` fails at the end of the stream. -/
def Request.Answer : Request → Type
  | getChar => Option UInt8
  | alloc _ => Unit

/-- Why the parser stops: `JPEG_FAILED`, or an access outside of its table. -/
inductive Stop
  | failed | fault
  deriving DecidableEq, Repr

/-- All that the parser sets. -/
structure Head where
  codec : Codec
  usingDefaultHuffTab : Bool
  usingDefaultQuantTab : Bool
  huffTblMalloced : Bool
  deriving DecidableEq

/-- A part of the parser. -/
def Reading (α : Type) : Type := Head → Prog Request.Answer (Except Stop α × Head)

namespace Reading

variable {α β : Type}

def bind (m : Reading α) (f : α → Reading β) : Reading β := fun s =>
  (m s).bind fun
    | (.ok a, s') => f a s'
    | (.error e, s') => .done (.error e, s')

instance : Monad Reading where
  pure a := fun s => .done (.ok a, s)
  bind := Reading.bind

def stop (e : Stop) : Reading α := fun s => .done (.error e, s)

/-- `JPEG_FAILED` -/
def fail : Reading α := stop .failed

/-- An access to entry `i` of a table. -/
def inside (i bound : Nat) : Reading Unit := if i < bound then pure () else stop .fault

def head : Reading Head := fun s => .done (.ok s, s)

def setHead (f : Head → Head) : Reading Unit := fun s => .done (.ok (), f s)

def update (f : Codec → Codec) : Reading Unit := setHead fun s => { s with codec := f s.codec }

/-- `get_char`, where all callers fail if it does. -/
def getChar : Reading UInt8 := fun s =>
  .request .getChar fun
    | none => .done (.error .failed, s)
    | some c => .done (.ok c, s)

/-- `get_short_word` -/
def getShortWord : Reading Nat := do
  let value0 ← getChar
  let value1 ← getChar
  return value0.toNat * 256 + value1.toNat

/-- `JpegDec_ExtraMemAlloc`, which asserts that the size is not 0. -/
def alloc (size : Nat) : Reading Unit := fun s =>
  if size = 0 then .done (.error .fault, s) else .request (.alloc size) fun _ => .done (.ok (), s)

/-- A loop of `n` rounds from number `i` on. -/
def repeatFrom (body : Nat → Reading Unit) : Nat → Nat → Reading Unit
  | 0, _ => pure ()
  | n + 1, i => do
    body i
    repeatFrom body n (i + 1)

/-- A loop that drops `n` bytes. -/
def skipChars (n : Nat) : Reading Unit :=
  repeatFrom (fun _ => do let _ ← getChar) n 0

/-! ## Segments -/

/-- `component_index` and `component_id` of the next component. -/
def startComponent (ci : Nat) (id : UInt8) (codec : Codec) : Codec :=
  { codec with compInfo := codec.compInfo ++ [⟨ci, id.toNat, 0, 0, 0, 0⟩] }

/-- The sample factors of component `ci`. -/
def setRatio (ci : Nat) (ratio : UInt8) (codec : Codec) : Codec :=
  let h := ratio.toNat / 16
  let v := ratio.toNat % 16
  { codec with
    compInfo := codec.compInfo.modify ci fun info =>
      { info with
        hSampFactor := h
        vSampFactor := v
        mcuWidth := if ci = 0 then h else 1
        mcuHeight := if ci = 0 then v else 1 } }

/-- The loop of `GetSOF` over the components. -/
def getSOFComponent (ci : Nat) : Reading Unit := do
  let id ← getChar
  update (startComponent ci id)
  -- `yuv_id` is a signed byte
  if id.toNat < 1 ∨ 3 < id.toNat then fail
  else
    let ratio ← getChar
    update (setRatio ci ratio)
    let quant ← getChar
    if 2 < quant.toNat then fail
    else
      update fun codec =>
        { codec with
          tblMap := codec.tblMap.modify (id.toNat - 1) fun m =>
            { m with quantTblId := quant.toNat } }

/-- The end of `GetSOF`: the sample format. -/
def setMcuInfo : Reading Unit := do
  let codec := (← head).codec
  if codec.numComponents = 1 then update fun codec => { codec with inputMcuInfo := .yuv400 }
  else
    match mcuInfoOf (sampleRatio codec.compInfo 0) with
    | none => fail
    | some info =>
      update fun codec => { codec with inputMcuInfo := info }
      if sampleRatio codec.compInfo 1 ≠ 0x11 then fail
      else if 2 < codec.numComponents ∧ sampleRatio codec.compInfo 2 ≠ 0x11 then fail
      else pure ()

/-- `sizeof(jpeg_component_info)` -/
def sizeofComponentInfo : Nat := 16

/-- `GetSOF` -/
def getSOF (isProgressive : Bool) : Reading Unit := do
  update fun codec => { codec with progressiveMode := isProgressive }
  let length ← getShortWord
  if length < 8 then fail
  else
    let precision ← getChar
    if precision ≠ 8 then fail
    else
      let height ← getShortWord
      let width ← getShortWord
      update fun codec => { codec with inputHeight := height, inputWidth := width }
      let componentNum ← getChar
      if length ≠ componentNum.toNat * 3 + 8 then fail
      else
        update fun codec => { codec with numComponents := componentNum.toNat }
        alloc (componentNum.toNat * sizeofComponentInfo)
        update fun codec => { codec with compInfo := [] }
        repeatFrom getSOFComponent componentNum.toNat 0
        setMcuInfo

/-- The loop of `GetSOS` over the components. -/
def getSOSComponent (i : Nat) : Reading Unit := do
  let cc ← getChar
  let c ← getChar
  if cc.toNat ≠ i + 1 then fail
  else
    inside i 3
    update fun codec => codec.setScanTbl i cc c

/-- `GetSOS` -/
def getSOS : Reading Unit := do
  let length ← getShortWord
  if length < 3 then fail
  else
    let n ← getChar
    if length - 3 ≠ n.toNat * 2 + 3 then fail
    else
      update fun codec => { codec with compsInScan := n.toNat }
      repeatFrom getSOSComponent n.toNat 0
      let ss ← getChar
      let se ← getChar
      update fun codec => { codec with ss := ss.toNat, se := se.toNat }
      let c ← getChar
      update fun codec =>
        { codec with
          ah := c.toNat / 16
          al := c.toNat % 16
          nextRestartNum := 0
          inputScanNumber := (codec.inputScanNumber + 1) % 256 }

/-- `SkipVariable` -/
def skipVariable : Reading Unit := do
  let length ← getShortWord
  if length < 2 then fail else skipChars (length - 2)

/-- `GetDRI` -/
def getDRI : Reading Unit := do
  let length ← getShortWord
  if length ≠ 4 then fail
  else
    let interval ← getShortWord
    update fun codec =>
      { codec with restartInterval := interval, restartToGo := interval, nextRestartNum := 0 }

/-- `GetAPP0`. A segment that is too short for JFIF is not skipped. -/
def getAPP0 : Reading Unit := do
  let length ← getShortWord
  if length < 2 then fail
  else if jfifLen ≤ length - 2 then
    skipChars jfifLen
    skipChars (length - 2 - jfifLen)
  else pure ()

/-! ## Huffman tables -/

/-- `jpeg_fw_lum_ac_huffvalue_default` -/
def lumAcHuffvalueDefault : List UInt8 :=
  [0x01, 0x02, 0x03, 0x00, 0x04, 0x11, 0x05, 0x12, 0x21, 0x31, 0x41, 0x06, 0x13, 0x51, 0x61, 0x07,
    0x22, 0x71, 0x14, 0x32, 0x81, 0x91, 0xA1, 0x08, 0x23, 0x42, 0xB1, 0xC1, 0x15, 0x52, 0xD1, 0xF0,
    0x24, 0x33, 0x62, 0x72, 0x82, 0x09, 0x0A, 0x16, 0x17, 0x18, 0x19, 0x1A, 0x25, 0x26, 0x27, 0x28,
    0x29, 0x2A, 0x34, 0x35, 0x36, 0x37, 0x38, 0x39, 0x3A, 0x43, 0x44, 0x45, 0x46, 0x47, 0x48, 0x49,
    0x4A, 0x53, 0x54, 0x55, 0x56, 0x57, 0x58, 0x59, 0x5A, 0x63, 0x64, 0x65, 0x66, 0x67, 0x68, 0x69,
    0x6A, 0x73, 0x74, 0x75, 0x76, 0x77, 0x78, 0x79, 0x7A, 0x83, 0x84, 0x85, 0x86, 0x87, 0x88, 0x89,
    0x8A, 0x92, 0x93, 0x94, 0x95, 0x96, 0x97, 0x98, 0x99, 0x9A, 0xA2, 0xA3, 0xA4, 0xA5, 0xA6, 0xA7,
    0xA8, 0xA9, 0xAA, 0xB2, 0xB3, 0xB4, 0xB5, 0xB6, 0xB7, 0xB8, 0xB9, 0xBA, 0xC2, 0xC3, 0xC4, 0xC5,
    0xC6, 0xC7, 0xC8, 0xC9, 0xCA, 0xD2, 0xD3, 0xD4, 0xD5, 0xD6, 0xD7, 0xD8, 0xD9, 0xDA, 0xE1, 0xE2,
    0xE3, 0xE4, 0xE5, 0xE6, 0xE7, 0xE8, 0xE9, 0xEA, 0xF1, 0xF2, 0xF3, 0xF4, 0xF5, 0xF6, 0xF7, 0xF8,
    0xF9, 0xFA] ++ List.replicate 94 0

/-- `jpeg_fw_chr_ac_bits_default` -/
def chrAcBitsDefault : List UInt8 := [0, 0, 2, 1, 2, 4, 4, 3, 4, 7, 5, 4, 4, 0, 1, 2, 0x77]

/-- `jpeg_fw_chr_ac_huffvalue_default` -/
def chrAcHuffvalueDefault : List UInt8 :=
  [0x00, 0x01, 0x02, 0x03, 0x11, 0x04, 0x05, 0x21, 0x31, 0x06, 0x12, 0x41, 0x51, 0x07, 0x61, 0x71,
    0x13, 0x22, 0x32, 0x81, 0x08, 0x14, 0x42, 0x91, 0xA1, 0xB1, 0xC1, 0x09, 0x23, 0x33, 0x52, 0xF0,
    0x15, 0x62, 0x72, 0xD1, 0x0A, 0x16, 0x24, 0x34, 0xE1, 0x25, 0xF1, 0x17, 0x18, 0x19, 0x1A, 0x26,
    0x27, 0x28, 0x29, 0x2A, 0x35, 0x36, 0x37, 0x38, 0x39, 0x3A, 0x43, 0x44, 0x45, 0x46, 0x47, 0x48,
    0x49, 0x4A, 0x53, 0x54, 0x55, 0x56, 0x57, 0x58, 0x59, 0x5A, 0x63, 0x64, 0x65, 0x66, 0x67, 0x68,
    0x69, 0x6A, 0x73, 0x74, 0x75, 0x76, 0x77, 0x78, 0x79, 0x7A, 0x82, 0x83, 0x84, 0x85, 0x86, 0x87,
    0x88, 0x89, 0x8A, 0x92, 0x93, 0x94, 0x95, 0x96, 0x97, 0x98, 0x99, 0x9A, 0xA2, 0xA3, 0xA4, 0xA5,
    0xA6, 0xA7, 0xA8, 0xA9, 0xAA, 0xB2, 0xB3, 0xB4, 0xB5, 0xB6, 0xB7, 0xB8, 0xB9, 0xBA, 0xC2, 0xC3,
    0xC4, 0xC5, 0xC6, 0xC7, 0xC8, 0xC9, 0xCA, 0xD2, 0xD3, 0xD4, 0xD5, 0xD6, 0xD7, 0xD8, 0xD9, 0xDA,
    0xE2, 0xE3, 0xE4, 0xE5, 0xE6, 0xE7, 0xE8, 0xE9, 0xEA, 0xF2, 0xF3, 0xF4, 0xF5, 0xF6, 0xF7, 0xF8,
    0xF9, 0xFA] ++ List.replicate 94 0

/-- `default_bits` and `default_huffval` for a class and number of a table. The DC tables have
`DC_SYMBOL_NUM` symbols. -/
def defaultTbl (index : Nat) : HuffTbl :=
  if index &&& 0x10 ≠ 0 then
    if index = 0x10 then ⟨lumAcBitsDefault, lumAcHuffvalueDefault⟩
    else ⟨chrAcBitsDefault, chrAcHuffvalueDefault⟩
  else if index = 0 then ⟨lumDcDefault.bits, lumDcDefault.huffval.take 12⟩
  else ⟨chrDcDefault.bits, chrDcDefault.huffval.take 12⟩

/-- `htblptr` -/
def modifyHuffTbl (index : Nat) (f : HuffTbl → HuffTbl) (codec : Codec) : Codec :=
  if index &&& 0x10 ≠ 0 then
    { codec with acHuffTbl := codec.acHuffTbl.modify (index - 0x10) f }
  else { codec with dcHuffTbl := codec.dcHuffTbl.modify index f }

/-- An entry that differs from the default table. -/
def compareDefault (c : UInt8) (default? : Option UInt8) : Reading Unit :=
  setHead fun s =>
    { s with usingDefaultHuffTab := s.usingDefaultHuffTab && decide (default? = some c) }

/-- The loop of `GetHuffTbl` over `bits`: the number of symbols. -/
def getBits (index : Nat) : Nat → Nat → Nat → Reading Nat
  | 0, _, count => pure count
  | n + 1, i, count => do
    let c ← getChar
    update (modifyHuffTbl index fun t => { t with bits := t.bits.set i c })
    compareDefault c (defaultTbl index).bits[i]?
    getBits index n (i + 1) (count + c.toNat)

/-- The loop of `GetHuffTbl` over `huffval`. -/
def getHuffval (index i : Nat) : Reading Unit := do
  let c ← getChar
  update (modifyHuffTbl index fun t => { t with huffval := t.huffval.set i c })
  inside i (defaultTbl index).huffval.length
  compareDefault c (defaultTbl index).huffval[i]?

/-- `bits` and `huffval` of one DC and one AC table. -/
def allocHuffTbl (_ : Nat) : Reading Unit := do
  alloc 17
  alloc 257
  alloc 17
  alloc 257

/-- The start of `GetHuffTbl`. The memory has been cleared. -/
def allocHuffTbls : Reading Unit := do
  if (← head).huffTblMalloced then pure ()
  else
    repeatFrom allocHuffTbl 4 0
    setHead fun s =>
      { s with
        codec := { s.codec with
          dcHuffTbl := List.replicate 4 ⟨List.replicate 17 0, List.replicate 257 0⟩
          acHuffTbl := List.replicate 4 ⟨List.replicate 17 0, List.replicate 257 0⟩ }
        huffTblMalloced := true }

/-- One table of `GetHuffTbl`: the number of its symbols. -/
def getOneHuffTbl : Reading Nat := do
  let c ← getChar
  let index := c.toNat &&& 0x13
  update (modifyHuffTbl index fun t => { t with bits := t.bits.set 0 0 })
  let count ← getBits index 16 1 0
  if 256 < count then fail
  else
    repeatFrom (getHuffval index) count 0
    return count

/-- The loop of `GetHuffTbl`. -/
def getHuffTblLoop (length : Nat) : Reading Unit :=
  if 0 < length then do
    let count ← getOneHuffTbl
    if length < 1 + 16 + count then fail else getHuffTblLoop (length - (1 + 16 + count))
  else pure ()
termination_by length
decreasing_by omega

/-- `GetHuffTbl` -/
def getHuffTbl : Reading Unit := do
  allocHuffTbls
  let length ← getShortWord
  if length < 2 then fail else getHuffTblLoop (length - 2)

/-! ## Quantisation tables -/

/-- An entry of a table of `GetQuantTbl`: a byte, or a word of which the high byte is dropped. -/
def getQuantValue (prec : Nat) : Reading UInt8 :=
  if prec = 0 then getChar
  else do
    let w ← getShortWord
    return UInt8.ofNat w

/-- Entry number `j` of table `n` of `GetQuantTbl`. -/
def getQuantEntry (n prec j : Nat) : Reading Unit := do
  let c ← getQuantValue prec
  update fun codec =>
    { codec with
      quantTbl := codec.quantTbl.modify n (·.map (·.set (zigzagOrder.getD j 0) c)) }

/-- The loop of `GetQuantTbl`, with `has_two_chroma_quant_tbl`. -/
def getQuantTblLoop (length : Nat) (twoChroma : Bool) : Reading Bool :=
  if 0 < length then do
    let c ← getChar
    let prec := c.toNat / 16
    let n := c.toNat % 16
    if 2 < n then fail
    else
      alloc 64
      update fun codec =>
        { codec with quantTbl := codec.quantTbl.set n (some (List.replicate 64 0)) }
      repeatFrom (getQuantEntry n prec) 64 0
      if length < 64 + 1 + 64 * prec then fail
      else
        getQuantTblLoop (length - (64 + 1 + 64 * prec)) (twoChroma || decide (1 < n))
  else pure twoChroma
termination_by length
decreasing_by omega

/-- `GetQuantTbl`. Two chroma tables must be the same. -/
def getQuantTbl : Reading Unit := do
  setHead fun s => { s with usingDefaultQuantTab := false }
  let length ← getShortWord
  if length < 2 then fail
  else
    if ← getQuantTblLoop (length - 2) false then
      let codec := (← head).codec
      match codec.quantTbl[1]?.join, codec.quantTbl[2]?.join with
      | some u, some v => if u ≠ v then fail else pure ()
      | _, _ => stop .fault
    else pure ()

/-! ## The header -/

def handle : Handler → Reading Unit
  | .sof isProgressive => getSOF isProgressive
  | .sos => getSOS
  | .skip => skipVariable
  | .dri => getDRI
  | .app0 => getAPP0
  | .dht => getHuffTbl
  | .dqt => getQuantTbl

/-- `GetNextMarker`, with a number of rounds; `seen` says whether the byte before was `FF`. -/
def getNextMarker : Nat → Bool → Reading (Option UInt8)
  | 0, _ => pure none
  | n + 1, seen => do
    let c ← getChar
    if seen = false then getNextMarker n (c == 0xFF)
    else if c = 0xFF then getNextMarker n true
    else if c = 0 then getNextMarker n false
    else pure (some c)

/-- `ProcessTables`: the marker at which it stops. -/
def processTables (rounds : Nat) : Nat → Reading (Option UInt8)
  | 0 => pure none
  | n + 1 => do
    match ← getNextMarker rounds false with
    | none => pure none
    | some c =>
      match actionOf c with
      | .stop => pure (some c)
      | .error => fail
      | .handle h =>
        handle h
        processTables rounds n

/-- The search for SOI at the start of `ParseHead`. -/
def findSOI (rounds : Nat) : Nat → Reading (Option Unit)
  | 0 => pure none
  | n + 1 => do
    match ← getNextMarker rounds false with
    | none => pure none
    | some c =>
      if c = markerEOI then fail
      else if c = markerSOI then pure (some ())
      else findSOI rounds n

/-- `ParseHead`, if the number of rounds is enough. -/
def parseHead (rounds : Nat) : Reading (Option Unit) := do
  match ← findSOI rounds rounds with
  | none => pure none
  | some () =>
    match ← processTables rounds rounds with
    | none => pure none
    | some c =>
      if c = markerSOS then
        getSOS
        pure (some ())
      else fail

end Reading

end SprdHal.Jpeg
