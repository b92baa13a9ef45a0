import SprdHal.Exif.Info
import SprdHal.Lib.Tiff

/-!
# Writing APP1 (`exif_writer.c`, `jpeg_stream.c`)

`Jpeg_WriteAPP1` writes a TIFF header, IFD0 with its sub-directories and, if there is a thumbnail, IFD1
into a buffer. Entries and values are written at two places that move on independently; a directory
reserves room for all of its entries and rewrites their number at the end.

The stream has no file behind it. Values are read from the memory of the target, in which words are
little-endian.
-/

namespace SprdHal.Exif

open Lib

/-! ## The stream -/

/-- `JPEG_WRITE_STREAM_CONTEXT_T` -/
structure Stream where
  buf : List UInt8
  pos : Nat

/-- The values of `JPEG_RET_E` other than `JPEG_SUCCESS` that the writer returns. -/
inductive Ret
  | failed | invalidArgument | memoryNotEnough
  deriving DecidableEq, Repr

/-- What has been written stays in the buffer when the writer fails. -/
abbrev Write := EStateM Ret Stream

/-- `Jpeg_SetWritePos` -/
def setWritePos (offset : Nat) : Write Bool := fun s =>
  if s.buf.length < offset then .ok false s else .ok true { s with pos := offset }

/-- `Jpeg_GetWritePos` -/
def getWritePos : Write Nat := fun s => .ok s.pos s

/-- `Jpeg_WriteC` -/
def writeC (c : UInt8) : Write Bool := fun s =>
  if s.buf.length ≤ s.pos then .ok false s else .ok true ⟨patch s.buf s.pos [c], s.pos + 1⟩

/-- Calls of `Jpeg_WriteC` up to the first that fails. `Jpeg_WriteBlock` is such a loop. -/
def writeCs : List UInt8 → Write Bool
  | [] => return true
  | c :: cs => do if ← writeC c then writeCs cs else return false

/-- `Jpeg_WriteW` -/
def writeW (w : UInt16) : Write Bool := writeCs (beShort w)

/-- `Jpeg_WriteL`: all four bytes or none. -/
def writeL (l : UInt32) : Write Bool := fun s =>
  if s.buf.length < s.pos + 4 then .ok false s
  else .ok true ⟨patch s.buf s.pos (beLong l), s.pos + 4⟩

/-- Calls of `Jpeg_WriteW` up to the first that fails. -/
def writeWs : List UInt16 → Write Bool
  | [] => return true
  | w :: ws => do if ← writeW w then writeWs ws else return false

/-- Calls of `Jpeg_WriteL` up to the first that fails. -/
def writeLs : List UInt32 → Write Bool
  | [] => return true
  | l :: ls => do if ← writeL l then writeLs ls else return false

/-- `JPEG_WRITE_DATA` with `return FALSE` or `return JPEG_FAILED`: every caller of a function that
returns `FALSE` here returns `JPEG_FAILED`. -/
def orFail (m : Write Bool) : Write Unit := do
  if ← m then return () else throw .failed

section Bind

variable {α β : Type} {s s' : Stream} {m : Write α} {f : α → Write β}

theorem bind_ok {a : α} (h : m s = .ok a s') : (m >>= f) s = f a s' := by
  show EStateM.bind m f s = f a s'
  simp only [EStateM.bind, h]

theorem bind_error {e : Ret} (h : m s = .error e s') : (m >>= f) s = .error e s' := by
  show EStateM.bind m f s = .error e s'
  simp only [EStateM.bind, h]

theorem bind_orFail {m : Write Bool} {f : Unit → Write β} (h : m s = .ok true s') :
    (orFail m >>= f) s = f () s' :=
  bind_ok (bind_ok h)

end Bind

/-! ## Memory of the target -/

/-- The word at byte offset `i`. -/
def leShort (bs : List UInt8) (i : Nat) : UInt16 := ofBytes2 (bs.getD (i + 1) 0) (bs.getD i 0)

/-- A word in memory. -/
def leShortBytes (w : UInt16) : List UInt8 := [UInt8.ofNat w.toNat, UInt8.ofNat (w.toNat / 256)]

/-- The first `n` words. -/
def shortsAt (bs : List UInt8) (n : Nat) : List UInt16 :=
  (List.range n).map fun i => leShort bs (2 * i)

/-- The first `n` long words. -/
def longsAt (bs : List UInt8) (n : Nat) : List UInt32 :=
  (List.range n).map fun i => leWord bs (4 * i)

/-- `_GetAsciiStringSize` -/
def getAsciiStringSize (bs : List UInt8) : Nat := (bs.takeWhile (· ≠ 0)).length

/-- `JPEG_ALIGN_4` -/
def align4 (n : Nat) : Nat := (n + 3) / 4 * 4

theorem le_align4 (n : Nat) : n ≤ align4 n := by
  unfold align4
  omega

theorem dvd_align4 (n : Nat) : 4 ∣ align4 n := ⟨(n + 3) / 4, Nat.mul_comm _ _⟩

theorem align4_of_dvd {n : Nat} (h : 4 ∣ n) : align4 n = n := by
  unfold align4
  omega

theorem align4_add {v n : Nat} (h : 4 ∣ v) : align4 (v + n) = v + align4 n := by
  unfold align4
  omega

/-! ## One entry -/

/-- `IFD_INFO_T`: the union `value_offset` as its four bytes in memory, and the memory at
`value_ptr`, which is never null. -/
structure IfdInfo where
  tag : UInt16
  type : TiffType
  count : Nat
  valueOffset : List UInt8
  value : List UInt8

/-- What `Jpeg_WriteIFD` writes as the value or its offset. -/
def IfdInfo.offsetValue (info : IfdInfo) : UInt32 :=
  let u := info.valueOffset
  match info.type with
  | .byte | .ascii | .undefined =>
    if info.count ≤ 4 then ofBytes4 (u.getD 0 0) (u.getD 1 0) (u.getD 2 0) (u.getD 3 0)
    else leWord u 0
  | .short =>
    if info.count ≤ 2 then
      UInt32.ofNat ((leShort u 0).toNat * 65536 + (leShort u 2).toNat)
    else leWord u 0
  | _ => leWord u 0

/-- `Jpeg_WriteIFD` -/
def writeIFD (info : IfdInfo) : Write Unit := do
  orFail (writeW info.tag)
  orFail (writeW info.type.code)
  orFail (writeL (UInt32.ofNat info.count))
  orFail (writeL info.offsetValue)

/-- `Jpeg_WriteRationalIFD`; it returns the two offsets. -/
def writeRationalIFD (info : IfdInfo) (ifdOffset valueOffset : Nat) : Write (Nat × Nat) := do
  orFail (setWritePos ifdOffset)
  writeIFD info
  let ifdOffset ← getWritePos
  orFail (setWritePos valueOffset)
  orFail (writeLs (longsAt info.value (2 * info.count)))
  let valueOffset ← getWritePos
  return (ifdOffset, align4 valueOffset)

/-- A single long word goes into the union. -/
def IfdInfo.inlineLong (info : IfdInfo) : IfdInfo :=
  if info.count ≤ 1 then { info with valueOffset := leBytes (leWord info.value 0) } else info

/-- `Jpeg_WriteLongIFD` -/
def writeLongIFD (info : IfdInfo) (ifdOffset valueOffset : Nat) : Write (Nat × Nat) := do
  orFail (setWritePos ifdOffset)
  writeIFD info.inlineLong
  let ifdOffset ← getWritePos
  if 1 < info.count then
    orFail (setWritePos valueOffset)
    orFail (writeLs (longsAt info.value info.count))
    let valueOffset ← getWritePos
    return (ifdOffset, align4 valueOffset)
  else
    return (ifdOffset, valueOffset)

/-- One or two words go into the union, which is cleared before. -/
def IfdInfo.inlineShort (info : IfdInfo) : IfdInfo :=
  if info.count ≤ 2 then
    { info with
      valueOffset := leShortBytes (leShort info.value 0) ++
        if info.count = 2 then leShortBytes (leShort info.value 2) else [0, 0] }
  else info

/-- `Jpeg_WriteShortIFD`. If a value cannot be written it returns `JPEG_FAILED`, which is not
`FALSE`, and the offsets stay as they were. -/
def writeShortIFD (info : IfdInfo) (ifdOffset valueOffset : Nat) : Write (Nat × Nat) := do
  orFail (setWritePos ifdOffset)
  writeIFD info.inlineShort
  let ifdOffset' ← getWritePos
  if 2 < info.count then
    orFail (setWritePos valueOffset)
    if ← writeWs (shortsAt info.value info.count) then
      let valueOffset ← getWritePos
      return (ifdOffset', align4 valueOffset)
    else
      return (ifdOffset, valueOffset)
  else
    return (ifdOffset', valueOffset)

/-- Up to four bytes go into the union, over its first bytes only. -/
def IfdInfo.inlineByte (info : IfdInfo) : IfdInfo :=
  if info.count ≤ 4 then
    { info with valueOffset := info.value.take info.count ++ info.valueOffset.drop info.count }
  else info

/-- `Jpeg_WriteByteIFD`, with the same return as `Jpeg_WriteShortIFD`. -/
def writeByteIFD (info : IfdInfo) (ifdOffset valueOffset : Nat) : Write (Nat × Nat) := do
  orFail (setWritePos ifdOffset)
  writeIFD info.inlineByte
  let ifdOffset' ← getWritePos
  if 4 < info.count then
    orFail (setWritePos valueOffset)
    if ← writeCs (info.value.take info.count) then
      let valueOffset ← getWritePos
      return (ifdOffset', align4 valueOffset)
    else
      return (ifdOffset, valueOffset)
  else
    return (ifdOffset', valueOffset)

/-- The four writers. -/
inductive Writer
  | rational | long | short | byte
  deriving DecidableEq, Repr

def Writer.run : Writer → IfdInfo → Nat → Nat → Write (Nat × Nat)
  | rational => writeRationalIFD
  | long => writeLongIFD
  | short => writeShortIFD
  | byte => writeByteIFD

/-! ## Blocks of entries -/

/-- One `if` of the source: when it writes an entry, and which. -/
structure Block where
  present : Bool
  tag : UInt16
  type : TiffType
  count : Nat
  writer : Writer
  value : List UInt8

/-- `ifd_offset`, `ifd_value_offset` and `entries`. -/
structure Cursor where
  ifdOffset : Nat
  valueOffset : Nat
  entries : Nat

def Block.write (ifhOffset : Nat) (c : Cursor) (b : Block) : Write Cursor :=
  if b.present then do
    let info := ⟨b.tag, b.type, b.count, leBytes (UInt32.ofNat (c.valueOffset - ifhOffset)), b.value⟩
    let (ifdOffset, valueOffset) ← b.writer.run info c.ifdOffset c.valueOffset
    return ⟨ifdOffset, valueOffset, c.entries + 1⟩
  else
    return c

def writeBlocks (ifhOffset : Nat) : List Block → Cursor → Write Cursor
  | [], c => return c
  | b :: bs, c => do
    let c ← b.write ifhOffset c
    writeBlocks ifhOffset bs c

section Blocks

variable {n : Nat} (present : Bool) (tag : UInt16)

def hostRationals (l : List Rational) : List UInt8 :=
  l.flatMap fun r => leBytes r.numerator ++ leBytes r.denominator

def hostSRationals (l : List SRational) : List UInt8 :=
  l.flatMap fun r => leBytes r.numerator.toUInt32 ++ leBytes r.denominator.toUInt32

def rationalBlock (v : Vector Rational n) : Block :=
  ⟨present, tag, .rational, n, .rational, hostRationals v.toList⟩

def srationalBlock (v : Vector SRational n) : Block :=
  ⟨present, tag, .srational, n, .rational, hostSRationals v.toList⟩

def shortBlock (v : Vector UInt16 n) : Block :=
  ⟨present, tag, .short, n, .short, v.toList.flatMap leShortBytes⟩

def longBlock (l : UInt32) : Block := ⟨present, tag, .long, 1, .long, leBytes l⟩

/-- A fixed number of bytes of type `BYTE`, `ASCII` or `UNDEFINED`. -/
def byteBlock (type : TiffType) (v : Vector UInt8 n) : Block :=
  ⟨present, tag, type, n, .byte, v.toList⟩

/-- A string with its terminator. -/
def stringBlock (s : AsciiStr) : Block :=
  ⟨present, tag, .ascii, getAsciiStringSize s.chars.toList + 1, .byte, s.chars.toList⟩

/-- The buffer is an array, so only the count is looked at. -/
def customBlock (type : TiffType) (writer : Writer) {width : Nat} (c : Custom width) : Block :=
  ⟨present && decide (0 < c.count), tag, type, c.count.toNat, writer, c.ptr.toList⟩

end Blocks

/-! ## Directories -/

/-- The start of a directory: the largest number of entries, and where entries and values go. -/
def openIFD (maxEntries : Nat) (beginOffset : Nat) : Write Cursor := do
  -- the result is not looked at
  let _ ← setWritePos beginOffset
  orFail (writeW (UInt16.ofNat maxEntries))
  let ifdOffset ← getWritePos
  return ⟨ifdOffset, align4 (ifdOffset + maxEntries * 12 + 4), 0⟩

/-- The end of a directory: the next one and the number of entries. -/
def closeIFD (beginOffset : Nat) (next : UInt32) (c : Cursor) : Write Nat := do
  let _ ← setWritePos c.ifdOffset
  orFail (writeL next)
  let _ ← setWritePos beginOffset
  orFail (writeW (UInt16.ofNat c.entries))
  return c.valueOffset

/-- An entry that points to a directory, and the directory. -/
def writeSubIFD (ifhOffset : Nat) (tag : UInt16) (writeInfo : Nat → Write Nat) (c : Cursor) :
    Write Cursor := do
  let valueOffset := align4 c.valueOffset
  let offset := UInt32.ofNat (valueOffset - ifhOffset)
  let (ifdOffset, valueOffset) ←
    writeLongIFD ⟨tag, .long, 1, leBytes offset, leBytes offset⟩ c.ifdOffset valueOffset
  let valueOffset ← writeInfo valueOffset
  return ⟨ifdOffset, valueOffset, c.entries + 1⟩

/-- The same for a directory that there may be. -/
def writeOptIFD (ifhOffset : Nat) (tag : UInt16) (writeInfo : Option (Nat → Write Nat))
    (c : Cursor) : Write Cursor :=
  match writeInfo with
  | none => return c
  | some writeInfo => writeSubIFD ifhOffset tag writeInfo c

def interBlocks (inter : InteroperabilityInfo) : List Block :=
  [customBlock inter.validInteroperabilityIndex 0x0001 .ascii .byte inter.interoperabilityIndex]

/-- `Jpeg_WriteExifInteroperabilityInfo` -/
def writeExifInteroperabilityInfo (inter : InteroperabilityInfo) (ifhOffset beginOffset : Nat) :
    Write Nat := do
  let c ← openIFD 1 beginOffset
  let c ← writeBlocks ifhOffset (interBlocks inter) c
  closeIFD beginOffset 0 c

/-- `exif_version` -/
def exifVersion : Vector UInt8 4 := #v[0x30, 0x32, 0x32, 0x30]

/-- `flashpix_version` -/
def flashpixVersion : Vector UInt8 4 := #v[0x30, 0x31, 0x30, 0x30]

/-- The entries of the Exif directory before the pointer to the interoperability directory. The area of
the subject has words that are written as rationals, and the bits of the user's data are not looked
at. -/
def specBlocks (spec : SpecificInfo) : List Block :=
  let basic := spec.basic
  let hasPic := spec.picTakingCond.isSome
  let pic := spec.picTakingCond.getD default
  let hasDateTime := spec.dateTime.isSome
  let dateTime := spec.dateTime.getD default
  let hasConfig := spec.imgConfig.isSome
  let config := spec.imgConfig.getD default
  let hasUser := spec.user.isSome
  let user := spec.user.getD default
  let hasRelFile := spec.relatedFile.isSome
  let relFile := spec.relatedFile.getD default
  [rationalBlock (hasPic && pic.valid.exposureTime) 0x829A #v[pic.exposureTime],
    rationalBlock (hasPic && pic.valid.fNumber) 0x829D #v[pic.fNumber],
    shortBlock (hasPic && pic.valid.exposureProgram) 0x8822 #v[pic.exposureProgram],
    stringBlock (hasPic && pic.valid.spectralSensitivity) 0x8824 pic.spectralSensitivity,
    customBlock (hasPic && pic.valid.isoSpeedRatings) 0x8827 .short .short pic.isoSpeedRatings,
    customBlock (hasPic && pic.valid.oecf) 0x8828 .undefined .byte pic.oecf,
    byteBlock true 0x9000 .undefined exifVersion,
    byteBlock (hasDateTime && dateTime.valid.dateTimeOriginal) 0x9003 .ascii
      dateTime.dateTimeOriginal,
    byteBlock (hasDateTime && dateTime.valid.dateTimeDigitized) 0x9004 .ascii
      dateTime.dateTimeDigitized,
    byteBlock true 0x9101 .undefined basic.componentsConfiguration,
    rationalBlock (hasConfig && config.validCompressedBitsPerPixel) 0x9102
      #v[config.compressedBitsPerPixel],
    srationalBlock (hasPic && pic.valid.shutterSpeedValue) 0x9201 #v[pic.shutterSpeedValue],
    rationalBlock (hasPic && pic.valid.apertureValue) 0x9202 #v[pic.apertureValue],
    srationalBlock (hasPic && pic.valid.brightnessValue) 0x9203 #v[pic.brightnessValue],
    srationalBlock (hasPic && pic.valid.exposureBiasValue) 0x9204 #v[pic.exposureBiasValue],
    rationalBlock (hasPic && pic.valid.maxApertureValue) 0x9205 #v[pic.maxApertureValue],
    rationalBlock (hasPic && pic.valid.subjectDistance) 0x9206 #v[pic.subjectDistance],
    shortBlock (hasPic && pic.valid.meteringMode) 0x9207 #v[pic.meteringMode],
    shortBlock (hasPic && pic.valid.lightSource) 0x9208 #v[pic.lightSource],
    shortBlock (hasPic && pic.valid.flash) 0x9209 #v[pic.flash],
    rationalBlock (hasPic && pic.valid.focalLength) 0x920A #v[pic.focalLength],
    customBlock (hasPic && pic.valid.subjectArea) 0x9214 .short .rational pic.subjectArea,
    customBlock hasUser 0x927C .undefined .byte user.makerNote,
    customBlock hasUser 0x9286 .undefined .byte user.userComment,
    stringBlock (hasDateTime && dateTime.valid.subSecTime) 0x9290 dateTime.subSecTime,
    stringBlock (hasDateTime && dateTime.valid.subSecTimeOriginal) 0x9291
      dateTime.subSecTimeOriginal,
    stringBlock (hasDateTime && dateTime.valid.subSecTimeDigitized) 0x9292
      dateTime.subSecTimeDigitized,
    byteBlock true 0xA000 .undefined flashpixVersion,
    shortBlock true 0xA001 #v[basic.colorSpace],
    longBlock true 0xA002 basic.pixelXDimension,
    longBlock true 0xA003 basic.pixelYDimension,
    byteBlock (hasRelFile && relFile.validRelatedSoundFile) 0xA004 .ascii relFile.relatedSoundFile]

/-- The entries of the Exif directory after it. -/
def specTailBlocks (spec : SpecificInfo) : List Block :=
  let hasPic := spec.picTakingCond.isSome
  let pic := spec.picTakingCond.getD default
  let hasOther := spec.other.isSome
  let other := spec.other.getD default
  [rationalBlock (hasPic && pic.valid.flashEnergy) 0xA20B #v[pic.flashEnergy],
    customBlock (hasPic && pic.valid.spatialFrequencyResponse) 0xA20C .undefined .byte
      pic.spatialFrequencyResponse,
    rationalBlock (hasPic && pic.valid.focalPlaneXResolution) 0xA20E #v[pic.focalPlaneXResolution],
    rationalBlock (hasPic && pic.valid.focalPlaneYResolution) 0xA20F #v[pic.focalPlaneYResolution],
    shortBlock (hasPic && pic.valid.focalPlaneResolutionUnit) 0xA210
      #v[pic.focalPlaneResolutionUnit],
    shortBlock (hasPic && pic.valid.subjectLocation) 0xA214 pic.subjectLocation,
    rationalBlock (hasPic && pic.valid.exposureIndex) 0xA215 #v[pic.exposureIndex],
    shortBlock (hasPic && pic.valid.sensingMethod) 0xA217 #v[pic.sensingMethod],
    byteBlock (hasPic && pic.valid.fileSource) 0xA300 .undefined #v[pic.fileSource],
    byteBlock (hasPic && pic.valid.sceneType) 0xA301 .undefined #v[pic.sceneType],
    customBlock (hasPic && pic.valid.cfaPattern) 0xA302 .undefined .byte pic.cfaPattern,
    shortBlock (hasPic && pic.valid.customRendered) 0xA401 #v[pic.customRendered],
    shortBlock (hasPic && pic.valid.exposureMode) 0xA402 #v[pic.exposureMode],
    shortBlock (hasPic && pic.valid.whiteBalance) 0xA403 #v[pic.whiteBalance],
    rationalBlock (hasPic && pic.valid.digitalZoomRatio) 0xA404 #v[pic.digitalZoomRatio],
    shortBlock (hasPic && pic.valid.focalLengthIn35mmFilm) 0xA405 #v[pic.focalLengthIn35mmFilm],
    shortBlock (hasPic && pic.valid.sceneCaptureType) 0xA406 #v[pic.sceneCaptureType],
    shortBlock (hasPic && pic.valid.gainControl) 0xA407 #v[pic.gainControl],
    shortBlock (hasPic && pic.valid.contrast) 0xA408 #v[pic.contrast],
    shortBlock (hasPic && pic.valid.saturation) 0xA409 #v[pic.saturation],
    shortBlock (hasPic && pic.valid.sharpness) 0xA40A #v[pic.sharpness],
    customBlock (hasPic && pic.valid.deviceSettingDescription) 0xA40B .undefined .byte
      pic.deviceSettingDescription,
    shortBlock (hasPic && pic.valid.subjectDistanceRange) 0xA40C #v[pic.subjectDistanceRange],
    byteBlock (hasOther && other.validImageUniqueID) 0xA420 .ascii other.imageUniqueID]

/-- `Jpeg_WriteExifSpecInfo` -/
def writeExifSpecInfo (spec : SpecificInfo) (inter : Option InteroperabilityInfo)
    (ifhOffset beginOffset : Nat) : Write Nat := do
  let c ← openIFD 57 beginOffset
  let c ← writeBlocks ifhOffset (specBlocks spec) c
  let c ← writeOptIFD ifhOffset 0xA005
    (inter.map fun inter => writeExifInteroperabilityInfo inter ifhOffset) c
  let c ← writeBlocks ifhOffset (specTailBlocks spec) c
  closeIFD beginOffset 0 c

/-- The entries of the GPS directory. The destination longitude goes with the bit of the latitude. -/
def gpsBlocks (gps : GpsInfo) : List Block :=
  [byteBlock gps.valid.gpsVersionID 0x0000 .byte gps.gpsVersionID,
    byteBlock gps.valid.gpsLatitudeRef 0x0001 .ascii gps.gpsLatitudeRef,
    rationalBlock gps.valid.gpsLatitude 0x0002 gps.gpsLatitude,
    byteBlock gps.valid.gpsLongitudeRef 0x0003 .ascii gps.gpsLongitudeRef,
    rationalBlock gps.valid.gpsLongitude 0x0004 gps.gpsLongitude,
    byteBlock gps.valid.gpsAltitudeRef 0x0005 .byte #v[gps.gpsAltitudeRef],
    rationalBlock gps.valid.gpsAltitude 0x0006 #v[gps.gpsAltitude],
    rationalBlock gps.valid.gpsTimeStamp 0x0007 gps.gpsTimeStamp,
    stringBlock gps.valid.gpsSatellites 0x0008 gps.gpsSatellites,
    byteBlock gps.valid.gpsStatus 0x0009 .ascii gps.gpsStatus,
    byteBlock gps.valid.gpsMeasureMode 0x000A .ascii gps.gpsMeasureMode,
    rationalBlock gps.valid.gpsDOP 0x000B #v[gps.gpsDOP],
    byteBlock gps.valid.gpsSpeedRef 0x000C .ascii gps.gpsSpeedRef,
    rationalBlock gps.valid.gpsSpeed 0x000D #v[gps.gpsSpeed],
    byteBlock gps.valid.gpsTrackRef 0x000E .ascii gps.gpsTrackRef,
    rationalBlock gps.valid.gpsTrack 0x000F #v[gps.gpsTrack],
    byteBlock gps.valid.gpsImgDirectionRef 0x0010 .ascii gps.gpsImgDirectionRef,
    rationalBlock gps.valid.gpsImgDirection 0x0011 #v[gps.gpsImgDirection],
    stringBlock gps.valid.gpsMapDatum 0x0012 gps.gpsMapDatum,
    byteBlock gps.valid.gpsDestLatitudeRef 0x0013 .ascii gps.gpsDestLatitudeRef,
    rationalBlock gps.valid.gpsDestLatitude 0x0014 gps.gpsDestLatitude,
    byteBlock gps.valid.gpsDestLongitudeRef 0x0015 .ascii gps.gpsDestLongitudeRef,
    rationalBlock gps.valid.gpsDestLatitude 0x0016 gps.gpsDestLongitude,
    byteBlock gps.valid.gpsDestBearingRef 0x0017 .ascii gps.gpsDestBearingRef,
    rationalBlock gps.valid.gpsDestBearing 0x0018 #v[gps.gpsDestBearing],
    byteBlock gps.valid.gpsDestDistanceRef 0x0019 .ascii gps.gpsDestDistanceRef,
    rationalBlock gps.valid.gpsDestDistance 0x001A #v[gps.gpsDestDistance],
    customBlock gps.valid.gpsProcessingMethod 0x001B .undefined .byte gps.gpsProcessingMethod,
    customBlock gps.valid.gpsAreaInformation 0x001C .undefined .byte gps.gpsAreaInformation,
    byteBlock gps.valid.gpsDateStamp 0x001D .ascii gps.gpsDateStamp,
    shortBlock gps.valid.gpsDifferential 0x001E #v[gps.gpsDifferential]]

/-- `Jpeg_WriteExifGPSInfo` -/
def writeExifGPSInfo (gps : GpsInfo) (ifhOffset beginOffset : Nat) : Write Nat := do
  let c ← openIFD 31 beginOffset
  let c ← writeBlocks ifhOffset (gpsBlocks gps) c
  closeIFD beginOffset 0 c

/-- The size of the picture: a long word that goes through the writer of words. -/
def imageSizeBlock (tag : UInt16) (l : UInt32) : Block := ⟨true, tag, .long, 1, .short, leBytes l⟩

/-- The entries of IFD0 and IFD1 before those of the thumbnail. -/
def primaryBlocks (primary : PrimaryInfo) : List Block :=
  let basic := primary.basic
  let hasStruct := primary.dataStruct.isSome
  let dataStruct := primary.dataStruct.getD default
  let hasChar := primary.dataChar.isSome
  let dataChar := primary.dataChar.getD default
  let hasDesc := primary.imgDesc.isSome
  let imgDesc := primary.imgDesc.getD default
  [shortBlock (hasStruct && dataStruct.valid.reserved) 0x0103 #v[dataStruct.reserved],
    stringBlock (hasDesc && imgDesc.valid.imageDescription) 0x010E imgDesc.imageDescription,
    stringBlock (hasDesc && imgDesc.valid.make) 0x010F imgDesc.make,
    stringBlock (hasDesc && imgDesc.valid.model) 0x0110 imgDesc.model,
    shortBlock (hasStruct && dataStruct.valid.orientation) 0x0112 #v[dataStruct.orientation],
    rationalBlock true 0x011A #v[basic.xResolution],
    rationalBlock true 0x011B #v[basic.yResolution],
    shortBlock true 0x0128 #v[basic.resolutionUnit],
    shortBlock (hasChar && dataChar.valid.transferFunction) 0x012D dataChar.transferFunction,
    stringBlock (hasDesc && imgDesc.valid.software) 0x0131 imgDesc.software,
    byteBlock (hasDesc && imgDesc.valid.dateTime) 0x0132 .ascii imgDesc.dateTime,
    stringBlock (hasDesc && imgDesc.valid.artist) 0x013B imgDesc.artist,
    rationalBlock (hasChar && dataChar.valid.whitePoint) 0x013E dataChar.whitePoint,
    rationalBlock (hasChar && dataChar.valid.primaryChromaticities) 0x013F
      dataChar.primaryChromaticities]

/-- The entries of IFD0 and IFD1 after those of the thumbnail. -/
def primaryTailBlocks (primary : PrimaryInfo) : List Block :=
  let basic := primary.basic
  let hasChar := primary.dataChar.isSome
  let dataChar := primary.dataChar.getD default
  let hasDesc := primary.imgDesc.isSome
  let imgDesc := primary.imgDesc.getD default
  [rationalBlock (hasChar && dataChar.valid.yCbCrCoefficients) 0x0211 dataChar.yCbCrCoefficients,
    shortBlock true 0x0213 #v[basic.yCbCrPositioning],
    imageSizeBlock 0x0100 basic.imageWidth,
    imageSizeBlock 0x0101 basic.imageLength,
    rationalBlock (hasChar && dataChar.valid.referenceBlackWhite) 0x0214
      dataChar.referenceBlackWhite,
    stringBlock (hasDesc && imgDesc.valid.copyright) 0x8298 imgDesc.copyright]

/-- The entries of the thumbnail. Its offset is not known yet. -/
def thumbnailBlocks (thumbnail : List UInt8) : List Block :=
  [longBlock (decide (0 < thumbnail.length)) 0x0201 0,
    longBlock (decide (0 < thumbnail.length)) 0x0202 (UInt32.ofNat thumbnail.length)]

/-- The thumbnail itself and its offset. -/
def writeThumbnail (ifhOffset thumbnailIfdOffset : Nat) (thumbnail : List UInt8) (c : Cursor) :
    Write Cursor :=
  if 0 < thumbnail.length then do
    let offset := UInt32.ofNat (c.valueOffset - ifhOffset)
    let _ ← setWritePos c.valueOffset
    orFail (writeCs thumbnail)
    let valueOffset ← getWritePos
    let _ ← setWritePos thumbnailIfdOffset
    let (_, valueOffset) ←
      writeLongIFD ⟨0x0201, .long, 1, leBytes offset, leBytes offset⟩ thumbnailIfdOffset valueOffset
    return { c with valueOffset := valueOffset }
  else
    return c

/-- `Jpeg_WriteExifIFD`. No thumbnail is an empty one. -/
def writeExifIFD (primary : PrimaryInfo) (spec : Option SpecificInfo) (gps : Option GpsInfo)
    (inter : Option InteroperabilityInfo) (thumbnail : List UInt8) (isNextIfdExist : Bool)
    (ifhOffset beginOffset : Nat) : Write Nat := do
  let c ← openIFD 24 beginOffset
  let c ← writeBlocks ifhOffset (primaryBlocks primary) c
  let thumbnailIfdOffset := c.ifdOffset
  let c ← writeBlocks ifhOffset (thumbnailBlocks thumbnail) c
  let c ← writeBlocks ifhOffset (primaryTailBlocks primary) c
  let c ← writeOptIFD ifhOffset 0x8769
    (spec.map fun spec => writeExifSpecInfo spec inter ifhOffset) c
  let c ← writeOptIFD ifhOffset 0x8825 (gps.map fun gps => writeExifGPSInfo gps ifhOffset) c
  let c ← writeThumbnail ifhOffset thumbnailIfdOffset thumbnail c
  closeIFD beginOffset
    (if isNextIfdExist then UInt32.ofNat (c.valueOffset - ifhOffset) else 0) c

/-! ## The segment -/

/-- `Jpeg_WriteIFH` -/
def writeIFH (beginOffset : Nat) : Write Nat := do
  let _ ← setWritePos beginOffset
  orFail (writeW 0x4D4D)
  orFail (writeW 0x002A)
  orFail (writeL 8)
  getWritePos

/-- The information of IFD1. -/
def ifd1Primary : PrimaryInfo where
  basic :=
    { yCbCrPositioning := 1
      xResolution := ⟨72, 1⟩
      yResolution := ⟨72, 1⟩
      resolutionUnit := 2
      imageWidth := 0
      imageLength := 0 }
  dataStruct := some ⟨⟨true, true⟩, 1, 6⟩
  dataChar := none
  imgDesc := none

/-- `Jpeg_WriteAPP1` up to the length: the TIFF header and the directories, and where they end. -/
def writeDirectories (exif : ExifInfo) (thumbnail : List UInt8) : Write Nat := do
  let ifhOffset := 10
  let endOffset ← writeIFH ifhOffset
  let isIfd1Exist := decide (0 < thumbnail.length)
  let endOffset ←
    writeExifIFD exif.primary exif.spec exif.gps exif.inter [] isIfd1Exist ifhOffset endOffset
  if isIfd1Exist then writeExifIFD ifd1Primary none none none thumbnail false ifhOffset endOffset
  else return endOffset

/-- The first ten bytes of the segment. -/
def app1Head (app1Length : UInt16) : List UInt8 :=
  [0xFF, 0xE1] ++ beShort app1Length ++ [0x45, 0x78, 0x69, 0x66, 0, 0]

/-- The length of a segment does not wrap. -/
theorem toNat_app1Length {e : Nat} (h2 : 2 ≤ e) (h : e ≤ 65535) :
    (UInt16.ofNat e - 2).toNat = e - 2 := by
  rw [UInt16.toNat_sub_of_le _ _ (UInt16.le_iff_toNat_le.mpr (by
    rw [UInt16.toNat_ofNat']
    show 2 ≤ _
    omega)), UInt16.toNat_ofNat']
  show e % 2 ^ 16 - 2 = e - 2
  omega

/-- `Jpeg_WriteAPP1Header` -/
def writeAPP1Header (app1Length : UInt16) : Write Unit := do
  let _ ← setWritePos 0
  orFail (writeC 0xFF)
  orFail (writeC 0xE1)
  orFail (writeW app1Length)
  -- "Exif" and two zeros
  orFail (writeCs [0x45, 0x78, 0x69, 0x66, 0, 0])

/-- `Jpeg_WriteAPP1` into a buffer that is not null: the size of the segment. -/
def writeAPP1 (exif : Option ExifInfo) (thumbnail : List UInt8) : Write Nat :=
  match exif with
  | none => throw .invalidArgument
  | some exif => do
    if (← get).buf.length < 10 then throw .memoryNotEnough
    else
      let endOffset ← writeDirectories exif thumbnail
      let app1Length : UInt16 := UInt16.ofNat endOffset - 2
      writeAPP1Header app1Length
      return app1Length.toNat + 2

end SprdHal.Exif
