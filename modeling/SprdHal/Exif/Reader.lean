import SprdHal.Exif.Directories

/-!
# The information and the reader

What the information asks for is a table: every tag goes with its own bit, or with a condition of its
own where there is none, and has the values of its field. A reader of EXIF data starts at APP1 and
follows the pointers.
-/

namespace SprdHal.Exif

open Lib

/-! ## What the information asks for -/

section Rows

/-- The values of a field that is not an array. -/
abbrev scalar {α : Type} (a : α) : Vector α 1 := #v[a]

variable {n : Nat} (present : Bool) (tag : UInt16)

def rationalRow (v : Vector Rational n) : Row :=
  ⟨present, tag, .rational, .rationals (v.toList.map fun r => (r.numerator, r.denominator))⟩

def srationalRow (v : Vector SRational n) : Row :=
  ⟨present, tag, .srational, .srationals (v.toList.map fun r => (r.numerator, r.denominator))⟩

def shortRow (v : Vector UInt16 n) : Row := ⟨present, tag, .short, .shorts v.toList⟩

def longRow (l : UInt32) : Row := ⟨present, tag, .long, .longs [l]⟩

def byteRow (type : TiffType) (v : Vector UInt8 n) : Row := ⟨present, tag, type, .bytes v.toList⟩

/-- The characters up to the terminator, and the terminator. -/
def stringRow (s : AsciiStr) : Row :=
  ⟨present, tag, .ascii, .bytes (s.chars.toList.takeWhile (· ≠ 0) ++ [0])⟩

def countedBytesRow (type : TiffType) (c : Custom 1) : Row :=
  ⟨present && decide (0 < c.count), tag, type, .bytes (c.ptr.toList.take c.count.toNat)⟩

/-- The words of a counted array. -/
def Custom.words (c : Custom 2) : List UInt16 := shortsAt c.ptr.toList c.count.toNat

def countedShortsRow (c : Custom 2) : Row :=
  ⟨present && decide (0 < c.count), tag, .short, .shorts c.words⟩

/-- An entry with an offset; which one is not said. -/
def pointerRow : Row := ⟨present, tag, .long, .longs []⟩

end Rows

/-- IFD0 and IFD1 up to the thumbnail. -/
def primaryRows (primary : PrimaryInfo) : List Row :=
  let basic := primary.basic
  let hasStruct := primary.dataStruct.isSome
  let dataStruct := primary.dataStruct.getD default
  let hasChar := primary.dataChar.isSome
  let dataChar := primary.dataChar.getD default
  let hasDesc := primary.imgDesc.isSome
  let imgDesc := primary.imgDesc.getD default
  [shortRow (hasStruct && dataStruct.valid.reserved) 0x0103 (scalar dataStruct.reserved),
    stringRow (hasDesc && imgDesc.valid.imageDescription) 0x010E imgDesc.imageDescription,
    stringRow (hasDesc && imgDesc.valid.make) 0x010F imgDesc.make,
    stringRow (hasDesc && imgDesc.valid.model) 0x0110 imgDesc.model,
    shortRow (hasStruct && dataStruct.valid.orientation) 0x0112 (scalar dataStruct.orientation),
    rationalRow true 0x011A (scalar basic.xResolution),
    rationalRow true 0x011B (scalar basic.yResolution),
    shortRow true 0x0128 (scalar basic.resolutionUnit),
    shortRow (hasChar && dataChar.valid.transferFunction) 0x012D dataChar.transferFunction,
    stringRow (hasDesc && imgDesc.valid.software) 0x0131 imgDesc.software,
    byteRow (hasDesc && imgDesc.valid.dateTime) 0x0132 .ascii imgDesc.dateTime,
    stringRow (hasDesc && imgDesc.valid.artist) 0x013B imgDesc.artist,
    rationalRow (hasChar && dataChar.valid.whitePoint) 0x013E dataChar.whitePoint,
    rationalRow (hasChar && dataChar.valid.primaryChromaticities) 0x013F
      dataChar.primaryChromaticities]

/-- And from there on. -/
def primaryTailRows (primary : PrimaryInfo) : List Row :=
  let basic := primary.basic
  let hasChar := primary.dataChar.isSome
  let dataChar := primary.dataChar.getD default
  let hasDesc := primary.imgDesc.isSome
  let imgDesc := primary.imgDesc.getD default
  [rationalRow (hasChar && dataChar.valid.yCbCrCoefficients) 0x0211 dataChar.yCbCrCoefficients,
    shortRow true 0x0213 (scalar basic.yCbCrPositioning),
    longRow true 0x0100 basic.imageWidth,
    longRow true 0x0101 basic.imageLength,
    rationalRow (hasChar && dataChar.valid.referenceBlackWhite) 0x0214
      dataChar.referenceBlackWhite,
    stringRow (hasDesc && imgDesc.valid.copyright) 0x8298 imgDesc.copyright]

/-- The Exif directory up to the pointer to the interoperability directory. -/
def specRows (spec : SpecificInfo) : List Row :=
  let basic := spec.basic
  let hasPic := spec.picTakingCond.isSome
  let pic := spec.picTakingCond.getD default
  let hasDateTime := spec.dateTime.isSome
  let dateTime := spec.dateTime.getD default
  let hasConfig := spec.imgConfig.isSome
  let config := spec.imgConfig.getD default
  let hasUser := spec.user.isSome
  let user := spec.user.getD default
  let hasRelFile := spec.relatedFile.isSome
  let relFile := spec.relatedFile.getD default
  [rationalRow (hasPic && pic.valid.exposureTime) 0x829A (scalar pic.exposureTime),
    rationalRow (hasPic && pic.valid.fNumber) 0x829D (scalar pic.fNumber),
    shortRow (hasPic && pic.valid.exposureProgram) 0x8822 (scalar pic.exposureProgram),
    stringRow (hasPic && pic.valid.spectralSensitivity) 0x8824 pic.spectralSensitivity,
    countedShortsRow (hasPic && pic.valid.isoSpeedRatings) 0x8827 pic.isoSpeedRatings,
    countedBytesRow (hasPic && pic.valid.oecf) 0x8828 .undefined pic.oecf,
    byteRow true 0x9000 .undefined exifVersion,
    byteRow (hasDateTime && dateTime.valid.dateTimeOriginal) 0x9003 .ascii
      dateTime.dateTimeOriginal,
    byteRow (hasDateTime && dateTime.valid.dateTimeDigitized) 0x9004 .ascii
      dateTime.dateTimeDigitized,
    byteRow true 0x9101 .undefined basic.componentsConfiguration,
    rationalRow (hasConfig && config.validCompressedBitsPerPixel) 0x9102
      (scalar config.compressedBitsPerPixel),
    srationalRow (hasPic && pic.valid.shutterSpeedValue) 0x9201 (scalar pic.shutterSpeedValue),
    rationalRow (hasPic && pic.valid.apertureValue) 0x9202 (scalar pic.apertureValue),
    srationalRow (hasPic && pic.valid.brightnessValue) 0x9203 (scalar pic.brightnessValue),
    srationalRow (hasPic && pic.valid.exposureBiasValue) 0x9204 (scalar pic.exposureBiasValue),
    rationalRow (hasPic && pic.valid.maxApertureValue) 0x9205 (scalar pic.maxApertureValue),
    rationalRow (hasPic && pic.valid.subjectDistance) 0x9206 (scalar pic.subjectDistance),
    shortRow (hasPic && pic.valid.meteringMode) 0x9207 (scalar pic.meteringMode),
    shortRow (hasPic && pic.valid.lightSource) 0x9208 (scalar pic.lightSource),
    shortRow (hasPic && pic.valid.flash) 0x9209 (scalar pic.flash),
    rationalRow (hasPic && pic.valid.focalLength) 0x920A (scalar pic.focalLength),
    countedShortsRow (hasPic && pic.valid.subjectArea) 0x9214 pic.subjectArea,
    countedBytesRow (hasUser && user.valid.makerNote) 0x927C .undefined user.makerNote,
    countedBytesRow (hasUser && user.valid.userComment) 0x9286 .undefined user.userComment,
    stringRow (hasDateTime && dateTime.valid.subSecTime) 0x9290 dateTime.subSecTime,
    stringRow (hasDateTime && dateTime.valid.subSecTimeOriginal) 0x9291
      dateTime.subSecTimeOriginal,
    stringRow (hasDateTime && dateTime.valid.subSecTimeDigitized) 0x9292
      dateTime.subSecTimeDigitized,
    byteRow true 0xA000 .undefined flashpixVersion,
    shortRow true 0xA001 (scalar basic.colorSpace),
    longRow true 0xA002 basic.pixelXDimension,
    longRow true 0xA003 basic.pixelYDimension,
    byteRow (hasRelFile && relFile.validRelatedSoundFile) 0xA004 .ascii relFile.relatedSoundFile]

/-- And from there on. -/
def specTailRows (spec : SpecificInfo) : List Row :=
  let hasPic := spec.picTakingCond.isSome
  let pic := spec.picTakingCond.getD default
  let hasOther := spec.other.isSome
  let other := spec.other.getD default
  [rationalRow (hasPic && pic.valid.flashEnergy) 0xA20B (scalar pic.flashEnergy),
    countedBytesRow (hasPic && pic.valid.spatialFrequencyResponse) 0xA20C .undefined
      pic.spatialFrequencyResponse,
    rationalRow (hasPic && pic.valid.focalPlaneXResolution) 0xA20E
      (scalar pic.focalPlaneXResolution),
    rationalRow (hasPic && pic.valid.focalPlaneYResolution) 0xA20F
      (scalar pic.focalPlaneYResolution),
    shortRow (hasPic && pic.valid.focalPlaneResolutionUnit) 0xA210
      (scalar pic.focalPlaneResolutionUnit),
    shortRow (hasPic && pic.valid.subjectLocation) 0xA214 pic.subjectLocation,
    rationalRow (hasPic && pic.valid.exposureIndex) 0xA215 (scalar pic.exposureIndex),
    shortRow (hasPic && pic.valid.sensingMethod) 0xA217 (scalar pic.sensingMethod),
    byteRow (hasPic && pic.valid.fileSource) 0xA300 .undefined (scalar pic.fileSource),
    byteRow (hasPic && pic.valid.sceneType) 0xA301 .undefined (scalar pic.sceneType),
    countedBytesRow (hasPic && pic.valid.cfaPattern) 0xA302 .undefined pic.cfaPattern,
    shortRow (hasPic && pic.valid.customRendered) 0xA401 (scalar pic.customRendered),
    shortRow (hasPic && pic.valid.exposureMode) 0xA402 (scalar pic.exposureMode),
    shortRow (hasPic && pic.valid.whiteBalance) 0xA403 (scalar pic.whiteBalance),
    rationalRow (hasPic && pic.valid.digitalZoomRatio) 0xA404 (scalar pic.digitalZoomRatio),
    shortRow (hasPic && pic.valid.focalLengthIn35mmFilm) 0xA405 (scalar pic.focalLengthIn35mmFilm),
    shortRow (hasPic && pic.valid.sceneCaptureType) 0xA406 (scalar pic.sceneCaptureType),
    shortRow (hasPic && pic.valid.gainControl) 0xA407 (scalar pic.gainControl),
    shortRow (hasPic && pic.valid.contrast) 0xA408 (scalar pic.contrast),
    shortRow (hasPic && pic.valid.saturation) 0xA409 (scalar pic.saturation),
    shortRow (hasPic && pic.valid.sharpness) 0xA40A (scalar pic.sharpness),
    countedBytesRow (hasPic && pic.valid.deviceSettingDescription) 0xA40B .undefined
      pic.deviceSettingDescription,
    shortRow (hasPic && pic.valid.subjectDistanceRange) 0xA40C (scalar pic.subjectDistanceRange),
    byteRow (hasOther && other.validImageUniqueID) 0xA420 .ascii other.imageUniqueID]

/-- The GPS directory. -/
def gpsRows (gps : GpsInfo) : List Row :=
  [byteRow gps.valid.gpsVersionID 0x0000 .byte gps.gpsVersionID,
    byteRow gps.valid.gpsLatitudeRef 0x0001 .ascii gps.gpsLatitudeRef,
    rationalRow gps.valid.gpsLatitude 0x0002 gps.gpsLatitude,
    byteRow gps.valid.gpsLongitudeRef 0x0003 .ascii gps.gpsLongitudeRef,
    rationalRow gps.valid.gpsLongitude 0x0004 gps.gpsLongitude,
    byteRow gps.valid.gpsAltitudeRef 0x0005 .byte (scalar gps.gpsAltitudeRef),
    rationalRow gps.valid.gpsAltitude 0x0006 (scalar gps.gpsAltitude),
    rationalRow gps.valid.gpsTimeStamp 0x0007 gps.gpsTimeStamp,
    stringRow gps.valid.gpsSatellites 0x0008 gps.gpsSatellites,
    byteRow gps.valid.gpsStatus 0x0009 .ascii gps.gpsStatus,
    byteRow gps.valid.gpsMeasureMode 0x000A .ascii gps.gpsMeasureMode,
    rationalRow gps.valid.gpsDOP 0x000B (scalar gps.gpsDOP),
    byteRow gps.valid.gpsSpeedRef 0x000C .ascii gps.gpsSpeedRef,
    rationalRow gps.valid.gpsSpeed 0x000D (scalar gps.gpsSpeed),
    byteRow gps.valid.gpsTrackRef 0x000E .ascii gps.gpsTrackRef,
    rationalRow gps.valid.gpsTrack 0x000F (scalar gps.gpsTrack),
    byteRow gps.valid.gpsImgDirectionRef 0x0010 .ascii gps.gpsImgDirectionRef,
    rationalRow gps.valid.gpsImgDirection 0x0011 (scalar gps.gpsImgDirection),
    stringRow gps.valid.gpsMapDatum 0x0012 gps.gpsMapDatum,
    byteRow gps.valid.gpsDestLatitudeRef 0x0013 .ascii gps.gpsDestLatitudeRef,
    rationalRow gps.valid.gpsDestLatitude 0x0014 gps.gpsDestLatitude,
    byteRow gps.valid.gpsDestLongitudeRef 0x0015 .ascii gps.gpsDestLongitudeRef,
    rationalRow gps.valid.gpsDestLongitude 0x0016 gps.gpsDestLongitude,
    byteRow gps.valid.gpsDestBearingRef 0x0017 .ascii gps.gpsDestBearingRef,
    rationalRow gps.valid.gpsDestBearing 0x0018 (scalar gps.gpsDestBearing),
    byteRow gps.valid.gpsDestDistanceRef 0x0019 .ascii gps.gpsDestDistanceRef,
    rationalRow gps.valid.gpsDestDistance 0x001A (scalar gps.gpsDestDistance),
    countedBytesRow gps.valid.gpsProcessingMethod 0x001B .undefined gps.gpsProcessingMethod,
    countedBytesRow gps.valid.gpsAreaInformation 0x001C .undefined gps.gpsAreaInformation,
    byteRow gps.valid.gpsDateStamp 0x001D .ascii gps.gpsDateStamp,
    shortRow gps.valid.gpsDifferential 0x001E (scalar gps.gpsDifferential)]

/-- The interoperability directory. -/
def interRows (inter : InteroperabilityInfo) : List Row :=
  [countedBytesRow inter.validInteroperabilityIndex 0x0001 .ascii inter.interoperabilityIndex]

/-- All of IFD0 or IFD1. -/
def Ifd.expected (d : Ifd) : List Row :=
  primaryRows d.primary ++
    [pointerRow (decide (0 < d.thumbnail.length)) 0x0201,
      longRow (decide (0 < d.thumbnail.length)) 0x0202 (UInt32.ofNat d.thumbnail.length)] ++
    primaryTailRows d.primary ++ [pointerRow d.spec.isSome 0x8769, pointerRow d.gps.isSome 0x8825]

/-- All of the Exif directory. -/
def specExpected (spec : SpecificInfo) (inter : Option InteroperabilityInfo) : List Row :=
  specRows spec ++ [pointerRow inter.isSome 0xA005] ++ specTailRows spec

/-! ## The reader -/

/-- What is found in the directories, and the thumbnail. -/
structure ExifContent where
  ifd0 : List TiffItem
  spec : List TiffItem
  gps : List TiffItem
  inter : List TiffItem
  ifd1 : List TiffItem
  thumbnail : List UInt8

/-- An entry that points to something is there, but its offset does not count. -/
def withoutOffset (tags : List UInt16) (item : TiffItem) : TiffItem :=
  if item.tag ∈ tags then { item with value := .longs [] } else item

/-- The entries of the directory that an entry points to, none if there is no such entry. -/
def readSub (t : List UInt8) (tag : UInt16) (items : List TiffItem) : Option (List TiffItem) :=
  match items.find? fun item => item.tag = tag with
  | none => some []
  | some ⟨_, .long, .longs [p]⟩ => (readDir t p.toNat).map Prod.fst
  | some _ => none

/-- The bytes at `JPEGInterchangeFormat`, `JPEGInterchangeFormatLength` of them. -/
def readThumbnail (t : List UInt8) (ifd1 : List TiffItem) : Option (List UInt8) :=
  match ifd1.find? fun item => item.tag = 0x0201, ifd1.find? fun item => item.tag = 0x0202 with
  | none, none => some []
  | some ⟨_, .long, .longs [p]⟩, some ⟨_, .long, .longs [n]⟩ => bytesAt t p.toNat n.toNat
  | _, _ => none

/-- The directory at an offset, none at 0. -/
def readNext (t : List UInt8) (next : UInt32) : Option (List TiffItem) :=
  if next = 0 then some [] else (readDir t next.toNat).map Prod.fst

/-- A reader of EXIF data, from the marker APP1 on. -/
def readExif (segment : List UInt8) : Option ExifContent := do
  guard (bytesAt segment 0 2 = some [0xFF, 0xE1])
  guard (shortAt segment 2 = some (UInt16.ofNat (segment.length - 2)))
  guard (bytesAt segment 4 6 = some [0x45, 0x78, 0x69, 0x66, 0, 0])
  let t := segment.drop 10
  guard (bytesAt t 0 4 = some [0x4D, 0x4D, 0x00, 0x2A])
  let start ← longAt t 4
  let (ifd0, next) ← readDir t start.toNat
  let spec ← readSub t 0x8769 ifd0
  let gps ← readSub t 0x8825 ifd0
  let inter ← readSub t 0xA005 spec
  let ifd1 ← readNext t next
  let thumbnail ← readThumbnail t ifd1
  return {
    ifd0 := ifd0.map (withoutOffset [0x8769, 0x8825])
    spec := spec.map (withoutOffset [0xA005])
    gps := gps
    inter := inter
    ifd1 := ifd1.map (withoutOffset [0x0201])
    thumbnail := thumbnail }

/-- **What was found is what the information asks for**, in whatever order. -/
structure ExifContent.Matches (found : ExifContent) (exif : ExifInfo) (thumbnail : List UInt8) :
    Prop where
  ifd0 : found.ifd0.Perm (shown (Exif.ifd0 exif).expected)
  spec : found.spec.Perm ((exif.spec.map fun spec => shown (specExpected spec exif.inter)).getD [])
  gps : found.gps.Perm ((exif.gps.map fun gps => shown (gpsRows gps)).getD [])
  inter : found.inter.Perm ((exif.inter.map fun inter => shown (interRows inter)).getD [])
  ifd1 : found.ifd1.Perm
    (if 0 < thumbnail.length then shown (Exif.ifd1 thumbnail).expected else [])
  thumbnail : found.thumbnail = thumbnail

/-- The segment is written, and a reader finds in it what the information asks for. -/
def RoundTrips (exif : ExifInfo) (thumbnail : List UInt8) (s : Stream) : Prop :=
  ∃ size s' found, writeAPP1 (some exif) thumbnail s = .ok size s' ∧
    readExif (s'.buf.take size) = some found ∧ found.Matches exif thumbnail

end SprdHal.Exif
