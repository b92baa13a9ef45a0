import Mathlib.Tactic.Common

/-!
# EXIF information (`jpeg_exif_header.h`)

`JINF_EXIF_INFO_T` as the camera fills it in. Every optional tag has its own `valid` bit; whole groups
are pointers that may be null.

An array of the source is a vector of its length. A string carries the proof that it ends inside of
its array, and a counted array the proof that its elements are inside of the buffer.
-/

namespace SprdHal.Exif

/-! ## Values -/

/-- `EXIF_RATIONAL_T` -/
structure Rational where
  numerator : UInt32
  denominator : UInt32
  deriving DecidableEq, Repr, Inhabited

/-- `EXIF_SRATIONAL_T` -/
structure SRational where
  numerator : Int32
  denominator : Int32
  deriving DecidableEq, Repr, Inhabited

/-- `MAX_ASCII_STR_SIZE` -/
def maxAsciiStrSize : Nat := 256

/-- An array of `MAX_ASCII_STR_SIZE` characters with a string in it. -/
structure AsciiStr where
  chars : Vector UInt8 maxAsciiStrSize
  terminated : 0 ∈ chars.toList

instance : Inhabited AsciiStr := ⟨⟨Vector.replicate _ 0, by
  rw [Vector.toList_replicate]
  exact List.mem_replicate.mpr ⟨by decide, rfl⟩⟩⟩

/-- `EXIF_CUSTOM_T` with elements of `width` bytes: `count` of them are in the buffer. -/
structure Custom (width : Nat) where
  ptr : Vector UInt8 256
  count : UInt32
  fits : count.toNat * width ≤ 256

instance {width : Nat} : Inhabited (Custom width) := ⟨⟨Vector.replicate _ 0, 0, by simp⟩⟩

/-! ## Primary information -/

/-- `EXIF_PRI_BASIC_T` -/
structure PriBasic where
  yCbCrPositioning : UInt16
  xResolution : Rational
  yResolution : Rational
  resolutionUnit : UInt16
  imageWidth : UInt32
  imageLength : UInt32
  deriving Inhabited

/-- `EXIF_PRI_DATA_STRUCT_VALID_T` -/
structure PriDataStructValid where
  orientation : Bool
  reserved : Bool
  deriving Inhabited

/-- `EXIF_PRI_DATA_STRUCT_T` -/
structure PriDataStruct where
  valid : PriDataStructValid
  orientation : UInt16
  reserved : UInt16
  deriving Inhabited

/-- `EXIF_PRI_DATA_CHAR_VALID_T` -/
structure PriDataCharValid where
  transferFunction : Bool
  whitePoint : Bool
  primaryChromaticities : Bool
  yCbCrCoefficients : Bool
  referenceBlackWhite : Bool
  deriving Inhabited

/-- `EXIF_PRI_DATA_CHAR_T` -/
structure PriDataChar where
  valid : PriDataCharValid
  transferFunction : Vector UInt16 768
  whitePoint : Vector Rational 2
  primaryChromaticities : Vector Rational 6
  yCbCrCoefficients : Vector Rational 3
  referenceBlackWhite : Vector Rational 6
  deriving Inhabited

/-- `EXIF_PRI_DESC_VALID_T` -/
structure PriDescValid where
  dateTime : Bool
  imageDescription : Bool
  make : Bool
  model : Bool
  software : Bool
  artist : Bool
  copyright : Bool
  deriving Inhabited

/-- `EXIF_PRI_DESC_T` -/
structure PriDesc where
  valid : PriDescValid
  dateTime : Vector UInt8 20
  imageDescription : AsciiStr
  make : AsciiStr
  model : AsciiStr
  software : AsciiStr
  artist : AsciiStr
  copyright : AsciiStr
  deriving Inhabited

/-- `EXIF_PRIMARY_INFO_T` -/
structure PrimaryInfo where
  basic : PriBasic
  dataStruct : Option PriDataStruct
  dataChar : Option PriDataChar
  imgDesc : Option PriDesc
  deriving Inhabited

/-! ## EXIF-specific information -/

/-- `EXIF_SPEC_BASIC_T` -/
structure SpecBasic where
  colorSpace : UInt16
  componentsConfiguration : Vector UInt8 4
  pixelXDimension : UInt32
  pixelYDimension : UInt32
  deriving Inhabited

/-- `EXIF_SPEC_IMG_CONFIG_T` -/
structure SpecImgConfig where
  validCompressedBitsPerPixel : Bool
  compressedBitsPerPixel : Rational
  deriving Inhabited

/-- `EXIF_SPEC_USER_VALID_T` -/
structure SpecUserValid where
  makerNote : Bool
  userComment : Bool
  deriving Inhabited

/-- `EXIF_SPEC_USER_T` -/
structure SpecUser where
  valid : SpecUserValid
  makerNote : Custom 1
  userComment : Custom 1
  deriving Inhabited

/-- `EXIF_SPEC_RELATED_FILE_T` -/
structure SpecRelatedFile where
  validRelatedSoundFile : Bool
  relatedSoundFile : Vector UInt8 13
  deriving Inhabited

/-- `EXIF_SPEC_DATE_TIME_VALID_T` -/
structure SpecDateTimeValid where
  dateTimeOriginal : Bool
  dateTimeDigitized : Bool
  subSecTime : Bool
  subSecTimeOriginal : Bool
  subSecTimeDigitized : Bool
  deriving Inhabited

/-- `EXIF_SPEC_DATE_TIME_T` -/
structure SpecDateTime where
  valid : SpecDateTimeValid
  dateTimeOriginal : Vector UInt8 20
  dateTimeDigitized : Vector UInt8 20
  subSecTime : AsciiStr
  subSecTimeOriginal : AsciiStr
  subSecTimeDigitized : AsciiStr
  deriving Inhabited

/-- `EXIF_SPEC_PIC_TAKING_COND_VALID_T` -/
structure SpecPicTakingCondValid where
  exposureTime : Bool
  fNumber : Bool
  exposureProgram : Bool
  spectralSensitivity : Bool
  isoSpeedRatings : Bool
  oecf : Bool
  shutterSpeedValue : Bool
  apertureValue : Bool
  brightnessValue : Bool
  exposureBiasValue : Bool
  maxApertureValue : Bool
  subjectDistance : Bool
  meteringMode : Bool
  lightSource : Bool
  flash : Bool
  focalLength : Bool
  subjectArea : Bool
  flashEnergy : Bool
  spatialFrequencyResponse : Bool
  focalPlaneXResolution : Bool
  focalPlaneYResolution : Bool
  focalPlaneResolutionUnit : Bool
  subjectLocation : Bool
  exposureIndex : Bool
  sensingMethod : Bool
  fileSource : Bool
  sceneType : Bool
  cfaPattern : Bool
  customRendered : Bool
  exposureMode : Bool
  whiteBalance : Bool
  digitalZoomRatio : Bool
  focalLengthIn35mmFilm : Bool
  sceneCaptureType : Bool
  gainControl : Bool
  contrast : Bool
  saturation : Bool
  sharpness : Bool
  deviceSettingDescription : Bool
  subjectDistanceRange : Bool
  deriving Inhabited

/-- `EXIF_SPEC_PIC_TAKING_COND_T` -/
structure SpecPicTakingCond where
  valid : SpecPicTakingCondValid
  exposureTime : Rational
  fNumber : Rational
  exposureProgram : UInt16
  spectralSensitivity : AsciiStr
  isoSpeedRatings : Custom 2
  oecf : Custom 1
  shutterSpeedValue : SRational
  apertureValue : Rational
  brightnessValue : SRational
  exposureBiasValue : SRational
  maxApertureValue : Rational
  subjectDistance : Rational
  meteringMode : UInt16
  lightSource : UInt16
  flash : UInt16
  focalLength : Rational
  subjectArea : Custom 2
  flashEnergy : Rational
  spatialFrequencyResponse : Custom 1
  focalPlaneXResolution : Rational
  focalPlaneYResolution : Rational
  focalPlaneResolutionUnit : UInt16
  subjectLocation : Vector UInt16 2
  exposureIndex : Rational
  sensingMethod : UInt16
  fileSource : UInt8
  sceneType : UInt8
  cfaPattern : Custom 1
  customRendered : UInt16
  exposureMode : UInt16
  whiteBalance : UInt16
  digitalZoomRatio : Rational
  focalLengthIn35mmFilm : UInt16
  sceneCaptureType : UInt16
  gainControl : UInt16
  contrast : UInt16
  saturation : UInt16
  sharpness : UInt16
  deviceSettingDescription : Custom 1
  subjectDistanceRange : UInt16
  deriving Inhabited

/-- `EXIF_SPEC_OTHER_T` -/
structure SpecOther where
  validImageUniqueID : Bool
  imageUniqueID : Vector UInt8 33
  deriving Inhabited

/-- `EXIF_SPECIFIC_INFO_T` -/
structure SpecificInfo where
  basic : SpecBasic
  imgConfig : Option SpecImgConfig
  user : Option SpecUser
  relatedFile : Option SpecRelatedFile
  dateTime : Option SpecDateTime
  picTakingCond : Option SpecPicTakingCond
  other : Option SpecOther
  deriving Inhabited

/-! ## GPS and interoperability -/

/-- `EXIF_GPS_VALID_T` -/
structure GpsValid where
  gpsVersionID : Bool
  gpsLatitudeRef : Bool
  gpsLatitude : Bool
  gpsLongitudeRef : Bool
  gpsLongitude : Bool
  gpsAltitudeRef : Bool
  gpsAltitude : Bool
  gpsTimeStamp : Bool
  gpsSatellites : Bool
  gpsStatus : Bool
  gpsMeasureMode : Bool
  gpsDOP : Bool
  gpsSpeedRef : Bool
  gpsSpeed : Bool
  gpsTrackRef : Bool
  gpsTrack : Bool
  gpsImgDirectionRef : Bool
  gpsImgDirection : Bool
  gpsMapDatum : Bool
  gpsDestLatitudeRef : Bool
  gpsDestLatitude : Bool
  gpsDestLongitudeRef : Bool
  gpsDestLongitude : Bool
  gpsDestBearingRef : Bool
  gpsDestBearing : Bool
  gpsDestDistanceRef : Bool
  gpsDestDistance : Bool
  gpsProcessingMethod : Bool
  gpsAreaInformation : Bool
  gpsDateStamp : Bool
  gpsDifferential : Bool
  deriving Inhabited

/-- `EXIF_GPS_INFO_T` -/
structure GpsInfo where
  valid : GpsValid
  gpsVersionID : Vector UInt8 4
  gpsLatitudeRef : Vector UInt8 2
  gpsLatitude : Vector Rational 3
  gpsLongitudeRef : Vector UInt8 2
  gpsLongitude : Vector Rational 3
  gpsAltitudeRef : UInt8
  gpsAltitude : Rational
  gpsTimeStamp : Vector Rational 3
  gpsSatellites : AsciiStr
  gpsStatus : Vector UInt8 2
  gpsMeasureMode : Vector UInt8 2
  gpsDOP : Rational
  gpsSpeedRef : Vector UInt8 2
  gpsSpeed : Rational
  gpsTrackRef : Vector UInt8 2
  gpsTrack : Rational
  gpsImgDirectionRef : Vector UInt8 2
  gpsImgDirection : Rational
  gpsMapDatum : AsciiStr
  gpsDestLatitudeRef : Vector UInt8 2
  gpsDestLatitude : Vector Rational 3
  gpsDestLongitudeRef : Vector UInt8 2
  gpsDestLongitude : Vector Rational 3
  gpsDestBearingRef : Vector UInt8 2
  gpsDestBearing : Rational
  gpsDestDistanceRef : Vector UInt8 2
  gpsDestDistance : Rational
  gpsProcessingMethod : Custom 1
  gpsAreaInformation : Custom 1
  gpsDateStamp : Vector UInt8 11
  gpsDifferential : UInt16
  deriving Inhabited

/-- `EXIF_INTEROPERABILITY_INFO_T` -/
structure InteroperabilityInfo where
  validInteroperabilityIndex : Bool
  interoperabilityIndex : Custom 1
  deriving Inhabited

/-- `JINF_EXIF_INFO_T` -/
structure ExifInfo where
  primary : PrimaryInfo
  spec : Option SpecificInfo
  gps : Option GpsInfo
  inter : Option InteroperabilityInfo
  deriving Inhabited

end SprdHal.Exif
