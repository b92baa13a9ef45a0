import SprdHal.Exif.Layout

/-!
# The writer with a trace

The writer of directories as in `Writer`, which also notes what every step makes of `ifd_offset` and
`ifd_value_offset` of the directory that it works on. The notes are not looked at: without them this
is the writer (`traced_writeDirectories`).
-/

namespace SprdHal.Exif

open Lib

/-- A directory that is being written: where it begins, and the number of entries for which it reserves
room. -/
structure Dir where
  start : Nat
  maxEntries : Nat
  deriving DecidableEq, Repr

/-- What a step writes: the first number of entries, an entry and its value, the pointer to a
sub-directory, the sub-directory, the thumbnail, or the pointer to the next directory and the number
of entries. -/
inductive VisitKind
  | opened | entry | pointer | returned | thumbnail | closed
  deriving DecidableEq, Repr

/-- A step in a directory, and the offsets before and after it. -/
structure Visit where
  dir : Dir
  kind : VisitKind
  before : Cursor
  after : Cursor

/-- The writer and its notes. -/
abbrev Traced := StateT (List Visit) Write

namespace Traced

variable {α β : Type}

def lift (m : Write α) : Traced α := fun log => do
  let a ← m
  return (a, log)

def note (v : Visit) : Traced Unit := fun log => return ((), log ++ [v])

def openIFD (d : Dir) : Traced Cursor := do
  let c ← lift (Exif.openIFD d.maxEntries d.start)
  note ⟨d, .opened, c, c⟩
  return c

def closeIFD (d : Dir) (next : UInt32) (c : Cursor) : Traced Nat := do
  let valueOffset ← lift (Exif.closeIFD d.start next c)
  note ⟨d, .closed, c, c⟩
  return valueOffset

def writeBlocks (d : Dir) : List Block → Cursor → Traced Cursor
  | [], c => return c
  | b :: bs, c => do
    let c' ← lift (b.write 10 c)
    note ⟨d, .entry, c, c'⟩
    writeBlocks d bs c'

def writeSubIFD (d : Dir) (tag : UInt16) (writeInfo : Nat → Traced Nat) (c : Cursor) :
    Traced Cursor := do
  let valueOffset := align4 c.valueOffset
  let offset := UInt32.ofNat (valueOffset - 10)
  let offsets ← lift
    (writeLongIFD ⟨tag, .long, 1, leBytes offset, leBytes offset⟩ c.ifdOffset valueOffset)
  let c' : Cursor := ⟨offsets.1, offsets.2, c.entries⟩
  note ⟨d, .pointer, c, c'⟩
  let valueOffset ← writeInfo c'.valueOffset
  let c'' : Cursor := ⟨c'.ifdOffset, valueOffset, c.entries + 1⟩
  note ⟨d, .returned, c'', c''⟩
  return c''

def writeOptIFD (d : Dir) (tag : UInt16) (writeInfo : Option (Nat → Traced Nat)) (c : Cursor) :
    Traced Cursor :=
  match writeInfo with
  | none => return c
  | some writeInfo => writeSubIFD d tag writeInfo c

def writeExifInteroperabilityInfo (inter : InteroperabilityInfo) (beginOffset : Nat) :
    Traced Nat := do
  let d : Dir := ⟨beginOffset, 1⟩
  let c ← openIFD d
  let c ← writeBlocks d (interBlocks inter) c
  closeIFD d 0 c

def writeExifSpecInfo (spec : SpecificInfo) (inter : Option InteroperabilityInfo)
    (beginOffset : Nat) : Traced Nat := do
  let d : Dir := ⟨beginOffset, 57⟩
  let c ← openIFD d
  let c ← writeBlocks d (specBlocks spec) c
  let c ← writeOptIFD d 0xA005 (inter.map writeExifInteroperabilityInfo) c
  let c ← writeBlocks d (specTailBlocks spec) c
  closeIFD d 0 c

def writeExifGPSInfo (gps : GpsInfo) (beginOffset : Nat) : Traced Nat := do
  let d : Dir := ⟨beginOffset, 31⟩
  let c ← openIFD d
  let c ← writeBlocks d (gpsBlocks gps) c
  closeIFD d 0 c

def writeThumbnail (d : Dir) (thumbnailIfdOffset : Nat) (thumbnail : List UInt8) (c : Cursor) :
    Traced Cursor := do
  let c' ← lift (Exif.writeThumbnail 10 thumbnailIfdOffset thumbnail c)
  note ⟨d, .thumbnail, c, c'⟩
  return c'

def writeExifIFD (primary : PrimaryInfo) (spec : Option SpecificInfo) (gps : Option GpsInfo)
    (inter : Option InteroperabilityInfo) (thumbnail : List UInt8) (isNextIfdExist : Bool)
    (beginOffset : Nat) : Traced Nat := do
  let d : Dir := ⟨beginOffset, 24⟩
  let c ← openIFD d
  let c ← writeBlocks d (primaryBlocks primary) c
  let thumbnailIfdOffset := c.ifdOffset
  let c ← writeBlocks d (thumbnailBlocks thumbnail) c
  let c ← writeBlocks d (primaryTailBlocks primary) c
  let c ← writeOptIFD d 0x8769 (spec.map fun spec => writeExifSpecInfo spec inter) c
  let c ← writeOptIFD d 0x8825 (gps.map writeExifGPSInfo) c
  let c ← writeThumbnail d thumbnailIfdOffset thumbnail c
  closeIFD d (if isNextIfdExist then UInt32.ofNat (c.valueOffset - 10) else 0) c

def writeDirectories (exif : ExifInfo) (thumbnail : List UInt8) : Traced Nat := do
  let endOffset ← lift (writeIFH 10)
  let isIfd1Exist := decide (0 < thumbnail.length)
  let endOffset ←
    writeExifIFD exif.primary exif.spec exif.gps exif.inter [] isIfd1Exist endOffset
  if isIfd1Exist then writeExifIFD ifd1Primary none none none thumbnail false endOffset
  else return endOffset

end Traced

/-! ## Without the notes -/

/-- The result without the notes. -/
def withoutNotes {α : Type} : EStateM.Result Ret Stream (α × List Visit) → EStateM.Result Ret Stream α
  | .ok a s => .ok a.1 s
  | .error e s => .error e s

/-- The writer that is left without the notes, whatever has been noted before. -/
def Traces {α : Type} (m : Traced α) (m₀ : Write α) : Prop :=
  ∀ log s, withoutNotes (m log s) = m₀ s

section Traces

variable {α β : Type}

theorem traces_pure (a : α) : Traces (pure a) (pure a) := fun _ _ => rfl

theorem traces_lift (m : Write α) : Traces (Traced.lift m) m := by
  intro log s
  show withoutNotes (EStateM.bind m _ s) = m s
  simp only [EStateM.bind]
  cases m s with
  | ok | error => rfl

theorem Traces.bind {m : Traced α} {m₀ : Write α} {f : α → Traced β} {f₀ : α → Write β}
    (hm : Traces m m₀) (hf : ∀ a, Traces (f a) (f₀ a)) : Traces (m >>= f) (m₀ >>= f₀) := by
  intro log s
  have hfirst := hm log s
  show withoutNotes (EStateM.bind (m log) (fun a => f a.1 a.2) s) = EStateM.bind m₀ f₀ s
  simp only [EStateM.bind]
  cases hrun : m log s with
  | ok a s' =>
    rw [hrun] at hfirst
    rw [← hfirst]
    exact hf a.1 a.2 s'
  | error e s' =>
    rw [hrun] at hfirst
    rw [← hfirst]
    rfl

theorem Traces.note {m : Traced α} {m₀ : Write α} (v : Visit) (hm : Traces m m₀) :
    Traces (Traced.note v >>= fun _ => m) m₀ := fun log s => hm (log ++ [v]) s

theorem Traces.ite {c : Prop} [Decidable c] {m m' : Traced α} {m₀ m₀' : Write α} (h : Traces m m₀)
    (h' : Traces m' m₀') : Traces (if c then m else m') (if c then m₀ else m₀') := by
  split
  · exact h
  · exact h'

theorem traced_openIFD (d : Dir) : Traces (Traced.openIFD d) (openIFD d.maxEntries d.start) := by
  have h := (traces_lift (openIFD d.maxEntries d.start)).bind fun c =>
    (traces_pure c).note ⟨d, .opened, c, c⟩
  rwa [bind_pure] at h

theorem traced_closeIFD (d : Dir) (next : UInt32) (c : Cursor) :
    Traces (Traced.closeIFD d next c) (closeIFD d.start next c) := by
  have h := (traces_lift (closeIFD d.start next c)).bind fun v =>
    (traces_pure v).note ⟨d, .closed, c, c⟩
  rwa [bind_pure] at h

theorem traced_writeBlocks (d : Dir) (bs : List Block) (c : Cursor) :
    Traces (Traced.writeBlocks d bs c) (writeBlocks 10 bs c) := by
  induction bs generalizing c with
  | nil => exact traces_pure c
  | cons b bs ih => exact (traces_lift (b.write 10 c)).bind fun c' => (ih c').note ⟨d, .entry, c, c'⟩

theorem traced_writeOptIFD (d : Dir) (tag : UInt16) {info : Option α} {write : α → Nat → Traced Nat}
    {write₀ : α → Nat → Write Nat} (h : ∀ a v, Traces (write a v) (write₀ a v)) (c : Cursor) :
    Traces (Traced.writeOptIFD d tag (info.map write) c)
      (writeOptIFD 10 tag (info.map write₀) c) := by
  cases info with
  | none => exact traces_pure c
  | some a =>
    exact (traces_lift _).bind fun offsets => ((h a offsets.2).bind fun v =>
      (traces_pure _).note _).note _

theorem traced_writeExifInteroperabilityInfo (inter : InteroperabilityInfo) (v : Nat) :
    Traces (Traced.writeExifInteroperabilityInfo inter v)
      (writeExifInteroperabilityInfo inter 10 v) :=
  (traced_openIFD ⟨v, 1⟩).bind fun c => (traced_writeBlocks ⟨v, 1⟩ _ c).bind fun c' =>
    traced_closeIFD ⟨v, 1⟩ 0 c'

theorem traced_writeExifSpecInfo (spec : SpecificInfo) (inter : Option InteroperabilityInfo)
    (v : Nat) :
    Traces (Traced.writeExifSpecInfo spec inter v) (writeExifSpecInfo spec inter 10 v) :=
  (traced_openIFD ⟨v, 57⟩).bind fun c => (traced_writeBlocks _ _ c).bind fun c =>
    (traced_writeOptIFD _ _ traced_writeExifInteroperabilityInfo c).bind fun c =>
      (traced_writeBlocks _ _ c).bind fun c => traced_closeIFD ⟨v, 57⟩ 0 c

theorem traced_writeExifGPSInfo (gps : GpsInfo) (v : Nat) :
    Traces (Traced.writeExifGPSInfo gps v) (writeExifGPSInfo gps 10 v) :=
  (traced_openIFD ⟨v, 31⟩).bind fun c => (traced_writeBlocks _ _ c).bind fun c =>
    traced_closeIFD ⟨v, 31⟩ 0 c

theorem traced_writeThumbnail (d : Dir) (thumbnailIfdOffset : Nat) (thumbnail : List UInt8)
    (c : Cursor) : Traces (Traced.writeThumbnail d thumbnailIfdOffset thumbnail c)
      (writeThumbnail 10 thumbnailIfdOffset thumbnail c) := by
  have h := (traces_lift (writeThumbnail 10 thumbnailIfdOffset thumbnail c)).bind fun c' =>
    (traces_pure c').note ⟨d, .thumbnail, c, c'⟩
  rwa [bind_pure] at h

theorem traced_writeExifIFD (primary : PrimaryInfo) (spec : Option SpecificInfo)
    (gps : Option GpsInfo) (inter : Option InteroperabilityInfo) (thumbnail : List UInt8)
    (isNextIfdExist : Bool) (v : Nat) :
    Traces (Traced.writeExifIFD primary spec gps inter thumbnail isNextIfdExist v)
      (writeExifIFD primary spec gps inter thumbnail isNextIfdExist 10 v) :=
  (traced_openIFD ⟨v, 24⟩).bind fun c => (traced_writeBlocks _ _ c).bind fun c1 =>
    (traced_writeBlocks _ _ c1).bind fun c => (traced_writeBlocks _ _ c).bind fun c =>
      (traced_writeOptIFD _ _ (fun spec => traced_writeExifSpecInfo spec inter) c).bind fun c =>
        (traced_writeOptIFD _ _ traced_writeExifGPSInfo c).bind fun c =>
          (traced_writeThumbnail _ _ _ c).bind fun c => traced_closeIFD ⟨v, 24⟩ _ c

/-- **The writer with the trace is the writer.** -/
theorem traced_writeDirectories (exif : ExifInfo) (thumbnail : List UInt8) :
    Traces (Traced.writeDirectories exif thumbnail) (writeDirectories exif thumbnail) :=
  (traces_lift (writeIFH 10)).bind fun v => (traced_writeExifIFD _ _ _ _ _ _ v).bind fun v =>
    (traced_writeExifIFD _ _ _ _ _ _ v).ite (traces_pure v)

end Traces

end SprdHal.Exif
