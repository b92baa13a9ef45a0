import SprdHal.Exif.Directories
import SprdHal.Jpeg.RoundTrip
import SprdHal.Lib.Memory

/-!
# Putting APP1 into a picture (`IMGJPEG_WriteExif`)

The segment is made in a temporary buffer. `JPEG_AddExifToMemory` then copies it in front of the picture
and over its SOI; `JPEG_AddExifToFile` writes SOI, the segment and the rest of the picture.

Memory is flat: the buffers are addresses, and whether they are apart is said where it matters.
-/

namespace SprdHal.Exif

open Lib

/-! ## The two back ends -/

/-- `JINF_WEXIF_IN_PARAM_T`; a null pointer is 0, and no thumbnail is an empty one. -/
structure WexifIn where
  exifInfo : Option ExifInfo
  srcJpegBuf : UInt32
  srcJpegSize : UInt32
  thumbnail : List UInt8
  tempBuf : UInt32
  tempSize : UInt32
  targetBuf : UInt32

/-- `JINF_WEXIF_OUT_PARAM_T` -/
structure WexifOut where
  outputBuf : UInt32
  outputSize : UInt32
  deriving DecidableEq, Repr

/-- `JINF_RET_E` -/
inductive JinfRet
  | success | invalidArgument | memoryNotEnough | failed
  deriving DecidableEq, Repr

/-- The picture. -/
def WexifIn.src (p : WexifIn) (mem : Mem) : List UInt8 :=
  mem.bytes p.srcJpegBuf.toNat p.srcJpegSize.toNat

/-- The temporary buffer; a null pointer is an empty one. -/
def WexifIn.temp (p : WexifIn) (mem : Mem) : List UInt8 :=
  if p.tempBuf = 0 then [] else mem.bytes p.tempBuf.toNat p.tempSize.toNat

/-- `Jpeg_WriteAPP1` in the temporary buffer: `app1_size` and the memory. -/
def WexifIn.writeAPP1 (p : WexifIn) (mem : Mem) : Except Ret UInt32 × Mem :=
  match Exif.writeAPP1 p.exifInfo p.thumbnail ⟨p.temp mem, 0⟩ with
  | .ok size s => (.ok (UInt32.ofNat size), mem.store p.tempBuf.toNat s.buf)
  | .error e s => (.error e, mem.store p.tempBuf.toNat s.buf)

/-- `JPEG_AddExifToMemory` -/
def addExifToMemory (p : WexifIn) (mem : Mem) : Except Ret WexifOut × Mem :=
  match p.writeAPP1 mem with
  | (.error e, mem) => (.error e, mem)
  | (.ok app1Size, mem) =>
    let freeBufSize := p.srcJpegBuf - p.targetBuf
    if freeBufSize < app1Size then (.error .memoryNotEnough, mem)
    else
      let target := p.srcJpegBuf - app1Size
      let mem := mem.store target.toNat [0xFF, 0xD8]
      let mem := mem.store (target.toNat + 2) (mem.bytes p.tempBuf.toNat app1Size.toNat)
      (.ok ⟨target, app1Size + p.srcJpegSize⟩, mem)

/-- `JINF_WRITE_FILE_FUNC`: the data and the offset; whether it worked and how much was written. -/
def WriteFile (σ : Type) : Type := σ → List UInt8 → Nat → Bool × Nat × σ

/-- One call of the callback and the test after it. -/
def callWrite {σ : Type} (write : WriteFile σ) (disk : σ) (data : List UInt8) (offset : Nat) :
    Except Ret Nat × σ :=
  match write disk data offset with
  | (ok, actual, disk) =>
    if ok = false ∨ data.length ≠ actual then (.error .failed, disk) else (.ok actual, disk)

/-- `JPEG_AddExifToFile` -/
def addExifToFile {σ : Type} (p : WexifIn) (write : WriteFile σ) (mem : Mem) (disk : σ) :
    Except Ret Unit × Mem × σ :=
  match p.writeAPP1 mem with
  | (.error e, mem) => (.error e, mem, disk)
  | (.ok app1Size, mem) =>
    match callWrite write disk [0xFF, 0xD8] 0 with
    | (.error e, disk) => (.error e, mem, disk)
    | (.ok actual, disk) =>
      match callWrite write disk (mem.bytes p.tempBuf.toNat app1Size.toNat) actual with
      | (.error e, disk) => (.error e, mem, disk)
      | (.ok actual', disk) =>
        match callWrite write disk
            (mem.bytes (p.srcJpegBuf.toNat + 2) (p.srcJpegSize - 2).toNat) (actual + actual') with
        | (.error e, disk) => (.error e, mem, disk)
        | (.ok _, disk) => (.ok (), mem, disk)

/-- `IMGJPEG_WriteExif`, with the callback if there is one. -/
def imgJPEGWriteExif {σ : Type} (p : WexifIn) (write : Option (WriteFile σ)) (mem : Mem) (disk : σ) :
    (JinfRet × Option WexifOut) × Mem × σ :=
  if p.exifInfo.isNone ∧ p.srcJpegBuf = 0 ∧ p.tempBuf = 0 then
    ((.invalidArgument, none), mem, disk)
  else
    match write with
    | some write =>
      match addExifToFile p write mem disk with
      | (.ok (), mem, disk) => ((.success, none), mem, disk)
      | (.error _, mem, disk) => ((.failed, none), mem, disk)
    | none =>
      if p.targetBuf = 0 then ((.invalidArgument, none), mem, disk)
      else if p.srcJpegBuf ≤ p.targetBuf then ((.memoryNotEnough, none), mem, disk)
      else
        match addExifToMemory p mem with
        | (.ok out, mem) => ((.success, some out), mem, disk)
        | (.error _, mem) => ((.failed, none), mem, disk)

/-- A callback that always succeeds: it puts the data at the offset of a file. -/
def writeDisk : WriteFile (List UInt8) := fun disk data offset =>
  (true, data.length, disk.take offset ++ data ++ disk.drop (offset + data.length))

/-! ## What every run of the writer keeps -/

section Runs

variable {α β : Type} {s : Stream} {m : Write α} {f : α → Write β} {Q Q' : α → Stream → Prop}
  {R : β → Stream → Prop}

/-- From `s`, the size of the buffer is kept, and a run that succeeds ends with `Q`. -/
def Run (s : Stream) (m : Write α) (Q : α → Stream → Prop) : Prop :=
  match m s with
  | .ok a s' => s'.buf.length = s.buf.length ∧ Q a s'
  | .error _ s' => s'.buf.length = s.buf.length

theorem Run.bind (hm : Run s m Q)
    (hf : ∀ a s', s'.buf.length = s.buf.length → Q a s' → Run s' (f a) R) : Run s (m >>= f) R := by
  unfold Run at hm ⊢
  cases hms : m s with
  | error e s' =>
    rw [hms] at hm
    rw [bind_error hms]
    exact hm
  | ok a s' =>
    rw [hms] at hm
    rw [bind_ok hms]
    have hfa := hf a s' hm.1 hm.2
    unfold Run at hfa
    cases hfs : f a s' with
    | ok b s'' =>
      rw [hfs] at hfa
      exact ⟨hfa.1.trans hm.1, hfa.2⟩
    | error e s'' =>
      rw [hfs] at hfa
      exact hfa.trans hm.1

theorem Run.mono (hm : Run s m Q) (h : ∀ a s', Q a s' → Q' a s') : Run s m Q' := by
  unfold Run at hm ⊢
  cases hms : m s with
  | ok a s' =>
    rw [hms] at hm
    exact ⟨hm.1, h a s' hm.2⟩
  | error e s' =>
    rw [hms] at hm
    exact hm

/-- The run itself may be used in what follows. -/
theorem Run.self (hm : Run s m Q) : Run s m fun a s' => m s = .ok a s' ∧ Q a s' := by
  unfold Run at hm ⊢
  cases hms : m s with
  | ok a s' =>
    rw [hms] at hm
    exact ⟨hm.1, rfl, hm.2⟩
  | error e s' =>
    rw [hms] at hm
    exact hm

theorem Run.of_ok {a : α} {s' : Stream} (hm : Run s m Q) (h : m s = .ok a s') :
    s'.buf.length = s.buf.length ∧ Q a s' := by
  unfold Run at hm
  rw [h] at hm
  exact hm

theorem Run.of_error {e : Ret} {s' : Stream} (hm : Run s m Q) (h : m s = .error e s') :
    s'.buf.length = s.buf.length := by
  unfold Run at hm
  rw [h] at hm
  exact hm

theorem Run.pure {a : α} (h : Q a s) : Run s (Pure.pure a) Q := ⟨rfl, h⟩

theorem run_setWritePos (offset : Nat) : Run s (setWritePos offset) fun ok s' =>
    s'.buf = s.buf ∧ (ok = true → s'.pos = offset) ∧
      (ok = false → s' = s ∧ s.buf.length < offset) := by
  unfold Run setWritePos
  by_cases h : s.buf.length < offset
  · rw [if_pos h]
    exact ⟨rfl, rfl, nofun, fun _ => ⟨rfl, h⟩⟩
  · rw [if_neg h]
    exact ⟨rfl, rfl, fun _ => rfl, nofun⟩

theorem run_getWritePos : Run s getWritePos fun pos s' => pos = s.pos ∧ s' = s := ⟨rfl, rfl, rfl⟩

theorem run_writeC (c : UInt8) : Run s (writeC c) fun ok s' =>
    s.pos ≤ s'.pos ∧ (ok = true → s' = ⟨patch s.buf s.pos [c], s.pos + 1⟩ ∧ s.pos < s.buf.length) := by
  unfold Run writeC
  by_cases h : s.buf.length ≤ s.pos
  · rw [if_pos h]
    exact ⟨rfl, Nat.le_refl _, nofun⟩
  · rw [if_neg h]
    exact ⟨length_patch _ _ _, Nat.le_succ _, fun _ => ⟨rfl, Nat.lt_of_not_le h⟩⟩

theorem run_writeCs (cs : List UInt8) : Run s (writeCs cs) fun ok s' =>
    s.pos ≤ s'.pos ∧ (ok = true → s' = ⟨patch s.buf s.pos cs, s.pos + cs.length⟩) := by
  induction cs generalizing s with
  | nil => exact Run.pure ⟨Nat.le_refl _, fun _ => by simp⟩
  | cons c cs ih =>
    unfold writeCs
    refine (run_writeC c).bind fun ok s' _ h => ?_
    cases ok with
    | false => exact Run.pure ⟨h.1, fun hok => absurd hok Bool.false_ne_true⟩
    | true =>
      refine ih.mono fun ok' s'' h' => ⟨Nat.le_trans h.1 h'.1, fun hok => ?_⟩
      rw [h'.2 hok, (h.2 rfl).1, List.length_cons]
      simp only
      have happ := patch_append s.buf s.pos [c] cs
      rw [List.length_singleton, List.singleton_append] at happ
      rw [happ, Nat.add_assoc, Nat.add_comm 1]

theorem run_writeL (l : UInt32) : Run s (writeL l) fun _ s' => s.pos ≤ s'.pos := by
  unfold Run writeL
  by_cases h : s.buf.length < s.pos + 4
  · rw [if_pos h]
    exact ⟨rfl, Nat.le_refl _⟩
  · rw [if_neg h]
    exact ⟨length_patch _ _ _, Nat.le_add_right _ _⟩

theorem run_writeW (w : UInt16) : Run s (writeW w) fun _ s' => s.pos ≤ s'.pos :=
  (run_writeCs _).mono fun _ _ h => h.1

theorem run_writeWs (ws : List UInt16) : Run s (writeWs ws) fun _ s' => s.pos ≤ s'.pos := by
  induction ws generalizing s with
  | nil => exact Run.pure (Nat.le_refl _)
  | cons w ws ih =>
    refine (run_writeW w).bind fun ok s' _ h => ?_
    cases ok with
    | false => exact Run.pure h
    | true => exact ih.mono fun _ _ h' => Nat.le_trans h h'

theorem run_writeLs (ls : List UInt32) : Run s (writeLs ls) fun _ s' => s.pos ≤ s'.pos := by
  induction ls generalizing s with
  | nil => exact Run.pure (Nat.le_refl _)
  | cons l ls ih =>
    refine (run_writeL l).bind fun ok s' _ h => ?_
    cases ok with
    | false => exact Run.pure h
    | true => exact ih.mono fun _ _ h' => Nat.le_trans h h'

theorem run_orFail {m : Write Bool} {Q : Bool → Stream → Prop} (hm : Run s m Q) :
    Run s (orFail m) fun _ s' => Q true s' := by
  refine hm.bind fun ok s' _ h => ?_
  cases ok with
  | false => exact (rfl : s'.buf.length = s'.buf.length)
  | true => exact Run.pure h

theorem run_writeIFD (info : IfdInfo) : Run s (writeIFD info) fun _ s' => s.pos ≤ s'.pos := by
  refine (run_orFail (run_writeW _)).bind fun _ _ _ h1 => ?_
  refine (run_orFail (run_writeW _)).bind fun _ _ _ h2 => ?_
  refine (run_orFail (run_writeL _)).bind fun _ _ _ h3 => ?_
  exact (run_orFail (run_writeL _)).mono fun _ _ h4 =>
    Nat.le_trans h1 (Nat.le_trans h2 (Nat.le_trans h3 h4))

/-- A call whose result is not looked at: the position is either the new or the old one. -/
theorem run_setWritePos_ignored {offset n : Nat} (hs : n ≤ s.pos) (ho : n ≤ offset) :
    Run s (setWritePos offset) fun _ s' => n ≤ s'.pos := by
  refine (run_setWritePos offset).mono fun ok s' h => ?_
  cases ok with
  | true => exact (h.2.1 rfl).symm ▸ ho
  | false => exact (h.2.2 rfl).1.symm ▸ hs

/-- The part of the writers that is the same: the entry. -/
theorem run_entry (info : IfdInfo) (ifdOffset : Nat) {g : Nat → Write β}
    (hg : ∀ s' i, ifdOffset ≤ i → s'.pos = i → Run s' (g i) R) :
    Run s (do orFail (setWritePos ifdOffset); writeIFD info; let i ← getWritePos; g i) R := by
  refine (run_orFail (run_setWritePos _)).bind fun _ s1 _ h1 => ?_
  refine (run_writeIFD info).bind fun _ s2 _ h2 => ?_
  refine run_getWritePos.bind fun i s3 _ h3 => ?_
  refine hg s3 i ?_ (h3.2 ▸ h3.1.symm)
  rw [h3.1, ← h1.2.1 rfl]
  exact h2

/-- The part of the writers that is the same: the values. -/
theorem run_values {m : Write Bool} (valueOffset : Nat)
    (hm : ∀ s', Run s' m fun _ s'' => s'.pos ≤ s''.pos) {g : Bool → Write β}
    (hg : ∀ s' ok, valueOffset ≤ s'.pos → Run s' (g ok) R) :
    Run s (do orFail (setWritePos valueOffset); let ok ← m; g ok) R := by
  refine (run_orFail (run_setWritePos _)).bind fun _ s1 _ h1 => ?_
  refine (hm s1).bind fun ok s2 _ h2 => ?_
  exact hg s2 ok (h1.2.1 rfl ▸ h2)

/-- The offset of the values does not go back, and nothing is left of a bound. -/
theorem run_writer (w : Writer) (info : IfdInfo) {n ifdOffset valueOffset : Nat} (hi : n ≤ ifdOffset)
    (hv : n ≤ valueOffset) : Run s (w.run info ifdOffset valueOffset) fun r s' =>
      n ≤ r.1 ∧ valueOffset ≤ r.2 ∧ n ≤ s'.pos := by
  cases w with
  | rational =>
    refine run_entry info ifdOffset fun s1 i h1 h1' => ?_
    refine (run_orFail (run_setWritePos _)).bind fun _ s2 _ h2 => ?_
    refine (run_orFail (run_writeLs _)).bind fun _ s3 _ h3 => ?_
    refine run_getWritePos.bind fun v s4 _ h4 => Run.pure ?_
    have hv' : valueOffset ≤ v := by
      rw [h4.1, ← h2.2.1 rfl]
      exact h3
    exact ⟨Nat.le_trans hi h1, Nat.le_trans hv' (le_align4 v), h4.2 ▸ h4.1 ▸ Nat.le_trans hv hv'⟩
  | long =>
    refine run_entry _ ifdOffset fun s1 i h1 h1' => ?_
    split
    · refine (run_orFail (run_setWritePos _)).bind fun _ s2 _ h2 => ?_
      refine (run_orFail (run_writeLs _)).bind fun _ s3 _ h3 => ?_
      refine run_getWritePos.bind fun v s4 _ h4 => Run.pure ?_
      have hv' : valueOffset ≤ v := by
        rw [h4.1, ← h2.2.1 rfl]
        exact h3
      exact ⟨Nat.le_trans hi h1, Nat.le_trans hv' (le_align4 v), h4.2 ▸ h4.1 ▸ Nat.le_trans hv hv'⟩
    · exact Run.pure ⟨Nat.le_trans hi h1, Nat.le_refl _, h1' ▸ Nat.le_trans hi h1⟩
  | short =>
    refine run_entry _ ifdOffset fun s1 i h1 h1' => ?_
    split
    · refine run_values valueOffset (fun _ => run_writeWs _) fun s2 ok h2 => ?_
      cases ok with
      | false => exact Run.pure ⟨hi, Nat.le_refl _, Nat.le_trans hv h2⟩
      | true =>
        refine run_getWritePos.bind fun v s3 _ h3 => Run.pure ?_
        have hv' : valueOffset ≤ v := h3.1 ▸ h2
        exact ⟨Nat.le_trans hi h1, Nat.le_trans hv' (le_align4 v), h3.2 ▸ Nat.le_trans hv h2⟩
    · exact Run.pure ⟨Nat.le_trans hi h1, Nat.le_refl _, h1' ▸ Nat.le_trans hi h1⟩
  | byte =>
    refine run_entry _ ifdOffset fun s1 i h1 h1' => ?_
    split
    · refine run_values valueOffset (fun _ => (run_writeCs _).mono fun _ _ h => h.1)
        fun s2 ok h2 => ?_
      cases ok with
      | false => exact Run.pure ⟨hi, Nat.le_refl _, Nat.le_trans hv h2⟩
      | true =>
        refine run_getWritePos.bind fun v s3 _ h3 => Run.pure ?_
        have hv' : valueOffset ≤ v := h3.1 ▸ h2
        exact ⟨Nat.le_trans hi h1, Nat.le_trans hv' (le_align4 v), h3.2 ▸ Nat.le_trans hv h2⟩
    · exact Run.pure ⟨Nat.le_trans hi h1, Nat.le_refl _, h1' ▸ Nat.le_trans hi h1⟩

/-- Everything is behind the first ten bytes, which are those of the header of the segment. -/
structure Past (c : Cursor) (s : Stream) : Prop where
  ifdOffset : 10 ≤ c.ifdOffset
  valueOffset : 10 ≤ c.valueOffset
  pos : 10 ≤ s.pos

theorem run_block (ifhOffset : Nat) {c : Cursor} (b : Block) (hc : Past c s) :
    Run s (b.write ifhOffset c) Past := by
  unfold Block.write
  split
  · refine (run_writer _ _ hc.ifdOffset hc.valueOffset).bind fun r s1 _ h => Run.pure ?_
    exact ⟨h.1, Nat.le_trans hc.valueOffset h.2.1, h.2.2⟩
  · exact Run.pure hc

theorem run_writeBlocks (ifhOffset : Nat) (bs : List Block) {c : Cursor} (hc : Past c s) :
    Run s (writeBlocks ifhOffset bs c) Past := by
  induction bs generalizing s c with
  | nil => exact Run.pure hc
  | cons b bs ih => exact (run_block ifhOffset b hc).bind fun _ _ _ h => ih h

theorem run_openIFD (maxEntries : Nat) {beginOffset : Nat} (hs : 10 ≤ s.pos) (hb : 10 ≤ beginOffset) :
    Run s (openIFD maxEntries beginOffset) Past := by
  refine (run_setWritePos_ignored hs hb).bind fun _ s1 _ h1 => ?_
  refine (run_orFail (run_writeW _)).bind fun _ s2 _ h2 => ?_
  refine run_getWritePos.bind fun i s3 _ h3 => Run.pure ?_
  have hi : 10 ≤ i := h3.1 ▸ Nat.le_trans h1 h2
  exact ⟨hi, Nat.le_trans (by omega) (le_align4 _), h3.2 ▸ h3.1 ▸ hi⟩

theorem run_closeIFD {beginOffset : Nat} (next : UInt32) {c : Cursor} (hb : 10 ≤ beginOffset)
    (hc : Past c s) : Run s (closeIFD beginOffset next c) fun e s' => 10 ≤ e ∧ 10 ≤ s'.pos := by
  refine (run_setWritePos_ignored hc.pos hc.ifdOffset).bind fun _ _ _ h1 => ?_
  refine (run_orFail (run_writeL _)).bind fun _ _ _ h2 => ?_
  refine (run_setWritePos_ignored (Nat.le_trans h1 h2) hb).bind fun _ _ _ h3 => ?_
  exact (run_orFail (run_writeW _)).bind fun _ _ _ h4 =>
    Run.pure ⟨hc.valueOffset, Nat.le_trans h3 h4⟩

theorem run_writeSubIFD (ifhOffset : Nat) (tag : UInt16) {writeInfo : Nat → Write Nat}
    (h : ∀ v s', 10 ≤ v → 10 ≤ s'.pos → Run s' (writeInfo v) fun e s'' => 10 ≤ e ∧ 10 ≤ s''.pos)
    {c : Cursor} (hc : Past c s) : Run s (writeSubIFD ifhOffset tag writeInfo c) Past := by
  have hv := Nat.le_trans hc.valueOffset (le_align4 c.valueOffset)
  refine (run_writer .long _ hc.ifdOffset hv).bind fun r s1 _ h1 => ?_
  exact (h r.2 s1 (Nat.le_trans hv h1.2.1) h1.2.2).bind fun _ _ _ h2 =>
    Run.pure ⟨h1.1, h2.1, h2.2⟩

theorem run_writeOptIFD {α : Type} (ifhOffset : Nat) (tag : UInt16) {info : Option α}
    {write : α → Nat → Write Nat}
    (h : ∀ a v s', 10 ≤ v → 10 ≤ s'.pos → Run s' (write a v) fun e s'' => 10 ≤ e ∧ 10 ≤ s''.pos)
    {c : Cursor} (hc : Past c s) : Run s (writeOptIFD ifhOffset tag (info.map write) c) Past := by
  cases info with
  | none => exact Run.pure hc
  | some a => exact run_writeSubIFD ifhOffset tag (h a) hc

section Infos

variable {beginOffset : Nat} (ifhOffset : Nat)

theorem run_writeExifInteroperabilityInfo (inter : InteroperabilityInfo) (hb : 10 ≤ beginOffset)
    (hs : 10 ≤ s.pos) : Run s (writeExifInteroperabilityInfo inter ifhOffset beginOffset)
      fun e s' => 10 ≤ e ∧ 10 ≤ s'.pos := by
  refine (run_openIFD _ hs hb).bind fun _ _ _ h1 => ?_
  refine (run_writeBlocks _ _ h1).bind fun _ _ _ h2 => ?_
  exact run_closeIFD _ hb h2

theorem run_writeExifSpecInfo (spec : SpecificInfo) (inter : Option InteroperabilityInfo)
    (hb : 10 ≤ beginOffset) (hs : 10 ≤ s.pos) :
    Run s (writeExifSpecInfo spec inter ifhOffset beginOffset)
      fun e s' => 10 ≤ e ∧ 10 ≤ s'.pos := by
  refine (run_openIFD _ hs hb).bind fun _ _ _ h1 => ?_
  refine (run_writeBlocks _ _ h1).bind fun _ _ _ h2 => ?_
  refine (run_writeOptIFD _ _ (fun inter _ _ => run_writeExifInteroperabilityInfo _ inter) h2).bind
    fun _ _ _ h3 => ?_
  refine (run_writeBlocks _ _ h3).bind fun _ _ _ h4 => ?_
  exact run_closeIFD _ hb h4

theorem run_writeExifGPSInfo (gps : GpsInfo) (hb : 10 ≤ beginOffset) (hs : 10 ≤ s.pos) :
    Run s (writeExifGPSInfo gps ifhOffset beginOffset) fun e s' => 10 ≤ e ∧ 10 ≤ s'.pos := by
  refine (run_openIFD _ hs hb).bind fun _ _ _ h1 => ?_
  refine (run_writeBlocks _ _ h1).bind fun _ _ _ h2 => ?_
  exact run_closeIFD _ hb h2

theorem run_writeThumbnail {thumbnailIfdOffset : Nat} (thumbnail : List UInt8) {c : Cursor}
    (ht : 10 ≤ thumbnailIfdOffset) (hc : Past c s) :
    Run s (writeThumbnail ifhOffset thumbnailIfdOffset thumbnail c) Past := by
  unfold writeThumbnail
  split
  · refine (run_setWritePos_ignored hc.pos hc.valueOffset).bind fun _ s1 _ h1 => ?_
    refine (run_orFail (run_writeCs _)).bind fun _ s2 _ h2 => ?_
    refine run_getWritePos.bind fun v s3 _ h3 => ?_
    have hv : 10 ≤ v := h3.1 ▸ Nat.le_trans h1 h2.1
    refine (run_setWritePos_ignored (h3.2 ▸ h3.1 ▸ hv) ht).bind fun _ s4 _ h4 => ?_
    refine (run_writer .long _ ht hv).bind fun r s5 _ h5 => Run.pure ?_
    exact ⟨hc.ifdOffset, Nat.le_trans hv h5.2.1, h5.2.2⟩
  · exact Run.pure hc

theorem run_writeExifIFD (primary : PrimaryInfo) (spec : Option SpecificInfo) (gps : Option GpsInfo)
    (inter : Option InteroperabilityInfo) (thumbnail : List UInt8) (isNextIfdExist : Bool)
    (hb : 10 ≤ beginOffset) (hs : 10 ≤ s.pos) :
    Run s (writeExifIFD primary spec gps inter thumbnail isNextIfdExist ifhOffset beginOffset)
      fun e s' => 10 ≤ e ∧ 10 ≤ s'.pos := by
  refine (run_openIFD _ hs hb).bind fun _ _ _ h1 => ?_
  refine (run_writeBlocks _ _ h1).bind fun _ _ _ h2 => ?_
  refine (run_writeBlocks _ _ h2).bind fun _ _ _ h3 => ?_
  refine (run_writeBlocks _ _ h3).bind fun _ _ _ h4 => ?_
  refine (run_writeOptIFD _ _ (fun spec _ _ => run_writeExifSpecInfo _ spec inter) h4).bind
    fun _ _ _ h5 => ?_
  refine (run_writeOptIFD _ _ (fun gps _ _ => run_writeExifGPSInfo _ gps) h5).bind
    fun _ _ _ h6 => ?_
  refine (run_writeThumbnail _ _ h2.ifdOffset h6).bind fun _ _ _ h7 => ?_
  exact run_closeIFD _ hb h7

end Infos

theorem run_writeIFH (hs : 10 ≤ s.buf.length) :
    Run s (writeIFH 10) fun e s' => 10 ≤ e ∧ 10 ≤ s'.pos := by
  refine (run_setWritePos 10).bind fun ok s1 _ h1 => ?_
  have hpos : 10 ≤ s1.pos := by
    cases ok with
    | true => exact Nat.le_of_eq (h1.2.1 rfl).symm
    | false => exact absurd (h1.2.2 rfl).2 (by omega)
  refine (run_orFail (run_writeW _)).bind fun _ _ _ h2 => ?_
  refine (run_orFail (run_writeW _)).bind fun _ _ _ h3 => ?_
  refine (run_orFail (run_writeL _)).bind fun _ _ _ h4 => ?_
  refine run_getWritePos.mono fun e s' h5 => ?_
  have he := Nat.le_trans hpos (Nat.le_trans h2 (Nat.le_trans h3 h4))
  exact ⟨h5.1 ▸ he, h5.2 ▸ he⟩

theorem run_writeDirectories (exif : ExifInfo) (thumbnail : List UInt8)
    (hs : 10 ≤ s.buf.length) : Run s (writeDirectories exif thumbnail) fun e _ => 10 ≤ e := by
  refine (run_writeIFH hs).bind fun e1 _ _ h1 => ?_
  refine (run_writeExifIFD _ _ _ _ _ _ _ h1.1 h1.2).bind fun e2 _ _ h2 => ?_
  split
  · exact (run_writeExifIFD _ _ _ _ _ _ _ h2.1 h2.2).mono fun _ _ h3 => h3.1
  · exact Run.pure h2.1

theorem run_writeAPP1Header (app1Length : UInt16) :
    Run s (writeAPP1Header app1Length) fun _ s' => s'.buf = patch s.buf 0 (app1Head app1Length) := by
  refine (run_setWritePos 0).bind fun ok s1 _ h1 => ?_
  have hpos : s1.pos = 0 := by
    cases ok with
    | true => exact h1.2.1 rfl
    | false => exact absurd (h1.2.2 rfl).2 (Nat.not_lt_zero _)
  refine (run_orFail (run_writeC _)).bind fun _ s2 _ h2 => ?_
  refine (run_orFail (run_writeC _)).bind fun _ s3 _ h3 => ?_
  refine (run_orFail (run_writeCs _)).bind fun _ s4 _ h4 => ?_
  refine (run_orFail (run_writeCs _)).mono fun _ s5 h5 => ?_
  rw [h5.2 rfl, h4.2 rfl, (h3.2 rfl).1, (h2.2 rfl).1, hpos, h1.1]
  -- four writes side by side
  have e1 := patch_append s.buf 0 [0xFF] [0xE1]
  have e2 := patch_append s.buf 0 [0xFF, 0xE1] (beShort app1Length)
  have e3 := patch_append s.buf 0 ([0xFF, 0xE1] ++ beShort app1Length) [0x45, 0x78, 0x69, 0x66, 0, 0]
  simp only [List.length_cons, List.length_nil, length_beShort, List.cons_append,
    List.nil_append] at e1 e2 e3 ⊢
  rw [e1, e2, e3]
  rfl

/-- **A segment that was written** has its head, its size is the one in the head, and the directories
end where it ends. -/
theorem run_writeAPP1 (exif : Option ExifInfo) (thumbnail : List UInt8) :
    Run s (writeAPP1 exif thumbnail) fun n s' => ∃ info e s1, exif = some info ∧
      10 ≤ s.buf.length ∧ writeDirectories info thumbnail s = .ok e s1 ∧ 10 ≤ e ∧
      n = (UInt16.ofNat e - 2).toNat + 2 ∧
      s'.buf.take 10 = app1Head (UInt16.ofNat e - 2) := by
  cases exif with
  | none => exact (rfl : s.buf.length = s.buf.length)
  | some info =>
    unfold writeAPP1
    refine Run.bind (Q := fun a s' => a = s ∧ s' = s) ⟨rfl, rfl, rfl⟩ fun a s1 _ h1 => ?_
    rw [h1.1, h1.2]
    split
    · exact (rfl : s.buf.length = s.buf.length)
    · rename_i hlen
      have hlen : 10 ≤ s.buf.length := Nat.le_of_not_lt hlen
      refine (run_writeDirectories info thumbnail hlen).self.bind fun e s2 hlen2 h2 => ?_
      refine (run_writeAPP1Header _).bind fun _ s3 hlen3 h3 => Run.pure ?_
      refine ⟨info, e, s2, rfl, hlen, h2.1, h2.2, rfl, ?_⟩
      have hhead : (app1Head (UInt16.ofNat e - 2)).length = 10 := rfl
      have hpatch := patch_length_append []
        (show (app1Head (UInt16.ofNat e - 2)).length ≤ s2.buf.length by omega)
      rw [h3, ← List.nil_append s2.buf]
      show (patch ([] ++ s2.buf) ([] : List UInt8).length _).take 10 = _
      rw [hpatch, List.nil_append, List.take_left' hhead]

end Runs

/-! ## Both ways give the same picture -/

section Parse

open Jpeg

variable {codec : Codec} {s s' : Decoder}

/-- `s_header_len` after parsing: the bytes that have been read. -/
def headerLen (stream : List UInt8) (s : Decoder) : Nat := stream.length - s.rest.length

theorem nextMarker_length {seen : Bool} {l r : List UInt8} {c : UInt8}
    (h : nextMarker seen l = some (c, r)) : r.length ≤ l.length := by
  induction l generalizing seen with
  | nil => cases h
  | cons x l ih =>
    rw [nextMarker] at h
    rw [List.length_cons]
    split at h
    · exact Nat.le_succ_of_le (ih h)
    · split at h
      · exact Nat.le_succ_of_le (ih h)
      · split at h
        · exact Nat.le_succ_of_le (ih h)
        · cases h
          exact Nat.le_succ _

theorem getNextMarker_length {c : UInt8} (h : s.getNextMarker = some (c, s')) :
    s'.rest.length ≤ s.rest.length := by
  unfold Decoder.getNextMarker at h
  split at h
  · cases h
  · rename_i c' r hn
    cases h
    exact nextMarker_length hn

theorem processTables_length {c : UInt8} (h : processTables s = some (c, s')) :
    s'.rest.length ≤ s.rest.length := by
  fun_induction processTables s with
  | case1 s hn => cases h
  | case2 s c1 s1 hn ha =>
    cases h
    exact getNextMarker_length hn
  | case3 s c1 s1 hn ha => cases h
  | case4 s c1 s1 hn hd ha hrun => cases h
  | case5 s c1 s1 hn hd ha s2 hrun hlt ih => exact Nat.le_trans (ih h) (Nat.le_of_lt hlt)
  | case6 s c1 s1 hn hd ha s2 hrun hlt => cases h

/-- **A segment behind SOI that the parser skips** is not noticed. -/
theorem parseHead_insert {w : Nat} {body tail : List UInt8} (hw : w < 2 ^ 16)
    (hbody : w = body.length + 2) :
    parseHead ⟨putMarker markerSOI ++ (putMarker 0xE1 ++ (putW w ++ (body ++ tail))), codec⟩ =
      parseHead ⟨putMarker markerSOI ++ tail, codec⟩ := by
  have hskip : Handler.skip.run ⟨putW w ++ (body ++ tail), codec⟩ = some ⟨tail, codec⟩ := by
    simp only [Handler.run]
    unfold skipVariable
    rw [bind_putW hw]
    simp only
    rw [if_neg (by omega), bind_append (by omega)]
    rfl
  have htables := processTables_segment (m := 0xE1) (h := .skip) (by decide) (by decide) (by decide)
    hskip
  unfold parseHead
  rw [findSOI_putMarker, findSOI_putMarker, Option.bind_eq_bind, Option.bind_some,
    Option.bind_eq_bind, Option.bind_some, htables]

theorem parseHead_length {tail : List UInt8}
    (h : parseHead ⟨putMarker markerSOI ++ tail, codec⟩ = some s') :
    s'.rest.length ≤ tail.length := by
  unfold parseHead at h
  rw [findSOI_putMarker, Option.bind_eq_bind, Option.bind_some] at h
  cases hp : processTables ⟨tail, codec⟩ with
  | none => rw [hp] at h; cases h
  | some r =>
    obtain ⟨c, s1⟩ := r
    rw [hp, Option.bind_eq_bind, Option.bind_some] at h
    simp only at h
    split at h
    · have hle := (getSOS_took h).length
      have hle' := processTables_length hp
      simp only at hle hle' ⊢
      omega
    · cases h

end Parse

section Insert

open Jpeg

variable {p : WexifIn} {mem mem1 : Mem} {n : UInt32}

/-- A picture starts with SOI and lies in the address space. -/
structure WexifIn.IsJpeg (p : WexifIn) (mem : Mem) : Prop where
  soi : (p.src mem).take 2 = [0xFF, 0xD8]
  inMemory : p.srcJpegBuf.toNat + p.srcJpegSize.toNat ≤ 2 ^ 32

/-- The segment fits into 65535 bytes. -/
def WexifIn.Fits (p : WexifIn) (mem : Mem) : Prop :=
  ∀ info e s, p.exifInfo = some info →
    writeDirectories info p.thumbnail ⟨p.temp mem, 0⟩ = .ok e s → e ≤ 65535

/-- The temporary buffer, and the segment of `n` bytes in it, are apart from the place in front of the
picture and from the picture. -/
def WexifIn.Apart (p : WexifIn) (n : Nat) : Prop :=
  p.tempBuf.toNat + max p.tempSize.toNat n ≤ p.srcJpegBuf.toNat - n ∨
    p.srcJpegBuf.toNat + p.srcJpegSize.toNat ≤ p.tempBuf.toNat

/-- The picture with a segment behind SOI. -/
def withSegment (src segment : List UInt8) : List UInt8 := [0xFF, 0xD8] ++ segment ++ src.drop 2

theorem length_temp_le (p : WexifIn) (mem : Mem) : (p.temp mem).length ≤ p.tempSize.toNat := by
  unfold WexifIn.temp
  split
  · exact Nat.zero_le _
  · exact Nat.le_of_eq (Mem.length_bytes _ _ _)

/-- In a temporary buffer with room the segment fits. -/
theorem WexifIn.fits_of_room {info : ExifInfo} (hinfo : p.exifInfo = some info)
    (hroom : app1Size info p.thumbnail ≤ (p.temp mem).length)
    (h16 : app1Size info p.thumbnail < 65536) : p.Fits mem := by
  intro info' e s hinfo' hrun
  obtain rfl : info = info' := Option.some.inj (hinfo.symm.trans hinfo')
  obtain ⟨buf', pos', hok, -⟩ := writeDirectories_ok 0 hroom (by omega)
  have he := (EStateM.Result.ok.inj (hok.symm.trans hrun)).1
  omega

/-- And it is made there. -/
theorem WexifIn.writeAPP1_of_room {info : ExifInfo} (hinfo : p.exifInfo = some info)
    (hroom : app1Size info p.thumbnail ≤ (p.temp mem).length)
    (h16 : app1Size info p.thumbnail < 65536) :
    ∃ n mem1, p.writeAPP1 mem = (.ok n, mem1) ∧ n.toNat = app1Size info p.thumbnail := by
  obtain ⟨buf', pos', hok, -⟩ := Exif.writeAPP1_ok 0 hroom h16
  refine ⟨UInt32.ofNat (app1Size info p.thumbnail), mem.store p.tempBuf.toNat buf', ?_, ?_⟩
  · unfold WexifIn.writeAPP1
    rw [hinfo, hok]
  · rw [UInt32.toNat_ofNat']
    exact Nat.mod_eq_of_lt (by omega)

/-- Making the segment changes nothing but the temporary buffer. -/
theorem WexifIn.writeAPP1_of_out (p : WexifIn) (mem : Mem) {a : Nat}
    (h : a < p.tempBuf.toNat ∨ p.tempBuf.toNat + p.tempSize.toNat ≤ a) :
    (p.writeAPP1 mem).2 a = mem a := by
  have hlen := length_temp_le p mem
  have hrun := run_writeAPP1 (s := ⟨p.temp mem, 0⟩) p.exifInfo p.thumbnail
  unfold WexifIn.writeAPP1
  split
  · rename_i size s hok
    have hs : s.buf.length = (p.temp mem).length := (hrun.of_ok hok).1
    exact Mem.store_of_out mem _ (by omega)
  · rename_i e s herr
    have hs : s.buf.length = (p.temp mem).length := hrun.of_error herr
    exact Mem.store_of_out mem _ (by omega)

/-- **The segment in memory** is a segment that the parser skips. -/
theorem WexifIn.writeAPP1_segment (hfits : p.Fits mem) (h : p.writeAPP1 mem = (.ok n, mem1)) :
    p.exifInfo ≠ none ∧ 10 ≤ n.toNat ∧ n.toNat ≤ 65535 ∧
      ∃ body, mem1.bytes p.tempBuf.toNat n.toNat =
        putMarker 0xE1 ++ (putW (n.toNat - 2) ++ body) := by
  unfold WexifIn.writeAPP1 at h
  split at h
  · rename_i size s hok
    obtain ⟨hlen, info, e, s1, hinfo, hten, hdirs, he, hsize, hhead⟩ :=
      (run_writeAPP1 (s := ⟨p.temp mem, 0⟩) p.exifInfo p.thumbnail).of_ok hok
    have hle := hfits info e s1 hinfo hdirs
    have hlen16 : (UInt16.ofNat e - 2).toNat = e - 2 := toNat_app1Length (by omega) hle
    cases h
    have hn : (UInt32.ofNat size).toNat = e := by
      rw [UInt32.toNat_ofNat', hsize, hlen16]
      omega
    rw [hn]
    refine ⟨hinfo ▸ nofun, he, hle,
      [0x45, 0x78, 0x69, 0x66, 0, 0] ++ (mem.store p.tempBuf.toNat s.buf).bytes
        (p.tempBuf.toNat + 10) (e - 10), ?_⟩
    have hten' : (mem.store p.tempBuf.toNat s.buf).bytes p.tempBuf.toNat 10 = s.buf.take 10 := by
      have hself := Mem.bytes_store_self mem p.tempBuf.toNat s.buf
      have hsplit := Mem.bytes_add (mem.store p.tempBuf.toNat s.buf) p.tempBuf.toNat 10
        (s.buf.length - 10)
      rw [Nat.add_sub_cancel' (by simp only at hlen hten; omega), hself] at hsplit
      conv_rhs => rw [hsplit]
      rw [List.take_left' (Mem.length_bytes _ _ _)]
    have hcut := Mem.bytes_add (mem.store p.tempBuf.toNat s.buf) p.tempBuf.toNat 10 (e - 10)
    rw [Nat.add_sub_cancel' he] at hcut
    rw [hcut, hten', hhead]
    simp only [app1Head, beShort, putMarker, putW, hlen16, List.cons_append, List.nil_append]
  · cases h

theorem WexifIn.IsJpeg.two_le (hj : p.IsJpeg mem) : 2 ≤ p.srcJpegSize.toNat := by
  have hlen := congrArg List.length hj.soi
  unfold WexifIn.src at hlen
  rw [List.length_take, Mem.length_bytes] at hlen
  simp only [List.length_cons, List.length_nil] at hlen
  omega

theorem WexifIn.IsJpeg.src_eq (hj : p.IsJpeg mem) :
    p.src mem = putMarker markerSOI ++ (p.src mem).drop 2 := by
  conv_lhs => rw [← List.take_append_drop 2 (p.src mem), hj.soi]
  rfl

theorem WexifIn.drop_src (hj : p.IsJpeg mem) : (p.src mem).drop 2 =
    mem.bytes (p.srcJpegBuf.toNat + 2) (p.srcJpegSize.toNat - 2) := by
  have hdrop := Mem.drop_bytes mem p.srcJpegBuf.toNat 2 (p.srcJpegSize.toNat - 2)
  rw [Nat.add_sub_cancel' hj.two_le] at hdrop
  exact hdrop

/-- Making the segment leaves the picture alone. -/
theorem WexifIn.tail_writeAPP1 (hj : p.IsJpeg mem) (h : p.writeAPP1 mem = (.ok n, mem1))
    (ha : p.Apart n.toNat) :
    mem1.bytes (p.srcJpegBuf.toNat + 2) (p.srcJpegSize.toNat - 2) = (p.src mem).drop 2 := by
  rw [drop_src hj]
  refine Mem.bytes_congr fun x h1 h2 => ?_
  have htwo := hj.two_le
  have hout := p.writeAPP1_of_out mem (a := x) (by unfold WexifIn.Apart at ha; omega)
  rw [h] at hout
  exact hout

theorem addExifToMemory_bytes (hj : p.IsJpeg mem) (h : p.writeAPP1 mem = (.ok n, mem1))
    (ht : p.targetBuf.toNat + n.toNat ≤ p.srcJpegBuf.toNat) (ha : p.Apart n.toNat) :
    ∃ mem2, addExifToMemory p mem =
        (.ok ⟨p.srcJpegBuf - n, n + p.srcJpegSize⟩, mem2) ∧
      mem2.bytes (p.srcJpegBuf.toNat - n.toNat) (n.toNat + p.srcJpegSize.toNat) =
        withSegment (p.src mem) (mem1.bytes p.tempBuf.toNat n.toNat) := by
  have htwo := hj.two_le
  have hfree : (p.srcJpegBuf - p.targetBuf).toNat = p.srcJpegBuf.toNat - p.targetBuf.toNat :=
    UInt32.toNat_sub_of_le _ _ (UInt32.le_iff_toNat_le.mpr (by omega))
  have htarget : (p.srcJpegBuf - n).toNat = p.srcJpegBuf.toNat - n.toNat :=
    UInt32.toNat_sub_of_le _ _ (UInt32.le_iff_toNat_le.mpr (by omega))
  have hnot : ¬p.srcJpegBuf - p.targetBuf < n := by
    rw [UInt32.lt_iff_toNat_lt, hfree]
    omega
  unfold addExifToMemory
  rw [h]
  simp only
  rw [if_neg hnot, htarget]
  refine ⟨_, rfl, ?_⟩
  generalize htgt : p.srcJpegBuf.toNat - n.toNat = t
  generalize hmem : mem1.store t [0xFF, 0xD8] = m1
  have hsegment : m1.bytes p.tempBuf.toNat n.toNat = mem1.bytes p.tempBuf.toNat n.toNat := by
    rw [← hmem]
    refine Mem.bytes_store_of_apart mem1 _ ?_
    unfold WexifIn.Apart at ha
    simp only [List.length_cons, List.length_nil]
    omega
  have hsoi : m1.bytes t 2 = [0xFF, 0xD8] := hmem ▸ Mem.bytes_store_self mem1 t [0xFF, 0xD8]
  have htail : m1.bytes (t + 2 + n.toNat) (p.srcJpegSize.toNat - 2) = (p.src mem).drop 2 := by
    rw [← WexifIn.tail_writeAPP1 hj h ha, ← hmem]
    have hplace : t + 2 + n.toNat = p.srcJpegBuf.toNat + 2 := by omega
    rw [hplace]
    refine Mem.bytes_store_of_apart mem1 _ ?_
    simp only [List.length_cons, List.length_nil]
    omega
  have hlen : (m1.bytes p.tempBuf.toNat n.toNat).length = n.toNat := Mem.length_bytes _ _ _
  -- SOI, the segment, the rest of the picture
  have hsplit : n.toNat + p.srcJpegSize.toNat = 2 + (n.toNat + (p.srcJpegSize.toNat - 2)) := by omega
  have hseg := Mem.bytes_store_self m1 (t + 2) (m1.bytes p.tempBuf.toNat n.toNat)
  rw [hlen] at hseg
  rw [hsplit, Mem.bytes_add, Mem.bytes_add, hseg, Mem.bytes_store_of_apart m1 _ (by omega),
    Mem.bytes_store_of_apart m1 _ (by omega), hsoi, htail, hsegment]
  unfold withSegment
  rw [List.append_assoc]

/-- Data at the end of the file is appended. -/
theorem callWrite_writeDisk {disk : List UInt8} (data : List UInt8) {offset : Nat}
    (h : offset = disk.length) :
    callWrite writeDisk disk data offset = (.ok data.length, disk ++ data) := by
  subst h
  simp [callWrite, writeDisk]

theorem addExifToFile_bytes (hj : p.IsJpeg mem) (h : p.writeAPP1 mem = (.ok n, mem1))
    (ha : p.Apart n.toNat) : addExifToFile p writeDisk mem [] =
      (.ok (), mem1, withSegment (p.src mem) (mem1.bytes p.tempBuf.toNat n.toNat)) := by
  have htwo := hj.two_le
  have hsize : (p.srcJpegSize - 2).toNat = p.srcJpegSize.toNat - 2 :=
    UInt32.toNat_sub_of_le _ _ (UInt32.le_iff_toNat_le.mpr htwo)
  unfold addExifToFile
  rw [h]
  simp only
  rw [callWrite_writeDisk [0xFF, 0xD8] (by rfl)]
  simp only
  rw [callWrite_writeDisk _ (by rfl), hsize, WexifIn.tail_writeAPP1 hj h ha]
  simp only
  rw [callWrite_writeDisk _ (by rw [List.nil_append, List.length_append])]
  rfl

/-- **The parser does not notice the segment.** -/
theorem parseHead_withSegment (hj : p.IsJpeg mem) (hfits : p.Fits mem)
    (h : p.writeAPP1 mem = (.ok n, mem1)) (codec : Codec) :
    parseHead ⟨withSegment (p.src mem) (mem1.bytes p.tempBuf.toNat n.toNat), codec⟩ =
      parseHead ⟨p.src mem, codec⟩ := by
  obtain ⟨-, hten, hle, body, hbody⟩ := WexifIn.writeAPP1_segment hfits h
  have hlen := congrArg List.length hbody
  rw [Mem.length_bytes] at hlen
  simp only [putMarker, putW, List.length_append, List.length_cons, List.length_nil] at hlen
  have hsrc := hj.src_eq
  have hwhole : withSegment (p.src mem) (mem1.bytes p.tempBuf.toNat n.toNat) =
      putMarker markerSOI ++ (putMarker 0xE1 ++ (putW (n.toNat - 2) ++
        (body ++ (p.src mem).drop 2))) := by
    unfold withSegment
    rw [hbody]
    simp only [List.append_assoc]
    rfl
  rw [hwhole, parseHead_insert (by omega) (by omega), ← hsrc]

theorem headerLen_withSegment (hj : p.IsJpeg mem) (mem1 : Mem) (n : UInt32)
    {codec : Codec} {s : Decoder} (hs : parseHead ⟨p.src mem, codec⟩ = some s) :
    headerLen (withSegment (p.src mem) (mem1.bytes p.tempBuf.toNat n.toNat)) s =
      headerLen (p.src mem) s + n.toNat := by
  have htwo := hj.two_le
  rw [hj.src_eq] at hs
  have hle := parseHead_length hs
  have hlen : (p.src mem).length = p.srcJpegSize.toNat := Mem.length_bytes _ _ _
  unfold headerLen withSegment
  rw [List.length_append, List.length_append, Mem.length_bytes, List.length_drop]
  rw [List.length_drop] at hle
  simp only [List.length_cons, List.length_nil]
  omega

/-- **Adding EXIF is transparent, and both ways of doing it agree.** If there is room in front of the
picture, the output is the picture with the segment behind SOI; the file has the same bytes, and the
parser ends with the same codec after exactly the bytes of the segment more. Otherwise nothing but the
temporary buffer has changed. -/
theorem exif_transparent (p : WexifIn) (mem : Mem) (hj : p.IsJpeg mem) (hfits : p.Fits mem) :
    (∀ n mem1, p.writeAPP1 mem = (.ok n, mem1) → p.targetBuf ≠ 0 →
      p.targetBuf.toNat + n.toNat ≤ p.srcJpegBuf.toNat → p.Apart n.toNat →
      ∃ out mem2 whole, whole = withSegment (p.src mem) (mem1.bytes p.tempBuf.toNat n.toNat) ∧
        imgJPEGWriteExif p none mem () = ((.success, some out), mem2, ()) ∧
        mem2.bytes out.outputBuf.toNat out.outputSize.toNat = whole ∧
        imgJPEGWriteExif p (some writeDisk) mem [] = ((.success, none), mem1, whole) ∧
        ∀ codec, parseHead ⟨whole, codec⟩ = parseHead ⟨p.src mem, codec⟩ ∧
          ∀ s, parseHead ⟨p.src mem, codec⟩ = some s →
            headerLen whole s = headerLen (p.src mem) s + n.toNat) ∧
    ((∀ n mem1, p.writeAPP1 mem = (.ok n, mem1) →
        p.srcJpegBuf.toNat < p.targetBuf.toNat + n.toNat) →
      ∃ r mem2, imgJPEGWriteExif p none mem () = ((r, none), mem2, ()) ∧ r ≠ .success ∧
        ∀ a, a < p.tempBuf.toNat ∨ p.tempBuf.toNat + p.tempSize.toNat ≤ a → mem2 a = mem a) := by
  refine ⟨fun n mem1 h hnull ht ha => ?_, fun hfail => ?_⟩
  · obtain ⟨hexif, hten, -⟩ := WexifIn.writeAPP1_segment hfits h
    obtain ⟨mem2, hadd, hbytes⟩ := addExifToMemory_bytes hj h ht ha
    have hcheck : ¬(p.exifInfo.isNone ∧ p.srcJpegBuf = 0 ∧ p.tempBuf = 0) := fun hc =>
      hexif (Option.isNone_iff_eq_none.mp hc.1)
    have hlt : ¬p.srcJpegBuf ≤ p.targetBuf := by
      rw [UInt32.le_iff_toNat_le]
      omega
    have hbuf : (p.srcJpegBuf - n).toNat = p.srcJpegBuf.toNat - n.toNat :=
      UInt32.toNat_sub_of_le _ _ (UInt32.le_iff_toNat_le.mpr (by omega))
    have hsize : (n + p.srcJpegSize).toNat = n.toNat + p.srcJpegSize.toNat := by
      have htarget : p.targetBuf.toNat ≠ 0 := fun h0 => hnull (UInt32.toNat_inj.mp h0)
      have hin := hj.inMemory
      rw [UInt32.toNat_add]
      exact Nat.mod_eq_of_lt (by omega)
    refine ⟨⟨p.srcJpegBuf - n, n + p.srcJpegSize⟩, mem2, _, rfl, ?_, ?_, ?_, fun codec => ?_⟩
    · unfold imgJPEGWriteExif
      rw [if_neg hcheck]
      simp only
      rw [if_neg hnull, if_neg hlt, hadd]
    · rw [hbuf, hsize]
      exact hbytes
    · unfold imgJPEGWriteExif
      rw [if_neg hcheck]
      simp only
      rw [addExifToFile_bytes hj h ha]
    · exact ⟨parseHead_withSegment hj hfits h codec, fun s hs => headerLen_withSegment hj mem1 n hs⟩
  · unfold imgJPEGWriteExif
    split
    · exact ⟨_, _, rfl, nofun, fun _ _ => rfl⟩
    · simp only
      split
      · exact ⟨_, _, rfl, nofun, fun _ _ => rfl⟩
      · split
        · exact ⟨_, _, rfl, nofun, fun _ _ => rfl⟩
        · rename_i hlt
          have hout : ∀ a, a < p.tempBuf.toNat ∨ p.tempBuf.toNat + p.tempSize.toNat ≤ a →
              (p.writeAPP1 mem).2 a = mem a := fun a => p.writeAPP1_of_out mem
          unfold addExifToMemory
          cases hw : p.writeAPP1 mem with
          | mk res mem1 =>
            rw [hw] at hout
            cases res with
            | error e => exact ⟨_, _, rfl, nofun, hout⟩
            | ok n =>
              have hroom := hfail n mem1 hw
              rw [UInt32.le_iff_toNat_le] at hlt
              have hfree : (p.srcJpegBuf - p.targetBuf).toNat =
                  p.srcJpegBuf.toNat - p.targetBuf.toNat :=
                UInt32.toNat_sub_of_le _ _ (UInt32.le_iff_toNat_le.mpr (by omega))
              have hless : p.srcJpegBuf - p.targetBuf < n := by
                rw [UInt32.lt_iff_toNat_lt, hfree]
                omega
              simp only
              rw [if_pos hless]
              exact ⟨_, _, rfl, nofun, hout⟩

/-- Memory with SOI and EOI at 1000. -/
def tinyMem : Mem := Mem.store (fun _ => 0) 1000 [0xFF, 0xD8, 0xFF, 0xD9]

/-- They get the least EXIF information; the buffer for it is behind them. -/
def tinyIn : WexifIn where
  exifInfo := some default
  srcJpegBuf := 1000
  srcJpegSize := 4
  thumbnail := []
  tempBuf := 2000
  tempSize := 400
  targetBuf := 100

theorem app1Size_default : app1Size default [] = 328 := by decide +kernel

theorem exif_transparent_tiny : tinyIn.IsJpeg tinyMem ∧ tinyIn.Fits tinyMem ∧
    ∃ out mem1 mem2 whole, imgJPEGWriteExif tinyIn none tinyMem () = ((.success, some out), mem2, ()) ∧
      mem2.bytes out.outputBuf.toNat out.outputSize.toNat = whole ∧
      imgJPEGWriteExif tinyIn (some writeDisk) tinyMem [] = ((.success, none), mem1, whole) := by
  have hj : tinyIn.IsJpeg tinyMem := ⟨by decide +kernel, by decide⟩
  have htemp : (tinyIn.temp tinyMem).length = 400 := Mem.length_bytes _ _ _
  have hroom : app1Size default tinyIn.thumbnail ≤ (tinyIn.temp tinyMem).length := by
    rw [htemp]
    exact Nat.le_trans (Nat.le_of_eq app1Size_default) (by decide)
  have h16 : app1Size default tinyIn.thumbnail < 65536 :=
    Nat.lt_of_le_of_lt (Nat.le_of_eq app1Size_default) (by decide)
  have hfits := WexifIn.fits_of_room rfl hroom h16
  obtain ⟨n, mem1, hwrite, hn⟩ := WexifIn.writeAPP1_of_room rfl hroom h16
  have hn : n.toNat = 328 := hn.trans app1Size_default
  have htarget : tinyIn.targetBuf.toNat + n.toNat ≤ tinyIn.srcJpegBuf.toNat := by
    rw [hn]
    decide
  obtain ⟨out, mem2, whole, -, hmem, hbytes, hfile, -⟩ := (exif_transparent tinyIn tinyMem hj hfits).1
    n mem1 hwrite (by decide) htarget (.inr (by decide))
  exact ⟨hj, hfits, out, mem1, mem2, whole, hmem, hbytes, hfile⟩

end Insert

end SprdHal.Exif
