import SprdHal.Exif.Layout

/-!
# What is stored

The writer stores bytes through two functions of the stream only, `Jpeg_WriteC` and `Jpeg_WriteL`, and
both look at the end of the buffer first. A program that calls the stream and nothing else therefore
stores no byte outside of the buffer, whatever it is (`Prog.stores_inside`), and `Jpeg_WriteAPP1` is
such a program (`writeAPP1_programmed`).
-/

namespace SprdHal.Exif

open Lib

/-! ## Programs over the stream -/

/-- A call of the stream. -/
inductive Op : Type → Type
  | size : Op Nat
  | setWritePos (offset : Nat) : Op Bool
  | getWritePos : Op Nat
  | writeC (c : UInt8) : Op Bool
  | writeL (l : UInt32) : Op Bool

def Op.run {β : Type} : Op β → Write β
  | size => fun s => .ok s.buf.length s
  | setWritePos offset => Exif.setWritePos offset
  | getWritePos => Exif.getWritePos
  | writeC c => Exif.writeC c
  | writeL l => Exif.writeL l

/-- The offsets in the buffer at which a call stores a byte: `*write_ptr++ = c`. -/
def Op.stores {β : Type} : Op β → Stream → List Nat
  | writeC _, s => if s.buf.length ≤ s.pos then [] else [s.pos]
  | writeL _, s => if s.buf.length < s.pos + 4 then [] else [s.pos, s.pos + 1, s.pos + 2, s.pos + 3]
  | _, _ => []

/-- A program over the stream. -/
inductive Prog (α : Type) : Type 1
  | pure (a : α)
  | fail (e : Ret)
  | call {β : Type} (op : Op β) (k : β → Prog α)

namespace Prog

variable {α β : Type}

def run : Prog α → Write α
  | pure a => fun s => .ok a s
  | fail e => fun s => .error e s
  | call op k => fun s =>
    match op.run s with
    | .ok b s' => (k b).run s'
    | .error e s' => .error e s'

def stores : Prog α → Stream → List Nat
  | pure _, _ => []
  | fail _, _ => []
  | call op k, s => op.stores s ++
    match op.run s with
    | .ok b s' => (k b).stores s'
    | .error _ _ => []

def bind : Prog α → (α → Prog β) → Prog β
  | pure a, f => f a
  | fail e, _ => fail e
  | call op k, f => call op fun b => (k b).bind f

theorem run_bind (p : Prog α) (f : α → Prog β) :
    (p.bind f).run = p.run >>= fun a => (f a).run := by
  induction p with
  | pure a => rfl
  | fail e => rfl
  | call op k ih =>
    funext s
    cases hop : op.run s with
    | ok b s' =>
      have hcall : (call op k).run s = (k b).run s' := by simp only [run, hop]
      have hbind : ((call op k).bind f).run s = ((k b).bind f).run s' := by
        simp only [bind, run, hop]
      rw [hbind, ih]
      show EStateM.bind _ _ _ = EStateM.bind _ _ _
      simp only [EStateM.bind, hcall]
    | error e s' =>
      have hcall : (call op k).run s = .error e s' := by simp only [run, hop]
      have hbind : ((call op k).bind f).run s = .error e s' := by simp only [bind, run, hop]
      rw [hbind, bind_error hcall]

end Prog

/-! ## Nothing outside the buffer -/

/-- A call leaves the length of the buffer alone. -/
theorem Op.length_run {β : Type} (op : Op β) {s s' : Stream} {b : β} (h : op.run s = .ok b s') :
    s'.buf.length = s.buf.length := by
  cases op with
  | size | getWritePos =>
    cases h
    rfl
  | setWritePos offset =>
    simp only [Op.run, Exif.setWritePos] at h
    split at h <;> cases h <;> rfl
  | writeC c =>
    simp only [Op.run, Exif.writeC] at h
    split at h <;> cases h
    · rfl
    · exact length_patch _ _ _
  | writeL l =>
    simp only [Op.run, Exif.writeL] at h
    split at h <;> cases h
    · rfl
    · exact length_patch _ _ _

/-- The position stays in the buffer, or at its end. -/
theorem Op.pos_le {β : Type} (op : Op β) {s s' : Stream} {b : β} (hs : s.pos ≤ s.buf.length)
    (h : op.run s = .ok b s') : s'.pos ≤ s'.buf.length := by
  cases op with
  | size | getWritePos =>
    cases h
    exact hs
  | setWritePos offset =>
    simp only [Op.run, Exif.setWritePos] at h
    split at h <;> cases h
    · exact hs
    · next hroom => exact Nat.not_lt.mp hroom
  | writeC c =>
    simp only [Op.run, Exif.writeC] at h
    split at h <;> cases h
    · exact hs
    · next hroom =>
      show s.pos + 1 ≤ (patch s.buf s.pos [c]).length
      rw [length_patch]
      omega
  | writeL l =>
    simp only [Op.run, Exif.writeL] at h
    split at h <;> cases h
    · exact hs
    · next hroom =>
      show s.pos + 4 ≤ (patch s.buf s.pos (beLong l)).length
      rw [length_patch]
      omega

theorem Op.stores_inside {β : Type} (op : Op β) (s : Stream) : ∀ a ∈ op.stores s, a < s.buf.length := by
  intro a ha
  cases op with
  | size | getWritePos | setWritePos => exact absurd ha List.not_mem_nil
  | writeC c =>
    simp only [Op.stores] at ha
    split at ha
    · exact absurd ha List.not_mem_nil
    · rw [List.mem_singleton.mp ha]
      omega
  | writeL l =>
    simp only [Op.stores] at ha
    split at ha
    · exact absurd ha List.not_mem_nil
    · simp only [List.mem_cons, List.not_mem_nil, or_false] at ha
      omega

/-- Bytes that are not stored to stay as they are. -/
theorem Op.same {β : Type} (op : Op β) {s s' : Stream} {b : β} (h : op.run s = .ok b s') {k : Nat}
    (hk : k ∉ op.stores s) : s'.buf[k]? = s.buf[k]? := by
  cases op with
  | size | getWritePos =>
    cases h
    rfl
  | setWritePos offset =>
    simp only [Op.run, Exif.setWritePos] at h
    split at h <;> cases h <;> rfl
  | writeC c =>
    simp only [Op.run, Exif.writeC] at h
    simp only [Op.stores] at hk
    split at h <;> cases h
    · rfl
    · next hroom =>
      rw [if_neg hroom, List.mem_singleton] at hk
      exact getElem?_patch_of_out _ _ _ (by rw [List.length_singleton]; omega)
  | writeL l =>
    simp only [Op.run, Exif.writeL] at h
    simp only [Op.stores] at hk
    split at h <;> cases h
    · rfl
    · next hroom =>
      rw [if_neg hroom] at hk
      simp only [List.mem_cons, List.not_mem_nil, or_false, not_or] at hk
      exact getElem?_patch_of_out _ _ _ (by rw [length_beLong]; omega)

section Stores

variable {α : Type}

/-- **A program over the stream stores nothing outside of the buffer.** -/
theorem Prog.stores_inside (p : Prog α) (s : Stream) : ∀ a ∈ p.stores s, a < s.buf.length := by
  induction p generalizing s with
  | pure | fail => exact fun a ha => absurd ha List.not_mem_nil
  | call op k ih =>
    intro a ha
    simp only [Prog.stores] at ha
    rcases List.mem_append.mp ha with ha | ha
    · exact op.stores_inside s a ha
    · cases hop : op.run s with
      | ok b s' =>
        rw [hop] at ha
        rw [← op.length_run hop]
        exact ih b s' a ha
      | error e s' =>
        rw [hop] at ha
        exact absurd ha List.not_mem_nil

/-- What a result leaves in the buffer. -/
def bufOf : EStateM.Result Ret Stream α → List UInt8
  | .ok _ s => s.buf
  | .error _ s => s.buf

theorem Op.run_ne_error {β : Type} (op : Op β) (s s' : Stream) (e : Ret) : op.run s ≠ .error e s' := by
  cases op with
  | size | getWritePos => nofun
  | setWritePos | writeC | writeL =>
    simp only [Op.run, Exif.setWritePos, Exif.writeC, Exif.writeL]
    split <;> nofun

/-- **What a program does not store to stays as it is.** -/
theorem Prog.same (p : Prog α) (s : Stream) {k : Nat} (hk : k ∉ p.stores s) :
    (bufOf (p.run s))[k]? = s.buf[k]? := by
  induction p generalizing s with
  | pure | fail => rfl
  | call op next ih =>
    cases hop : op.run s with
    | ok b s' =>
      simp only [Prog.stores, hop, List.mem_append, not_or] at hk
      have hrun : (Prog.call op next).run s = (next b).run s' := by simp only [Prog.run, hop]
      rw [hrun, ih b s' hk.2, op.same hop hk.1]
    | error e s' => exact absurd hop (op.run_ne_error s s' e)

theorem Prog.pos_le (p : Prog α) {s s' : Stream} {a : α} (hs : s.pos ≤ s.buf.length)
    (h : p.run s = .ok a s') : s'.pos ≤ s'.buf.length := by
  induction p generalizing s with
  | pure =>
    cases h
    exact hs
  | fail => cases h
  | call op next ih =>
    cases hop : op.run s with
    | ok b s₁ =>
      simp only [Prog.run, hop] at h
      exact ih b (op.pos_le hs hop) h
    | error e s₁ => exact absurd hop (op.run_ne_error s s₁ e)

end Stores

/-! ## The writer is such a program -/

/-- A part of the writer that touches the buffer through the stream only. -/
def Programmed {α : Type} (m : Write α) : Prop := ∃ p : Prog α, p.run = m

section Programmed

variable {α β : Type}

theorem Programmed.pos_le {m : Write α} (h : Programmed m) {s s' : Stream} {a : α}
    (hs : s.pos ≤ s.buf.length) (hrun : m s = .ok a s') : s'.pos ≤ s'.buf.length := by
  obtain ⟨p, rfl⟩ := h
  exact p.pos_le hs hrun

theorem programmed_pure (a : α) : Programmed (pure a : Write α) := ⟨.pure a, rfl⟩

theorem programmed_throw (e : Ret) : Programmed (throw e : Write α) := ⟨.fail e, rfl⟩

theorem Programmed.bind {m : Write α} {f : α → Write β} (hm : Programmed m)
    (hf : ∀ a, Programmed (f a)) : Programmed (m >>= f) := by
  obtain ⟨p, rfl⟩ := hm
  choose q hq using hf
  refine ⟨p.bind q, ?_⟩
  rw [Prog.run_bind]
  exact congrArg (p.run >>= ·) (funext hq)

theorem programmed_op (op : Op α) : Programmed op.run := by
  refine ⟨.call op .pure, ?_⟩
  funext s
  cases hop : op.run s with
  | ok | error => simp only [Prog.run, hop]

theorem Programmed.ite {c : Prop} [Decidable c] {m m' : Write α} (h : Programmed m)
    (h' : Programmed m') : Programmed (if c then m else m') := by
  split
  · exact h
  · exact h'

theorem programmed_setWritePos (offset : Nat) : Programmed (setWritePos offset) :=
  programmed_op (.setWritePos offset)

theorem programmed_getWritePos : Programmed getWritePos := programmed_op .getWritePos

theorem programmed_writeC (c : UInt8) : Programmed (writeC c) := programmed_op (.writeC c)

theorem programmed_writeL (l : UInt32) : Programmed (writeL l) := programmed_op (.writeL l)

theorem programmed_writeCs (cs : List UInt8) : Programmed (writeCs cs) := by
  induction cs with
  | nil => exact programmed_pure true
  | cons c cs ih => exact (programmed_writeC c).bind fun _ => ih.ite (programmed_pure false)

theorem programmed_writeW (w : UInt16) : Programmed (writeW w) := programmed_writeCs _

theorem programmed_writeWs (ws : List UInt16) : Programmed (writeWs ws) := by
  induction ws with
  | nil => exact programmed_pure true
  | cons w ws ih => exact (programmed_writeW w).bind fun _ => ih.ite (programmed_pure false)

theorem programmed_writeLs (ls : List UInt32) : Programmed (writeLs ls) := by
  induction ls with
  | nil => exact programmed_pure true
  | cons l ls ih => exact (programmed_writeL l).bind fun _ => ih.ite (programmed_pure false)

theorem Programmed.orFail {m : Write Bool} (h : Programmed m) : Programmed (orFail m) :=
  h.bind fun _ => (programmed_pure ()).ite (programmed_throw .failed)

theorem programmed_writeIFD (info : IfdInfo) : Programmed (writeIFD info) :=
  (programmed_writeW _).orFail.bind fun _ => (programmed_writeW _).orFail.bind fun _ =>
    (programmed_writeL _).orFail.bind fun _ => (programmed_writeL _).orFail

/-- Values behind the entries, and where they end. -/
theorem programmed_values (v : Nat) {m : Write Bool} (hm : Programmed m) (i : Nat) :
    Programmed (do
      orFail (setWritePos v)
      orFail m
      let valueOffset ← getWritePos
      return (i, align4 valueOffset)) :=
  (programmed_setWritePos v).orFail.bind fun _ => hm.orFail.bind fun _ =>
    programmed_getWritePos.bind fun _ => programmed_pure _

theorem programmed_lostValues (v : Nat) {m : Write Bool} (hm : Programmed m) (i i' : Nat) :
    Programmed (do
      orFail (setWritePos v)
      if ← m then
        let valueOffset ← getWritePos
        return (i', align4 valueOffset)
      else
        return (i, v)) :=
  (programmed_setWritePos v).orFail.bind fun _ => hm.bind fun _ =>
    (programmed_getWritePos.bind fun _ => programmed_pure _).ite (programmed_pure _)

theorem programmed_run (w : Writer) (info : IfdInfo) (i v : Nat) : Programmed (w.run info i v) := by
  have hentry : ∀ info' : IfdInfo, ∀ k : Nat → Write (Nat × Nat), (∀ i', Programmed (k i')) →
      Programmed (do
        orFail (setWritePos i)
        writeIFD info'
        let i' ← getWritePos
        k i') :=
    fun info' k hk => (programmed_setWritePos i).orFail.bind fun _ =>
      (programmed_writeIFD info').bind fun _ => programmed_getWritePos.bind hk
  cases w with
  | rational => exact hentry _ _ fun i' => programmed_values v (programmed_writeLs _) i'
  | long =>
    exact hentry _ _ fun i' => (programmed_values v (programmed_writeLs _) i').ite
      (programmed_pure _)
  | short =>
    exact hentry _ _ fun i' => (programmed_lostValues v (programmed_writeWs _) i i').ite
      (programmed_pure _)
  | byte =>
    exact hentry _ _ fun i' => (programmed_lostValues v (programmed_writeCs _) i i').ite
      (programmed_pure _)

theorem programmed_writeBlocks (ifhOffset : Nat) (bs : List Block) (c : Cursor) :
    Programmed (writeBlocks ifhOffset bs c) := by
  induction bs generalizing c with
  | nil => exact programmed_pure c
  | cons b bs ih =>
    exact (((programmed_run _ _ _ _).bind fun _ => programmed_pure _).ite (programmed_pure c)).bind ih

theorem programmed_openIFD (maxEntries beginOffset : Nat) :
    Programmed (openIFD maxEntries beginOffset) :=
  (programmed_setWritePos _).bind fun _ => (programmed_writeW _).orFail.bind fun _ =>
    programmed_getWritePos.bind fun _ => programmed_pure _

theorem programmed_closeIFD (beginOffset : Nat) (next : UInt32) (c : Cursor) :
    Programmed (closeIFD beginOffset next c) :=
  (programmed_setWritePos _).bind fun _ => (programmed_writeL _).orFail.bind fun _ =>
    (programmed_setWritePos _).bind fun _ => (programmed_writeW _).orFail.bind fun _ =>
      programmed_pure _

theorem programmed_writeOptIFD (ifhOffset : Nat) (tag : UInt16)
    {writeInfo : Option (Nat → Write Nat)} (h : ∀ w ∈ writeInfo, ∀ v, Programmed (w v)) (c : Cursor) :
    Programmed (writeOptIFD ifhOffset tag writeInfo c) := by
  cases writeInfo with
  | none => exact programmed_pure c
  | some w =>
    exact (programmed_run .long _ _ _).bind fun _ => (h w rfl _).bind fun _ => programmed_pure _

theorem programmed_writeExifInteroperabilityInfo (inter : InteroperabilityInfo)
    (ifhOffset beginOffset : Nat) :
    Programmed (writeExifInteroperabilityInfo inter ifhOffset beginOffset) :=
  (programmed_openIFD _ _).bind fun _ => (programmed_writeBlocks _ _ _).bind fun _ =>
    programmed_closeIFD _ _ _

theorem programmed_writeExifSpecInfo (spec : SpecificInfo) (inter : Option InteroperabilityInfo)
    (ifhOffset beginOffset : Nat) :
    Programmed (writeExifSpecInfo spec inter ifhOffset beginOffset) := by
  refine (programmed_openIFD _ _).bind fun _ => (programmed_writeBlocks _ _ _).bind fun _ =>
    (programmed_writeOptIFD _ _ (fun w hw v => ?_) _).bind fun _ =>
      (programmed_writeBlocks _ _ _).bind fun _ => programmed_closeIFD _ _ _
  obtain ⟨i, -, rfl⟩ := Option.map_eq_some_iff.mp hw
  exact programmed_writeExifInteroperabilityInfo i ifhOffset v

theorem programmed_writeExifGPSInfo (gps : GpsInfo) (ifhOffset beginOffset : Nat) :
    Programmed (writeExifGPSInfo gps ifhOffset beginOffset) :=
  (programmed_openIFD _ _).bind fun _ => (programmed_writeBlocks _ _ _).bind fun _ =>
    programmed_closeIFD _ _ _

theorem programmed_writeThumbnail (ifhOffset thumbnailIfdOffset : Nat) (thumbnail : List UInt8)
    (c : Cursor) : Programmed (writeThumbnail ifhOffset thumbnailIfdOffset thumbnail c) :=
  Programmed.ite ((programmed_setWritePos _).bind fun _ => (programmed_writeCs _).orFail.bind fun _ =>
    programmed_getWritePos.bind fun _ => (programmed_setWritePos _).bind fun _ =>
      (programmed_run .long _ _ _).bind fun _ => programmed_pure _) (programmed_pure c)

theorem programmed_writeExifIFD (primary : PrimaryInfo) (spec : Option SpecificInfo)
    (gps : Option GpsInfo) (inter : Option InteroperabilityInfo) (thumbnail : List UInt8)
    (isNextIfdExist : Bool) (ifhOffset beginOffset : Nat) :
    Programmed (writeExifIFD primary spec gps inter thumbnail isNextIfdExist ifhOffset
      beginOffset) := by
  refine (programmed_openIFD _ _).bind fun _ => (programmed_writeBlocks _ _ _).bind fun _ =>
    (programmed_writeBlocks _ _ _).bind fun _ => (programmed_writeBlocks _ _ _).bind fun _ =>
      (programmed_writeOptIFD _ _ (fun w hw v => ?_) _).bind fun _ =>
        (programmed_writeOptIFD _ _ (fun w hw v => ?_) _).bind fun _ =>
          (programmed_writeThumbnail _ _ _ _).bind fun _ => programmed_closeIFD _ _ _
  · obtain ⟨s, -, rfl⟩ := Option.map_eq_some_iff.mp hw
    exact programmed_writeExifSpecInfo s inter ifhOffset v
  · obtain ⟨g, -, rfl⟩ := Option.map_eq_some_iff.mp hw
    exact programmed_writeExifGPSInfo g ifhOffset v

theorem programmed_writeDirectories (exif : ExifInfo) (thumbnail : List UInt8) :
    Programmed (writeDirectories exif thumbnail) := by
  have hhead : Programmed (writeIFH 10) :=
    (programmed_setWritePos _).bind fun _ => (programmed_writeW _).orFail.bind fun _ =>
      (programmed_writeW _).orFail.bind fun _ => (programmed_writeL _).orFail.bind fun _ =>
        programmed_getWritePos
  exact hhead.bind fun _ => (programmed_writeExifIFD _ _ _ _ _ _ _ _).bind fun _ =>
    (programmed_writeExifIFD _ _ _ _ _ _ _ _).ite (programmed_pure _)

/-- **`Jpeg_WriteAPP1` is a program over the stream.** -/
theorem writeAPP1_programmed (exif : Option ExifInfo) (thumbnail : List UInt8) :
    Programmed (writeAPP1 exif thumbnail) := by
  cases exif with
  | none => exact programmed_throw .invalidArgument
  | some exif =>
    have hheader : ∀ w, Programmed (writeAPP1Header w) := fun w =>
      (programmed_setWritePos _).bind fun _ => (programmed_writeC _).orFail.bind fun _ =>
        (programmed_writeC _).orFail.bind fun _ => (programmed_writeW _).orFail.bind fun _ =>
          (programmed_writeCs _).orFail
    have hsize : writeAPP1 (some exif) thumbnail = Op.size.run >>= fun size =>
        if size < 10 then throw .memoryNotEnough
        else do
          let endOffset ← writeDirectories exif thumbnail
          writeAPP1Header (UInt16.ofNat endOffset - 2)
          return (UInt16.ofNat endOffset - 2).toNat + 2 := rfl
    rw [hsize]
    exact (programmed_op .size).bind fun _ => (programmed_throw _).ite
      ((programmed_writeDirectories exif thumbnail).bind fun _ => (hheader _).bind fun _ =>
        programmed_pure _)

end Programmed

end SprdHal.Exif
