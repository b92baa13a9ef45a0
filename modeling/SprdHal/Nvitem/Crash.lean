import SprdHal.Lib.Machine
import SprdHal.Nvitem.Fs

/-!
# Crashes while the image files are written

A run is a sequence of writes and reboots, each of which may be stopped in the middle of a file
operation. With every state goes the payload of the last write that was completed and that of the
write that was interrupted since, if there is one. A write is completed when both files hold its
payload, also when it was the repair of a reader that brought it there.

As long as every write finds `image_path` good, one of the two files is good at every moment and
every reader delivers one of the two payloads (`crash_consistent`). A reader that starts with
`imageBak_path` and finds it good leaves a bad `image_path` as it is, and then the next write
truncates the only good file.
-/

namespace SprdHal.Nvitem

open SprdHal.Lib

/-- The two files, whether the system runs, the payload of the last completed write and that of the
interrupted one. -/
structure NvDisk where
  files : Files ImageFile
  up : Bool
  done : List UInt8
  cut : Option (List UInt8)

inductive FsEvent
  | write (buf : List UInt8) (stop : Option StopPoint)
  | reboot (imageFirst : Bool) (stop : Option StopPoint)

/-- A write is completed when both files hold its payload. -/
def NvDisk.settle (buf : List UInt8) (s : NvDisk) : NvDisk :=
  if s.files .image = some (imageOf buf) ∧ s.files .imageBak = some (imageOf buf) then
    { s with done := buf, cut := none }
  else s

/-- A crash is the stop; after it only a reboot does something. A write that is stopped before its
first operation has not begun. The output is what a completed `ramDisk_Read` delivers. -/
def nvDiskStep (size : Nat) (s : NvDisk) : FsEvent → NvDisk × List (List UInt8)
  | .write buf stop =>
    if s.up then
      match stop with
      | none => (⟨runOps s.files (ramDiskWriteOps buf), true, buf, none⟩, [])
      | some p =>
        let cut := if p.ops = 0 then s.cut else some buf
        (NvDisk.settle buf ⟨stopAt s.files (ramDiskWriteOps buf) p, false, s.done, cut⟩, [])
    else (s, [])
  | .reboot imageFirst stop =>
    let r := ramDiskRead imageFirst size s.files
    match stop with
    | none => (NvDisk.settle r.1 { s with files := runOps s.files r.2, up := true }, [r.1])
    | some p => (NvDisk.settle r.1 { s with files := stopAt s.files r.2 p, up := false }, [])

def nvDisk (size : Nat) : Machine NvDisk FsEvent (List UInt8) := ⟨nvDiskStep size⟩

/-- Two good files with the same payload. -/
def nvDiskInit (buf : List UInt8) : NvDisk := ⟨fun _ => some (imageOf buf), true, buf, none⟩

/-- The payload of the last completed write, or of the interrupted one. -/
def NvDisk.Allowed (s : NvDisk) (buf : List UInt8) : Prop := buf = s.done ∨ s.cut = some buf

/-- Every write is given as many bytes as the readers expect. -/
def WritesSize (size : Nat) : FsEvent → Prop
  | .write buf _ => buf.length = size
  | .reboot _ _ => True

/-- `image_path` passes the reader's checks when a write begins. -/
def WritesOverGoodImage (size : Nat) (s : NvDisk) : FsEvent → Prop
  | .write _ _ => s.up = true → (readFile size (s.files .image) 0 0).valid size = true
  | .reboot _ _ => True

instance (s : NvDisk) : DecidablePred s.Allowed := fun _ => instDecidableOr

instance (size : Nat) : DecidablePred (WritesSize size)
  | .write buf _ => inferInstanceAs (Decidable (buf.length = size))
  | .reboot _ _ => isTrue trivial

instance (size : Nat) (s : NvDisk) : DecidablePred (WritesOverGoodImage size s)
  | .write _ _ => inferInstanceAs (Decidable (s.up = true →
      (readFile size (s.files .image) 0 0).valid size = true))
  | .reboot _ _ => isTrue trivial

/-! ## The invariant -/

/-- What a file may hold when it is good. The write that was interrupted can have reached
`imageBak_path` only: with both files it would be completed. -/
def NvDisk.Holds (s : NvDisk) : ImageFile → List UInt8 → Prop
  | .image, buf => buf = s.done
  | .imageBak, buf => s.Allowed buf

theorem NvDisk.Holds.allowed {s : NvDisk} {f : ImageFile} {buf : List UInt8} (h : s.Holds f buf) :
    s.Allowed buf := by
  cases f with
  | image => exact Or.inl h
  | imageBak => exact h

section Invariant

variable (size : Nat) (P : ImageFile → List UInt8 → Prop)

/-- The file was written completely, with a payload it may hold. -/
def Intact (fs : Files ImageFile) (f : ImageFile) : Prop :=
  ∃ buf, buf.length = size ∧ P f buf ∧ fs f = some (imageOf buf)

/-- The file ends too early. -/
def Broken (file : Option (List UInt8)) : Prop :=
  ∃ bytes, file = some bytes ∧ bytes.length < nvHeaderSize + size

structure FilesInv (fs : Files ImageFile) : Prop where
  each : ∀ f, Intact size P fs f ∨ Broken size (fs f)
  one : ∃ f, Intact size P fs f

variable {size P} {fs : Files ImageFile} {buf : List UInt8}

/-- Part of a rewrite leaves the file broken, all of it leaves it complete. -/
theorem broken_or_eq {pre : List UInt8} (hl : buf.length = size)
    (hpre : pre <+: nvHeader buf ++ buf) : Broken size (some pre) ∨ pre = imageOf buf := by
  by_cases hlt : pre.length < nvHeaderSize + size
  · exact Or.inl ⟨pre, rfl, hlt⟩
  · apply Or.inr
    apply hpre.eq_of_length_le
    rw [List.length_append, length_nvHeader, hl]
    omega

theorem FilesInv.of_hold (hl : buf.length = size) (h : ∀ f, fs f = some (imageOf buf))
    (hp : ∀ f, P f buf) : FilesInv size P fs :=
  have hall : ∀ f, Intact size P fs f := fun f => ⟨buf, hl, hp f, h f⟩
  ⟨fun f => Or.inl (hall f), .image, hall .image⟩

theorem ImageFile.first_not_ne (imageFirst : Bool) :
    ImageFile.first (!imageFirst) ≠ ImageFile.first imageFirst := by
  cases imageFirst <;> decide

theorem ImageFile.eq_of_ne {a b f : ImageFile} (ha : a ≠ f) (hb : b ≠ f) : a = b := by
  cases a <;> cases b <;> cases f <;> first | rfl | contradiction

/-- **One file changes while the other one is intact.** -/
theorem FilesInv.update {f g : ImageFile} (hne : g ≠ f) (hg : Intact size P fs g)
    {bytes : List UInt8} (hf : (∃ buf, buf.length = size ∧ P f buf ∧ bytes = imageOf buf) ∨
      Broken size (some bytes)) : FilesInv size P (Function.update fs f (some bytes)) := by
  have hg' : Intact size P (Function.update fs f (some bytes)) g := by
    obtain ⟨b, hl, hp, hb⟩ := hg
    exact ⟨b, hl, hp, by rw [Function.update_of_ne hne, hb]⟩
  refine ⟨fun f' => ?_, g, hg'⟩
  by_cases hf' : f' = f
  · subst hf'
    rw [Intact, Function.update_self]
    rcases hf with ⟨buf, hl, hp, rfl⟩ | hf
    · exact Or.inl ⟨buf, hl, hp, rfl⟩
    · exact Or.inr hf
  · obtain rfl := ImageFile.eq_of_ne hf' hne
    exact Or.inl hg'

/-- A broken file has the other one intact. -/
theorem FilesInv.other (h : FilesInv size P fs) {imageFirst : Bool}
    (hb : ¬ Intact size P fs (.first imageFirst)) : Intact size P fs (.first !imageFirst) := by
  obtain ⟨f, hf⟩ := h.one
  have hne : f ≠ .first imageFirst := by
    rintro rfl
    exact hb hf
  rwa [ImageFile.eq_of_ne hne (ImageFile.first_not_ne imageFirst)] at hf

/-- A file the reader accepts is intact. -/
theorem FilesInv.intact_of_valid (h : FilesInv size P fs) {f : ImageFile}
    (hv : (readFile size (fs f) 0 0).valid size = true) : Intact size P fs f := by
  rcases h.each f with hi | ⟨bytes, hf, hs⟩
  · exact hi
  · rw [hf, not_valid_of_short hs] at hv
    cases hv

/-! ### Rewriting a file -/

/-- `imageBak_path` is rewritten from a good `image_path`. -/
theorem FilesInv.stop_imageBak (h : FilesInv size P fs) (hl : buf.length = size)
    (hp : P .imageBak buf) (hi : Intact size P fs .image) (stop : StopPoint) :
    FilesInv size P (stopAt fs (rewriteOps .imageBak (nvHeader buf) buf) stop) := by
  rcases stopAt_rewrite fs .imageBak (nvHeader buf) buf stop with ⟨-, heq⟩ | ⟨pre, hpre, heq⟩
  · rw [heq]
    exact h
  · rw [heq]
    refine FilesInv.update (by decide) hi ?_
    exact (broken_or_eq hl hpre).symm.imp_left fun he => ⟨buf, hl, hp, he⟩

/-- `image_path` is rewritten with what `imageBak_path` holds: in the end both hold it. -/
theorem FilesInv.stop_image (h : FilesInv size P fs) (hl : buf.length = size)
    (hp : P .imageBak buf) (hb : fs .imageBak = some (imageOf buf)) (stop : StopPoint) :
    FilesInv size P (stopAt fs (rewriteOps .image (nvHeader buf) buf) stop) ∨
      ∀ f, stopAt fs (rewriteOps .image (nvHeader buf) buf) stop f = some (imageOf buf) := by
  rcases stopAt_rewrite fs .image (nvHeader buf) buf stop with ⟨-, heq⟩ | ⟨pre, hpre, heq⟩
  · rw [heq]
    exact Or.inl h
  · rw [heq]
    rcases broken_or_eq hl hpre with hbroken | rfl
    · have hbak : Intact size P fs .imageBak := ⟨buf, hl, hp, hb⟩
      exact Or.inl (FilesInv.update (by decide) hbak (Or.inr hbroken))
    · apply Or.inr
      intro f
      cases f with
      | image => rw [Function.update_self]
      | imageBak => rw [Function.update_of_ne (by decide), hb]

/-- **A reader** delivers the payload of an intact file, and wherever its repair stops the invariant
holds or both files hold that payload. -/
theorem FilesInv.read (h : FilesInv size P fs) (hsub : ∀ b, P .image b → P .imageBak b)
    (imageFirst : Bool) :
    (∃ f, P f (ramDiskRead imageFirst size fs).1) ∧
      (ramDiskRead imageFirst size fs).1.length = size ∧
      ∀ stop, FilesInv size P (stopAt fs (ramDiskRead imageFirst size fs).2 stop) ∨
        ∀ f, stopAt fs (ramDiskRead imageFirst size fs).2 stop f =
          some (imageOf (ramDiskRead imageFirst size fs).1) := by
  rcases h.each (.first imageFirst) with ⟨buf, hl, hp, hf⟩ | ⟨bytes, hf, hs⟩
  · rw [ramDiskRead_good_first hl hf]
    refine ⟨⟨_, hp⟩, hl, fun stop => Or.inl ?_⟩
    rw [stopAt_of_le _ (Nat.zero_le _)]
    exact h
  · have hbroken : ¬ Intact size P fs (.first imageFirst) := by
      rintro ⟨buf, hl, -, hf'⟩
      rw [hf, Option.some.injEq] at hf'
      subst hf'
      rw [imageOf, List.length_append, length_nvHeader, hl] at hs
      omega
    obtain ⟨buf, hl, hp, hb⟩ := h.other hbroken
    rw [ramDiskRead_good_second hl hf hs hb]
    refine ⟨⟨_, hp⟩, hl, fun stop => ?_⟩
    cases imageFirst with
    | true => exact h.stop_image hl hp hb stop
    | false => exact Or.inl (h.stop_imageBak hl (hsub _ hp) ⟨buf, hl, hp, hb⟩ stop)

/-- **A write over a good `image_path`**, stopped after at least one operation. Nothing is asked of
`imageBak_path`. -/
theorem FilesInv.write (hi : Intact size P fs .image) (hl : buf.length = size)
    (hp : P .imageBak buf) {stop : StopPoint} (hstop : stop.ops ≠ 0) :
    FilesInv size P (stopAt fs (ramDiskWriteOps buf) stop) ∨
      ∀ f, stopAt fs (ramDiskWriteOps buf) stop f = some (imageOf buf) := by
  rw [ramDiskWriteOps, stopAt_append]
  split
  · rcases stopAt_rewrite fs .imageBak (nvHeader buf) buf stop with ⟨h0, -⟩ | ⟨pre, hpre, heq⟩
    · exact absurd h0 hstop
    · rw [heq]
      refine Or.inl (FilesInv.update (by decide) hi ?_)
      exact (broken_or_eq hl hpre).symm.imp_left fun he => ⟨buf, hl, hp, he⟩
  · -- `imageBak_path` is complete, and `image_path` is next
    rw [runOps_rewrite]
    have hbak : FilesInv size P (Function.update fs .imageBak (some (nvHeader buf ++ buf))) :=
      FilesInv.update (by decide) hi (Or.inl ⟨buf, hl, hp, rfl⟩)
    exact hbak.stop_image hl hp (Function.update_self ..) _

theorem runOps_ramDiskWrite (fs : Files ImageFile) (buf : List UInt8) (f : ImageFile) :
    runOps fs (ramDiskWriteOps buf) f = some (imageOf buf) := by
  rw [ramDiskWriteOps, runOps_append, runOps_rewrite, runOps_rewrite]
  cases f with
  | image => rw [Function.update_self]; rfl
  | imageBak => rw [Function.update_of_ne (by decide), Function.update_self]; rfl

end Invariant

/-! ## Runs -/

theorem NvDisk.files_settle (buf : List UInt8) (s : NvDisk) : (s.settle buf).files = s.files := by
  unfold NvDisk.settle
  split <;> rfl

section Runs

variable {size : Nat} {s : NvDisk}

theorem FilesInv.settle {buf : List UInt8} (hl : buf.length = size)
    (h : FilesInv size s.Holds s.files ∨ ∀ f, s.files f = some (imageOf buf)) :
    FilesInv size (s.settle buf).Holds (s.settle buf).files := by
  unfold NvDisk.settle
  split
  · rename_i hboth
    refine FilesInv.of_hold hl (fun f => ?_) fun f => ?_
    · cases f with
      | image => exact hboth.1
      | imageBak => exact hboth.2
    · cases f with
      | image => rfl
      | imageBak => exact Or.inl rfl
  · rename_i hnot
    exact h.resolve_right fun hall => hnot ⟨hall .image, hall .imageBak⟩

/-- **One event.** -/
theorem FilesInv.step (h : FilesInv size s.Holds s.files) {e : FsEvent} (hl : WritesSize size e)
    (hg : WritesOverGoodImage size s e) :
    FilesInv size (nvDiskStep size s e).1.Holds (nvDiskStep size s e).1.files := by
  cases e with
  | write buf stop =>
    unfold nvDiskStep
    cases hup : s.up with
    | false => exact h
    | true =>
      cases stop with
      | none =>
        refine FilesInv.of_hold hl (runOps_ramDiskWrite s.files buf) fun f => ?_
        cases f with
        | image => rfl
        | imageBak => exact Or.inl rfl
      | some p =>
        apply FilesInv.settle hl
        by_cases hp : p.ops = 0
        · have hsame : stopAt s.files (ramDiskWriteOps buf) p = s.files := by
            rw [stopAt, hp]
            rfl
          simp only [hp, hsame, if_true]
          exact Or.inl h
        · simp only [hp, if_false]
          -- what `image_path` may hold does not depend on the interrupted write
          have hi : Intact size (NvDisk.Holds
              ⟨stopAt s.files (ramDiskWriteOps buf) p, false, s.done, some buf⟩) s.files .image :=
            h.intact_of_valid (hg hup)
          exact FilesInv.write hi hl (Or.inr rfl) hp
  | reboot imageFirst stop =>
    obtain ⟨-, hsize, hstop⟩ := h.read (fun _ => Or.inl) imageFirst
    cases stop with
    | none =>
      apply FilesInv.settle hsize
      have hall := hstop ⟨(ramDiskRead imageFirst size s.files).2.length, 0⟩
      rwa [stopAt_of_le _ (Nat.le_refl _)] at hall
    | some p => exact FilesInv.settle hsize (hstop p)

end Runs

/-- **Crash consistency.** In every run of writes and reboots, stopped anywhere, in which every
write finds `image_path` good: one of the files holds the payload of the last completed write or of
the interrupted one, and a reader in either order delivers one of these two. Without that condition
there is no such guarantee: a write that finds `image_path` bad, stopped after its first operation,
leaves no file that a reader accepts. -/
theorem crash_consistent (size : Nat) (buf₀ : List UInt8) (h₀ : buf₀.length = size)
    (es : List FsEvent)
    (hadm : (nvDisk size).Admits (fun s e => WritesSize size e ∧ WritesOverGoodImage size s e)
      (nvDiskInit buf₀) es) :
    let s := ((nvDisk size).run (nvDiskInit buf₀) es).1
    (∃ f buf, buf.length = size ∧ s.files f = some (imageOf buf) ∧ s.Allowed buf) ∧
    (∀ imageFirst, s.Allowed (ramDiskRead imageFirst size s.files).1) ∧
    (s.up = true → (readFile size (s.files .image) 0 0).valid size = false →
      ∀ buf f, (readFile size
        (((nvDisk size).step s (.write buf (some ⟨1, 0⟩))).1.files f) 0 0).valid size = false) := by
  intro s
  have hinit : FilesInv size (nvDiskInit buf₀).Holds (nvDiskInit buf₀).files := by
    refine FilesInv.of_hold h₀ (fun _ => rfl) fun f => ?_
    cases f with
    | image => rfl
    | imageBak => exact Or.inl rfl
  have hinv : FilesInv size s.Holds s.files :=
    (nvDisk size).run_induction (P := fun s _ => FilesInv size s.Holds s.files)
      (fun s _ e h he => h.step he.1 he.2) es _ [] hinit hadm
  refine ⟨?_, fun imageFirst => ?_, fun hup hbad buf f => ?_⟩
  · obtain ⟨f, buf, hl, hp, hf⟩ := hinv.one
    exact ⟨f, buf, hl, hf, hp.allowed⟩
  · obtain ⟨⟨f, hp⟩, -⟩ := hinv.read (fun _ => Or.inl) imageFirst
    exact hp.allowed
  · -- `imageBak_path` has just been truncated, and `image_path` is not touched yet
    have hfiles : ((nvDisk size).step s (.write buf (some ⟨1, 0⟩))).1.files =
        Function.update s.files .imageBak (some []) := by
      have hstop : stopAt s.files (ramDiskWriteOps buf) ⟨1, 0⟩ =
          Function.update s.files .imageBak (some []) := by
        simp [stopAt, ramDiskWriteOps, rewriteOps, runOps, applyOp]
      simp only [nvDisk, nvDiskStep, hup, if_true, hstop, NvDisk.files_settle]
    rw [hfiles]
    cases f with
    | image => rw [Function.update_of_ne (by decide)]; exact hbad
    | imageBak =>
      rw [Function.update_self]
      exact not_valid_of_short (by rw [List.length_nil, nvHeaderSize]; omega)

/-- A sector of one byte. -/
def sector (b : UInt8) : List UInt8 := List.replicate 512 b

/-- A write stopped when `image_path` has just been truncated, a reboot, and a write stopped when
`imageBak_path` has just been truncated. -/
def stoppedTwice (imageFirst : Bool) (buf₁ buf₂ : List UInt8) : List FsEvent :=
  [.write buf₁ (some ⟨4, 0⟩), .reboot imageFirst none, .write buf₂ (some ⟨1, 0⟩)]

section StoppedTwice

variable (size : Nat) (buf₀ buf₁ buf₂ : List UInt8)

/-- The files of the first stop. -/
def stoppedFiles : Files ImageFile
  | .image => some []
  | .imageBak => some (imageOf buf₁)

/-- With an empty `image_path` no write is completed. -/
theorem settle_of_empty {s : NvDisk} (h : s.files .image = some []) (buf : List UInt8) :
    s.settle buf = s := by
  have hlen : (imageOf buf).length ≠ 0 := by
    rw [imageOf, List.length_append, length_nvHeader, nvHeaderSize]
    omega
  rw [NvDisk.settle, if_neg]
  rintro ⟨himage, -⟩
  rw [h, Option.some.injEq] at himage
  exact hlen (congrArg List.length himage).symm

theorem write_stopped_in_image :
    (nvDiskStep size (nvDiskInit buf₀) (.write buf₁ (some ⟨4, 0⟩))).1 =
      ⟨stoppedFiles buf₁, false, buf₀, some buf₁⟩ := by
  have hstop : stopAt (nvDiskInit buf₀).files (ramDiskWriteOps buf₁) ⟨4, 0⟩ =
      stoppedFiles buf₁ := by
    rw [ramDiskWriteOps, stopAt_append, runOps_rewrite]
    funext f
    cases f <;> simp [rewriteOps, stopAt, runOps, applyOp, imageOf, stoppedFiles]
  simp only [nvDiskStep, nvDiskInit, if_true] at hstop ⊢
  rw [hstop, settle_of_empty rfl]
  rfl

/-- The next write truncates `imageBak_path`. -/
theorem write_over_stopped :
    (nvDiskStep size ⟨stoppedFiles buf₁, true, buf₀, some buf₁⟩
      (.write buf₂ (some ⟨1, 0⟩))).1 = ⟨fun _ => some [], false, buf₀, some buf₂⟩ := by
  have hstop : stopAt (stoppedFiles buf₁) (ramDiskWriteOps buf₂) ⟨1, 0⟩ = fun _ => some [] := by
    funext f
    cases f <;> simp [ramDiskWriteOps, rewriteOps, stopAt, runOps, applyOp, stoppedFiles]
  simp only [nvDiskStep, if_true, hstop]
  rw [settle_of_empty rfl]
  rfl

/-- Two empty files leave the buffer as it was cleared. -/
theorem ramDiskRead_empty (imageFirst : Bool) :
    (ramDiskRead imageFirst size fun _ => some []).1 = List.replicate size 0xFF := by
  have hempty : ∀ ret1 ret2, readFile size (some []) ret1 ret2 =
      ⟨true, 0, 0, List.replicate nvHeaderSize 0, List.replicate size 0xFF⟩ := by
    intro ret1 ret2
    simp only [readFile, List.take_nil, List.drop_nil, List.length_nil, patch_nil]
  simp only [ramDiskRead, hempty]
  split_ifs <;> rfl

end StoppedTwice

/-- With `image_path` tried first, the reader repairs it. -/
theorem stoppedTwice_repaired :
    let s := ((nvDisk 512).run (nvDiskInit (sector 0)) (stoppedTwice true (sector 1) (sector 2))).1
    ∀ imageFirst, s.Allowed (ramDiskRead imageFirst 512 s.files).1 := by
  have hl : ∀ b, (sector b).length = 512 := fun b => List.length_replicate
  have hread : ramDiskRead true 512 (stoppedFiles (sector 1)) =
      (sector 1, rewriteOps .image (nvHeader (sector 1)) (sector 1)) :=
    @ramDiskRead_good_second true 512 _ _ [] (hl 1) rfl (by decide) rfl
  have hboot : (nvDiskStep 512 ⟨stoppedFiles (sector 1), false, sector 0, some (sector 1)⟩
      (.reboot true none)).1 = ⟨fun _ => some (imageOf (sector 1)), true, sector 1, none⟩ := by
    have hfiles : Function.update (stoppedFiles (sector 1)) .image
        (some (nvHeader (sector 1) ++ sector 1)) = fun _ => some (imageOf (sector 1)) := by
      funext f
      cases f with
      | image => rw [Function.update_self, imageOf]
      | imageBak => rw [Function.update_of_ne (by decide), stoppedFiles]
    simp only [nvDiskStep, hread, runOps_rewrite, hfiles, NvDisk.settle, and_self, if_true]
  refine (crash_consistent 512 (sector 0) (hl 0) _ ?_).2.1
  simp only [stoppedTwice, Machine.Admits, nvDisk, write_stopped_in_image, hboot]
  exact ⟨⟨hl 1, fun _ => valid_imageOf (hl 0)⟩, ⟨trivial, trivial⟩,
    ⟨hl 2, fun _ => valid_imageOf (hl 1)⟩, trivial⟩

/-- With `imageBak_path` tried first it does not, and the next write, stopped after its first
operation, leaves nothing to read. -/
theorem stoppedTwice_lost :
    let s := ((nvDisk 512).run (nvDiskInit (sector 0)) (stoppedTwice false (sector 1) (sector 2))).1
    (∀ imageFirst, (ramDiskRead imageFirst 512 s.files).1 = sector 255) ∧
      ¬ s.Allowed (sector 255) := by
  have hread : ramDiskRead false 512 (stoppedFiles (sector 1)) = (sector 1, []) :=
    ramDiskRead_good_first List.length_replicate rfl
  have hboot : (nvDiskStep 512 ⟨stoppedFiles (sector 1), false, sector 0, some (sector 1)⟩
      (.reboot false none)).1 = ⟨stoppedFiles (sector 1), true, sector 0, some (sector 1)⟩ := by
    simp only [nvDiskStep, hread]
    exact settle_of_empty rfl _
  have hrun : ((nvDisk 512).run (nvDiskInit (sector 0))
      (stoppedTwice false (sector 1) (sector 2))).1 =
      ⟨fun _ => some [], false, sector 0, some (sector 2)⟩ := by
    simp only [stoppedTwice, Machine.run_cons, Machine.run_nil, nvDisk, write_stopped_in_image,
      hboot, write_over_stopped]
  intro s
  have hs : s = _ := hrun
  rw [hs]
  refine ⟨ramDiskRead_empty 512, ?_⟩
  rintro (h | h)
  · exact absurd h (by decide)
  · exact absurd h (by decide)

end SprdHal.Nvitem
