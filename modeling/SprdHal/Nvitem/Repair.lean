import SprdHal.Nvitem.Fs

/-!
# What `ramDisk_Read` takes for a good image

The two attempts share their buffers and the results of the reads. When the second file cannot be
opened, `ret2` is that of the first one, the header is zero and the buffer is full of `0xFF`, whose
checksum is zero for a buffer of up to `0x20000` bytes: the first file is then "repaired" with that.
Apart from an unknown handle, the function returns 1 whatever it finds. So its callers get a
validated image only if one of the files is one.

The header has 32 bits for the checksum and `_chkNVEcc` takes 16 of them, so a file may pass whose
header does not hold the checksum of its payload.
-/

namespace SprdHal.Nvitem

open SprdHal.Lib

/-! ## The result of a read -/

/-- `_getIdx`: the search in the `partId`s of `_ramdiskCfg`, which end with 0. -/
def getIdx (partIds : List UInt32) (handle : UInt32) : Option Nat :=
  match partIds with
  | [] => none
  | id :: ids =>
    if id = 0 then none
    else if handle = id then some 0
    else (getIdx ids handle).map (· + 1)

/-- The `partId`s after `ramDisk_Init`. -/
def ramdiskPartIds : List UInt32 := [1, 2, 0]

/-- What `ramDisk_Read` returns, leaves in `buf`, and does to the files of the partition. -/
structure ReadResult where
  ret : Nat
  buf : List UInt8
  ops : List (FileOp ImageFile)

/-- `ramDisk_Read` with its handle; `fs` are the files of each partition. -/
def ramDiskReadAt (handle : UInt32) (imageFirst : Bool) (buf : List UInt8) (size : Nat)
    (fs : Nat → Files ImageFile) : ReadResult :=
  match getIdx ramdiskPartIds handle with
  | none => ⟨0, buf, []⟩
  | some idx => ⟨1, (ramDiskRead imageFirst size (fs idx)).1, (ramDiskRead imageFirst size (fs idx)).2⟩

/-! ## Complete files -/

section Complete

variable {size : Nat} {file : Option (List UInt8)} {header payload : List UInt8}

/-- The file can be opened and read completely. -/
structure Complete (size : Nat) (file : Option (List UInt8)) (header payload : List UInt8) :
    Prop where
  opened : ∃ rest, file = some (header ++ payload ++ rest)
  header_length : header.length = nvHeaderSize
  payload_length : payload.length = size

/-- The file is complete, and its payload has the checksum of its header. -/
structure IntactImage (size : Nat) (file : Option (List UInt8)) (header payload : List UInt8) : Prop
    extends Complete size file header payload where
  checksum : (calcChecksum payload).toUInt32 = leWord header 8

/-- The file is complete, and passes `_chkNVEcc`. -/
structure Passes (size : Nat) (file : Option (List UInt8)) (header payload : List UInt8) : Prop
    extends Complete size file header payload where
  ecc : chkNVEcc payload (headerChecksum header) = true

theorem IntactImage.passes (h : IntactImage size file header payload) : Passes size file header payload := by
  refine ⟨h.toComplete, ?_⟩
  unfold chkNVEcc headerChecksum
  rw [← h.checksum]
  simp

/-- What is read from a complete file. -/
theorem Complete.readFile (h : Complete size file header payload) (ret1 ret2 : Nat) :
    readFile size file ret1 ret2 = ⟨true, nvHeaderSize, size, header, payload⟩ := by
  obtain ⟨⟨rest, rfl⟩, hh, hp⟩ := h
  have h1 : (header ++ payload ++ rest).take nvHeaderSize = header := by
    rw [List.append_assoc, List.take_left' hh]
  have h2 : ((header ++ payload ++ rest).drop nvHeaderSize).take size = payload := by
    rw [List.append_assoc, List.drop_left' hh, List.take_left' hp]
  simp only [Nvitem.readFile, h1, h2, hh, hp]
  rw [patch_same_length (by simp [hh]), patch_same_length (by simp [hp])]

/-- A file of which a header and `size` bytes are read is complete. -/
theorem complete_of_readFile {bytes : List UInt8} {ret1 ret2 : Nat}
    (h1 : (readFile size (some bytes) ret1 ret2).ret1 = nvHeaderSize)
    (h2 : (readFile size (some bytes) ret1 ret2).ret2 = size) :
    Complete size (some bytes) (bytes.take nvHeaderSize) ((bytes.drop nvHeaderSize).take size) := by
  refine ⟨⟨(bytes.drop nvHeaderSize).drop size, ?_⟩, h1, h2⟩
  rw [List.append_assoc, List.take_append_drop, List.take_append_drop]

/-- The checks of the code. -/
theorem valid_iff (ret1 ret2 : Nat) :
    (readFile size file ret1 ret2).valid size = true ↔ ∃ header payload,
      Passes size file header payload := by
  constructor
  · intro h
    simp only [FileRead.valid, Bool.and_eq_true, beq_iff_eq] at h
    obtain ⟨⟨⟨hopen, h1⟩, h2⟩, hgood⟩ := h
    cases file with
    | none => cases hopen
    | some bytes =>
      have hcomplete := complete_of_readFile h1 h2
      rw [FileRead.good, hcomplete.readFile] at hgood
      exact ⟨_, _, hcomplete, hgood⟩
  · rintro ⟨header, payload, h⟩
    rw [h.readFile]
    simp [FileRead.valid, FileRead.good, h.ecc]

/-- A complete file has one header and one payload. -/
theorem Complete.unique (h : Complete size file header payload) {header' payload' : List UInt8}
    (h' : Complete size file header' payload') : header = header' ∧ payload = payload' := by
  have heq := (h.readFile 0 0).symm.trans (h'.readFile 0 0)
  injection heq with _ _ _ hh hp
  exact ⟨hh, hp⟩

end Complete

/-! ## What the callers rely on -/

/-- A file is repaired only from the other one, if that one is intact. -/
def RepairOk (imageFirst : Bool) (size : Nat) (fs : Files ImageFile) (r : ReadResult) : Prop :=
  r.ops ≠ [] → ∃ header payload, IntactImage size (fs (.first !imageFirst)) header payload ∧
    runOps fs r.ops (.first imageFirst) = some (header ++ payload)

/-- A read that returns 1 delivers the payload of an intact file. -/
def DeliverOk (size : Nat) (fs : Files ImageFile) (r : ReadResult) : Prop :=
  r.ret = 1 → ∃ f header, IntactImage size (fs f) header r.buf

/-- The file that passes is intact. If the first one passes with a checksum field that does not hold
the checksum of its payload, the other file is intact and has the same payload. -/
def SoundImages (imageFirst : Bool) (size : Nat) (fs : Files ImageFile) : Prop :=
  (∃ header payload, Passes size (fs (.first imageFirst)) header payload ∧
    ∃ f header', IntactImage size (fs f) header' payload) ∨
  ((∀ header payload, ¬Passes size (fs (.first imageFirst)) header payload) ∧
    ∃ header payload, IntactImage size (fs (.first !imageFirst)) header payload)

section Read

variable {imageFirst : Bool} {size : Nat} {fs : Files ImageFile} {header payload : List UInt8}

/-- Every file is the first or the second one. -/
theorem first_or_second (imageFirst : Bool) (f : ImageFile) :
    f = .first imageFirst ∨ f = .first !imageFirst := by
  cases imageFirst <;> cases f <;> simp [ImageFile.first]

/-- The first file passes. -/
theorem ramDiskRead_of_first (h : Passes size (fs (.first imageFirst)) header payload) :
    ramDiskRead imageFirst size fs = (payload, []) := by
  have hvalid := (valid_iff 0 0).mpr ⟨_, _, h⟩
  unfold ramDiskRead
  simp only [hvalid, if_true]
  rw [h.readFile]

/-- The second file passes. -/
theorem ramDiskRead_of_second
    (hfirst : ∀ header payload, ¬Passes size (fs (.first imageFirst)) header payload)
    (h : Passes size (fs (.first !imageFirst)) header payload) :
    ramDiskRead imageFirst size fs = (payload, rewriteOps (.first imageFirst) header payload) := by
  have hvalid : ¬(readFile size (fs (.first imageFirst)) 0 0).valid size = true := by
    rw [valid_iff]
    rintro ⟨header, payload, hpass⟩
    exact hfirst header payload hpass
  unfold ramDiskRead
  simp only [if_neg hvalid, h.readFile, FileRead.good, h.ecc, ne_eq, not_true_eq_false, and_false,
    if_false]

/-- **A partition**: what is read and repaired is validated exactly if the images are sound. -/
theorem read_ok_iff (imageFirst : Bool) (size : Nat) (fs : Files ImageFile) :
    (RepairOk imageFirst size fs
        ⟨1, (ramDiskRead imageFirst size fs).1, (ramDiskRead imageFirst size fs).2⟩ ∧
      DeliverOk size fs
        ⟨1, (ramDiskRead imageFirst size fs).1, (ramDiskRead imageFirst size fs).2⟩) ↔
      SoundImages imageFirst size fs := by
  by_cases hfirst : ∃ header payload, Passes size (fs (.first imageFirst)) header payload
  · obtain ⟨header, payload, hpass⟩ := hfirst
    rw [ramDiskRead_of_first hpass]
    constructor
    · rintro ⟨-, hdeliver⟩
      exact Or.inl ⟨header, payload, hpass, hdeliver rfl⟩
    · intro hsound
      refine ⟨fun hops => absurd rfl hops, fun _ => ?_⟩
      rcases hsound with ⟨header', payload', hpass', hintact⟩ | ⟨hnone, -⟩
      · obtain ⟨-, rfl⟩ := hpass.toComplete.unique hpass'.toComplete
        exact hintact
      · exact absurd hpass (hnone header payload)
  have hfirst : ∀ header payload, ¬Passes size (fs (.first imageFirst)) header payload :=
    fun header payload hpass => hfirst ⟨header, payload, hpass⟩
  by_cases hsecond : ∃ header payload, Passes size (fs (.first !imageFirst)) header payload
  · obtain ⟨header, payload, hpass⟩ := hsecond
    rw [ramDiskRead_of_second hfirst hpass]
    constructor
    · rintro ⟨-, hdeliver⟩
      obtain ⟨f, header', hintact⟩ := hdeliver rfl
      rcases first_or_second imageFirst f with rfl | rfl
      · exact absurd hintact.passes (hfirst _ _)
      · exact Or.inr ⟨hfirst, _, _, hintact⟩
    · intro hsound
      rcases hsound with ⟨_, _, hpass', -⟩ | ⟨-, header', payload', hintact⟩
      · exact absurd hpass' (hfirst _ _)
      · obtain ⟨rfl, rfl⟩ := hpass.toComplete.unique hintact.toComplete
        refine ⟨fun _ => ⟨header, payload, hintact, ?_⟩, fun _ => ⟨_, header, hintact⟩⟩
        rw [runOps_rewrite, Function.update_self]
  · -- nothing passes, and there is nothing to deliver
    have hnone : ∀ f header payload, ¬IntactImage size (fs f) header payload := by
      intro f header payload hintact
      rcases first_or_second imageFirst f with rfl | rfl
      · exact hfirst _ _ hintact.passes
      · exact hsecond ⟨_, _, hintact.passes⟩
    constructor
    · rintro ⟨-, hdeliver⟩
      obtain ⟨f, header, hintact⟩ := hdeliver rfl
      exact absurd hintact (hnone _ _ _)
    · rintro (⟨_, _, hpass, -⟩ | ⟨-, _, _, hintact⟩)
      · exact absurd hpass (hfirst _ _)
      · exact absurd hintact (hnone _ _ _)

end Read

/-- **`ramDisk_Read`**, for every handle, read order, size and content of the files: it repairs and
delivers validated data exactly if the images of the partition are sound. -/
theorem ramDisk_read_validated_iff (handle : UInt32) (imageFirst : Bool) (buf : List UInt8)
    (size : Nat) (fs : Nat → Files ImageFile) :
    (∀ idx, getIdx ramdiskPartIds handle = some idx →
      RepairOk imageFirst size (fs idx) (ramDiskReadAt handle imageFirst buf size fs) ∧
      DeliverOk size (fs idx) (ramDiskReadAt handle imageFirst buf size fs)) ↔
    ∀ idx, getIdx ramdiskPartIds handle = some idx → SoundImages imageFirst size (fs idx) := by
  refine forall_congr' fun idx => ?_
  refine imp_congr_right fun hidx => ?_
  rw [← read_ok_iff]
  unfold ramDiskReadAt
  simp only [hidx]

/-- A file whose checksum is wrong, and no second file. -/
def badAndMissing : Nat → Files ImageFile := fun _ f =>
  match f with
  | .image => some (leBytes 0 ++ leBytes 0 ++ leBytes 1 ++ List.replicate 500 0 ++ [0, 0])
  | .imageBak => none

/-- The image is overwritten with `0xFF`, and the caller is told that it was read. -/
theorem ramDisk_read_not_validated :
    let r := ramDiskReadAt 1 true [] 2 badAndMissing
    getIdx ramdiskPartIds 1 = some 0 ∧ r.ret = 1 ∧ r.buf = [0xFF, 0xFF] ∧
      r.ops = rewriteOps .image (List.replicate 512 0) [0xFF, 0xFF] ∧
      ¬RepairOk true 2 (badAndMissing 0) r ∧ ¬DeliverOk 2 (badAndMissing 0) r := by
  intro r
  have hread : ramDiskRead true 2 (badAndMissing 0) =
      ([0xFF, 0xFF], rewriteOps .image (List.replicate 512 0) [0xFF, 0xFF]) := by
    decide +kernel
  have hr : r = ⟨1, [0xFF, 0xFF], rewriteOps .image (List.replicate 512 0) [0xFF, 0xFF]⟩ :=
    congrArg (fun x : List UInt8 × List (FileOp ImageFile) => ReadResult.mk 1 x.1 x.2) hread
  rw [hr]
  refine ⟨rfl, rfl, rfl, rfl, fun h => ?_, fun h => ?_⟩
  · obtain ⟨_, _, hintact, -⟩ := h (List.cons_ne_nil _ _)
    obtain ⟨_, hopened⟩ := hintact.opened
    cases hopened
  · obtain ⟨f, header, hintact⟩ := h rfl
    cases f with
    | image =>
      have hcomplete : Complete 2 (badAndMissing 0 .image)
          (leBytes 0 ++ leBytes 0 ++ leBytes 1 ++ List.replicate 500 0) [0, 0] :=
        ⟨⟨[], by rw [List.append_nil]; rfl⟩,
          by simp only [List.length_append, length_leBytes, List.length_replicate, nvHeaderSize], rfl⟩
      exact absurd (hintact.toComplete.unique hcomplete).2 (by simp)
    | imageBak =>
      obtain ⟨_, hopened⟩ := hintact.opened
      cases hopened

end SprdHal.Nvitem
