import Mathlib.Data.Finset.Card
import SprdHal.Gralloc.Planes
import SprdHal.Lib.Bitmask
import SprdHal.Lib.Keyed
import SprdHal.Lib.Machine

/-!
# The pages of the framebuffer (`alloc_device.cpp`, `framebuffer_device.cpp`)

The framebuffer is mapped once and divided into pages, as high as the display. A buffer that is
allocated for the framebuffer takes the first free page of `bufferMask`, `fb_post` has the display
scan out from the page of a buffer, and `alloc_device_free` gives the page back. With one page only,
such a buffer gets memory of its own instead and is copied to the page when it is posted.
-/

namespace SprdHal.Gralloc

open SprdHal.Lib SprdHal.Lib.Bitmask

/-! ## The module -/

/-- What `init_frame_buffer_locked` leaves in the module: where the framebuffer is mapped, and the
geometry that the driver reports. -/
structure FrameBuffer where
  base : UInt32
  lineLength : UInt32
  yres : UInt32
  yresVirtual : UInt32
  line_pos : 0 < lineLength.toNat
  yres_pos : 0 < yres.toNat
  yres_le : yres.toNat ≤ yresVirtual.toNat
  pages_lt : yresVirtual.toNat / yres.toNat < 32
  mapped : base.toNat + lineLength.toNat * yresVirtual.toNat < 2 ^ 32

namespace FrameBuffer

def numBuffers (fb : FrameBuffer) : UInt32 := fb.yresVirtual / fb.yres

/-- The number of pages. -/
def count (fb : FrameBuffer) : Nat := fb.numBuffers.toNat

/-- `bufferSize` -/
def bufferSize (fb : FrameBuffer) : UInt32 := fb.lineLength * fb.yres

/-- The address of page `i`. -/
def page (fb : FrameBuffer) (i : Nat) : UInt32 := fb.base + UInt32.ofNat i * fb.bufferSize

/-- How far an address is behind the start of the framebuffer. -/
def offset (fb : FrameBuffer) (vaddr : UInt32) : UInt32 := vaddr - fb.base

end FrameBuffer

/-- A buffer of this process: the address of its handle, its size, and where it lies in the
framebuffer, unless it has memory of its own. -/
structure Buffer where
  key : Nat
  size : UInt32
  base : Option UInt32
deriving DecidableEq

/-- `private_module_t`, the memory of the framebuffer by offset and that of the other buffers by handle. -/
structure PrivateModule where
  bufferMask : UInt32
  buffers : List Buffer
  /-- `frame_count_fbpost` is 1 -/
  counted : Bool
  /-- the first line that the display scans out -/
  yoffset : UInt32
  memory : Nat → UInt8
  contents : Nat → Nat → UInt8
  /-- the frame that was posted last -/
  posted : Nat → UInt8

def PrivateModule.init (contents : Nat → Nat → UInt8) : PrivateModule :=
  ⟨0, [], false, 0, fun _ => 0, contents, fun _ => 0⟩

inductive GrallocEvent
  /-- `alloc_device_alloc`. `ion` is what `gralloc_alloc_buffer` would answer, `key` where the handle
  would be. -/
  | alloc (w h : Int32) (format : PixelFormat) (usage : Usage) (ion : Except Int32 Int32) (key : Nat)
  /-- `alloc_device_free` -/
  | free (key : Nat)
  /-- the client writes a byte of the buffer -/
  | write (key offset : Nat) (value : UInt8)
  /-- `fb_post`, with what `FBIOPUT_VSCREENINFO` fails with -/
  | post (key : Nat) (errno : Option Int32)

/-! ## The allocation -/

/-- `ENOMEM` -/
def enomem : Int32 := 12

/-- What `gralloc_alloc_framebuffer_locked` decides. -/
inductive PageChoice where
  /-- a regular buffer instead -/
  | fallback
  | noMemory
  | page (bufferMask vaddr : UInt32)

/-- The loop over the slots. -/
def findSlot (bufferMask bufferSize : UInt32) : Nat → Nat → UInt32 → UInt32 × UInt32
  | 0, _, vaddr => (bufferMask, vaddr)
  | rest + 1, i, vaddr =>
    if bufferMask &&& bit i = 0 then (bufferMask ||| bit i, vaddr)
    else findSlot bufferMask bufferSize rest (i + 1) (vaddr + bufferSize)

def grallocAllocFramebufferLocked (fb : FrameBuffer) (bufferMask : UInt32) : PageChoice :=
  if fb.numBuffers = 1 then .fallback
  else if bit fb.count - 1 ≤ bufferMask then .noMemory
  else
    let slot := findSlot bufferMask fb.bufferSize fb.count 0 fb.base
    .page slot.1 slot.2

namespace PrivateModule

variable (fb : FrameBuffer) (s : PrivateModule)

/-- The answers to `alloc_device_alloc`; a page has no `share_fd`. -/
def allocator (ion : Except Int32 Int32) : Allocator := fun source _ _ =>
  match source with
  | .buffer => ion
  | .framebuffer =>
    match grallocAllocFramebufferLocked fb s.bufferMask with
    | .fallback => ion
    | .noMemory => .error (-enomem)
    | .page _ _ => .ok (-1)

/-- `alloc_device_alloc`, built without `GRALLOC_16_BITS`. -/
def allocOutcome (w h : Int32) (format : PixelFormat) (usage : Usage) (ion : Except Int32 Int32) :
    Outcome :=
  (allocDeviceAlloc false (s.allocator fb ion) true true w h format usage).val

def add (b : Buffer) : PrivateModule := { s with buffers := b :: s.buffers }

/-- What becomes of a request that is granted. -/
def granted (key : Nat) (size : UInt32) : Source → PrivateModule
  | .buffer => s.add ⟨key, size, none⟩
  | .framebuffer =>
    match grallocAllocFramebufferLocked fb s.bufferMask with
    | .fallback => s.add ⟨key, fb.bufferSize, none⟩
    | .noMemory => s
    | .page bufferMask vaddr => { s with bufferMask }.add ⟨key, size, some vaddr⟩

def alloc (w h : Int32) (format : PixelFormat) (usage : Usage) (ion : Except Int32 Int32)
    (key : Nat) : PrivateModule :=
  let outcome := s.allocOutcome fb w h format usage ion
  match outcome.request, outcome.handle with
  | some (source, size), some _ => s.granted fb key size source
  | _, _ => s

/-! ## The other calls -/

def find (key : Nat) : Option Buffer := Keyed.find Buffer.key s.buffers key

/-- `alloc_device_free`. The `magic` of a handle that is gone is not valid. -/
def allocDeviceFree (key : Nat) : PrivateModule × Int32 :=
  match s.find key with
  | none => (s, -einval)
  | some b =>
    let rest := Keyed.others Buffer.key s.buffers key
    match b.base with
    | some vaddr =>
      let index := fb.offset vaddr / fb.bufferSize
      ({ s with bufferMask := s.bufferMask &&& ~~~bit index.toNat, buffers := rest }, 0)
    | none => ({ s with buffers := rest }, 0)

/-- The client keeps within the size of its buffer. -/
def write (key o : Nat) (value : UInt8) : PrivateModule :=
  match s.find key with
  | none => s
  | some b =>
    if o < b.size.toNat then
      match b.base with
      | some vaddr =>
        { s with memory := Function.update s.memory ((fb.offset vaddr).toNat + o) value }
      | none =>
        { s with contents :=
            Function.update s.contents key (Function.update (s.contents key) o value) }
    else s

/-- `fb_post`. The first frame is skipped, a page is scanned out, another buffer is copied to the
start of the framebuffer. -/
def fbPost (key : Nat) (errno : Option Int32) : PrivateModule × Int32 :=
  match s.find key with
  | none => (s, -einval)
  | some b =>
    if s.counted = false then ({ s with counted := true }, 0)
    else
      match b.base with
      | some vaddr =>
        match errno with
        | some err => (s, -err)
        | none =>
          ({ s with
              yoffset := fb.offset vaddr / fb.lineLength
              posted := fun o => s.memory ((fb.offset vaddr).toNat + o) }, 0)
      | none =>
        ({ s with
            memory := fun a => if a < fb.bufferSize.toNat then s.contents key a else s.memory a
            posted := s.contents key }, 0)

end PrivateModule

/-- The module, call by call. -/
def gralloc (fb : FrameBuffer) : Machine PrivateModule GrallocEvent Int32 where
  step s
    | .alloc w h format usage ion key =>
      (s.alloc fb w h format usage ion key, [(s.allocOutcome fb w h format usage ion).ret])
    | .free key => ((s.allocDeviceFree fb key).1, [(s.allocDeviceFree fb key).2])
    | .write key o value => (s.write fb key o value, [])
    | .post key errno => ((s.fbPost fb key errno).1, [(s.fbPost fb key errno).2])

/-! ## The geometry -/

namespace FrameBuffer

variable (fb : FrameBuffer) {i j : Nat}

theorem count_eq : fb.count = fb.yresVirtual.toNat / fb.yres.toNat :=
  UInt32.toNat_div ..

theorem count_lt : fb.count < 32 := fb.count_eq ▸ fb.pages_lt

theorem count_pos : 0 < fb.count := by
  rw [count_eq]
  exact Nat.div_pos fb.yres_le fb.yres_pos

theorem toNat_bufferSize : fb.bufferSize.toNat = fb.lineLength.toNat * fb.yres.toNat := by
  apply toNat_mul_of_lt
  calc fb.lineLength.toNat * fb.yres.toNat
      ≤ fb.lineLength.toNat * fb.yresVirtual.toNat := Nat.mul_le_mul_left _ fb.yres_le
    _ < 2 ^ 32 := Nat.lt_of_le_of_lt (Nat.le_add_left ..) fb.mapped

theorem bufferSize_pos : 0 < fb.bufferSize.toNat :=
  fb.toNat_bufferSize ▸ Nat.mul_pos fb.line_pos fb.yres_pos

/-- The pages lie within the mapping. -/
theorem pages_le : fb.count * fb.bufferSize.toNat ≤ fb.lineLength.toNat * fb.yresVirtual.toNat := by
  calc fb.count * fb.bufferSize.toNat
      = fb.lineLength.toNat * (fb.yresVirtual.toNat / fb.yres.toNat * fb.yres.toNat) := by
        rw [count_eq, toNat_bufferSize, Nat.mul_left_comm]
    _ ≤ fb.lineLength.toNat * fb.yresVirtual.toNat :=
        Nat.mul_le_mul_left _ (Nat.div_mul_le_self ..)

/-- A page ends where the next one begins at the latest. -/
theorem succ_mul_le (h : i < j) : i * fb.bufferSize.toNat + fb.bufferSize.toNat ≤
    j * fb.bufferSize.toNat := by
  rw [← Nat.succ_mul]
  exact Nat.mul_le_mul_right _ h

theorem page_end (hi : i < fb.count) : fb.base.toNat + i * fb.bufferSize.toNat +
    fb.bufferSize.toNat ≤ fb.base.toNat + fb.lineLength.toNat * fb.yresVirtual.toNat := by
  rw [Nat.add_assoc]
  exact Nat.add_le_add_left (Nat.le_trans (fb.succ_mul_le hi) fb.pages_le) _

theorem toNat_page (hi : i < fb.count) :
    (fb.page i).toNat = fb.base.toNat + i * fb.bufferSize.toNat := by
  have hend := fb.page_end hi
  have hmapped := fb.mapped
  have hsmall : (UInt32.ofNat i).toNat = i :=
    UInt32.toNat_ofNat_of_lt' (Nat.lt_trans hi (Nat.lt_trans fb.count_lt (by decide)))
  have hmul : (UInt32.ofNat i * fb.bufferSize).toNat = i * fb.bufferSize.toNat := by
    rw [toNat_mul_of_lt (by rw [hsmall]; omega), hsmall]
  rw [page, toNat_add_of_lt (by rw [hmul]; omega), hmul]

theorem page_zero : fb.page 0 = fb.base := by
  simp [page]

theorem page_succ (i : Nat) : fb.page (i + 1) = fb.page i + fb.bufferSize := by
  rw [page, page, UInt32.ofNat_add, UInt32.add_mul, UInt32.add_assoc]
  exact congrArg _ (congrArg _ (UInt32.one_mul _))

theorem toNat_offset_page (hi : i < fb.count) :
    (fb.offset (fb.page i)).toNat = i * fb.bufferSize.toNat := by
  have hpage := fb.toNat_page hi
  rw [offset, UInt32.toNat_sub_of_le _ _ (UInt32.le_iff_toNat_le.mpr (by omega)), hpage]
  exact Nat.add_sub_cancel_left ..

theorem page_inj (hi : i < fb.count) (hj : j < fb.count) (h : fb.page i = fb.page j) : i = j := by
  have hoff := congrArg (fun v => (fb.offset v).toNat) h
  simp only [fb.toNat_offset_page hi, fb.toNat_offset_page hj] at hoff
  exact Nat.eq_of_mul_eq_mul_right fb.bufferSize_pos hoff

/-- `alloc_device_free` finds the slot again. -/
theorem index_page (hi : i < fb.count) :
    (fb.offset (fb.page i) / fb.bufferSize).toNat = i := by
  rw [UInt32.toNat_div, fb.toNat_offset_page hi, Nat.mul_div_cancel _ fb.bufferSize_pos]

/-- `fb_post` finds the first line of the page. -/
theorem line_page (hi : i < fb.count) :
    (fb.offset (fb.page i) / fb.lineLength).toNat = i * fb.yres.toNat := by
  rw [UInt32.toNat_div, fb.toNat_offset_page hi, toNat_bufferSize, Nat.mul_left_comm,
    Nat.mul_div_cancel_left _ fb.line_pos]

end FrameBuffer

/-! ## The slots -/

section Slots

variable {fb : FrameBuffer} {m : UInt32}

/-- The loop takes a free slot if there is one. -/
theorem findSlot_spec (fb : FrameBuffer) : ∀ (rest i : Nat), i + rest ≤ 32 →
    (∃ j, i ≤ j ∧ j < i + rest ∧ ¬Has m j) →
    ∃ j, i ≤ j ∧ j < i + rest ∧ ¬Has m j ∧
      findSlot m fb.bufferSize rest i (fb.page i) = (m ||| bit j, fb.page j) := by
  intro rest
  induction rest with
  | zero =>
    rintro i - ⟨j, hle, hlt, -⟩
    omega
  | succ rest ih =>
    rintro i hi ⟨j, hle, hlt, hj⟩
    unfold findSlot
    by_cases hfree : Has m i
    · rw [if_neg (by rwa [and_bit_eq_zero (by omega), not_not]), ← fb.page_succ]
      have hne : i ≠ j := fun h => hj (h ▸ hfree)
      obtain ⟨k, hik, hk, hslot⟩ := ih (i + 1) (by omega) ⟨j, by omega, by omega, hj⟩
      exact ⟨k, by omega, by omega, hslot⟩
    · rw [if_pos ((and_bit_eq_zero (by omega)).mpr hfree)]
      exact ⟨i, Nat.le_refl _, by omega, hfree, rfl⟩

/-- A page that is handed out was free. -/
theorem grallocAllocFramebufferLocked_page (hm : ∀ i, Has m i → i < fb.count) {m' vaddr : UInt32}
    (h : grallocAllocFramebufferLocked fb m = .page m' vaddr) :
    ∃ j < fb.count, ¬Has m j ∧ m' = m ||| bit j ∧ vaddr = fb.page j := by
  unfold grallocAllocFramebufferLocked at h
  split at h
  · cases h
  · split at h
    · cases h
    · rename_i hfull
      rw [le_iff_full fb.count_lt hm] at hfull
      push Not at hfull
      obtain ⟨i, hi, hfree⟩ := hfull
      have hlt := fb.count_lt
      obtain ⟨j, -, hj, hjfree, hslot⟩ :=
        findSlot_spec fb fb.count 0 (by omega) ⟨i, Nat.zero_le _, by omega, hfree⟩
      rw [fb.page_zero] at hslot
      rw [hslot] at h
      cases h
      exact ⟨j, by omega, hjfree, rfl, rfl⟩

/-- There is no page exactly if there are several and all are taken. -/
theorem grallocAllocFramebufferLocked_noMemory (hm : ∀ i, Has m i → i < fb.count) :
    grallocAllocFramebufferLocked fb m = .noMemory ↔
      fb.numBuffers ≠ 1 ∧ ∀ i < fb.count, Has m i := by
  unfold grallocAllocFramebufferLocked
  rw [← le_iff_full fb.count_lt hm]
  split
  · rename_i hone
    constructor
    · intro h
      cases h
    · intro h
      exact absurd hone h.1
  · rename_i hone
    split
    · rename_i hfull
      exact ⟨fun _ => ⟨hone, hfull⟩, fun _ => rfl⟩
    · rename_i hfull
      constructor
      · intro h
        cases h
      · intro h
        exact absurd h.2 hfull

end Slots

/-! ## What the calls keep -/

namespace PrivateModule

variable {fb : FrameBuffer} {s : PrivateModule} {key : Nat}

theorem find_some {b : Buffer} (h : s.find key = some b) : b ∈ s.buffers ∧ b.key = key :=
  Keyed.find_some h

/-- What an allocation does. -/
theorem alloc_cases (fb : FrameBuffer) (key : Nat) (w h : Int32) (format : PixelFormat)
    (usage : Usage) (ion : Except Int32 Int32) :
    s.alloc fb w h format usage ion key = s ∨
    (∃ size, s.alloc fb w h format usage ion key = s.add ⟨key, size, none⟩) ∨
    ∃ m vaddr size, grallocAllocFramebufferLocked fb s.bufferMask = .page m vaddr ∧
      (s.allocOutcome fb w h format usage ion).request = some (.framebuffer, size) ∧
      s.alloc fb w h format usage ion key =
        { s with bufferMask := m }.add ⟨key, size, some vaddr⟩ := by
  unfold alloc
  dsimp only
  split
  · rename_i source size _ hreq _
    cases source with
    | buffer => exact .inr (.inl ⟨size, rfl⟩)
    | framebuffer =>
      unfold granted
      cases hchoice : grallocAllocFramebufferLocked fb s.bufferMask with
      | fallback => exact .inr (.inl ⟨fb.bufferSize, rfl⟩)
      | noMemory => exact .inl rfl
      | page m vaddr => exact .inr (.inr ⟨m, vaddr, size, rfl, hreq, rfl⟩)
  · exact .inl rfl

end PrivateModule

/-- Each buffer in the framebuffer has a page to itself, the mask says which pages are taken, and
the display scans out a page. -/
structure PagesOk (fb : FrameBuffer) (s : PrivateModule) : Prop where
  keys : (s.buffers.map Buffer.key).Nodup
  pages : ∀ b ∈ s.buffers, ∀ v, b.base = some v → ∃ i < fb.count, v = fb.page i
  own : ∀ b ∈ s.buffers, ∀ c ∈ s.buffers, ∀ v, b.base = some v → c.base = some v → b = c
  mask : ∀ i, Has s.bufferMask i ↔ i < fb.count ∧ ∃ b ∈ s.buffers, b.base = some (fb.page i)
  scan : ∃ i < fb.count, s.yoffset.toNat = i * fb.yres.toNat

namespace PagesOk

variable {fb : FrameBuffer} {s : PrivateModule} {key : Nat}

theorem mask_lt (h : PagesOk fb s) (i : Nat) (hi : Has s.bufferMask i) : i < fb.count :=
  ((h.mask i).mp hi).1

theorem init (fb : FrameBuffer) (contents : Nat → Nat → UInt8) :
    PagesOk fb (.init contents) where
  keys := List.nodup_nil
  pages _ hb := absurd hb List.not_mem_nil
  own _ hb := absurd hb List.not_mem_nil
  mask i := by simp [PrivateModule.init]
  scan := ⟨0, fb.count_pos, (Nat.zero_mul _).symm⟩

theorem eq_of_key (h : PagesOk fb s) {b c : Buffer} (hb : b ∈ s.buffers) (hc : c ∈ s.buffers)
    (hkey : b.key = c.key) : b = c :=
  List.inj_on_of_nodup_map h.keys hb hc hkey

/-- A handle names its buffer. -/
theorem find_eq (h : PagesOk fb s) {b : Buffer} (hb : b ∈ s.buffers) : s.find b.key = some b :=
  Keyed.find_eq h.keys hb

/-- A buffer with memory of its own. -/
theorem add_own (h : PagesOk fb s) (hfresh : ∀ b ∈ s.buffers, b.key ≠ key) (size : UInt32) :
    PagesOk fb (s.add ⟨key, size, none⟩) where
  keys := by
    refine List.nodup_cons.mpr ⟨?_, h.keys⟩
    rw [List.mem_map]
    rintro ⟨b, hb, hkey⟩
    exact hfresh b hb hkey
  pages b hb v hv := by
    rcases List.mem_cons.mp hb with rfl | hb
    · cases hv
    · exact h.pages b hb v hv
  own b hb c hc v hbv hcv := by
    rcases List.mem_cons.mp hb with rfl | hb
    · cases hbv
    · rcases List.mem_cons.mp hc with rfl | hc
      · cases hcv
      · exact h.own b hb c hc v hbv hcv
  mask i := by
    rw [show (s.add ⟨key, size, none⟩).bufferMask = s.bufferMask from rfl, h.mask i]
    simp [PrivateModule.add]
  scan := h.scan

/-- A buffer in the framebuffer. -/
theorem add_page (h : PagesOk fb s) (hfresh : ∀ b ∈ s.buffers, b.key ≠ key) {m vaddr : UInt32}
    (hpage : grallocAllocFramebufferLocked fb s.bufferMask = .page m vaddr) (size : UInt32) :
    PagesOk fb ({ s with bufferMask := m }.add ⟨key, size, some vaddr⟩) := by
  obtain ⟨j, hj, hfree, rfl, rfl⟩ := grallocAllocFramebufferLocked_page h.mask_lt hpage
  -- nobody has the page yet
  have hnone : ∀ c ∈ s.buffers, c.base ≠ some (fb.page j) :=
    fun c hc hcj => hfree ((h.mask j).mpr ⟨hj, c, hc, hcj⟩)
  refine ⟨?_, ?_, ?_, ?_, h.scan⟩
  · refine List.nodup_cons.mpr ⟨?_, h.keys⟩
    rw [List.mem_map]
    rintro ⟨b, hb, hkey⟩
    exact hfresh b hb hkey
  · intro b hb v hv
    rcases List.mem_cons.mp hb with rfl | hb
    · exact ⟨j, hj, (Option.some.inj hv).symm⟩
    · exact h.pages b hb v hv
  · intro b hb c hc v hbv hcv
    rcases List.mem_cons.mp hb with rfl | hb
    · rcases List.mem_cons.mp hc with rfl | hc
      · rfl
      · exact absurd (hcv.trans hbv.symm) (hnone c hc)
    · rcases List.mem_cons.mp hc with rfl | hc
      · exact absurd (hbv.trans hcv.symm) (hnone b hb)
      · exact h.own b hb c hc v hbv hcv
  · intro i
    show Has (s.bufferMask ||| bit j) i ↔ i < fb.count ∧ ∃ b ∈ _ :: s.buffers, _
    rw [has_or_bit (Nat.lt_trans hj fb.count_lt), h.mask i]
    constructor
    · rintro (rfl | ⟨hi, b, hb, hbi⟩)
      · exact ⟨hj, _, List.mem_cons_self, rfl⟩
      · exact ⟨hi, b, List.mem_cons_of_mem _ hb, hbi⟩
    · rintro ⟨hi, b, hb, hbi⟩
      rcases List.mem_cons.mp hb with rfl | hb
      · exact .inl (fb.page_inj hi hj (Option.some.inj hbi).symm)
      · exact .inr ⟨hi, b, hb, hbi⟩

/-- What a call that neither allocates nor frees keeps. -/
theorem of_same (h : PagesOk fb s) {s' : PrivateModule} (hbuffers : s'.buffers = s.buffers)
    (hmask : s'.bufferMask = s.bufferMask)
    (hscan : ∃ i < fb.count, s'.yoffset.toNat = i * fb.yres.toNat) : PagesOk fb s' where
  keys := hbuffers ▸ h.keys
  pages := hbuffers ▸ h.pages
  own := hbuffers ▸ h.own
  mask := by
    rw [hmask, hbuffers]
    exact h.mask
  scan := hscan

theorem allocDeviceFree (h : PagesOk fb s) (key : Nat) :
    PagesOk fb (s.allocDeviceFree fb key).1 := by
  unfold PrivateModule.allocDeviceFree
  cases hfind : s.find key with
  | none => exact h
  | some b =>
    obtain ⟨hb, rfl⟩ := PrivateModule.find_some hfind
    have hsub : ∀ c, c ∈ Keyed.others Buffer.key s.buffers b.key ↔ c ∈ s.buffers ∧ c ≠ b :=
      fun c => Keyed.mem_others h.keys hb
    have hkeys := Keyed.others_nodup h.keys b.key
    have hpages : ∀ c ∈ Keyed.others Buffer.key s.buffers b.key, ∀ v, c.base = some v →
        ∃ i < fb.count, v = fb.page i := fun c hc => h.pages c ((hsub c).mp hc).1
    have hown : ∀ c ∈ Keyed.others Buffer.key s.buffers b.key,
        ∀ d ∈ Keyed.others Buffer.key s.buffers b.key, ∀ v, c.base = some v → d.base = some v →
          c = d :=
      fun c hc d hd => h.own c ((hsub c).mp hc).1 d ((hsub d).mp hd).1
    dsimp only
    split
    · rename_i vaddr hbase
      obtain ⟨j, hj, rfl⟩ := h.pages b hb vaddr hbase
      refine ⟨hkeys, hpages, hown, fun i => ?_, h.scan⟩
      show Has (s.bufferMask &&& ~~~bit _) i ↔ _
      rw [fb.index_page hj, has_and_not_bit (Nat.lt_trans hj fb.count_lt), h.mask i]
      constructor
      · rintro ⟨hij, hi, c, hc, hci⟩
        refine ⟨hi, c, (hsub c).mpr ⟨hc, ?_⟩, hci⟩
        rintro rfl
        exact hij (fb.page_inj hi hj (Option.some.inj (hci.symm.trans hbase)))
      · rintro ⟨hi, c, hc, hci⟩
        obtain ⟨hcs, hne⟩ := (hsub c).mp hc
        refine ⟨?_, hi, c, hcs, hci⟩
        rintro rfl
        exact hne (h.own c hcs b hb _ hci hbase)
    · rename_i hbase
      refine ⟨hkeys, hpages, hown, fun i => ?_, h.scan⟩
      show Has s.bufferMask i ↔ _
      rw [h.mask i]
      refine and_congr_right fun hi => ⟨?_, ?_⟩
      · rintro ⟨c, hc, hci⟩
        refine ⟨c, (hsub c).mpr ⟨hc, ?_⟩, hci⟩
        rintro rfl
        cases hci.symm.trans hbase
      · rintro ⟨c, hc, hci⟩
        exact ⟨c, ((hsub c).mp hc).1, hci⟩

theorem write (h : PagesOk fb s) (key o : Nat) (value : UInt8) :
    PagesOk fb (s.write fb key o value) := by
  unfold PrivateModule.write
  split
  · exact h
  · split
    · split
      · exact h.of_same rfl rfl h.scan
      · exact h.of_same rfl rfl h.scan
    · exact h

theorem fbPost (h : PagesOk fb s) (key : Nat) (errno : Option Int32) :
    PagesOk fb (s.fbPost fb key errno).1 := by
  unfold PrivateModule.fbPost
  cases hfind : s.find key with
  | none => exact h
  | some b =>
    dsimp only
    split
    · exact h.of_same rfl rfl h.scan
    · split
      · rename_i vaddr hbase
        obtain ⟨j, hj, rfl⟩ := h.pages b (PrivateModule.find_some hfind).1 vaddr hbase
        split
        · exact h
        · exact h.of_same rfl rfl ⟨j, hj, fb.line_page hj⟩
      · exact h.of_same rfl rfl h.scan

end PagesOk

/-- A new handle is not where another one is. -/
def FreshKey (s : PrivateModule) : GrallocEvent → Prop
  | .alloc _ _ _ _ _ key => ∀ b ∈ s.buffers, b.key ≠ key
  | _ => True

instance (s : PrivateModule) : ∀ e, Decidable (FreshKey s e)
  | .alloc _ _ _ _ _ key => inferInstanceAs (Decidable (∀ b ∈ s.buffers, b.key ≠ key))
  | .free _ | .write .. | .post .. => isTrue trivial

theorem PagesOk.step {fb : FrameBuffer} {s : PrivateModule} (h : PagesOk fb s) (e : GrallocEvent)
    (hfresh : FreshKey s e) : PagesOk fb ((gralloc fb).step s e).1 := by
  cases e with
  | alloc w height format usage ion key =>
    show PagesOk fb (s.alloc fb w height format usage ion key)
    rcases s.alloc_cases fb key w height format usage ion with
      heq | ⟨size, heq⟩ | ⟨m, vaddr, size, hpage, -, heq⟩
    · rwa [heq]
    · rw [heq]
      exact h.add_own hfresh size
    · rw [heq]
      exact h.add_page hfresh hpage size
  | free key => exact h.allocDeviceFree key
  | write key o value => exact h.write key o value
  | post key errno => exact h.fbPost key errno

/-! ## Whole runs -/

theorem PagesOk.run {fb : FrameBuffer} {contents : Nat → Nat → UInt8} {es : List GrallocEvent}
    (hfresh : (gralloc fb).Admits FreshKey (.init contents) es) :
    PagesOk fb ((gralloc fb).run (.init contents) es).1 :=
  (gralloc fb).run_induction (P := fun s _ => PagesOk fb s) (fun _ _ e h he => h.step e he) es _ []
    (.init fb contents) hfresh

/-- The buffers in the framebuffer. -/
def PrivateModule.paged (s : PrivateModule) : List Buffer :=
  s.buffers.filter (·.base.isSome)

/-- All pages are taken exactly if there are as many buffers as pages. -/
theorem PagesOk.full_iff {fb : FrameBuffer} {s : PrivateModule} (h : PagesOk fb s) :
    (∀ i < fb.count, Has s.bufferMask i) ↔ s.paged.length = fb.count := by
  -- the buffers by the number of their page
  let slot : Buffer → Nat := fun b => (fb.offset (b.base.getD 0) / fb.bufferSize).toNat
  have hslot : ∀ b ∈ s.paged, slot b < fb.count ∧ b.base = some (fb.page (slot b)) := by
    intro b hb
    obtain ⟨hb, hsome⟩ := List.mem_filter.mp hb
    obtain ⟨v, hv⟩ := Option.isSome_iff_exists.mp hsome
    obtain ⟨i, hi, rfl⟩ := h.pages b hb v hv
    have hi' : slot b = i := by
      simp only [slot, hv, Option.getD_some]
      exact fb.index_page hi
    rw [hi']
    exact ⟨hi, hv⟩
  have hnodup : (s.paged.map slot).Nodup := by
    refine List.Nodup.map_on ?_ ((List.Nodup.of_map _ h.keys).filter _)
    intro b hb c hc heq
    exact h.own b (List.mem_filter.mp hb).1 c (List.mem_filter.mp hc).1 _ (hslot b hb).2
      (heq ▸ (hslot c hc).2)
  have hmem : ∀ i, i ∈ s.paged.map slot ↔ i < fb.count ∧ Has s.bufferMask i := by
    intro i
    rw [List.mem_map]
    constructor
    · rintro ⟨b, hb, rfl⟩
      obtain ⟨hi, hbase⟩ := hslot b hb
      exact ⟨hi, (h.mask _).mpr ⟨hi, b, (List.mem_filter.mp hb).1, hbase⟩⟩
    · rintro ⟨hi, hhas⟩
      obtain ⟨-, b, hb, hbase⟩ := (h.mask i).mp hhas
      have hpaged : b ∈ s.paged := List.mem_filter.mpr ⟨hb, by rw [hbase]; rfl⟩
      obtain ⟨hi', hbase'⟩ := hslot b hpaged
      exact ⟨b, hpaged, fb.page_inj hi' hi (Option.some.inj (hbase'.symm.trans hbase))⟩
  have hcard : s.paged.length = ((Finset.range fb.count).filter (Has s.bufferMask)).card := by
    rw [← List.length_map slot, ← List.toFinset_card_of_nodup hnodup]
    congr 1
    ext i
    rw [List.mem_toFinset, hmem, Finset.mem_filter, Finset.mem_range]
  have hfull := Finset.card_filter_eq_iff (s := Finset.range fb.count) (p := Has s.bufferMask)
  rw [Finset.card_range] at hfull
  rw [hcard, hfull]
  simp only [Finset.mem_range]

/-- The answer to a request for the framebuffer that is not turned away at once. -/
theorem PrivateModule.allocOutcome_ret {fb : FrameBuffer} {s : PrivateModule} {w h : Int32}
    {format : PixelFormat} {usage : Usage} {ion : Except Int32 Int32} (hw : 1 ≤ w) (hh : 1 ≤ h)
    (hformat : (layoutOf format w h).isSome) (husage : usage.hwFb = true)
    (hone : fb.numBuffers ≠ 1) :
    (s.allocOutcome fb w h format usage ion).ret = -enomem ↔
      grallocAllocFramebufferLocked fb s.bufferMask = .noMemory := by
  obtain ⟨calculation, hcalc⟩ := Option.isSome_iff_exists.mp hformat
  have hret : (s.allocOutcome fb w h format usage ion).ret =
      (allocLayout false (s.allocator fb ion) w h format usage calculation.val).ret := by
    rw [allocOutcome, allocDeviceAlloc_eq hw hh, hcalc]
    rfl
  rw [hret, allocLayout, husage]
  cases hchoice : grallocAllocFramebufferLocked fb s.bufferMask with
  | fallback =>
    unfold grallocAllocFramebufferLocked at hchoice
    rw [if_neg hone] at hchoice
    split at hchoice <;> cases hchoice
  | noMemory => simp [allocator, hchoice]
  | page m vaddr => simp [allocator, hchoice, enomem]

/-- **The pages of the framebuffer.** Whatever is allocated, freed, written and posted in whatever
order: `bufferMask` says which pages have a buffer, the pages of two buffers never overlap and lie
within the mapping, and where there are several pages a request is refused for want of memory exactly
when as many buffers are there as pages. -/
theorem pages_run (fb : FrameBuffer) (contents : Nat → Nat → UInt8) (es : List GrallocEvent)
    (hfresh : (gralloc fb).Admits FreshKey (.init contents) es) :
    let s := ((gralloc fb).run (.init contents) es).1
    (∀ i, Has s.bufferMask i ↔ i < fb.count ∧ ∃ b ∈ s.buffers, b.base = some (fb.page i)) ∧
    (∀ b ∈ s.buffers, ∀ c ∈ s.buffers, b ≠ c → ∀ v u, b.base = some v → c.base = some u →
      v.toNat + fb.bufferSize.toNat ≤ u.toNat ∨ u.toNat + fb.bufferSize.toNat ≤ v.toNat) ∧
    (∀ b ∈ s.buffers, ∀ v, b.base = some v → fb.base.toNat ≤ v.toNat ∧
      v.toNat + fb.bufferSize.toNat ≤
        fb.base.toNat + fb.lineLength.toNat * fb.yresVirtual.toNat) ∧
    ∀ (w h : Int32) (format : PixelFormat) (usage : Usage) (ion : Except Int32 Int32), 1 ≤ w →
      1 ≤ h → (layoutOf format w h).isSome → usage.hwFb = true → fb.numBuffers ≠ 1 →
      ((s.allocOutcome fb w h format usage ion).ret = -enomem ↔ s.paged.length = fb.count) := by
  intro s
  have hok : PagesOk fb s := .run hfresh
  refine ⟨hok.mask, ?_, ?_, ?_⟩
  · intro b hb c hc hne v u hv hu
    obtain ⟨i, hi, rfl⟩ := hok.pages b hb v hv
    obtain ⟨j, hj, rfl⟩ := hok.pages c hc u hu
    have hij : i ≠ j := by
      rintro rfl
      exact hne (hok.own b hb c hc _ hv hu)
    rw [fb.toNat_page hi, fb.toNat_page hj]
    rcases Nat.lt_or_gt_of_ne hij with hlt | hgt
    · have hle := fb.succ_mul_le hlt
      omega
    · have hle := fb.succ_mul_le hgt
      omega
  · intro b hb v hv
    obtain ⟨i, hi, rfl⟩ := hok.pages b hb v hv
    have hend := fb.page_end hi
    rw [fb.toNat_page hi]
    omega
  · intro w h format usage ion hw hh hformat husage hone
    rw [PrivateModule.allocOutcome_ret hw hh hformat husage hone,
      grallocAllocFramebufferLocked_noMemory hok.mask_lt, hok.full_iff]
    exact and_iff_right hone

/-- A framebuffer of two pages, each of four lines of four pixels. -/
def twoPages : FrameBuffer where
  base := 0x10000
  lineLength := 16
  yres := 4
  yresVirtual := 8
  line_pos := by decide
  yres_pos := by decide
  yres_le := by decide
  pages_lt := by decide
  mapped := by decide

/-- A buffer of the size of a page for the framebuffer. -/
def allocPage (key : Nat) : GrallocEvent := .alloc 4 4 .rgba8888 ⟨true, false, false⟩ (.error (-1)) key

/-- There is no third page, until one is given back. -/
theorem pages_run_two :
    (((gralloc twoPages).run (.init fun _ _ => 0) [allocPage 1, allocPage 2]).1.allocOutcome twoPages
      4 4 .rgba8888 ⟨true, false, false⟩ (.error (-1))).ret = -enomem ∧
    (((gralloc twoPages).run (.init fun _ _ => 0)
      [allocPage 1, allocPage 2, .free 1]).1.allocOutcome twoPages
      4 4 .rgba8888 ⟨true, false, false⟩ (.error (-1))).ret ≠ -enomem :=
  ⟨((pages_run twoPages (fun _ _ => 0) [allocPage 1, allocPage 2] (by decide)).2.2.2 4 4 .rgba8888 _
      _ (by decide) (by decide) (by decide) rfl (by decide)).mpr (by decide),
    fun h => absurd (((pages_run twoPages (fun _ _ => 0) [allocPage 1, allocPage 2, .free 1]
      (by decide)).2.2.2 4 4 .rgba8888 _ _ (by decide) (by decide) (by decide) rfl
      (by decide)).mp h) (by decide)⟩

end SprdHal.Gralloc
