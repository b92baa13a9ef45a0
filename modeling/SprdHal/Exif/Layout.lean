import SprdHal.Exif.Writer

/-!
# Where everything goes

In a buffer that is large enough every write succeeds, so the writer can be described by the bytes it
puts at each place. A block puts an entry at `ifd_offset` and, if the value does not fit into it, the
value at `ifd_value_offset`. Entries stay below the values because a directory reserves room for all of
its entries. `Filled` is what holds while a directory is being written: all entries so far can be
read, and `Frame` says what else a step may have changed.
-/

namespace SprdHal.Exif

open Lib

/-! ## Writes that have room -/

section Room

variable {α : Type} {buf : List UInt8} {pos : Nat}

theorem setWritePos_ok {offset : Nat} (h : offset ≤ buf.length) :
    setWritePos offset ⟨buf, pos⟩ = .ok true ⟨buf, offset⟩ := by
  unfold setWritePos
  rw [if_neg (Nat.not_lt.mpr h)]

theorem writeC_ok {c : UInt8} (h : pos < buf.length) :
    writeC c ⟨buf, pos⟩ = .ok true ⟨patch buf pos [c], pos + 1⟩ := by
  unfold writeC
  rw [if_neg (Nat.not_le.mpr h)]

theorem writeCs_ok {cs : List UInt8} (h : pos + cs.length ≤ buf.length) :
    writeCs cs ⟨buf, pos⟩ = .ok true ⟨patch buf pos cs, pos + cs.length⟩ := by
  induction cs generalizing buf pos with
  | nil =>
    rw [patch_nil]
    rfl
  | cons c cs ih =>
    rw [List.length_cons] at h
    have happ := patch_append buf pos [c] cs
    rw [List.length_singleton, List.singleton_append] at happ
    unfold writeCs
    rw [bind_ok (writeC_ok (by omega))]
    simp only [if_true]
    rw [ih (by rw [length_patch]; omega), happ, List.length_cons, Nat.add_assoc, Nat.add_comm 1]

theorem writeW_ok {w : UInt16} (h : pos + 2 ≤ buf.length) :
    writeW w ⟨buf, pos⟩ = .ok true ⟨patch buf pos (beShort w), pos + 2⟩ :=
  writeCs_ok (show pos + (beShort w).length ≤ buf.length from h)

theorem writeL_ok {l : UInt32} (h : pos + 4 ≤ buf.length) :
    writeL l ⟨buf, pos⟩ = .ok true ⟨patch buf pos (beLong l), pos + 4⟩ := by
  unfold writeL
  rw [if_neg (Nat.not_lt.mpr h)]

theorem writeWs_ok {ws : List UInt16} (h : pos + (ws.flatMap beShort).length ≤ buf.length) :
    writeWs ws ⟨buf, pos⟩ =
      .ok true ⟨patch buf pos (ws.flatMap beShort), pos + (ws.flatMap beShort).length⟩ := by
  induction ws generalizing buf pos with
  | nil =>
    rw [List.flatMap_nil, patch_nil]
    rfl
  | cons w ws ih =>
    rw [List.flatMap_cons, List.length_append, length_beShort] at h
    unfold writeWs
    rw [bind_ok (writeW_ok (by omega))]
    simp only [if_true]
    have happ := patch_append buf pos (beShort w) (ws.flatMap beShort)
    rw [length_beShort] at happ
    rw [ih (by rw [length_patch]; omega), happ, List.flatMap_cons, List.length_append, length_beShort,
      Nat.add_assoc]

theorem writeLs_ok {ls : List UInt32} (h : pos + (ls.flatMap beLong).length ≤ buf.length) :
    writeLs ls ⟨buf, pos⟩ =
      .ok true ⟨patch buf pos (ls.flatMap beLong), pos + (ls.flatMap beLong).length⟩ := by
  induction ls generalizing buf pos with
  | nil =>
    rw [List.flatMap_nil, patch_nil]
    rfl
  | cons l ls ih =>
    rw [List.flatMap_cons, List.length_append, length_beLong] at h
    unfold writeLs
    rw [bind_ok (writeL_ok (by omega))]
    simp only [if_true]
    have happ := patch_append buf pos (beLong l) (ls.flatMap beLong)
    rw [length_beLong] at happ
    rw [ih (by rw [length_patch]; omega), happ, List.flatMap_cons, List.length_append, length_beLong,
      Nat.add_assoc]

/-- The 12 bytes of an entry. -/
def entryBytes (tag : UInt16) (type : TiffType) (count field : UInt32) : List UInt8 :=
  beShort tag ++ beShort type.code ++ beLong count ++ beLong field

@[simp] theorem length_entryBytes (tag : UInt16) (type : TiffType) (count field : UInt32) :
    (entryBytes tag type count field).length = 12 := rfl

def IfdInfo.entry (info : IfdInfo) : List UInt8 :=
  entryBytes info.tag info.type (UInt32.ofNat info.count) info.offsetValue

theorem writeIFD_ok {info : IfdInfo} (h : pos + 12 ≤ buf.length) :
    writeIFD info ⟨buf, pos⟩ = .ok () ⟨patch buf pos info.entry, pos + 12⟩ := by
  have e1 := patch_append buf pos (beShort info.tag) (beShort info.type.code)
  have e2 := patch_append buf pos (beShort info.tag ++ beShort info.type.code)
    (beLong (UInt32.ofNat info.count))
  have e3 := patch_append buf pos
    (beShort info.tag ++ beShort info.type.code ++ beLong (UInt32.ofNat info.count))
    (beLong info.offsetValue)
  simp only [List.length_append, length_beShort, length_beLong] at e1 e2 e3
  unfold writeIFD
  rw [bind_orFail (writeW_ok (by omega)), bind_orFail (writeW_ok (by rw [length_patch]; omega)),
    bind_orFail (writeL_ok (by rw [length_patch, length_patch]; omega))]
  have hlast := @writeL_ok (patch (patch (patch buf pos (beShort info.tag)) (pos + 2)
    (beShort info.type.code)) (pos + 2 + 2) (beLong (UInt32.ofNat info.count))) (pos + 2 + 2 + 4)
    info.offsetValue (by rw [length_patch, length_patch, length_patch]; omega)
  unfold orFail
  rw [bind_ok hlast, e1, Nat.add_assoc pos, e2, Nat.add_assoc pos, e3]
  rfl

/-- What a writer makes of the union before it writes the entry. -/
def Writer.inline : Writer → IfdInfo → IfdInfo
  | rational, info => info
  | long, info => info.inlineLong
  | short, info => info.inlineShort
  | byte, info => info.inlineByte

theorem Writer.inline_same (w : Writer) (info : IfdInfo) :
    (w.inline info).tag = info.tag ∧ (w.inline info).type = info.type ∧
      (w.inline info).count = info.count := by
  cases w with
  | rational => exact ⟨rfl, rfl, rfl⟩
  | long =>
    simp only [Writer.inline, IfdInfo.inlineLong]
    split
    · exact ⟨rfl, rfl, rfl⟩
    · exact ⟨rfl, rfl, rfl⟩
  | short =>
    simp only [Writer.inline, IfdInfo.inlineShort]
    split
    · exact ⟨rfl, rfl, rfl⟩
    · exact ⟨rfl, rfl, rfl⟩
  | byte =>
    simp only [Writer.inline, IfdInfo.inlineByte]
    split
    · exact ⟨rfl, rfl, rfl⟩
    · exact ⟨rfl, rfl, rfl⟩

/-- What a writer writes behind the entries. -/
def Writer.data : Writer → Nat → List UInt8 → List UInt8
  | rational, count, value => (longsAt value (2 * count)).flatMap beLong
  | long, count, value => if 1 < count then (longsAt value count).flatMap beLong else []
  | short, count, value => if 2 < count then (shortsAt value count).flatMap beShort else []
  | byte, count, value => if 4 < count then value.take count else []

/-- **A writer in a buffer with room**: one patch for the entry and one for the value. -/
theorem Writer.run_ok (w : Writer) (info : IfdInfo) (buf : List UInt8) (pos : Nat) {i v : Nat}
    (hv : 4 ∣ v)
    (hi : i + 12 ≤ buf.length) (hlen : v + (w.data info.count info.value).length ≤ buf.length) :
    ∃ pos', w.run info i v ⟨buf, pos⟩ =
      .ok (i + 12, align4 (v + (w.data info.count info.value).length))
        ⟨patch (patch buf i (w.inline info).entry) v (w.data info.count info.value), pos'⟩ := by
  have hstart : setWritePos i ⟨buf, pos⟩ = .ok true ⟨buf, i⟩ := setWritePos_ok (by omega)
  have hval : ∀ b : List UInt8, setWritePos v ⟨patch buf i b, i + 12⟩ = .ok true ⟨patch buf i b, v⟩ :=
    fun b => setWritePos_ok (by rw [length_patch]; omega)
  have hnone : align4 (v + 0) = v := align4_of_dvd hv
  cases w with
  | rational =>
    simp only [Writer.data] at hlen ⊢
    show ∃ pos', writeRationalIFD info i v ⟨buf, pos⟩ = _
    unfold writeRationalIFD
    rw [bind_orFail hstart, bind_ok (writeIFD_ok hi), bind_ok (m := getWritePos) rfl,
      bind_orFail (hval _), bind_orFail (writeLs_ok (by rw [length_patch]; omega)),
      bind_ok (m := getWritePos) rfl]
    exact ⟨_, rfl⟩
  | long =>
    simp only [Writer.data] at hlen ⊢
    show ∃ pos', writeLongIFD info i v ⟨buf, pos⟩ = _
    unfold writeLongIFD
    rw [bind_orFail hstart, bind_ok (writeIFD_ok hi), bind_ok (m := getWritePos) rfl]
    by_cases hc : 1 < info.count
    · rw [if_pos hc] at hlen
      rw [if_pos hc, if_pos hc, bind_orFail (hval _),
        bind_orFail (writeLs_ok (by rw [length_patch]; omega)),
        bind_ok (m := getWritePos) rfl]
      exact ⟨_, rfl⟩
    · rw [if_neg hc, if_neg hc, List.length_nil, hnone, patch_nil]
      exact ⟨_, rfl⟩
  | short =>
    simp only [Writer.data] at hlen ⊢
    show ∃ pos', writeShortIFD info i v ⟨buf, pos⟩ = _
    unfold writeShortIFD
    rw [bind_orFail hstart, bind_ok (writeIFD_ok hi), bind_ok (m := getWritePos) rfl]
    by_cases hc : 2 < info.count
    · rw [if_pos hc] at hlen
      rw [if_pos hc, if_pos hc, bind_orFail (hval _),
        bind_ok (writeWs_ok (by rw [length_patch]; omega)), if_pos rfl,
        bind_ok (m := getWritePos) rfl]
      exact ⟨_, rfl⟩
    · rw [if_neg hc, if_neg hc, List.length_nil, hnone, patch_nil]
      exact ⟨_, rfl⟩
  | byte =>
    simp only [Writer.data] at hlen ⊢
    show ∃ pos', writeByteIFD info i v ⟨buf, pos⟩ = _
    unfold writeByteIFD
    rw [bind_orFail hstart, bind_ok (writeIFD_ok hi), bind_ok (m := getWritePos) rfl]
    by_cases hc : 4 < info.count
    · rw [if_pos hc] at hlen
      rw [if_pos hc, if_pos hc, bind_orFail (hval _),
        bind_ok (writeCs_ok (by rw [length_patch]; omega)), if_pos rfl,
        bind_ok (m := getWritePos) rfl]
      exact ⟨_, rfl⟩
    · rw [if_neg hc, if_neg hc, List.length_nil, hnone, patch_nil]
      exact ⟨_, rfl⟩

end Room

/-! ## Blocks -/

namespace Block

variable (b : Block)

def info (off : UInt32) : IfdInfo := ⟨b.tag, b.type, b.count, leBytes off, b.value⟩

/-- The bytes behind the entries. -/
def data : List UInt8 := b.writer.data b.count b.value

/-- The last four bytes of the entry, if values go to `off`. -/
def field (off : UInt32) : UInt32 := (b.writer.inline (b.info off)).offsetValue

/-- The bytes that a reader takes for the value. -/
def raw (off : UInt32) : List UInt8 :=
  if b.count * b.type.size ≤ 4 then (beLong (b.field off)).take (b.count * b.type.size)
  else b.data.take (b.count * b.type.size)

/-- What a reader finds. -/
def item (off : UInt32) : TiffItem := ⟨b.tag, b.type, b.type.decode (b.raw off)⟩

/-- The entry is one that a reader understands: a value that does not fit is where the entry says. -/
structure Good : Prop where
  count_lt : b.count < 2 ^ 32
  data_length : 4 < b.count * b.type.size → b.count * b.type.size ≤ b.data.length
  field_eq : 4 < b.count * b.type.size → ∀ off, b.field off = off

/-- The room that the value takes. -/
def size : Nat := if b.present then align4 b.data.length else 0

/-- The entry, if there is one, with values from `v` on. -/
def items (v : Nat) : List TiffItem :=
  if b.present then [b.item (UInt32.ofNat (v - 10))] else []

variable {b}

theorem entry_inline (off : UInt32) : (b.writer.inline (b.info off)).entry =
    entryBytes b.tag b.type (UInt32.ofNat b.count) (b.field off) := by
  obtain ⟨htag, htype, hcount⟩ := b.writer.inline_same (b.info off)
  unfold IfdInfo.entry
  rw [htag, htype, hcount]
  rfl

theorem raw_small (h : b.count * b.type.size ≤ 4) (off : UInt32) :
    b.raw off = (beLong (b.field off)).take (b.count * b.type.size) := if_pos h

theorem raw_large (h : ¬ b.count * b.type.size ≤ 4) (off : UInt32) :
    b.raw off = b.data.take (b.count * b.type.size) := if_neg h

theorem Good.length_raw (h : b.Good) (off : UInt32) :
    (b.raw off).length = b.count * b.type.size := by
  by_cases hle : b.count * b.type.size ≤ 4
  · rw [raw_small hle, List.length_take, length_beLong]
    exact Nat.min_eq_left hle
  · rw [raw_large hle, List.length_take]
    exact Nat.min_eq_left (h.data_length (Nat.lt_of_not_le hle))

end Block

/-! ## A directory in progress -/

/-- Nothing has changed but the entries from `i` to `i'` and the values from `v` to `v'`. -/
structure Frame (i i' v v' : Nat) (buf buf' : List UInt8) : Prop where
  length : buf'.length = buf.length
  same : ∀ k, k < i ∨ i' ≤ k → k < v ∨ v' ≤ k → buf'[k]? = buf[k]?

theorem Frame.refl (i v : Nat) (buf : List UInt8) : Frame i i v v buf buf := ⟨rfl, fun _ _ _ => rfl⟩

theorem Frame.trans {i i1 i2 v v1 v2 : Nat} {a b c : List UInt8} (h1 : Frame i i1 v v1 a b)
    (h2 : Frame i1 i2 v1 v2 b c) (hi : i ≤ i1) (hi' : i1 ≤ i2) (hv : v ≤ v1) (hv' : v1 ≤ v2) :
    Frame i i2 v v2 a c := by
  refine ⟨h2.length.trans h1.length, fun k hk hk' => ?_⟩
  rw [h2.same k (by omega) (by omega), h1.same k (by omega) (by omega)]

/-- The directory that begins at `B` has its values from `V` on, and the entries so far can be
read. -/
structure Listed (B V : Nat) (c : Cursor) (items : List TiffItem) (buf : List UInt8) : Prop where
  ifdOffset : c.ifdOffset = B + 2 + 12 * items.length
  entries : c.entries = items.length
  le : V ≤ c.valueOffset
  found : ItemsAt buf 10 (B + 2) V c.valueOffset items

/-- The next value goes to an aligned place, as it does until the thumbnail is written. -/
structure Filled (B V : Nat) (c : Cursor) (items : List TiffItem) (buf : List UInt8) : Prop
    extends Listed B V c items buf where
  aligned : 4 ∣ c.valueOffset

section Steps

variable {B V : Nat} {c : Cursor} {items : List TiffItem} {buf : List UInt8} (pos : Nat)

/-- The entries so far can still be read after a step, and one more. -/
theorem Filled.snoc {c' : Cursor} {buf' : List UInt8} {item : TiffItem} (h : Filled B V c items buf)
    (hframe : Frame c.ifdOffset (c.ifdOffset + 12) c.valueOffset c'.valueOffset buf buf')
    (hroom : c.ifdOffset + 12 ≤ V) (hi : c'.ifdOffset = c.ifdOffset + 12)
    (he : c'.entries = c.entries + 1) (hle : c.valueOffset ≤ c'.valueOffset)
    (ha : 4 ∣ c'.valueOffset)
    (hitem : ItemAt buf' 10 c.ifdOffset V c'.valueOffset item) :
    Filled B V c' (items ++ [item]) buf' := by
  have hlen : (items ++ [item]).length = items.length + 1 := List.length_append
  have hifd := h.ifdOffset
  have hV := h.le
  refine ⟨⟨by rw [hi, hlen]; omega, by rw [he, h.entries, hlen], Nat.le_trans hV hle, ?_⟩, ha⟩
  refine ItemsAt.snoc (h.found.congr ?_ ?_ (Nat.le_refl _) hle) ?_
  · exact fun k h1 h2 => hframe.same k (by omega) (by omega)
  · exact fun k h1 h2 => hframe.same k (by omega) (by omega)
  · rw [← hifd]
    exact hitem

theorem frame_patch (buf : List UInt8) {entry : List UInt8} (data : List UInt8) (i v : Nat)
    (he : entry.length = 12) :
    Frame i (i + 12) v (align4 (v + data.length)) buf (patch (patch buf i entry) v data) := by
  have hle := le_align4 (v + data.length)
  refine ⟨by rw [length_patch, length_patch], fun k hk hk' => ?_⟩
  rw [getElem?_patch_of_out _ _ _ (by omega), getElem?_patch_of_out _ _ _ (by omega)]

/-- The entry and the value of a block, where a reader looks for them. -/
theorem item_patch (buf : List UInt8) {b : Block} {i v : Nat} {off : UInt32} (hg : b.Good) (hoff : 10 + off.toNat = v)
    (hlen : v + b.data.length ≤ buf.length) (hV : V ≤ v) (hroom : i + 12 ≤ V)
    (hi : i + 12 ≤ buf.length) :
    ItemAt (patch (patch buf i (entryBytes b.tag b.type (UInt32.ofNat b.count) (b.field off))) v
      b.data) 10 i V (align4 (v + b.data.length)) (b.item off) := by
  have hcount : (UInt32.ofNat b.count).toNat = b.count := by
    rw [UInt32.toNat_ofNat']
    exact Nat.mod_eq_of_lt hg.count_lt
  have hraw := hg.length_raw off
  refine ⟨UInt32.ofNat b.count, beLong (b.field off), b.raw off, rfl, ?_, ?_, rfl, fun h4 => ?_,
    fun h4 => ?_⟩
  · refine Has.congr (has_patch (t := buf) hi) fun k h1 h2 => ?_
    have h2 : k < i + 12 := h2
    exact getElem?_patch_of_out _ _ _ (by omega)
  · rw [hcount]
    exact hraw
  · rw [hraw] at h4 ⊢
    rw [Block.raw_small h4]
  · rw [hraw] at h4
    have hle := hg.data_length h4
    have hal := le_align4 (v + b.data.length)
    refine ⟨off, by rw [hg.field_eq h4], by omega, by rw [hraw]; omega, ?_⟩
    rw [Block.raw_large (Nat.not_le.mpr h4), hoff]
    exact (has_patch (by rw [length_patch]; omega)).take _

/-- What a part of the writer does to a directory in progress: it adds the entries `new`, at most `slots`
of them, and takes `size` bytes for their values. -/
structure Step (B V : Nat) (c : Cursor) (items new : List TiffItem) (size slots : Nat)
    (buf : List UInt8) (c' : Cursor) (buf' : List UInt8) : Prop where
  valueOffset : c'.valueOffset = c.valueOffset + size
  filled : Filled B V c' (items ++ new) buf'
  le_ifdOffset : c.ifdOffset ≤ c'.ifdOffset
  ifdOffset_le : c'.ifdOffset ≤ c.ifdOffset + 12 * slots
  frame : Frame c.ifdOffset c'.ifdOffset c.valueOffset c'.valueOffset buf buf'

theorem Step.refl (h : Filled B V c items buf) : Step B V c items [] 0 0 buf c buf :=
  ⟨rfl, by rw [List.append_nil]; exact h, Nat.le_refl _, Nat.le_refl _, Frame.refl _ _ _⟩

theorem Step.trans {c1 c2 : Cursor} {new1 new2 : List TiffItem} {size1 size2 slots1 slots2 : Nat}
    {buf1 buf2 : List UInt8} (h1 : Step B V c items new1 size1 slots1 buf c1 buf1)
    (h2 : Step B V c1 (items ++ new1) new2 size2 slots2 buf1 c2 buf2) :
    Step B V c items (new1 ++ new2) (size1 + size2) (slots1 + slots2) buf c2 buf2 := by
  obtain ⟨v1, f1, l1, u1, r1⟩ := h1
  obtain ⟨v2, f2, l2, u2, r2⟩ := h2
  refine ⟨by omega, ?_, by omega, by omega, r1.trans r2 l1 l2 (by omega) (by omega)⟩
  rw [← List.append_assoc]
  exact f2

/-- The values that were there are kept. -/
theorem Step.same {c' : Cursor} {new : List TiffItem} {size slots : Nat} {buf' : List UInt8}
    (h : Step B V c items new size slots buf c' buf') (hroom : c.ifdOffset + 12 * slots ≤ V) {k : Nat}
    (h1 : V ≤ k) (h2 : k < c.valueOffset) : buf'[k]? = buf[k]? := by
  have hle := h.ifdOffset_le
  exact h.frame.same k (by omega) (by omega)

/-- **One block.** -/
theorem Block.write_ok {b : Block} (hg : b.Good) (h : Filled B V c items buf)
    (hroom : c.ifdOffset + 12 ≤ V) (hlen : c.valueOffset + b.size ≤ buf.length) (hV : 10 ≤ V)
    (h32 : c.valueOffset + b.size ≤ 2 ^ 32) :
    ∃ c' buf' pos', b.write 10 c ⟨buf, pos⟩ = .ok c' ⟨buf', pos'⟩ ∧
      Step B V c items (b.items c.valueOffset) b.size 1 buf c' buf' := by
  have hten : 10 ≤ c.valueOffset := Nat.le_trans hV h.le
  unfold Block.write Block.items
  cases hp : b.present with
  | false =>
    have hsize : b.size = 0 := by
      unfold Block.size
      rw [hp]
      rfl
    rw [hsize]
    obtain ⟨h1, h2, h3, h4, h5⟩ := Step.refl h
    exact ⟨c, buf, pos, rfl, h1, h2, h3, Nat.le_add_right _ _, h5⟩
  | true =>
    have hsize : b.size = align4 b.data.length := by
      unfold Block.size
      rw [hp]
      rfl
    have hle := le_align4 b.data.length
    have hVv := h.le
    rw [hsize] at hlen ⊢
    simp only [if_true]
    generalize hoff : UInt32.ofNat (c.valueOffset - 10) = off
    have hoffNat : 10 + off.toNat = c.valueOffset := by
      rw [← hoff, UInt32.toNat_ofNat', Nat.mod_eq_of_lt (by omega)]
      omega
    obtain ⟨pos', hrun⟩ := b.writer.run_ok (b.info off) buf pos (i := c.ifdOffset) h.aligned
      (by omega) (by
        show c.valueOffset + b.data.length ≤ buf.length
        omega)
    rw [show b.writer.data (b.info off).count (b.info off).value = b.data from rfl,
      Block.entry_inline] at hrun
    have hframe := frame_patch buf b.data c.ifdOffset c.valueOffset
      (length_entryBytes b.tag b.type (UInt32.ofNat b.count) (b.field off))
    have hitem : ItemAt (patch (patch buf c.ifdOffset (entryBytes b.tag b.type
        (UInt32.ofNat b.count) (b.field off))) c.valueOffset b.data) 10 c.ifdOffset V
        (align4 (c.valueOffset + b.data.length)) (b.item off) :=
      item_patch buf hg hoffNat (by omega) hVv hroom (by omega)
    refine ⟨_, _, _, bind_ok hrun, align4_add h.aligned, ?_, Nat.le_add_right _ _, Nat.le_refl _,
      hframe⟩
    exact h.snoc hframe hroom rfl rfl (Nat.le_trans (Nat.le_add_right _ _) (le_align4 _))
      (dvd_align4 _) hitem

/-- The room that the values of blocks take. -/
def blocksSize (bs : List Block) : Nat := (bs.map Block.size).sum

/-- The entries of blocks, with values from `v` on. -/
def blocksItems : List Block → Nat → List TiffItem
  | [], _ => []
  | b :: bs, v => b.items v ++ blocksItems bs (v + b.size)

/-- **All blocks.** -/
theorem writeBlocks_ok {bs : List Block} (hg : ∀ b ∈ bs, b.Good) (h : Filled B V c items buf)
    (hroom : c.ifdOffset + 12 * bs.length ≤ V)
    (hlen : c.valueOffset + blocksSize bs ≤ buf.length) (hV : 10 ≤ V)
    (h32 : c.valueOffset + blocksSize bs ≤ 2 ^ 32) :
    ∃ c' buf' pos', writeBlocks 10 bs c ⟨buf, pos⟩ = .ok c' ⟨buf', pos'⟩ ∧
      Step B V c items (blocksItems bs c.valueOffset) (blocksSize bs) bs.length buf c' buf' := by
  induction bs generalizing c items buf pos with
  | nil => exact ⟨c, buf, pos, rfl, Step.refl h⟩
  | cons b bs ih =>
    rw [List.length_cons] at hroom
    have hsize : blocksSize (b :: bs) = b.size + blocksSize bs := rfl
    rw [hsize] at hlen h32
    obtain ⟨c1, buf1, pos1, hrun1, hstep1⟩ := Block.write_ok pos (hg b List.mem_cons_self) h
      (by omega) (by omega) hV (by omega)
    have hv := hstep1.valueOffset
    have hi := hstep1.ifdOffset_le
    obtain ⟨c2, buf2, pos2, hrun2, hstep2⟩ := ih pos1
      (fun b' hb' => hg b' (List.mem_cons_of_mem _ hb')) hstep1.filled (by omega) (by rw [hstep1.frame.length]; omega)
      (by omega)
    refine ⟨c2, buf2, pos2, ?_, ?_⟩
    · unfold writeBlocks
      rw [bind_ok hrun1]
      exact hrun2
    · have htrans := hstep1.trans hstep2
      rw [hv, Nat.add_comm 1] at htrans
      exact htrans

/-! ## Directories -/

/-- Where the values of a directory at `B` start. -/
def valuesStart (B maxEntries : Nat) : Nat := align4 (B + 2 + maxEntries * 12 + 4)

/-- The start of a directory: only its first two bytes have changed. -/
theorem openIFD_ok (B maxEntries : Nat) (buf : List UInt8) (hlen : valuesStart B maxEntries ≤ buf.length) :
    ∃ c buf' pos', openIFD maxEntries B ⟨buf, pos⟩ = .ok c ⟨buf', pos'⟩ ∧
      c.ifdOffset = B + 2 ∧ c.valueOffset = valuesStart B maxEntries ∧
      Filled B (valuesStart B maxEntries) c [] buf' ∧
      buf'.length = buf.length ∧ ∀ k, k < B ∨ B + 2 ≤ k → buf'[k]? = buf[k]? := by
  have hle : B + 2 + maxEntries * 12 + 4 ≤ valuesStart B maxEntries := le_align4 _
  have hset : setWritePos B ⟨buf, pos⟩ = .ok true ⟨buf, B⟩ := setWritePos_ok (by omega)
  refine ⟨⟨B + 2, valuesStart B maxEntries, 0⟩, patch buf B (beShort (UInt16.ofNat maxEntries)),
    B + 2, ?_, rfl, rfl, ⟨⟨rfl, rfl, Nat.le_refl _, nofun⟩, dvd_align4 _⟩, length_patch _ _ _,
    fun k hk => getElem?_patch_of_out _ _ _ (by rw [length_beShort]; omega)⟩
  unfold openIFD
  rw [bind_ok hset, bind_orFail (writeW_ok (by omega)), bind_ok (m := getWritePos) rfl]
  rfl

/-- The end of a directory: it can be read. -/
theorem closeIFD_ok (next : UInt32) (h : Listed B V c items buf) (hroom : c.ifdOffset + 4 ≤ V)
    (hBV : B ≤ V) (hlen : c.valueOffset ≤ buf.length) (hsmall : items.length < 2 ^ 16) :
    ∃ buf' pos', closeIFD B next c ⟨buf, pos⟩ = .ok c.valueOffset ⟨buf', pos'⟩ ∧
      DirAt buf' 10 B c.valueOffset items next ∧ buf'.length = buf.length ∧
      ∀ k, k < B ∨ V ≤ k → buf'[k]? = buf[k]? := by
  have hifd := h.ifdOffset
  have hle := h.le
  have hset : setWritePos c.ifdOffset ⟨buf, pos⟩ = .ok true ⟨buf, c.ifdOffset⟩ :=
    setWritePos_ok (by omega)
  have hset' : setWritePos B ⟨patch buf c.ifdOffset (beLong next), c.ifdOffset + 4⟩ =
      .ok true ⟨patch buf c.ifdOffset (beLong next), B⟩ :=
    setWritePos_ok (by rw [length_patch]; omega)
  have hsame : ∀ k, k < B ∨ B + 2 ≤ k → k < c.ifdOffset ∨ c.ifdOffset + 4 ≤ k →
      (patch (patch buf c.ifdOffset (beLong next)) B (beShort (UInt16.ofNat c.entries)))[k]? =
        buf[k]? := by
    intro k h1 h2
    rw [getElem?_patch_of_out _ _ _ (by rw [length_beShort]; omega),
      getElem?_patch_of_out _ _ _ (by rw [length_beLong]; omega)]
  refine ⟨patch (patch buf c.ifdOffset (beLong next)) B (beShort (UInt16.ofNat c.entries)), B + 2,
    ?_, ⟨?_, ?_, ?_, by omega, hsmall⟩, by rw [length_patch, length_patch],
    fun k hk => hsame k (by omega) (by omega)⟩
  · unfold closeIFD
    rw [bind_ok hset, bind_orFail (writeL_ok (by omega)), bind_ok hset',
      bind_orFail (writeW_ok (by rw [length_patch]; omega))]
    rfl
  · rw [h.entries]
    exact has_patch (by rw [length_patch, length_beShort]; omega)
  · exact h.found.congr (fun k h1 h2 => hsame k (by omega) (by omega))
      (fun k h1 h2 => hsame k (by omega) (by omega)) hBV (Nat.le_refl _)
  · have hnext : Has (patch buf c.ifdOffset (beLong next)) c.ifdOffset (beLong next) :=
      has_patch (by rw [length_beLong]; omega)
    rw [← hifd]
    refine hnext.congr fun k h1 h2 => ?_
    exact getElem?_patch_of_out _ _ _ (by rw [length_beShort]; omega)

/-- A writer of a directory that takes `size` bytes from an aligned place on and leaves `P` there. -/
def SubOk (write : Nat → Write Nat) (size : Nat) (P : Nat → List UInt8 → Prop) : Prop :=
  ∀ v buf pos, 4 ∣ v → 10 ≤ v → v + size ≤ buf.length → v + size ≤ 2 ^ 32 →
    ∃ buf' pos', write v ⟨buf, pos⟩ = .ok (v + size) ⟨buf', pos'⟩ ∧ buf'.length = buf.length ∧
      (∀ k, k < v ∨ v + size ≤ k → buf'[k]? = buf[k]?) ∧ P v buf'

/-- The entry of a pointer. -/
def pointerItem (tag : UInt16) (v : Nat) : TiffItem :=
  ⟨tag, .long, .longs [UInt32.ofNat (v - 10)]⟩

theorem leWord_leBytes_zero (l : UInt32) : leWord (leBytes l) 0 = l := by
  have h := leWord_leBytes [] l []
  rw [List.nil_append, List.append_nil] at h
  exact h

theorem longBlock_good (present : Bool) (tag : UInt16) (l : UInt32) :
    (longBlock present tag l).Good where
  count_lt := show 1 < 2 ^ 32 by decide
  data_length := fun h => absurd (show 4 < 1 * 4 from h) (by decide)
  field_eq := fun h => absurd (show 4 < 1 * 4 from h) (by decide)

theorem longBlock_data (present : Bool) (tag : UInt16) (l : UInt32) :
    (longBlock present tag l).data = [] := rfl

theorem longBlock_item (present : Bool) (tag : UInt16) (l off : UInt32) :
    (longBlock present tag l).item off = ⟨tag, .long, .longs [l]⟩ := by
  have hfield : (longBlock present tag l).field off = l := by
    show leWord (leBytes (leWord (leBytes l) 0)) 0 = l
    rw [leWord_leBytes_zero, leWord_leBytes_zero]
  have hraw : (longBlock present tag l).raw off = beLong l := by
    unfold Block.raw
    rw [hfield]
    rfl
  have hlongs := longsOf_beLong_append l []
  rw [List.append_nil] at hlongs
  unfold Block.item
  rw [hraw]
  show TiffItem.mk tag .long (.longs (longsOf (beLong l))) = _
  rw [hlongs]
  rfl

/-- A single long word, here an offset, goes into the entry. -/
theorem writeLongIFD_one (tag : UInt16) (off : UInt32) {i : Nat} (v : Nat)
    (hi : i + 12 ≤ buf.length) :
    writeLongIFD ⟨tag, .long, 1, leBytes off, leBytes off⟩ i v ⟨buf, pos⟩ =
      .ok (i + 12, v) ⟨patch buf i (entryBytes tag .long 1 off), i + 12⟩ := by
  have hset : setWritePos i ⟨buf, pos⟩ = .ok true ⟨buf, i⟩ := setWritePos_ok (by omega)
  have hentry : (IfdInfo.inlineLong ⟨tag, .long, 1, leBytes off, leBytes off⟩).entry =
      entryBytes tag .long 1 off := by
    show entryBytes tag .long (UInt32.ofNat 1) (leWord (leBytes (leWord (leBytes off) 0)) 0) = _
    rw [leWord_leBytes_zero, leWord_leBytes_zero]
    rfl
  unfold writeLongIFD
  rw [bind_orFail hset, bind_ok (writeIFD_ok hi), bind_ok (m := getWritePos) rfl, hentry]
  rfl

theorem itemAt_long (tag : UInt16) (off : UInt32) {i lo hi : Nat} (h : i + 12 ≤ buf.length) :
    ItemAt (patch buf i (entryBytes tag .long 1 off)) 10 i lo hi ⟨tag, .long, .longs [off]⟩ := by
  have hlongs := longsOf_beLong_append off []
  rw [List.append_nil] at hlongs
  refine ⟨1, beLong off, beLong off, rfl, has_patch h, rfl, ?_, fun _ => rfl, fun h4 => ?_⟩
  · show TiffValue.longs [off] = .longs (longsOf (beLong off))
    rw [hlongs]
    rfl
  · exact absurd h4 (Nat.lt_irrefl 4)

/-- **A sub-directory**: a pointer to where it is. -/
theorem writeSubIFD_ok (tag : UInt16) {write : Nat → Write Nat} {size : Nat}
    {P : Nat → List UInt8 → Prop} (hw : SubOk write size P) (hsize : 4 ∣ size)
    (h : Filled B V c items buf) (hroom : c.ifdOffset + 12 ≤ V)
    (hlen : c.valueOffset + size ≤ buf.length) (hV : 10 ≤ V)
    (h32 : c.valueOffset + size ≤ 2 ^ 32) :
    ∃ c' buf' pos', writeSubIFD 10 tag write c ⟨buf, pos⟩ = .ok c' ⟨buf', pos'⟩ ∧
      Step B V c items [pointerItem tag c.valueOffset] size 1 buf c' buf' ∧
      P c.valueOffset buf' := by
  have hten : 10 ≤ c.valueOffset := Nat.le_trans hV h.le
  have hVv := h.le
  have halign : align4 c.valueOffset = c.valueOffset := align4_of_dvd h.aligned
  have hi : c.ifdOffset + 12 ≤ buf.length := by omega
  generalize hoff : UInt32.ofNat (c.valueOffset - 10) = off
  generalize hb1 : patch buf c.ifdOffset (entryBytes tag .long 1 off) = buf1
  have hlen1 : buf1.length = buf.length := by rw [← hb1, length_patch]
  have hsame1 : ∀ k, k < c.ifdOffset ∨ c.ifdOffset + 12 ≤ k → buf1[k]? = buf[k]? := by
    intro k hk
    rw [← hb1]
    exact getElem?_patch_of_out _ _ _ (by rw [length_entryBytes]; exact hk)
  obtain ⟨buf2, pos2, hrun2, hlen2, hsame2, hP⟩ := hw c.valueOffset buf1 (c.ifdOffset + 12)
    h.aligned hten (by omega) (by omega)
  have hframe : Frame c.ifdOffset (c.ifdOffset + 12) c.valueOffset (c.valueOffset + size) buf buf2 :=
    ⟨hlen2.trans hlen1, fun k h1 h2 => (hsame2 k h2).trans (hsame1 k h1)⟩
  refine ⟨⟨c.ifdOffset + 12, c.valueOffset + size, c.entries + 1⟩, buf2, pos2, ?_, ⟨rfl, ?_,
    Nat.le_add_right _ _, Nat.le_refl _, hframe⟩, hP⟩
  · unfold writeSubIFD
    simp only
    rw [halign, hoff, bind_ok (writeLongIFD_one pos tag off c.valueOffset hi), hb1, bind_ok hrun2]
    rfl
  · refine h.snoc hframe hroom rfl rfl (Nat.le_add_right _ _) (Nat.dvd_add h.aligned hsize) ?_
    unfold pointerItem
    rw [hoff]
    have hitem : ItemAt buf1 10 c.ifdOffset V c.valueOffset ⟨tag, .long, .longs [off]⟩ := by
      rw [← hb1]
      exact itemAt_long tag off hi
    exact hitem.congr (fun k h1 h2 => hsame2 k (by omega)) (fun k h1 h2 => hsame2 k (by omega))
      (Nat.le_refl _) (Nat.le_add_right _ _)

/-- The same for a directory that there may be. -/
theorem writeOptIFD_ok {α : Type} (tag : UInt16) (info : Option α) {write : α → Nat → Write Nat}
    {size : α → Nat} {P : α → Nat → List UInt8 → Prop} (hw : ∀ a, SubOk (write a) (size a) (P a))
    (hsize : ∀ a, 4 ∣ size a) (h : Filled B V c items buf) (hroom : c.ifdOffset + 12 ≤ V)
    (hlen : c.valueOffset + (info.map size).getD 0 ≤ buf.length) (hV : 10 ≤ V)
    (h32 : c.valueOffset + (info.map size).getD 0 ≤ 2 ^ 32) :
    ∃ c' buf' pos', writeOptIFD 10 tag (info.map write) c ⟨buf, pos⟩ = .ok c' ⟨buf', pos'⟩ ∧
      Step B V c items (info.toList.map fun _ => pointerItem tag c.valueOffset)
        ((info.map size).getD 0) 1 buf c' buf' ∧
      ∀ a, info = some a → P a c.valueOffset buf' := by
  cases info with
  | none =>
    obtain ⟨h1, h2, h3, h4, h5⟩ := Step.refl h
    exact ⟨c, buf, pos, rfl, ⟨h1, h2, h3, Nat.le_add_right _ _, h5⟩, nofun⟩
  | some a =>
    obtain ⟨c', buf', pos', hrun, hstep, hP⟩ := writeSubIFD_ok pos tag (hw a)
      (hsize a) h hroom hlen hV h32
    refine ⟨c', buf', pos', hrun, hstep, fun a' ha => ?_⟩
    cases ha
    exact hP

end Steps

end SprdHal.Exif
