import SprdHal.Lib.Machine
import SprdHal.Lib.RandomAccess
import SprdHal.Lib.Tiff

/-!
# Buffered output (`jpeg_stream.c`)

A stream keeps a window of the file in a buffer and writes the bytes before its pointer to the file
when it leaves the window. `Jpeg_WriteC` finds a full buffer, writes it out and then tests the pointer
it has read before: it fails although there is room now. The other writers do not write the buffer
out at all. After a move of the pointer the bytes before it are not always those that have been
written to the window.

`stored` records the places written to since the window was placed; the code does not have it.
-/

namespace SprdHal.Jpeg

open SprdHal.Lib

/-! ## The stream -/

/-- `JPEG_WRITE_STREAM_CONTEXT_T`, with the pointer as an offset from `write_buf`, the file that
`write_file_func` writes to, and the places of the buffer stored to since it was last written out. -/
structure WriteStream where
  writeBuf : Mem
  writeBufSize : Nat
  writePtr : Option Nat
  writeFileFunc : Bool
  writeFileSize : Nat
  file : DataFile
  stored : List Nat

namespace WriteStream

/-- The offset of the pointer; `NULL` is compared as the address 0, which is below the buffer. -/
def ptr (s : WriteStream) : Nat := s.writePtr.getD 0

/-- `Jpeg_WriteStreamToFile`, with a `write_file_func` that writes everything. -/
def jpegWriteStreamToFile (s : WriteStream) : Bool × WriteStream :=
  if s.writeFileFunc then
    (true, { s with
      file := s.file.write s.writeFileSize (s.writeBuf.bytes 0 s.ptr)
      writePtr := some 0
      writeFileSize := (s.writeFileSize + s.ptr) % 2 ^ 32
      stored := [] })
  else (false, s)

/-- `Jpeg_SetWritePos` -/
def jpegSetWritePos (s : WriteStream) (offset : UInt32) : Bool × WriteStream :=
  if s.writeFileFunc then
    if offset.toNat < s.writeFileSize ∨
        (s.writeFileSize + s.writeBufSize) % 2 ^ 32 ≤ offset.toNat then
      match s.jpegWriteStreamToFile with
      | (false, s) => (false, s)
      | (true, s) => (true, { s with writePtr := some 0, writeFileSize := offset.toNat })
    else (true, { s with writePtr := some (offset.toNat - s.writeFileSize) })
  else if s.writeBufSize < offset.toNat then (false, s)
  else (true, { s with writePtr := some offset.toNat })

/-- `Jpeg_GetWritePos` -/
def jpegGetWritePos (s : WriteStream) : Nat :=
  let writePos := if s.ptr ≤ s.writeBufSize then s.ptr else 0
  if s.writeFileFunc then (writePos + s.writeFileSize) % 2 ^ 32 else writePos

/-- `*context_ptr->write_ptr++ = c` -/
def put (s : WriteStream) (c : UInt8) : WriteStream :=
  { s with
    writeBuf := s.writeBuf.store s.ptr [c]
    writePtr := some (s.ptr + 1)
    stored := s.ptr :: s.stored }

/-- `Jpeg_WriteC`. The pointer that is tested is the one before the buffer was written out. -/
def jpegWriteC (s : WriteStream) (c : UInt8) : Bool × WriteStream :=
  let s := { s with writePtr := some s.ptr }
  if s.writeBufSize ≤ s.ptr then
    match s.jpegWriteStreamToFile with
    | (false, s') => (false, s')
    | (true, s') => if s.writeBufSize < s.ptr + 1 then (false, s') else (true, s'.put c)
  else if s.writeBufSize < s.ptr + 1 then (false, s)
  else (true, s.put c)

/-- Calls of `Jpeg_WriteC` up to the first that fails. -/
def jpegWriteCs (s : WriteStream) : List UInt8 → Bool × WriteStream
  | [] => (true, s)
  | c :: cs =>
    match s.jpegWriteC c with
    | (false, s) => (false, s)
    | (true, s) => s.jpegWriteCs cs

/-- `Jpeg_WriteW` -/
def jpegWriteW (s : WriteStream) (w : UInt16) : Bool × WriteStream := s.jpegWriteCs (beShort w)

/-- Stores one after the other. -/
def puts (s : WriteStream) (cs : List UInt8) : WriteStream := cs.foldl put s

/-- `Jpeg_WriteL` -/
def jpegWriteL (s : WriteStream) (l : UInt32) : Bool × WriteStream :=
  if s.writePtr = none ∨ s.writeBufSize < s.ptr + 4 then (false, s)
  else (true, s.puts (beLong l))

/-- `Jpeg_WriteBlock`; the block may be `NULL`. -/
def jpegWriteBlock (s : WriteStream) (block : Option (List UInt8)) : Bool × WriteStream :=
  match block with
  | none => (false, s)
  | some block => if s.writePtr = none then (false, s) else s.jpegWriteCs block

end WriteStream

/-! ## Calls -/

/-- A call of one of the five functions. -/
inductive StreamCall
  | writeC (c : UInt8)
  | writeW (w : UInt16)
  | writeL (l : UInt32)
  | writeBlock (block : List UInt8)
  | setWritePos (offset : UInt32)

/-- The bytes of a call. -/
def StreamCall.bytes : StreamCall → List UInt8
  | .writeC c => [c]
  | .writeW w => beShort w
  | .writeL l => beLong l
  | .writeBlock block => block
  | .setWritePos _ => []

def WriteStream.call (s : WriteStream) : StreamCall → Bool × WriteStream
  | .writeC c => s.jpegWriteC c
  | .writeW w => s.jpegWriteW w
  | .writeL l => s.jpegWriteL l
  | .writeBlock block => s.jpegWriteBlock (some block)
  | .setWritePos offset => s.jpegSetWritePos offset

/-- The same on a file without a buffer. -/
def plainCall (p : Cursor) : StreamCall → Cursor
  | .setWritePos offset => p.seek offset.toNat
  | c => p.write c.bytes

/-- Calls, with what each returns and the position behind it. -/
def streamCalls : Machine WriteStream StreamCall (Bool × Nat) where
  step s c := ((s.call c).2, [((s.call c).1, (s.call c).2.jpegGetWritePos)])

/-- Calls on a plain file, none of which fails. -/
def plainCalls : Machine Cursor StreamCall (Bool × Nat) where
  step p c := (plainCall p c, [(true, (plainCall p c).pos)])

/-- A new stream. -/
def WriteStream.new (writeBuf : Mem) (writeBufSize : Nat) (writePtr : Option Nat)
    (writeFileFunc : Bool) : WriteStream :=
  ⟨writeBuf, writeBufSize, writePtr, writeFileFunc, 0, .empty, []⟩

/-- All calls return `TRUE` with the positions of the plain file, and after a final flush the file is
the plain file. -/
structure SameAsPlain (s : WriteStream) (calls : List StreamCall) : Prop where
  outputs : (streamCalls.run s calls).2 = (plainCalls.run ⟨.empty, 0⟩ calls).2
  flush : (streamCalls.run s calls).1.jpegWriteStreamToFile.1 = true
  file : (streamCalls.run s calls).1.jpegWriteStreamToFile.2.file =
    (plainCalls.run ⟨.empty, 0⟩ calls).1.file

/-- `Jpeg_WriteL` and `Jpeg_WriteBlock` do not replace a pointer that is `NULL`. -/
def StreamCall.NeedsPtr : StreamCall → Prop
  | .writeL _ | .writeBlock _ => True
  | _ => False

/-- The bytes of the call fit behind the pointer, and the position stays an `unsigned int`. -/
def Fits (s : WriteStream) (c : StreamCall) : Prop :=
  (c.NeedsPtr → s.writePtr ≠ none) ∧ s.ptr + c.bytes.length ≤ s.writeBufSize ∧
    s.writeFileSize + s.ptr + c.bytes.length < 2 ^ 32

/-- The bytes before the pointer are those that have been stored. -/
def WriteStream.InOrder (s : WriteStream) : Prop := ∀ k, k ∈ s.stored ↔ k < s.ptr

/-- A call that leaves the window is made with the pointer behind what has been stored. -/
def Clean (s : WriteStream) : StreamCall → Prop
  | .setWritePos offset =>
    (offset.toNat < s.writeFileSize ∨
      (s.writeFileSize + s.writeBufSize) % 2 ^ 32 ≤ offset.toNat) → s.InOrder
  | _ => True

/-! ## What the calls do -/

namespace WriteStream

variable {s : WriteStream} {p : Cursor}

theorem puts_cons (s : WriteStream) (c : UInt8) (cs : List UInt8) :
    s.puts (c :: cs) = (s.put c).puts cs := rfl

/-- What the stores leave alone, and where they leave the pointer. -/
theorem puts_frame (cs : List UInt8) : ∀ s : WriteStream,
    (s.puts cs).ptr = s.ptr + cs.length ∧ (s.puts cs).writeBufSize = s.writeBufSize ∧
      (s.puts cs).writeFileSize = s.writeFileSize ∧
      (s.puts cs).writeFileFunc = s.writeFileFunc := by
  induction cs with
  | nil => exact fun s => ⟨rfl, rfl, rfl, rfl⟩
  | cons c cs ih =>
    intro s
    obtain ⟨hptr, hsize, hfile, hfunc⟩ := ih (s.put c)
    rw [puts_cons]
    refine ⟨hptr.trans ?_, hsize, hfile, hfunc⟩
    show s.ptr + 1 + cs.length = s.ptr + (cs.length + 1)
    omega

theorem jpegWriteC_of_room (h : s.ptr + 1 ≤ s.writeBufSize) (c : UInt8) :
    s.jpegWriteC c = (true, s.put c) := by
  have hroom : ¬ s.writeBufSize ≤ s.ptr := by omega
  have htest : ¬ s.writeBufSize < s.ptr + 1 := by omega
  unfold jpegWriteC
  exact (if_neg hroom).trans (if_neg htest)

/-- With a full buffer nothing is written. -/
theorem jpegWriteC_of_full (h : s.writeBufSize ≤ s.ptr) (c : UInt8) :
    (s.jpegWriteC c).1 = false := by
  have htest : s.writeBufSize < s.ptr + 1 := by omega
  have hflush : s.jpegWriteC c =
      match ({ s with writePtr := some s.ptr } : WriteStream).jpegWriteStreamToFile with
      | (false, s') => (false, s')
      | (true, s') => if s.writeBufSize < s.ptr + 1 then (false, s') else (true, s'.put c) :=
    if_pos h
  rw [hflush]
  rcases ({ s with writePtr := some s.ptr } : WriteStream).jpegWriteStreamToFile with ⟨_ | _, s'⟩
  · rfl
  · simp only [if_pos htest]

theorem jpegWriteCs_of_room (cs : List UInt8) : ∀ s : WriteStream,
    s.ptr + cs.length ≤ s.writeBufSize → s.jpegWriteCs cs = (true, s.puts cs) := by
  induction cs with
  | nil => exact fun s _ => rfl
  | cons c cs ih =>
    intro s h
    rw [List.length_cons] at h
    obtain ⟨hptr, hsize, -⟩ := puts_frame [c] s
    have hnext : (s.put c).ptr + cs.length ≤ (s.put c).writeBufSize := by
      rw [show (s.put c).ptr = s.ptr + 1 from hptr, show (s.put c).writeBufSize = _ from hsize]
      omega
    rw [jpegWriteCs, jpegWriteC_of_room (by omega)]
    exact ih (s.put c) hnext

theorem room_of_jpegWriteCs (cs : List UInt8) : ∀ s : WriteStream,
    s.ptr ≤ s.writeBufSize → (s.jpegWriteCs cs).1 = true →
      s.ptr + cs.length ≤ s.writeBufSize := by
  induction cs with
  | nil => exact fun s h _ => h
  | cons c cs ih =>
    intro s h htrue
    by_cases hroom : s.ptr + 1 ≤ s.writeBufSize
    · rw [jpegWriteCs, jpegWriteC_of_room hroom] at htrue
      have hih := ih (s.put c) hroom htrue
      have hptr : (s.put c).ptr = s.ptr + 1 := rfl
      have hsize : (s.put c).writeBufSize = s.writeBufSize := rfl
      rw [List.length_cons]
      omega
    · have hfull := jpegWriteC_of_full (s := s) (by omega) c
      rw [jpegWriteCs] at htrue
      rcases hc : s.jpegWriteC c with ⟨_ | _, s'⟩
      · rw [hc] at htrue
        cases htrue
      · rw [hc] at hfull
        cases hfull

/-- A write that fits stores its bytes. -/
theorem call_of_fits {c : StreamCall} (hc : ∀ offset, c ≠ .setWritePos offset)
    (hn : c.NeedsPtr → s.writePtr ≠ none) (h : s.ptr + c.bytes.length ≤ s.writeBufSize) :
    s.call c = (true, s.puts c.bytes) := by
  cases c with
  | writeC c => exact jpegWriteC_of_room h c
  | writeW w => exact jpegWriteCs_of_room (beShort w) s h
  | writeL l =>
    have hroom : ¬ s.writeBufSize < s.ptr + 4 := Nat.not_lt.mpr h
    exact if_neg (not_or.mpr ⟨hn trivial, hroom⟩)
  | writeBlock block =>
    exact (if_neg (hn trivial)).trans (jpegWriteCs_of_room block s h)
  | setWritePos offset => exact absurd rfl (hc offset)

/-- A write that does not fit fails. -/
theorem fits_of_call {c : StreamCall} (hp : s.ptr ≤ s.writeBufSize)
    (htrue : (s.call c).1 = true) :
    (c.NeedsPtr → s.writePtr ≠ none) ∧ s.ptr + c.bytes.length ≤ s.writeBufSize := by
  cases c with
  | writeC c =>
    refine ⟨False.elim, Nat.not_lt.mp fun hfull => ?_⟩
    have hfalse := jpegWriteC_of_full (s := s) (Nat.le_of_lt_succ hfull) c
    exact absurd (hfalse.symm.trans htrue) (by decide)
  | writeW w => exact ⟨False.elim, room_of_jpegWriteCs (beShort w) s hp htrue⟩
  | writeL l =>
    have htrue : (s.jpegWriteL l).1 = true := htrue
    unfold jpegWriteL at htrue
    split at htrue
    · cases htrue
    · next hgo =>
      obtain ⟨hne, hroom⟩ := not_or.mp hgo
      exact ⟨fun _ => hne, Nat.not_lt.mp hroom⟩
  | writeBlock block =>
    have htrue : (if s.writePtr = none then (false, s) else s.jpegWriteCs block).1 = true := htrue
    split at htrue
    · cases htrue
    · next hne => exact ⟨fun _ => hne, room_of_jpegWriteCs block s hp htrue⟩
  | setWritePos offset => exact ⟨False.elim, hp⟩

/-- Where a move goes that leaves the window, and one that does not. -/
theorem jpegSetWritePos_eq (hf : s.writeFileFunc = true) (offset : UInt32) :
    s.jpegSetWritePos offset =
      if offset.toNat < s.writeFileSize ∨
          (s.writeFileSize + s.writeBufSize) % 2 ^ 32 ≤ offset.toNat then
        (true, { s with
          file := s.file.write s.writeFileSize (s.writeBuf.bytes 0 s.ptr)
          writePtr := some 0
          writeFileSize := offset.toNat
          stored := [] })
      else (true, { s with writePtr := some (offset.toNat - s.writeFileSize) }) := by
  unfold jpegSetWritePos jpegWriteStreamToFile
  simp only [hf, if_true]

end WriteStream

/-! ## Positions -/

/-- The position of the stream is that of the plain file. -/
structure Placed (s : WriteStream) (p : Cursor) : Prop where
  func : s.writeFileFunc = true
  pos : s.writeFileSize + s.ptr = p.pos
  pos_lt : p.pos < 2 ^ 32
  ptr_le : s.ptr ≤ s.writeBufSize

namespace Placed

variable {s : WriteStream} {p : Cursor} {c : StreamCall}

theorem getWritePos (h : Placed s p) : s.jpegGetWritePos = p.pos := by
  have hpos := h.pos
  have hlt := h.pos_lt
  have hmod : (s.ptr + s.writeFileSize) % 2 ^ 32 = p.pos := by omega
  simp only [WriteStream.jpegGetWritePos, if_pos h.ptr_le, h.func, if_true, hmod]

theorem setWritePos (h : Placed s p) (offset : UInt32) :
    (s.jpegSetWritePos offset).1 = true ∧ Placed (s.jpegSetWritePos offset).2 (p.seek offset.toNat) := by
  have hlt := offset.toNat_lt
  rw [WriteStream.jpegSetWritePos_eq h.func]
  split
  · exact ⟨rfl, h.func, Nat.add_zero _, hlt, Nat.zero_le _⟩
  · next hin =>
    obtain ⟨hlow, hhigh⟩ := not_or.mp hin
    have hmod := Nat.mod_le (s.writeFileSize + s.writeBufSize) (2 ^ 32)
    refine ⟨rfl, h.func, ?_, hlt, ?_⟩
    · show s.writeFileSize + (offset.toNat - s.writeFileSize) = offset.toNat
      omega
    · show offset.toNat - s.writeFileSize ≤ s.writeBufSize
      omega

theorem puts (h : Placed s p) {cs : List UInt8} (hroom : s.ptr + cs.length ≤ s.writeBufSize)
    (hlt : s.writeFileSize + s.ptr + cs.length < 2 ^ 32) : Placed (s.puts cs) (p.write cs) := by
  obtain ⟨hptr, hsize, hfile, hfunc⟩ := WriteStream.puts_frame cs s
  have hpos := h.pos
  refine ⟨hfunc.trans h.func, ?_, ?_, ?_⟩
  · show _ = p.pos + cs.length
    omega
  · show p.pos + cs.length < 2 ^ 32
    omega
  · omega

theorem next (h : Placed s p) (hfit : Fits s c) :
    (s.call c).1 = true ∧ Placed (s.call c).2 (plainCall p c) := by
  obtain ⟨hn, hroom, hlt⟩ := hfit
  cases c with
  | setWritePos offset => exact h.setWritePos offset
  | writeC c =>
    rw [WriteStream.call_of_fits (by simp) hn hroom]
    exact ⟨rfl, h.puts hroom hlt⟩
  | writeW w =>
    rw [WriteStream.call_of_fits (by simp) hn hroom]
    exact ⟨rfl, h.puts hroom hlt⟩
  | writeL l =>
    rw [WriteStream.call_of_fits (by simp) hn hroom]
    exact ⟨rfl, h.puts hroom hlt⟩
  | writeBlock block =>
    rw [WriteStream.call_of_fits (by simp) hn hroom]
    exact ⟨rfl, h.puts hroom hlt⟩

theorem plainCall_pos (p : Cursor) (hc : ∀ offset, c ≠ .setWritePos offset) :
    (plainCall p c).pos = p.pos + c.bytes.length := by
  cases c with
  | setWritePos offset => exact absurd rfl (hc offset)
  | writeC c => rfl
  | writeW w => rfl
  | writeL l => rfl
  | writeBlock block => rfl

/-- A call returns `TRUE` with the right position if and only if its bytes fit. -/
theorem output_iff (h : Placed s p) : ((s.call c).1, (s.call c).2.jpegGetWritePos) =
    (true, (plainCall p c).pos) ↔ Fits s c := by
  constructor
  · intro heq
    obtain ⟨htrue, hpos⟩ := Prod.mk.inj heq
    obtain ⟨hn, hroom⟩ := WriteStream.fits_of_call h.ptr_le htrue
    refine ⟨hn, hroom, ?_⟩
    by_cases hc : ∀ offset, c ≠ .setWritePos offset
    · rw [WriteStream.call_of_fits hc hn hroom, plainCall_pos p hc] at hpos
      have hlt : (s.puts c.bytes).jpegGetWritePos < 2 ^ 32 := by
        have hfunc := (WriteStream.puts_frame c.bytes s).2.2.2.trans h.func
        simp only [WriteStream.jpegGetWritePos, hfunc, if_true]
        exact Nat.mod_lt _ (by decide)
      have hsum := h.pos
      simp only at hpos
      omega
    · obtain ⟨offset, hoff⟩ := not_forall.mp hc
      rw [Classical.not_not.mp hoff]
      have hsum := h.pos
      have hlt := h.pos_lt
      simp only [StreamCall.bytes, List.length_nil]
      omega
  · intro hfit
    obtain ⟨htrue, hnext⟩ := h.next hfit
    rw [htrue, hnext.getWritePos]

/-- The outputs of a run are those of the plain file if and only if everything fits. -/
theorem outputs_iff (calls : List StreamCall) : ∀ (s : WriteStream) (p : Cursor), Placed s p →
    ((streamCalls.run s calls).2 = (plainCalls.run p calls).2 ↔ streamCalls.Admits Fits s calls) := by
  induction calls with
  | nil => exact fun s p _ => ⟨fun _ => trivial, fun _ => rfl⟩
  | cons c calls ih =>
    intro s p h
    simp only [Machine.run_cons, streamCalls, plainCalls, List.singleton_append, List.cons.injEq]
    constructor
    · rintro ⟨hnow, hlater⟩
      have hfit := h.output_iff.mp hnow
      exact ⟨hfit, (ih _ _ (h.next hfit).2).mp hlater⟩
    · rintro ⟨hfit, hadm⟩
      exact ⟨h.output_iff.mpr hfit, (ih _ _ (h.next hfit).2).mpr hadm⟩

end Placed

/-! ## Contents -/

/-- What has been stored is in the buffer, and everything else in the file. -/
structure Holds (s : WriteStream) (p : Cursor) : Prop where
  stored_lt : ∀ k ∈ s.stored, k < s.writeBufSize
  buf_eq : ∀ k ∈ s.stored, s.writeBuf k = p.file.mem (s.writeFileSize + k)
  rest_eq : ∀ x, (∀ k ∈ s.stored, x ≠ s.writeFileSize + k) → s.file.mem x = p.file.mem x
  size_iff : ∀ x, x < p.file.size ↔
    x < s.file.size ∨ ∃ k ∈ s.stored, x ≤ s.writeFileSize + k

namespace Holds

variable {s : WriteStream} {p : Cursor} {c : StreamCall}

theorem put (h : Holds s p) (hp : Placed s p) (hroom : s.ptr + 1 ≤ s.writeBufSize) (b : UInt8) :
    Holds (s.put b) (p.write [b]) := by
  have hpos := hp.pos
  constructor
  · intro k hk
    rcases List.mem_cons.mp hk with rfl | hk
    · exact hroom
    · exact h.stored_lt k hk
  · intro k hk
    show s.writeBuf.store s.ptr [b] k = (p.file.write p.pos [b]).mem (s.writeFileSize + k)
    by_cases heq : k = s.ptr
    · subst heq
      rw [hpos]
      have hin : (p.file.write p.pos [b]).mem (p.pos + 0) = [b].getD 0 0 :=
        DataFile.mem_write_of_in (by simp)
      rw [Nat.add_zero] at hin
      rw [hin]
      simp [Mem.store]
    · have hk : k ∈ s.stored := (List.mem_cons.mp hk).resolve_left heq
      rw [Mem.store_of_out _ _ (by simp; omega), DataFile.mem_write_of_out (by simp; omega)]
      exact h.buf_eq k hk
  · intro x hx
    have hne : x ≠ p.pos := hpos ▸ hx s.ptr (List.mem_cons_self ..)
    show s.file.mem x = (p.file.write p.pos [b]).mem x
    rw [DataFile.mem_write_of_out (by simp; omega)]
    exact h.rest_eq x fun k hk => hx k (List.mem_cons_of_mem _ hk)
  · intro x
    show x < (p.file.write p.pos [b]).size ↔ x < s.file.size ∨
      ∃ k ∈ s.ptr :: s.stored, x ≤ s.writeFileSize + k
    rw [DataFile.lt_size_write, h.size_iff]
    simp only [List.mem_cons, exists_eq_or_imp, hpos, List.length_singleton, ne_eq,
      List.cons_ne_nil, not_false_eq_true, true_and, Nat.lt_succ_iff]
    rw [or_right_comm, or_assoc]

theorem puts (cs : List UInt8) : ∀ {s : WriteStream} {p : Cursor}, Holds s p → Placed s p →
    s.ptr + cs.length ≤ s.writeBufSize → s.writeFileSize + s.ptr + cs.length < 2 ^ 32 →
      Holds (s.puts cs) (p.write cs) := by
  induction cs with
  | nil =>
    intro s p h _ _ _
    have hnil : p.write [] = p := by simp [Cursor.write]
    rwa [hnil]
  | cons b cs ih =>
    intro s p h hp hroom hlt
    rw [List.length_cons] at hroom hlt
    have hput := h.put hp (by omega) b
    have hroom₁ : s.ptr + [b].length ≤ s.writeBufSize := by
      rw [List.length_singleton]
      omega
    have hlt₁ : s.writeFileSize + s.ptr + [b].length < 2 ^ 32 := by
      rw [List.length_singleton]
      omega
    have hplaced : Placed (s.put b) (p.write [b]) := hp.puts hroom₁ hlt₁
    have hptr : (s.put b).ptr = s.ptr + 1 := rfl
    have hsize : (s.put b).writeBufSize = s.writeBufSize := rfl
    have hfile : (s.put b).writeFileSize = s.writeFileSize := rfl
    have happ : p.write (b :: cs) = (p.write [b]).write cs := p.write_append [b] cs
    rw [happ]
    exact ih hput hplaced (by omega) (by omega)

/-- A buffer that is written out in order completes the file. -/
theorem file_eq (h : Holds s p) (ho : s.InOrder) :
    s.file.write s.writeFileSize (s.writeBuf.bytes 0 s.ptr) = p.file := by
  apply DataFile.ext'
  · intro x
    rw [DataFile.lt_size_write, h.size_iff, Mem.length_bytes]
    have hne : s.writeBuf.bytes 0 s.ptr ≠ [] ↔ 0 < s.ptr := by
      rw [← List.length_pos_iff, Mem.length_bytes]
    refine or_congr_right ?_
    rw [hne]
    constructor
    · rintro ⟨hpos, hx⟩
      exact ⟨s.ptr - 1, (ho _).mpr (by omega), by omega⟩
    · rintro ⟨k, hk, hx⟩
      have hlt := (ho k).mp hk
      omega
  · intro x
    by_cases hin : s.writeFileSize ≤ x ∧ x < s.writeFileSize + s.ptr
    · obtain ⟨k, rfl⟩ := Nat.exists_eq_add_of_le hin.1
      have hk : k < s.ptr := by omega
      rw [DataFile.mem_write_of_in (by rwa [Mem.length_bytes]), ← h.buf_eq k ((ho k).mpr hk)]
      simp [Mem.bytes, hk]
    · rw [DataFile.mem_write_of_out (by rw [Mem.length_bytes]; omega)]
      refine h.rest_eq x fun k hk heq => hin ?_
      have hlt := (ho k).mp hk
      omega

theorem setWritePos (h : Holds s p) (hp : Placed s p) {offset : UInt32}
    (hc : Clean s (.setWritePos offset)) :
    Holds (s.jpegSetWritePos offset).2 (p.seek offset.toNat) := by
  rw [WriteStream.jpegSetWritePos_eq hp.func]
  by_cases hout : offset.toNat < s.writeFileSize ∨
      (s.writeFileSize + s.writeBufSize) % 2 ^ 32 ≤ offset.toNat
  · rw [if_pos hout]
    have hfile := h.file_eq (hc hout)
    refine ⟨by simp, by simp, fun x _ => ?_, fun x => ?_⟩
    · exact congrArg (fun f => f.mem x) hfile
    · simp only [hfile, List.not_mem_nil, false_and, exists_false, or_false]
      rfl
  · rw [if_neg hout]
    exact ⟨h.stored_lt, h.buf_eq, h.rest_eq, h.size_iff⟩

theorem next (h : Holds s p) (hp : Placed s p) (hfit : Fits s c) (hc : Clean s c) :
    Holds (s.call c).2 (plainCall p c) := by
  obtain ⟨hn, hroom, hlt⟩ := hfit
  cases c with
  | setWritePos offset => exact h.setWritePos hp hc
  | writeC c =>
    rw [WriteStream.call_of_fits (by simp) hn hroom]
    exact h.puts _ hp hroom hlt
  | writeW w =>
    rw [WriteStream.call_of_fits (by simp) hn hroom]
    exact h.puts _ hp hroom hlt
  | writeL l =>
    rw [WriteStream.call_of_fits (by simp) hn hroom]
    exact h.puts _ hp hroom hlt
  | writeBlock block =>
    rw [WriteStream.call_of_fits (by simp) hn hroom]
    exact h.puts _ hp hroom hlt

theorem run (calls : List StreamCall) : ∀ (s : WriteStream) (p : Cursor), Holds s p → Placed s p →
    streamCalls.Admits (fun s c => Fits s c ∧ Clean s c) s calls →
      Holds (streamCalls.run s calls).1 (plainCalls.run p calls).1 ∧
        Placed (streamCalls.run s calls).1 (plainCalls.run p calls).1 := by
  induction calls with
  | nil => exact fun s p h hp _ => ⟨h, hp⟩
  | cons c calls ih =>
    rintro s p h hp ⟨⟨hfit, hc⟩, hadm⟩
    exact ih _ _ (h.next hp hfit hc) (hp.next hfit).2 hadm

end Holds

/-! ## Without a file -/

/-- Nothing has been stored outside of the buffer of a stream without a file. -/
structure WriteStream.Inside (s : WriteStream) (writeBufSize : Nat) : Prop where
  func : s.writeFileFunc = false
  size_eq : s.writeBufSize = writeBufSize
  ptr_le : s.ptr ≤ s.writeBufSize
  stored_lt : ∀ k ∈ s.stored, k < s.writeBufSize

namespace WriteStream.Inside

variable {s : WriteStream} {n : Nat}

theorem put (h : s.Inside n) (hroom : s.ptr + 1 ≤ s.writeBufSize) (c : UInt8) :
    (s.put c).Inside n := by
  refine ⟨h.func, h.size_eq, hroom, fun k hk => ?_⟩
  rcases List.mem_cons.mp hk with rfl | hk
  · exact hroom
  · exact h.stored_lt k hk

theorem puts (cs : List UInt8) : ∀ {s : WriteStream}, s.Inside n →
    s.ptr + cs.length ≤ s.writeBufSize → (s.puts cs).Inside n := by
  induction cs with
  | nil => exact fun h _ => h
  | cons c cs ih =>
    intro s h hroom
    rw [List.length_cons] at hroom
    have hptr : (s.put c).ptr = s.ptr + 1 := rfl
    have hsize : (s.put c).writeBufSize = s.writeBufSize := rfl
    exact ih (h.put (by omega) c) (by omega)

theorem jpegWriteC (h : s.Inside n) (c : UInt8) : (s.jpegWriteC c).2.Inside n := by
  by_cases hroom : s.ptr + 1 ≤ s.writeBufSize
  · rw [jpegWriteC_of_room hroom]
    exact h.put hroom c
  · have hfull : s.writeBufSize ≤ s.ptr := by omega
    have hstop : s.jpegWriteC c = (false, { s with writePtr := some s.ptr }) := by
      refine (if_pos hfull).trans ?_
      simp only [jpegWriteStreamToFile, h.func, Bool.false_eq_true, if_false]
    rw [hstop]
    exact ⟨h.func, h.size_eq, h.ptr_le, h.stored_lt⟩

theorem jpegWriteCs (cs : List UInt8) : ∀ {s : WriteStream}, s.Inside n →
    (s.jpegWriteCs cs).2.Inside n := by
  induction cs with
  | nil => exact fun h => h
  | cons c cs ih =>
    intro s h
    have hc := h.jpegWriteC c
    rw [WriteStream.jpegWriteCs]
    rcases heq : s.jpegWriteC c with ⟨_ | _, s'⟩
    · rw [heq] at hc
      exact hc
    · rw [heq] at hc
      exact ih hc

theorem call (h : s.Inside n) (c : StreamCall) : (s.call c).2.Inside n := by
  cases c with
  | writeC c => exact h.jpegWriteC c
  | writeW w => exact jpegWriteCs _ h
  | writeL l =>
    show (s.jpegWriteL l).2.Inside n
    unfold jpegWriteL
    split
    · exact h
    · next hgo => exact puts _ h (Nat.not_lt.mp (not_or.mp hgo).2)
  | writeBlock block =>
    show (if s.writePtr = none then (false, s) else s.jpegWriteCs block).2.Inside n
    split
    · exact h
    · exact jpegWriteCs _ h
  | setWritePos offset =>
    show (s.jpegSetWritePos offset).2.Inside n
    unfold jpegSetWritePos
    simp only [h.func, Bool.false_eq_true, if_false]
    split
    · exact h
    · next hle => exact ⟨rfl, h.size_eq, Nat.not_lt.mp hle, h.stored_lt⟩

end WriteStream.Inside

/-! ## Whole runs -/

/-- A run whose bytes fit, and which leaves its windows and ends in order, does what a plain file
does; one with bytes that do not fit does not. Without a file nothing is stored outside of the
buffer, and a write that does not fit fails. -/
theorem writeStream_iff (writeBuf : Mem) (writeBufSize : Nat) (writePtr : Option Nat)
    (hptr : writePtr = none ∨ writePtr = some 0) (calls : List StreamCall) :
    let s := WriteStream.new writeBuf writeBufSize writePtr true
    let s' := (streamCalls.run (.new writeBuf writeBufSize writePtr false) calls).1
    (streamCalls.Admits (fun s c => Fits s c ∧ Clean s c) s calls →
        (streamCalls.run s calls).1.InOrder → SameAsPlain s calls) ∧
      (SameAsPlain s calls → streamCalls.Admits Fits s calls) ∧
      (∀ k ∈ s'.stored, k < writeBufSize) ∧
      ∀ c : StreamCall, writeBufSize < s'.ptr + c.bytes.length → (s'.call c).1 = false := by
  intro s s'
  have hzero : writePtr.getD 0 = 0 := by
    rcases hptr with rfl | rfl
    · rfl
    · rfl
  have hplaced : Placed s ⟨.empty, 0⟩ := by
    refine ⟨rfl, ?_, by decide, ?_⟩
    · exact (Nat.zero_add _).trans hzero
    · exact Nat.le_trans (Nat.le_of_eq hzero) (Nat.zero_le _)
  have hholds : Holds s ⟨.empty, 0⟩ :=
    ⟨by simp [s, WriteStream.new], by simp [s, WriteStream.new], fun x _ => rfl,
      by simp [s, WriteStream.new, DataFile.empty]⟩
  have hinside : s'.Inside writeBufSize := by
    refine streamCalls.run_invariant (P := fun s => s.Inside writeBufSize)
      (fun s c h => h.call c) calls _ ?_
    exact ⟨rfl, rfl, Nat.le_trans (Nat.le_of_eq hzero) (Nat.zero_le _), by simp [WriteStream.new]⟩
  refine ⟨fun hadm hend => ?_, fun h => (Placed.outputs_iff calls s _ hplaced).mp h.outputs, ?_, ?_⟩
  · obtain ⟨hh, hp⟩ := Holds.run calls s _ hholds hplaced hadm
    refine ⟨(Placed.outputs_iff calls s _ hplaced).mpr (hadm.mono fun _ _ h => h.1), ?_, ?_⟩
    · simp only [WriteStream.jpegWriteStreamToFile, hp.func, if_true]
    · simp only [WriteStream.jpegWriteStreamToFile, hp.func, if_true]
      exact hh.file_eq hend
  · intro k hk
    exact hinside.size_eq ▸ hinside.stored_lt k hk
  · intro c hlt
    rw [← Bool.not_eq_true]
    intro htrue
    have hroom := (WriteStream.fits_of_call hinside.ptr_le htrue).2
    rw [hinside.size_eq] at hroom
    omega

/-- A header that is written, corrected and left behind the pointer. -/
theorem sameAsPlain_correct : SameAsPlain (.new (fun _ => 0) 4 (some 0) true)
    [.writeW 0x0102, .setWritePos 0, .writeC 9, .setWritePos 2] := by
  refine (writeStream_iff (fun _ => 0) 4 (some 0) (.inr rfl) _).1 ?_ ?_
  · refine ⟨⟨⟨False.elim, by decide, by decide⟩, trivial⟩,
      ⟨⟨False.elim, by decide, by decide⟩, fun h => absurd h (by decide)⟩,
      ⟨⟨False.elim, by decide, by decide⟩, trivial⟩,
      ⟨⟨False.elim, by decide, by decide⟩, fun h => absurd h (by decide)⟩, trivial⟩
  · intro k
    show k ∈ [0, 1, 0] ↔ k < 2
    simp only [List.mem_cons, List.not_mem_nil, or_false]
    omega

/-- The second byte into a buffer of one byte fails, and a byte before which the pointer ends does not
come into the file. -/
theorem not_sameAsPlain_full :
    ¬ SameAsPlain (.new (fun _ => 0) 1 (some 0) true) [.writeC 1, .writeC 2] ∧
      ¬ SameAsPlain (.new (fun _ => 0) 4 (some 0) true) [.writeC 1, .setWritePos 0] := by
  constructor
  · intro h
    have hout := h.outputs
    revert hout
    decide
  · intro h
    have hsize := congrArg DataFile.size h.file
    revert hsize
    decide

end SprdHal.Jpeg
