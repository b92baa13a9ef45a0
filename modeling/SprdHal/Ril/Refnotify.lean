import Mathlib.Data.List.Forall2
import SprdHal.Lib.Bytes
import SprdHal.Lib.Frames

/-!
# The command channel of refnotify (`refnotify.c`)

The main loop reads a header of eight bytes and then as many bytes as its length field says. When a
read returns only a part of the header, the next one asks for eight bytes again and may return
bytes behind the header; behind a message shorter than what was asked for, these are bytes of the
next message, and they are lost.
-/

namespace SprdHal.Ril

open SprdHal.Lib

/-- `sizeof(struct refnotify_cmd)` -/
def headerSize : Nat := 8

/-- `sizeof(buf)` -/
def bufSize : Nat := 128

/-- `pcmd->length` -/
def cmdLength (buf : List UInt8) : Nat := (leWord buf 4).toNat

/-- What `read` returns: `EINTR`, or data. -/
inductive Read
  | eintr
  | data (bs : List UInt8)
  deriving DecidableEq

def Read.bytes : Read → List UInt8
  | .eintr => []
  | .data bs => bs

/-- The main loop at one of its two reads: `readheader` or `readcontent`, and the `numRead` bytes
that were read into `buf`. Data behind the end of `buf` smashes the stack. -/
structure Refnotify where
  header : Bool
  got : List UInt8
  smashed : Bool
  deriving DecidableEq

namespace Refnotify

/-- The beginning of the loop. -/
def init : Refnotify := ⟨true, [], false⟩

/-- The number of bytes asked for. -/
def requested (s : Refnotify) : Nat :=
  if s.header then headerSize else cmdLength s.got - s.got.length

/-- `buf`, which was cleared before the first read. -/
def buf (got : List UInt8) : List UInt8 := got ++ List.replicate (bufSize - got.length) 0

/-- One read. The output is the buffer that `RefNotify_DoCmd` is called with. -/
def step (s : Refnotify) : Read → Refnotify × List (List UInt8)
  | .eintr => (s, [])
  | .data bs =>
    let got := s.got ++ bs
    if s.smashed ∨ bufSize < got.length then ({ s with smashed := true }, [])
    else if s.header ∧ got.length < headerSize then ({ s with got }, [])
    else if got.length < cmdLength got then ({ s with header := false, got }, [])
    else (init, [buf got])

/-- `read` returns at least one byte and at most what it was asked for, or `EINTR`. -/
def Fits (s : Refnotify) : Read → Prop
  | .eintr => True
  | .data bs => bs ≠ [] ∧ bs.length ≤ s.requested

instance (s : Refnotify) : DecidablePred s.Fits
  | .eintr => inferInstanceAs (Decidable True)
  | .data bs => inferInstanceAs (Decidable (bs ≠ [] ∧ bs.length ≤ s.requested))

end Refnotify

def refnotify : Machine Refnotify Read (List UInt8) where
  step := Refnotify.step

/-- A well-formed message. -/
structure Message where
  bytes : List UInt8
  length_eq : cmdLength bytes = bytes.length
  header_le : headerSize ≤ bytes.length
  le_buf : bytes.length ≤ bufSize

/-- One call of `RefNotify_DoCmd` for each message, in order, with the message at the start of
`buf`. -/
def Delivered (calls : List (List UInt8)) (msgs : List Message) : Prop :=
  List.Forall₂ (fun buf m => m.bytes <+: buf) calls msgs

/-! ## The loop as a receiver of frames -/

section Receiver

/-- The length field does not see what follows the header. -/
theorem cmdLength_append {a : List UInt8} (b : List UInt8) (h : headerSize ≤ a.length) :
    cmdLength (a ++ b) = cmdLength a := by
  unfold cmdLength
  rw [leWord_append b h]

def IsMessage (f : List UInt8) : Prop :=
  cmdLength f = f.length ∧ headerSize ≤ f.length ∧ f.length ≤ bufSize

/-- The message at the start of each buffer, as long as its length field says. -/
def messages (calls : List (List UInt8)) : List (List UInt8) :=
  calls.map fun b => b.take (cmdLength b)

/-- Of the current message `fr` has been read. -/
structure Waits (s : Refnotify) (fr : List UInt8) : Prop where
  sound : s.smashed = false
  got : s.got = fr
  header : s.header = decide (fr.length < headerSize)

theorem waits_init : Waits .init [] := ⟨rfl, rfl, rfl⟩

variable {s : Refnotify} {fr f x bs : List UInt8}

theorem step_inside (hw : Waits s fr) (hf : IsMessage f) (hx : x ≠ []) (h : fr ++ bs ++ x = f) :
    (s.step (.data bs)).2 = [] ∧ Waits (s.step (.data bs)).1 (fr ++ bs) := by
  have hpos := List.length_pos_iff.mpr hx
  have hlen : (fr ++ bs).length + x.length = f.length := by rw [← h]; simp [Nat.add_assoc]
  have hbuf : ¬bufSize < (fr ++ bs).length := by have := hf.2.2; omega
  unfold Refnotify.step
  simp only [hw.sound, hw.got, Bool.false_eq_true, false_or, if_neg hbuf, hw.header,
    decide_eq_true_eq]
  split
  · rename_i hshort
    exact ⟨rfl, rfl, rfl, (decide_eq_true hshort.1).trans (decide_eq_true hshort.2).symm⟩
  · rename_i hshort
    have hhead : headerSize ≤ (fr ++ bs).length := by
      by_contra hlt
      rw [List.length_append] at hlt
      refine hshort ⟨by omega, ?_⟩
      rw [List.length_append]
      omega
    have hcmd : cmdLength (fr ++ bs) = f.length := by
      rw [← cmdLength_append x hhead, h, hf.1]
    rw [if_pos (by omega)]
    refine ⟨rfl, rfl, rfl, ?_⟩
    rw [decide_eq_false (by omega)]

theorem step_complete (hw : Waits s fr) (hok : s.Fits (.data bs)) (hf : IsMessage f)
    (hlt : fr.length < f.length) (h : fr ++ bs = f ++ x) :
    messages (s.step (.data bs)).2 = [f] ∧ Waits (s.step (.data bs)).1 [] := by
  obtain ⟨hcmd, hhead, hle⟩ := hf
  have hlen : (fr ++ bs).length = f.length + x.length := by rw [h, List.length_append]
  have hcmd' : cmdLength (fr ++ bs) = f.length := by rw [h, cmdLength_append x hhead, hcmd]
  have hbuf : ¬bufSize < (fr ++ bs).length := by
    have hreq := hok.2
    unfold Refnotify.requested at hreq
    rw [hw.header, hw.got] at hreq
    unfold headerSize bufSize at *
    split at hreq
    · rename_i hshort
      have := of_decide_eq_true hshort
      rw [List.length_append]
      omega
    · rename_i hshort
      -- the whole header is there, so no more than the message was asked for
      have hlong : 8 ≤ fr.length := by
        by_contra hc
        exact hshort (decide_eq_true (by omega))
      rw [← cmdLength_append bs hlong, hcmd'] at hreq
      rw [List.length_append]
      omega
  unfold Refnotify.step
  simp only [hw.sound, hw.got, Bool.false_eq_true, false_or, if_neg hbuf]
  rw [if_neg (by omega), if_neg (by omega)]
  refine ⟨?_, waits_init⟩
  have hbufcmd : cmdLength (Refnotify.buf (fr ++ bs)) = f.length := by
    rw [Refnotify.buf, cmdLength_append _ (by omega), hcmd']
  simp only [messages, List.map_cons, List.map_nil, hbufcmd]
  rw [Refnotify.buf, h, List.append_assoc, List.take_left' rfl]

/-- At `readcontent` the header has been read. -/
def HasHeader (s : Refnotify) : Prop := s.header = false → headerSize ≤ s.got.length

/-- What a read adds to the calls and keeps in the buffer was in the buffer or is read. -/
theorem step_length (hs : HasHeader s) (r : Read) :
    HasHeader (s.step r).1 ∧ (messages (s.step r).2).flatten.length + (s.step r).1.got.length ≤
      s.got.length + r.bytes.length := by
  cases r with
  | eintr => exact ⟨hs, by simp [Refnotify.step, messages]⟩
  | data bs =>
    unfold Refnotify.step Read.bytes
    dsimp only
    split
    · exact ⟨hs, by simp [messages]⟩
    · split
      · refine ⟨fun hh => ?_, by simp [messages]⟩
        have := hs hh
        simp only [List.length_append]
        omega
      · rename_i hlong
        have hhead : headerSize ≤ (s.got ++ bs).length := by
          by_contra hlt
          have hh : ¬s.header = true := fun hh => hlong ⟨hh, by omega⟩
          have := hs (by simpa using hh)
          rw [List.length_append] at hlt
          omega
        split
        · exact ⟨fun _ => hhead, by simp [messages]⟩
        · rename_i hdone
          refine ⟨(nomatch ·), ?_⟩
          simp only [messages, List.map_cons, List.map_nil, List.flatten_cons, List.flatten_nil,
            List.append_nil, Refnotify.init, List.length_nil, Nat.add_zero, List.length_take]
          rw [Refnotify.buf, cmdLength_append _ hhead]
          rw [List.length_append] at hdone
          omega

/-- The messages of the calls are made of what was read. -/
theorem messages_length (reads : List Read) (s : Refnotify) (hs : HasHeader s) :
    (messages (refnotify.run s reads).2).flatten.length ≤
      s.got.length + (reads.map Read.bytes).flatten.length := by
  induction reads generalizing s with
  | nil => simp [messages]
  | cons r reads ih =>
    obtain ⟨hs', hstep⟩ := step_length hs r
    have ih := ih (s.step r).1 hs'
    rw [Machine.run_cons, List.map_cons, List.flatten_cons]
    simp only [messages, List.map_append, List.flatten_append, List.length_append] at ih hstep ⊢
    have heq : refnotify.step s r = s.step r := rfl
    rw [heq]
    omega

theorem refnotify_receiver :
    Receiver refnotify Refnotify.Fits IsMessage Read.bytes messages Waits where
  frame_ne_nil f hf := by
    rintro rfl
    exact absurd hf.2.1 (by decide)
  frames_nil := rfl
  frames_append a b := List.map_append
  skip s r fr hw hok hr := by
    cases r with
    | eintr => exact ⟨rfl, hw⟩
    | data bs => exact absurd hr hok.1
  inside s r fr f x hw hok hf hr hx h := by
    cases r with
    | eintr => exact absurd rfl hr
    | data bs =>
      have h : fr ++ bs ++ x = f := h
      obtain ⟨hnil, hw'⟩ := step_inside hw hf hx h
      refine ⟨?_, hw'⟩
      show messages (s.step (.data bs)).2 = []
      rw [hnil]
      rfl
  complete s r fr f x hw hok hf hlt h := by
    cases r with
    | eintr =>
      have hlen := congrArg List.length h
      simp only [Read.bytes, List.append_nil, List.length_append] at hlen
      omega
    | data bs => exact step_complete hw hok hf hlt h
  bytes reads s hw _ := by
    have hle := messages_length reads s fun hh => by rw [hw.header] at hh; exact nomatch hh
    rw [hw.got, List.length_nil, Nat.zero_add] at hle
    exact hle

end Receiver

/-! ## Delivery -/

theorem delivered_iff (calls : List (List UInt8)) (msgs : List Message) :
    Delivered calls msgs ↔ messages calls = msgs.map Message.bytes := by
  have hone : ∀ (b : List UInt8) (m : Message), m.bytes <+: b ↔ b.take (cmdLength b) = m.bytes := by
    intro b m
    constructor
    · rintro ⟨x, rfl⟩
      rw [cmdLength_append x m.header_le, m.length_eq, List.take_left' rfl]
    · intro h
      rw [← h]
      exact List.take_prefix _ _
  unfold Delivered messages
  rw [← List.forall₂_eq_eq_eq, List.forall₂_map_left_iff, List.forall₂_map_right_iff]
  simp only [hone]

/-- **Messages and reads.** The messages of a stream are delivered, whatever the reads return,
exactly if no read returns bytes of two messages. -/
theorem delivered_run_iff (msgs : List Message) (reads : List Read)
    (hfits : refnotify.Admits Refnotify.Fits .init reads)
    (hstream : (reads.map Read.bytes).flatten = (msgs.map Message.bytes).flatten) :
    Delivered (refnotify.run .init reads).2 msgs ↔
      FramesEndReads [] (reads.map Read.bytes) (msgs.map Message.bytes) := by
  have hmsg : ∀ f ∈ msgs.map Message.bytes, IsMessage f := by
    intro f hf
    obtain ⟨m, -, rfl⟩ := List.mem_map.mp hf
    exact ⟨m.length_eq, m.header_le, m.le_buf⟩
  rw [delivered_iff]
  refine refnotify_receiver.receiver_iff reads waits_init hfits hmsg hstream ?_
  intro f hf
  have := (hmsg f (List.mem_of_mem_head? hf)).2.1
  unfold headerSize at this
  simp only [List.length_nil]
  omega

/-- A command without content. -/
def shortCmd (b : UInt8) : Message :=
  ⟨[b, 0, 0, 0, 8, 0, 0, 0], rfl, Nat.le_refl 8, Nat.le_of_ble_eq_true rfl⟩

/-- Two commands, each read in two parts. -/
theorem delivered_run_iff_apart :
    Delivered (refnotify.run .init [.data [3, 0, 0], .data [0, 8, 0, 0, 0], .eintr,
      .data [4, 0, 0, 0, 8, 0, 0], .data [0]]).2 [shortCmd 3, shortCmd 4] ↔
      FramesEndReads [] ([Read.data [3, 0, 0], .data [0, 8, 0, 0, 0], .eintr,
        .data [4, 0, 0, 0, 8, 0, 0], .data [0]].map Read.bytes)
        ([shortCmd 3, shortCmd 4].map Message.bytes) :=
  delivered_run_iff _ _ (by decide) (by decide)

/-- The second read returns the eight bytes it was asked for, five of the first command and three of
the second. -/
theorem overread_not_delivered :
    refnotify.Admits Refnotify.Fits .init [.data [3, 0, 0], .data [0, 8, 0, 0, 0, 4, 0, 0],
      .data [0, 8, 0, 0, 0]] ∧
    ¬Delivered (refnotify.run .init [.data [3, 0, 0], .data [0, 8, 0, 0, 0, 4, 0, 0],
      .data [0, 8, 0, 0, 0]]).2 [shortCmd 3, shortCmd 4] := by
  refine ⟨by decide, ?_⟩
  intro h
  have hlen := h.length_eq
  exact absurd hlen (by decide)

end SprdHal.Ril
