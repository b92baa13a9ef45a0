import SprdHal.Engmode.Parse

/-!
# The responses of `eng_diag_user_handle`

Most commands of the AP are answered by frames that `translate_packet` builds. The commands that
leave the `switch` of `eng_diag_user_handle` are not: their frame is put together in `eng_diag_buf`
by hand, header and payload are copied between the two flags as they are, and `extra_len` stays 0.

`WellFormed` says what the PC expects of a frame. `translate_packet` always meets it
(`translatePacket_wellFormed`), the frame that is put together meets it if there is nothing to
escape.
-/

namespace SprdHal.Engmode

open SprdHal.Lib

/-- `MSG_HEAD_T` -/
structure MsgHead where
  seqNum : UInt32
  len : UInt16
  type : UInt8
  subtype : UInt8
  deriving DecidableEq

def MsgHead.bytes (h : MsgHead) : List UInt8 :=
  leBytes h.seqNum ++ leHalfBytes h.len ++ [h.type, h.subtype]

@[simp] theorem MsgHead.length_bytes (h : MsgHead) : h.bytes.length = 8 := rfl

/-- A frame with the given content: flags around it and nowhere else, and the content escaped. -/
def WellFormed (frame content : List UInt8) : Prop :=
  ∃ body, frame = 0x7e :: (body ++ [0x7e]) ∧ 0x7e ∉ body ∧ diagEscape.unstuff body = some content

/-- What `translate_packet` builds is well formed. -/
theorem translatePacket_wellFormed (content : List UInt8) :
    WellFormed (translatePacket content) content := by
  refine ⟨diagEscape.stuff content, translatePacket_eq content, fun hflag => ?_,
    diagEscape.unstuff_stuff content⟩
  have hesc := Escape.special_of_mem_stuff hflag rfl
  exact absurd hesc (by decide)

/-- `sizeof(eng_diag_buf)` -/
def engDiagBufSize : Nat := 2 * 4096

/-- The bytes that are copied behind the header: the text in `eng_audio_diag_buf`, all of `adc_rsp`,
or all of `rsp`. -/
def copiedBytes (type : DiagCmdType) (rsp adcRsp audio : List UInt8) : List UInt8 :=
  if type = .userAudio then audio
  else if type = .userAdc then adcRsp
  else rsp

/-- What the handler of a command leaves: a response of `rlen` bytes in one of the buffers. -/
structure UserRsp where
  type : DiagCmdType
  rlen : Nat
  rsp : List UInt8
  adcRsp : List UInt8
  audio : List UInt8
  rsp_size : rsp.length = 512
  adcRsp_size : adcRsp.length = 32
  audio_size : audio.length + 10 ≤ engDiagBufSize
  rlen_le : rlen ≤ (copiedBytes type rsp adcRsp audio).length
  deriving DecidableEq

def UserRsp.copied (r : UserRsp) : List UInt8 := copiedBytes r.type r.rsp r.adcRsp r.audio

/-- The payload of the response. -/
def UserRsp.payload (r : UserRsp) : List UInt8 := r.copied.take r.rlen

/-- The header of the response, from the header of the request. -/
def UserRsp.head (r : UserRsp) (req : MsgHead) : MsgHead :=
  let head := { req with len := UInt16.ofNat (8 + r.rlen) }
  let head :=
    if r.type = .userAudio ∨ r.type = .userApcmd then
      { head with seqNum := 0, type := 0x9c, subtype := 0x00 }
    else head
  if r.type = .userAdc then { head with subtype := 0x00 } else head

/-- The end of `eng_diag_user_handle`: the bytes written to the PC. `engDiagBuf` holds what was
written before. -/
def userHandleFrame (engDiagBuf : Vector UInt8 engDiagBufSize) (req : MsgHead) (r : UserRsp) :
    List UInt8 :=
  let head := r.head req
  let buf := engDiagBuf.toList.set 0 0x7e
  let buf := patch buf 1 head.bytes
  let buf := patch buf 9 r.copied
  let buf := buf.set (head.len.toNat + 1) 0x7e
  buf.take (head.len.toNat + 2)

section Frame

variable (engDiagBuf : Vector UInt8 engDiagBufSize) (req : MsgHead) (r : UserRsp)

theorem UserRsp.len_head : (r.head req).len = UInt16.ofNat (8 + r.rlen) := by
  unfold UserRsp.head
  simp only
  split <;> split <;> rfl

theorem UserRsp.copied_le : r.copied.length + 10 ≤ engDiagBufSize := by
  have haudio := r.audio_size
  unfold UserRsp.copied copiedBytes engDiagBufSize at *
  split
  · exact haudio
  · split
    · rw [r.adcRsp_size]; decide
    · rw [r.rsp_size]; decide

theorem UserRsp.toNat_len : (r.head req).len.toNat = 8 + r.rlen := by
  have h1 : r.rlen ≤ r.copied.length := r.rlen_le
  have h2 := r.copied_le
  rw [len_head, UInt16.toNat_ofNat']
  unfold engDiagBufSize at h2
  omega

/-- **The frame is the header and the payload between two flags, as they are.** -/
theorem userHandleFrame_eq :
    userHandleFrame engDiagBuf req r = 0x7e :: ((r.head req).bytes ++ r.payload ++ [0x7e]) := by
  have hlen := r.toNat_len req
  have hrlen : r.rlen ≤ r.copied.length := r.rlen_le
  have hcopied := r.copied_le
  have hbuf : engDiagBuf.toList.length = engDiagBufSize := by simp
  unfold userHandleFrame
  simp only [hlen]
  generalize engDiagBuf.toList = buf at hbuf
  generalize r.head req = head at hlen
  obtain ⟨b, rest, rfl⟩ := List.exists_cons_of_length_pos (l := buf) (by rw [hbuf]; decide)
  rw [List.length_cons] at hbuf
  unfold engDiagBufSize at *
  have hstep1 : patch ((b :: rest).set 0 0x7e) 1 head.bytes =
      0x7e :: (head.bytes ++ rest.drop 8) :=
    patch_length_append [0x7e] (by rw [head.length_bytes]; omega)
  have hstep2 : patch (0x7e :: (head.bytes ++ rest.drop 8)) 9 r.copied =
      (0x7e :: head.bytes) ++ (r.copied ++ (rest.drop 8).drop r.copied.length) :=
    patch_length_append (0x7e :: head.bytes) (by rw [List.length_drop]; omega)
  have hfront : (0x7e :: head.bytes : List UInt8).length = 9 := rfl
  have hroom : 8 + r.rlen + 1 <
      ((0x7e :: head.bytes) ++ (r.copied ++ (rest.drop 8).drop r.copied.length)).length := by
    simp only [List.length_append, List.length_drop, hfront]
    omega
  have hcut : 8 + r.rlen + 1 - 9 = r.rlen := by omega
  rw [hstep1, hstep2, take_succ_set hroom, List.take_append, hfront, hcut,
    List.take_of_length_le (by rw [hfront]; omega), List.take_append_of_le_length hrlen]
  simp only [UserRsp.payload, List.cons_append, List.append_assoc]

end Frame

/-- There is nothing to escape in the bytes. -/
def Plain (bytes : List UInt8) : Prop := ∀ b ∈ bytes, isSpecial b = false

instance : DecidablePred Plain := fun bytes => List.decidableBAll _ bytes

theorem plain_append {a b : List UInt8} : Plain (a ++ b) ↔ Plain a ∧ Plain b :=
  List.forall_mem_append

theorem plain_cons {b : UInt8} {bs : List UInt8} :
    Plain (b :: bs) ↔ isSpecial b = false ∧ Plain bs := List.forall_mem_cons

theorem plain_nil : Plain [] := fun _ h => absurd h List.not_mem_nil

theorem not_mem_of_plain {bytes : List UInt8} (h : Plain bytes) : 0x7d ∉ bytes ∧ 0x7e ∉ bytes :=
  ⟨fun hm => absurd (h _ hm) (by decide), fun hm => absurd (h _ hm) (by decide)⟩

/-- Bytes between two flags are a frame with these bytes as content exactly if nothing in them needs
an escape. -/
theorem wellFormed_raw_iff (bytes : List UInt8) :
    WellFormed (0x7e :: (bytes ++ [0x7e])) bytes ↔ Plain bytes := by
  constructor
  · rintro ⟨body, heq, hflag, hbody⟩
    obtain rfl : bytes = body :=
      List.append_cancel_right (List.cons.inj heq).2
    have hesc := (diagEscape.unstuff_eq_self_iff bytes).mp hbody
    intro b hb
    cases hs : isSpecial b with
    | false => rfl
    | true =>
      rcases (isSpecial_iff b).mp hs with rfl | rfl
      · exact absurd hb hesc
      · exact absurd hb hflag
  · intro h
    obtain ⟨hesc, hflag⟩ := not_mem_of_plain h
    exact ⟨bytes, rfl, hflag, (diagEscape.unstuff_eq_self_iff bytes).mpr hesc⟩

/-- The bytes of the request's header that end up in the response. -/
def UserRsp.kept (r : UserRsp) (req : MsgHead) : List UInt8 :=
  if r.type = .userAudio ∨ r.type = .userApcmd then []
  else if r.type = .userAdc then leBytes req.seqNum ++ [req.type]
  else leBytes req.seqNum ++ [req.type, req.subtype]

theorem plain_head_iff (req : MsgHead) (r : UserRsp) :
    Plain (r.head req).bytes ↔
      Plain (leHalfBytes (UInt16.ofNat (8 + r.rlen))) ∧ Plain (r.kept req) := by
  have hzero : Plain (leBytes 0) := by decide
  have h9c : isSpecial 0x9c = false := rfl
  have h00 : isSpecial 0x00 = false := rfl
  unfold MsgHead.bytes UserRsp.kept
  by_cases htext : r.type = .userAudio ∨ r.type = .userApcmd
  · have hadc : r.type ≠ .userAdc := by rcases htext with h | h <;> rw [h] <;> decide
    simp only [UserRsp.head, if_pos htext, if_neg hadc, plain_append, plain_cons, hzero, h9c, h00,
      plain_nil, and_true, true_and]
  · by_cases hadc : r.type = .userAdc
    · simp only [UserRsp.head, if_neg htext, if_pos hadc, plain_append, plain_cons, h00, plain_nil,
        and_true]
      tauto
    · simp only [UserRsp.head, if_neg htext, if_neg hadc, plain_append, plain_cons, plain_nil,
        and_true]
      tauto

/-- **The frames of the common path are well formed exactly if there is nothing to escape** in the
payload, in the length and in what is kept of the request's header. -/
theorem userHandleFrame_wellFormed_iff (engDiagBuf : Vector UInt8 engDiagBufSize) (req : MsgHead)
    (r : UserRsp) :
    WellFormed (userHandleFrame engDiagBuf req r) ((r.head req).bytes ++ r.payload) ↔
      Plain r.payload ∧ Plain (leHalfBytes (UInt16.ofNat (8 + r.rlen))) ∧ Plain (r.kept req) := by
  rw [userHandleFrame_eq, wellFormed_raw_iff, plain_append, plain_head_iff, and_comm]

/-- `eng_diag_bootreset` answers "OK". -/
def engDiagBootreset : UserRsp where
  type := .userReset
  rlen := 2
  rsp := [0x4f, 0x4b] ++ List.replicate 510 0
  adcRsp := List.replicate 32 0
  audio := []
  rsp_size := by rw [List.length_append, List.length_replicate]; rfl
  adcRsp_size := List.length_replicate
  audio_size := by decide
  rlen_le := by
    have hcopied : copiedBytes .userReset ([0x4f, 0x4b] ++ List.replicate 510 0)
        (List.replicate 32 0) [] = [0x4f, 0x4b] ++ List.replicate 510 0 := rfl
    rw [hcopied, List.length_append, List.length_replicate]
    decide

/-- The answer to a reset request with the sequence number 0x7e. -/
theorem not_wellFormed_bootreset :
    let req : MsgHead := ⟨0x7e, 8, diagCmdChangemode, 8⟩
    ¬ WellFormed (userHandleFrame (Vector.replicate _ 0) req engDiagBootreset)
      ((engDiagBootreset.head req).bytes ++ engDiagBootreset.payload) := by
  intro req
  rw [userHandleFrame_eq]
  rintro ⟨body, heq, hflag, -⟩
  obtain rfl := List.append_cancel_right (List.cons.inj heq).2
  exact hflag (by decide)

end SprdHal.Engmode
