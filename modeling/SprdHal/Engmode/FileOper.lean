import SprdHal.Engmode.UserHandle
import SprdHal.Lib.Machine

/-!
# Writing a file in pieces (`eng_diag_fileoper_hdlr`)

A request to write a file carries one piece of it. The handler opens the file, writes at
`s_cur_filepos` and closes it; a piece that is followed by others adds what `write` returned to
`s_cur_filepos`, and the last one sets it back to 0. There is one `s_cur_filepos` for all files, so a
transfer starts at 0 exactly if nothing is left over from the transfers before it (`upload_iff`).
-/

namespace SprdHal.Engmode

open SprdHal.Lib

/-- `TOOLS_DIAG_AP_FILEOPER_REQ_T` with `file_cmd` 2 and the `TOOLS_DIAG_AP_FILE_DATA_T` behind it. -/
structure FileWriteReq where
  head : MsgHead
  fileName : List UInt8
  /-- 1 if other pieces follow -/
  status : UInt32
  data : List UInt8
  deriving DecidableEq

/-- What the system does: whether the file may be written, and the number of bytes the device takes;
`none` is an error. -/
structure FileIo where
  opens : Bool
  write : Option Nat
  deriving DecidableEq

/-- The files of the phone, and `s_cur_filepos`. -/
structure FileOper where
  files : List UInt8 → Option (List UInt8)
  curFilepos : Int32

/-- The largest `off_t`. -/
def offMax : Nat := 2 ^ 31 - 1

/-- The result of `write` at an offset: no byte is written behind the largest offset. -/
def writeSize (io : FileIo) (off n : Nat) : Int32 :=
  match io.write with
  | none => -1
  | some k => if 0 < n ∧ offMax ≤ off then -1 else Int32.ofNat (min k (min n (offMax - off)))

/-- A file after bytes are written at an offset. A gap is filled with zeros. -/
def writeAt (content : List UInt8) (off : Nat) (d : List UInt8) : List UInt8 :=
  if d = [] then content
  else content.take off ++ List.replicate (off - content.length) 0 ++ d ++
    content.drop (off + d.length)

/-- A `write` of the handler: `s_cur_filepos` at that time, the `status` of the request and
`write_size`. -/
structure FileWrite where
  pos : Int32
  status : UInt32
  size : Int32
  deriving DecidableEq

/-- What a request leads to: the response and the `write`, if the file is opened. -/
structure FileWriteOut where
  rsp : List UInt8
  write : Option FileWrite
  deriving DecidableEq

/-- The response, of a header and a `TOOLS_DIAG_AP_CNF_T`. -/
def fileWriteRsp (req : FileWriteReq) (status : UInt16) : List UInt8 :=
  translatePacket
    ({ req.head with len := 12 }.bytes ++ leHalfBytes status ++ leHalfBytes 0)

/-- `eng_diag_fileoper_hdlr` for a request to write. `lseek` fails for a negative offset and leaves
the offset at 0. -/
def fileWriteHdlr (s : FileOper) (req : FileWriteReq) (io : FileIo) : FileOper × FileWriteOut :=
  match io.opens, s.files req.fileName with
  | true, some content =>
    let off := s.curFilepos.toInt.toNat
    let size := writeSize io off req.data.length
    let written := req.data.take size.toInt.toNat
    ({ files := Function.update s.files req.fileName (some (writeAt content off written))
       curFilepos := if req.status ≠ 0 then s.curFilepos + size else 0 },
      { rsp := fileWriteRsp req (if size < 0 then 1 else 0)
        write := some ⟨s.curFilepos, req.status, size⟩ })
  | _, _ => (s, ⟨fileWriteRsp req 1, none⟩)

def fileWriter : Machine FileOper (FileWriteReq × FileIo) FileWriteOut where
  step s i := ((fileWriteHdlr s i.1 i.2).1, [(fileWriteHdlr s i.1 i.2).2])

/-- The phone after it is switched on. -/
def FileOper.init (files : List UInt8 → Option (List UInt8)) : FileOper := ⟨files, 0⟩

/-- The writes among what a history of requests leads to. -/
def writesOf (outs : List FileWriteOut) : List FileWrite := outs.filterMap FileWriteOut.write

/-- The writes behind the last piece of a transfer, the latest one first. -/
def unfinished (ws : List FileWrite) : List FileWrite :=
  ws.reverse.takeWhile fun w => w.status != 0

/-- Nothing is left over: the results of the unfinished writes add up to 0. -/
def NothingLeft (ws : List FileWrite) : Prop := ((unfinished ws).map FileWrite.size).sum = 0

instance (ws : List FileWrite) : Decidable (NothingLeft ws) :=
  inferInstanceAs (Decidable (_ = _))

/-- A piece of a file, with what the system does when it arrives. -/
structure FilePiece where
  head : MsgHead
  data : List UInt8
  io : FileIo
  deriving DecidableEq

def FilePiece.request (fileName : List UInt8) (status : UInt32) (p : FilePiece) :
    FileWriteReq × FileIo :=
  (⟨p.head, fileName, status, p.data⟩, p.io)

/-- A transfer of a file. -/
structure Transfer where
  fileName : List UInt8
  front : List FilePiece
  last : FilePiece
  deriving DecidableEq

namespace Transfer

def pieces (t : Transfer) : List FilePiece := t.front ++ [t.last]

/-- The status is 1 for all pieces but the last one. -/
def requests (t : Transfer) : List (FileWriteReq × FileIo) :=
  t.front.map (FilePiece.request t.fileName 1) ++ [t.last.request t.fileName 0]

/-- What is transferred. -/
def content (t : Transfer) : List UInt8 := t.pieces.flatMap FilePiece.data

/-- The file is opened for every piece, and every piece is written completely. -/
def Completes (t : Transfer) (s : FileOper) : Prop :=
  (fileWriter.run s t.requests).2.map (fun out => out.write.map fun w => w.size.toInt) =
    t.pieces.map fun p => some (p.data.length : Int)

instance (t : Transfer) (s : FileOper) : Decidable (t.Completes s) :=
  inferInstanceAs (Decidable (_ = _))

/-- The first piece is written at 0, and the file begins with all pieces afterwards. -/
structure Uploads (t : Transfer) (s : FileOper) : Prop where
  first : (writesOf (fileWriter.run s t.requests).2).head?.map FileWrite.pos = some 0
  uploaded : ∃ file, (fileWriter.run s t.requests).1.files t.fileName = some file ∧
    t.content <+: file

end Transfer

/-! ## One request -/

theorem writeAt_end (done rest d : List UInt8) :
    writeAt (done ++ rest) done.length d = done ++ d ++ rest.drop d.length := by
  unfold writeAt
  split
  · next h => simp [h]
  · rw [List.take_left', List.drop_append]
    · simp
    · rfl

/-- A write that is complete ends before the largest offset. -/
theorem writeSize_complete {io : FileIo} {off n : Nat} (h : (writeSize io off n).toInt = n) :
    n = 0 ∨ off + n ≤ offMax := by
  have hneg : (-1 : Int32).toInt = -1 := rfl
  unfold writeSize at h
  cases hk : io.write with
  | none =>
    simp only [hk, hneg] at h
    omega
  | some k =>
    simp only [hk] at h
    split at h
    · rw [hneg] at h
      omega
    · next hroom =>
      have hoff : offMax = 2 ^ 31 - 1 := rfl
      rw [Int32.toInt_ofNat_of_lt (by omega)] at h
      omega

/-- **One request.** It writes at `s_cur_filepos` if its file is opened, and changes nothing if not. -/
theorem fileWriteHdlr_cases (s : FileOper) (i : FileWriteReq × FileIo) :
    (∃ w content, (fileWriteHdlr s i.1 i.2).2.write = some w ∧ w.pos = s.curFilepos ∧
      s.files i.1.fileName = some content ∧
      (fileWriteHdlr s i.1 i.2).1.curFilepos = if w.status ≠ 0 then s.curFilepos + w.size else 0) ∨
    (fileWriteHdlr s i.1 i.2).2.write = none ∧ (fileWriteHdlr s i.1 i.2).1 = s := by
  unfold fileWriteHdlr
  split
  · next content _ hfile => exact .inl ⟨_, content, rfl, rfl, hfile, rfl⟩
  · exact .inr ⟨rfl, rfl⟩

section Request

variable {s : FileOper} {name : List UInt8}

/-- A piece that is written completely behind the ones before it. -/
theorem piece_complete (p : FilePiece) (status : UInt32) {done rest : List UInt8} (hfile : s.files name = some (done ++ rest))
    (hpos : s.curFilepos.toInt = done.length)
    (hcomplete : ((fileWriteHdlr s (p.request name status).1 p.io).2.write.map
      fun w => w.size.toInt) = some (p.data.length : Int)) :
    (fileWriteHdlr s (p.request name status).1 p.io).1.files name =
        some (done ++ p.data ++ rest.drop p.data.length) ∧
      (status ≠ 0 → (fileWriteHdlr s (p.request name status).1 p.io).1.curFilepos.toInt =
        (done ++ p.data).length) := by
  have hoff : s.curFilepos.toInt.toNat = done.length := by omega
  unfold fileWriteHdlr at hcomplete ⊢
  cases hopens : p.io.opens with
  | false =>
    rw [hopens] at hcomplete
    cases hcomplete
  | true =>
    simp only [FilePiece.request, hopens, hfile, hoff] at hcomplete ⊢
    have hsize : (writeSize p.io done.length p.data.length).toInt = p.data.length :=
      Option.some.inj hcomplete
    have hroom := writeSize_complete hsize
    have hall : p.data.take (writeSize p.io done.length p.data.length).toInt.toNat = p.data := by
      rw [hsize, Int.toNat_natCast, List.take_length]
    rw [hall, writeAt_end]
    refine ⟨Function.update_self .., fun hstatus => ?_⟩
    have hmax : offMax = 2 ^ 31 - 1 := rfl
    have hbound := s.curFilepos.toInt_lt
    rw [if_pos hstatus, Int32.toInt_add, hpos, hsize, Int.bmod_eq_of_le (by omega) (by omega),
      List.length_append, Nat.cast_add]

end Request

/-! ## A transfer -/

theorem fileWriter_cons (s : FileOper) (i : FileWriteReq × FileIo)
    (is : List (FileWriteReq × FileIo)) :
    fileWriter.run s (i :: is) =
      ((fileWriter.run (fileWriteHdlr s i.1 i.2).1 is).1,
        (fileWriteHdlr s i.1 i.2).2 :: (fileWriter.run (fileWriteHdlr s i.1 i.2).1 is).2) := rfl

/-- The pieces of a transfer that are written completely lie one behind the other. -/
theorem front_complete {name : List UInt8} {last : FilePiece} :
    ∀ (front : List FilePiece) {s : FileOper} {done rest : List UInt8},
      s.files name = some (done ++ rest) → s.curFilepos.toInt = done.length →
      (fileWriter.run s (front.map (FilePiece.request name 1) ++ [last.request name 0])).2.map
          (fun out => out.write.map fun w => w.size.toInt) =
        (front ++ [last]).map (fun p => some (p.data.length : Int)) →
      ∃ file, (fileWriter.run s
          (front.map (FilePiece.request name 1) ++ [last.request name 0])).1.files name = some file ∧
        done ++ (front ++ [last]).flatMap FilePiece.data <+: file := by
  intro front
  induction front with
  | nil =>
    intro s done rest hfile hpos hcomplete
    have hlast := piece_complete last 0 hfile hpos
      (List.head_eq_of_cons_eq hcomplete)
    exact ⟨_, hlast.1, by simp⟩
  | cons p front ih =>
    intro s done rest hfile hpos hcomplete
    have hp := piece_complete p 1 hfile hpos (List.head_eq_of_cons_eq hcomplete)
    obtain ⟨file, hrun, hall⟩ := ih hp.1 (hp.2 (by decide)) (List.tail_eq_of_cons_eq hcomplete)
    refine ⟨file, hrun, ?_⟩
    rwa [List.cons_append, List.flatMap_cons, ← List.append_assoc]

/-- The first write of a transfer that completes. -/
theorem Transfer.Completes.first {t : Transfer} {s : FileOper} (h : t.Completes s) :
    (writesOf (fileWriter.run s t.requests).2).head?.map FileWrite.pos = some s.curFilepos ∧
      ∃ content, s.files t.fileName = some content := by
  obtain ⟨p, status, ps, is, hp, hreq⟩ : ∃ p status ps is, t.pieces = p :: ps ∧
      t.requests = p.request t.fileName status :: is := by
    obtain ⟨name, front, last⟩ := t
    cases front with
    | nil => exact ⟨last, 0, [], [], rfl, rfl⟩
    | cons p front => exact ⟨p, 1, _, _, rfl, rfl⟩
  unfold Transfer.Completes at h
  rw [hreq, fileWriter_cons] at h ⊢
  rw [hp] at h
  have hwrite := List.head_eq_of_cons_eq h
  rcases fileWriteHdlr_cases s (p.request t.fileName status) with
    ⟨w, content, hw, hpos, hfile, -⟩ | ⟨hnone, -⟩
  · refine ⟨?_, content, hfile⟩
    rw [writesOf, List.filterMap_cons_some hw, List.head?_cons, Option.map_some, hpos]
  · simp only [hnone] at hwrite
    cases hwrite

/-! ## The history -/

theorem unfinished_snoc (ws : List FileWrite) (w : FileWrite) :
    unfinished (ws ++ [w]) = if w.status ≠ 0 then w :: unfinished ws else [] := by
  rw [unfinished, List.reverse_append, List.reverse_singleton, List.singleton_append,
    List.takeWhile_cons]
  simp only [bne_iff_ne, ne_eq]
  rfl

/-- `s_cur_filepos` after a history. -/
theorem curFilepos_eq (files : List UInt8 → Option (List UInt8))
    (history : List (FileWriteReq × FileIo)) :
    (fileWriter.run (.init files) history).1.curFilepos =
      ((unfinished (writesOf (fileWriter.run (.init files) history).2)).map FileWrite.size).sum := by
  have hstep : ∀ (s : FileOper) (log : List FileWriteOut) (i : FileWriteReq × FileIo),
      s.curFilepos = ((unfinished (writesOf log)).map FileWrite.size).sum → True →
      (fileWriter.step s i).1.curFilepos =
        ((unfinished (writesOf (log ++ (fileWriter.step s i).2))).map FileWrite.size).sum := by
    intro s log i hs _
    have hwrites : writesOf (log ++ (fileWriter.step s i).2) =
        writesOf log ++ (fileWriteHdlr s i.1 i.2).2.write.toList := by
      rw [writesOf, List.filterMap_append]
      cases h : (fileWriteHdlr s i.1 i.2).2.write <;> simp [writesOf, fileWriter, h]
    rw [hwrites]
    rcases fileWriteHdlr_cases s i with ⟨w, content, hw, -, -, hcur⟩ | ⟨hnone, hsame⟩
    · rw [hw, Option.toList_some, unfinished_snoc]
      refine hcur.trans ?_
      split
      · rw [List.map_cons, List.sum_cons, ← hs, Int32.add_comm]
      · rfl
    · rw [hnone, Option.toList_none, List.append_nil, ← hs]
      exact congrArg FileOper.curFilepos hsame
  exact fileWriter.run_induction hstep history (.init files) [] rfl (fileWriter.admits_true _ _)

/-- **A transfer uploads its file** exactly if the history leaves nothing over. -/
theorem upload_iff (files : List UInt8 → Option (List UInt8))
    (history : List (FileWriteReq × FileIo)) (t : Transfer)
    (hcomplete : t.Completes (fileWriter.run (.init files) history).1) :
    t.Uploads (fileWriter.run (.init files) history).1 ↔
      NothingLeft (writesOf (fileWriter.run (.init files) history).2) := by
  obtain ⟨hfirst, file, hfile⟩ := hcomplete.first
  rw [NothingLeft, ← curFilepos_eq]
  constructor
  · intro h
    exact Option.some.inj (hfirst.symm.trans h.first)
  · intro hzero
    refine ⟨hfirst.trans (congrArg some hzero), ?_⟩
    have hempty : (fileWriter.run (.init files) history).1.files t.fileName = some ([] ++ file) :=
      hfile
    exact front_complete t.front hempty (by rw [hzero]; rfl) hcomplete

/-! ## Transfers of a file -/

/-- A phone with one file, which is empty. -/
def oneFile (name : List UInt8) : List UInt8 → Option (List UInt8) :=
  fun other => if other = name then some [] else none

def piece (data : List UInt8) : FilePiece := ⟨⟨0, 0, 0, 0⟩, data, ⟨true, some data.length⟩⟩

/-- Two pieces after a transfer that was finished. -/
theorem upload_after_finished :
    (Transfer.mk [0x66] [piece [3, 4]] (piece [5])).Uploads
      (fileWriter.run (.init (oneFile [0x66]))
        [(piece [1, 2]).request [0x66] 1, (piece [9]).request [0x66] 0]).1 :=
  (upload_iff (oneFile [0x66]) [(piece [1, 2]).request [0x66] 1, (piece [9]).request [0x66] 0]
    ⟨[0x66], [piece [3, 4]], piece [5]⟩ (by decide)).mpr (by decide)

/-- A transfer that was abandoned after its first piece moves the next one. -/
theorem not_uploads_after_abandoned :
    let history := [(piece [1, 2]).request [0x66] 1]
    let t : Transfer := ⟨[0x66], [], piece [5]⟩
    t.Completes (fileWriter.run (.init (oneFile [0x66])) history).1 ∧
      ¬ t.Uploads (fileWriter.run (.init (oneFile [0x66])) history).1 := by
  refine ⟨by decide, fun h => ?_⟩
  have hfirst : (some 2 : Option Int32) = some 0 := h.first
  cases hfirst

end SprdHal.Engmode
