import SprdHal.Engmode.UserHandle

/-!
# Reading a file in frames (`eng_diag_fileoper_hdlr`)

A request to read a file is answered with frames of up to `MAX_DIAG_TRANSMIT_FILE_LEN` bytes. The loop
ends when the sum of what `read` has returned equals the size that `stat` has reported before, so it
ends only if some results of `read` meet that size: a file that has shrunk makes `read` return 0 for
ever, a file that has grown lets the sum go past the size, and an error is counted as -1
(`fileRead_iff`).
-/

namespace SprdHal.Engmode

open SprdHal.Lib

/-- What `read` returns: up to `MAX_DIAG_TRANSMIT_FILE_LEN` bytes, none at the end of the file, or an
error. -/
abbrev ReadResult := Option {bytes : List UInt8 // bytes.length ≤ 8192}

/-- The bytes that were read. -/
def ReadResult.bytes : ReadResult → List UInt8
  | some bs => bs.val
  | none => []

/-- `read_size` -/
def ReadResult.size : ReadResult → Int32
  | some bs => Int32.ofNat bs.val.length
  | none => -1

/-- `TOOLS_DIAG_AP_FILE_DATA_T` -/
structure FileData where
  status : UInt32
  dataLen : UInt32
  data : List UInt8
  deriving DecidableEq

/-- The bytes of a frame that carry data; there are none behind the buffer. -/
def FileData.payload (d : FileData) : Option (List UInt8) :=
  if d.dataLen.toNat ≤ d.data.length then some (d.data.take d.dataLen.toNat) else none

/-- The data of frames, one behind the other. -/
def FileData.payloads : List FileData → Option (List UInt8)
  | [] => some []
  | d :: ds => d.payload.bind fun p => (payloads ds).map (p ++ ·)

/-- A packet: the header, a `TOOLS_DIAG_AP_CNF_T` with its `status`, and a
`TOOLS_DIAG_AP_FILE_DATA_T`. -/
def fileDataPacket (head : MsgHead) (status : UInt16) (d : FileData) : List UInt8 :=
  translatePacket ({ head with len := 8212 }.bytes ++ leHalfBytes status ++ leHalfBytes 8200 ++
    leBytes d.status ++ leBytes d.dataLen ++ d.data)

/-- The frame with what `read` has returned. The buffer keeps what is not overwritten. -/
def readFrame (status : UInt32) (r : ReadResult) (data : List UInt8) : FileData :=
  ⟨status, r.size.toUInt32, r.bytes ++ data.drop r.bytes.length⟩

/-- The loop: the frames that it sends. `reads` are the results of `read` from now on, `total` is
`total_size`, and `data` the buffer. There is no result if the loop takes more rounds than `fuel`. -/
def readLoop (fileSize : Int32) : Nat → (Nat → ReadResult) → Int32 → List UInt8 →
    Option (List FileData)
  | 0, _, _, _ => none
  | fuel + 1, reads, total, data =>
    let total := total + (reads 0).size
    let frame := readFrame (if total ≠ fileSize then 1 else 0) (reads 0) data
    if fileSize ≠ total then
      (readLoop fileSize fuel (fun n => reads (n + 1)) total frame.data).map (frame :: ·)
    else some [frame]

/-- What a request meets: the result of `eng_get_filesize`, 0 if `stat` fails, whether the file can be
opened, and the results of `read`. -/
structure FileReadIo where
  size : Int32
  opens : Bool
  reads : Nat → ReadResult

/-- What a request leads to: the length of a packet with an error, or frames that are sent. The packet
is written to `diag_frame`, which is freed; the handler leaves `rsp` as it is. -/
inductive FileReadOut
  | failed (ret : Nat)
  | frames (ds : List FileData)

/-- `tmp`, set to zero. -/
def FileData.empty : FileData := ⟨0, 0, List.replicate 8192 0⟩

/-- `eng_diag_fileoper_hdlr` for a request to read, with so many rounds at most. -/
def fileReadHdlr (fuel : Nat) (head : MsgHead) (io : FileReadIo) : Option FileReadOut :=
  if io.size = 0 then some (.failed (fileDataPacket head 1 .empty).length)
  else if io.opens = false then some (.failed (fileDataPacket head 1 .empty).length)
  else (readLoop io.size fuel io.reads 0 FileData.empty.data).map .frames

/-- The packets that the loop sends to the PC. -/
def FileReadOut.packets (head : MsgHead) : FileReadOut → List (List UInt8)
  | .failed _ => []
  | .frames ds => ds.map (fileDataPacket head 0)

/-! ## What the PC relies on -/

/-- The first results of `read`. -/
def firstReads (reads : Nat → ReadResult) (n : Nat) : List ReadResult := (List.range n).map reads

/-- The data of the frames are the bytes that were read, and the last frame alone has status 0. -/
structure Delivers (reads : Nat → ReadResult) (ds : List FileData) : Prop where
  payloads : FileData.payloads ds = some ((firstReads reads ds.length).flatMap ReadResult.bytes)
  last : ds.map FileData.status = List.replicate (ds.length - 1) 1 ++ [0]

def FileReadOut.Complete (io : FileReadIo) : FileReadOut → Prop
  | .failed _ => True
  | .frames ds => Delivers io.reads ds

/-- Some results of `read`, none of them an error, add up to the size. -/
def MeetsSize (size : Int32) (reads : Nat → ReadResult) : Prop :=
  ∃ n, (∀ r ∈ firstReads reads n, r ≠ none) ∧
    ((firstReads reads n).map ReadResult.size).sum = size

/-! ## The loop -/

section Loop

variable {fileSize : Int32} {reads : Nat → ReadResult}

theorem firstReads_succ (reads : Nat → ReadResult) (n : Nat) :
    firstReads reads (n + 1) = reads 0 :: firstReads (fun k => reads (k + 1)) n := by
  rw [firstReads, List.range_succ_eq_map, List.map_cons, List.map_map]
  rfl

theorem ReadResult.length_bytes_le (r : ReadResult) : r.bytes.length ≤ 8192 := by
  cases r with
  | none => exact Nat.zero_le _
  | some bs => exact bs.property

/-- The buffer keeps its length. -/
theorem length_readFrame (status : UInt32) (r : ReadResult) {data : List UInt8}
    (hdata : data.length = 8192) : (readFrame status r data).data.length = 8192 := by
  have hle := r.length_bytes_le
  rw [readFrame, List.length_append, List.length_drop, hdata]
  omega

/-- The data of a frame are what was read. -/
theorem payload_some (bs : {bytes : List UInt8 // bytes.length ≤ 8192})
    (status : UInt32) (rest : List UInt8) :
    FileData.payload ⟨status, (ReadResult.size (some bs)).toUInt32, bs.val ++ rest⟩ =
      some bs.val := by
  have hlen : (ReadResult.size (some bs)).toUInt32.toNat = bs.val.length := by
    have hle := bs.property
    show (UInt32.ofNat bs.val.length).toNat = _
    rw [UInt32.toNat_ofNat']
    omega
  unfold FileData.payload
  dsimp only
  rw [hlen, if_pos (by rw [List.length_append]; omega), List.take_left]

/-- After an error the frame says that it carries more than its buffer. -/
theorem payload_none (status : UInt32) {data : List UInt8}
    (hdata : data.length = 8192) :
    FileData.payload ⟨status, (ReadResult.size none).toUInt32, data⟩ = none := by
  have hlen : (ReadResult.size none).toUInt32.toNat = 4294967295 := rfl
  unfold FileData.payload
  dsimp only
  rw [hlen, hdata, if_neg (by omega)]

theorem readLoop_ne_nil {fuel : Nat} {total : Int32} {data : List UInt8} {ds : List FileData}
    (h : readLoop fileSize fuel reads total data = some ds) : ds ≠ [] := by
  rintro rfl
  cases fuel with
  | zero => cases h
  | succ fuel =>
    rw [readLoop] at h
    split at h
    · obtain ⟨ds, -, hds⟩ := Option.map_eq_some_iff.mp h
      cases hds
    · cases h

/-- A frame in front of others. -/
theorem delivers_cons {d : FileData} {ds : List FileData} (hds : ds ≠ []) (hstatus : d.status = 1)
    (hd : d.payload = some (reads 0).bytes) :
    Delivers reads (d :: ds) ↔ Delivers (fun n => reads (n + 1)) ds := by
  have hreads : (firstReads reads (d :: ds).length).flatMap ReadResult.bytes = (reads 0).bytes ++
      (firstReads (fun n => reads (n + 1)) ds.length).flatMap ReadResult.bytes := by
    rw [List.length_cons, firstReads_succ, List.flatMap_cons]
  have hlast : List.replicate ((d :: ds).length - 1) (1 : UInt32) ++ [0] =
      1 :: (List.replicate (ds.length - 1) 1 ++ [0]) := by
    obtain ⟨n, hn⟩ : ∃ n, ds.length = n + 1 :=
      Nat.exists_eq_succ_of_ne_zero fun h => hds (List.eq_nil_of_length_eq_zero h)
    rw [List.length_cons, hn]
    rfl
  constructor
  · rintro ⟨hpay, hstat⟩
    rw [FileData.payloads, hd, Option.bind_some, hreads] at hpay
    rw [hlast, List.map_cons, hstatus] at hstat
    obtain ⟨p, hp, happ⟩ := Option.map_eq_some_iff.mp hpay
    rw [List.append_cancel_left happ] at hp
    exact ⟨hp, (List.cons.inj hstat).2⟩
  · rintro ⟨hpay, hstat⟩
    refine ⟨?_, ?_⟩
    · rw [FileData.payloads, hd, Option.bind_some, hpay, hreads]
      rfl
    · rw [hlast, List.map_cons, hstatus, hstat]

/-- A frame alone. -/
theorem delivers_singleton {d : FileData} (hstatus : d.status = 0)
    (hd : d.payload = some (reads 0).bytes) : Delivers reads [d] := by
  refine ⟨?_, ?_⟩
  · rw [FileData.payloads, hd, List.length_singleton, firstReads_succ, List.flatMap_cons]
    rfl
  · rw [List.map_singleton, hstatus]
    rfl

/-- A frame that carries more than its buffer delivers nothing. -/
theorem Delivers.payload_ne_none {d : FileData} {ds : List FileData} (h : Delivers reads (d :: ds)) :
    d.payload ≠ none := by
  intro hnone
  have hpay := h.payloads
  rw [FileData.payloads, hnone] at hpay
  cases hpay

/-- What meets the size, read by read. -/
theorem meets_cons (total : Int32) (n : Nat) :
    ((∀ r ∈ firstReads reads (n + 1), r ≠ none) ∧
        total + ((firstReads reads (n + 1)).map ReadResult.size).sum = fileSize) ↔
      reads 0 ≠ none ∧ (∀ r ∈ firstReads (fun k => reads (k + 1)) n, r ≠ none) ∧
        total + (reads 0).size +
          ((firstReads (fun k => reads (k + 1)) n).map ReadResult.size).sum = fileSize := by
  rw [firstReads_succ, List.forall_mem_cons, List.map_cons, List.sum_cons, and_assoc,
    Int32.add_assoc]

/-- The frame of a round. -/
theorem payload_readFrame (status : UInt32) (r : ReadResult) {data : List UInt8}
    (hdata : data.length = 8192) :
    (readFrame status r data).payload = if r = none then none else some r.bytes := by
  have hlen := length_readFrame status r hdata
  cases r with
  | none => exact payload_none status hlen
  | some bs => exact payload_some bs status _

/-- The round in which the size is met. -/
theorem readLoop_stop {total : Int32} {data : List UInt8} (hdata : data.length = 8192)
    (hread : reads 0 ≠ none) (hmeet : total + (reads 0).size = fileSize) :
    ∃ fuel ds, readLoop fileSize fuel reads total data = some ds ∧ Delivers reads ds := by
  refine ⟨1, [readFrame 0 (reads 0) data], ?_,
    delivers_singleton rfl ((payload_readFrame 0 _ hdata).trans (if_neg hread))⟩
  rw [readLoop]
  rw [if_neg (not_not.mpr hmeet.symm), if_neg (not_not.mpr hmeet)]

/-- **The loop**, from any round on. -/
theorem readLoop_iff (total : Int32) {data : List UInt8} (hdata : data.length = 8192) :
    (∃ fuel ds, readLoop fileSize fuel reads total data = some ds ∧ Delivers reads ds) ↔
      ∃ n, (∀ r ∈ firstReads reads (n + 1), r ≠ none) ∧
        total + ((firstReads reads (n + 1)).map ReadResult.size).sum = fileSize := by
  constructor
  · rintro ⟨fuel, ds, hloop, hdel⟩
    induction fuel generalizing reads total data ds with
    | zero => cases hloop
    | succ fuel ih =>
      rw [readLoop] at hloop
      split at hloop
      · rename_i hne
        obtain ⟨ds', hloop', rfl⟩ := Option.map_eq_some_iff.mp hloop
        have hread : reads 0 ≠ none := by
          intro hread
          refine hdel.payload_ne_none ((payload_readFrame _ _ hdata).trans (if_pos hread))
        have hnext := (delivers_cons (readLoop_ne_nil hloop') (if_pos (Ne.symm hne))
          ((payload_readFrame _ _ hdata).trans (if_neg hread))).mp hdel
        obtain ⟨n, hn⟩ := ih _ (length_readFrame _ (reads 0) hdata) _ hloop' hnext
        exact ⟨n + 1, (meets_cons total _).mpr ⟨hread, hn⟩⟩
      · rename_i heq
        obtain rfl := Option.some.inj hloop
        refine ⟨0, (meets_cons total _).mpr ⟨fun hread => ?_, fun r hr => ?_, ?_⟩⟩
        · exact hdel.payload_ne_none ((payload_readFrame _ _ hdata).trans (if_pos hread))
        · exact absurd hr List.not_mem_nil
        · rw [not_not] at heq
          rw [heq]
          exact Int32.add_zero _
  · rintro ⟨n, hn⟩
    induction n generalizing reads total data with
    | zero =>
      obtain ⟨hread, -, hsum⟩ := (meets_cons total _).mp hn
      have hmeet : total + (reads 0).size = fileSize := (Int32.add_zero _).symm.trans hsum
      exact readLoop_stop hdata hread hmeet
    | succ n ih =>
      obtain ⟨hread, hrest⟩ := (meets_cons total _).mp hn
      by_cases hmeet : total + (reads 0).size = fileSize
      · exact readLoop_stop hdata hread hmeet
      · obtain ⟨fuel, ds, hloop, hdel⟩ := ih _ (length_readFrame _ (reads 0) hdata) hrest
        refine ⟨fuel + 1, _, ?_, (delivers_cons (readLoop_ne_nil hloop) rfl
          ((payload_readFrame _ _ hdata).trans (if_neg hread))).mpr hdel⟩
        rw [readLoop]
        rw [if_pos (Ne.symm hmeet), if_pos hmeet, hloop]
        rfl

end Loop

/-- **Reading a file** terminates with the file's bytes in frames, of which the last alone has status
0, exactly if some results of `read` without an error add up to the size that `stat` has reported, as
numbers of 32 bits; unless there is nothing to read. -/
theorem fileRead_iff (head : MsgHead) (io : FileReadIo) :
    (∃ fuel out, fileReadHdlr fuel head io = some out ∧ out.Complete io) ↔
      io.size = 0 ∨ io.opens = false ∨ MeetsSize io.size io.reads := by
  unfold fileReadHdlr
  by_cases hsize : io.size = 0
  · simp only [if_pos hsize]
    exact iff_of_true ⟨0, _, rfl, trivial⟩ (Or.inl hsize)
  by_cases hopens : io.opens = false
  · simp only [if_neg hsize, if_pos hopens]
    exact iff_of_true ⟨0, _, rfl, trivial⟩ (Or.inr (Or.inl hopens))
  simp only [if_neg hsize, if_neg hopens]
  rw [or_iff_right hsize, or_iff_right hopens]
  -- a size that is not 0 is not met before the first read
  have hmeets : MeetsSize io.size io.reads ↔
      ∃ n, (∀ r ∈ firstReads io.reads (n + 1), r ≠ none) ∧
        0 + ((firstReads io.reads (n + 1)).map ReadResult.size).sum = io.size := by
    simp only [Int32.zero_add]
    constructor
    · rintro ⟨n, hn⟩
      cases n with
      | zero => exact absurd hn.2.symm hsize
      | succ n => exact ⟨n, hn⟩
    · rintro ⟨n, hn⟩
      exact ⟨n + 1, hn⟩
  rw [hmeets, ← readLoop_iff 0 (List.length_replicate (n := 8192))]
  constructor
  · rintro ⟨fuel, out, hout, hcomplete⟩
    obtain ⟨ds, hloop, rfl⟩ := Option.map_eq_some_iff.mp hout
    exact ⟨fuel, ds, hloop, hcomplete⟩
  · rintro ⟨fuel, ds, hloop, hdel⟩
    exact ⟨fuel, .frames ds, Option.map_eq_some_iff.mpr ⟨ds, hloop, rfl⟩, hdel⟩

/-- A file of one byte that has grown to two: the first read goes past the size, and the reads at the
end of the file do not bring it back. -/
def grownFile : FileReadIo where
  size := 1
  opens := true
  reads
    | 0 => some ⟨[0x61, 0x62], by decide⟩
    | _ + 1 => some ⟨[], by decide⟩

theorem readLoop_past_end {reads : Nat → ReadResult} (hreads : ∀ n, (reads n).size = 0)
    {fileSize total : Int32} (hne : fileSize ≠ total) (fuel : Nat) (data : List UInt8) :
    readLoop fileSize fuel reads total data = none := by
  induction fuel generalizing reads data with
  | zero => rfl
  | succ fuel ih =>
    rw [readLoop]
    rw [hreads, Int32.add_zero, if_pos hne, ih fun n => hreads (n + 1)]
    rfl

theorem grownFile_not_read : ¬∃ fuel, fileReadHdlr fuel ⟨0, 0, 0, 0⟩ grownFile ≠ none := by
  rintro ⟨fuel, hsome⟩
  apply hsome
  have hsize : grownFile.size ≠ 0 := by decide
  have hopens : grownFile.opens ≠ false := by decide
  rw [fileReadHdlr, if_neg hsize, if_neg hopens]
  cases fuel with
  | zero => rfl
  | succ fuel =>
    have hne : (1 : Int32) ≠ 0 + (grownFile.reads 0).size := by decide
    have hrest : ∀ data, readLoop 1 fuel (fun n => grownFile.reads (n + 1))
        (0 + (grownFile.reads 0).size) data = none := readLoop_past_end (fun _ => rfl) hne fuel
    show Option.map _ (readLoop 1 (fuel + 1) grownFile.reads 0 FileData.empty.data) = none
    rw [readLoop]
    rw [if_pos hne, hrest]
    rfl

end SprdHal.Engmode
