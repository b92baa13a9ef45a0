import SprdHal.Lib.Frames
import SprdHal.Lib.Memory

/-!
# Packets of the ISP tuning server (`isp_video.c`)

The PC tool sends packets over TCP, and `isp_RecDataCheck` sees what each `recv` returns. A chunk
that begins and ends with `0x7e` is taken for a packet, whatever came before. Other chunks are put
together until as many bytes are there as the length field of the first chunk said; the field is
read from `diag_rx_buf` even if the chunk is too short to hold it.
-/

namespace SprdHal.Isp

open SprdHal.Lib

/-- `CMD_BUF_SIZE` -/
def cmdBufSize : Nat := 65536

/-- The 16-bit `len` field of a packet, without the two flags. -/
def packetLen (m : Mem) : Nat := 256 * (m 6).toNat + (m 5).toNat

/-- What `isp_diag_handler` keeps between two calls of `recv`. A copy behind the end of
`diag_cmd_buf` overruns other data. -/
structure Diag where
  diagRxBuf : Mem
  diagCmdBuf : Mem
  rxPacketLen : Nat
  rxPacketTotalLen : Nat
  overrun : Bool

namespace Diag

/-- The beginning of `isp_diag_handler`; the buffers are static. -/
def init (rx cmd : Mem) : Diag := ⟨rx, cmd, 0, 0, false⟩

/-- `rx_packet_total_len`, set with the first chunk of a packet. -/
def totalLen (s : Diag) (header : UInt8) (rx : Mem) : Nat :=
  if header = 0x7e ∧ s.rxPacketTotalLen = 0 ∧ s.rxPacketLen = 0 then packetLen rx + 2
  else s.rxPacketTotalLen

/-- `isp_RecDataCheck` on a chunk from `recv`: the length of the packet if it is complete. -/
def ispRecDataCheck (s : Diag) (chunk : List UInt8) : Diag × Option Nat :=
  let rx := s.diagRxBuf.store 0 chunk
  let header := chunk.headD 0
  let last := chunk.getLastD 0
  let total := s.totalLen header rx
  let cmd := s.diagCmdBuf.store s.rxPacketLen chunk
  if s.overrun ∨ cmdBufSize < s.rxPacketLen + chunk.length then ({ s with overrun := true }, none)
  -- one packet
  else if header = 0x7e ∧ last = 0x7e then (⟨rx, cmd, 0, 0, false⟩, some chunk.length)
  -- several chunks
  else if last = 0x7e ∧ s.rxPacketLen + chunk.length = total then
    (⟨rx, cmd, 0, 0, false⟩, some (s.rxPacketLen + chunk.length))
  else (⟨rx, cmd, s.rxPacketLen + chunk.length, total, false⟩, none)

/-- One round of the loop; the output is what `handle_isp_data` is called with. -/
def recv (s : Diag) (chunk : List UInt8) : Diag × List (List UInt8) :=
  match s.ispRecDataCheck chunk with
  | (s, some len) => (s, [s.diagCmdBuf.bytes 0 len])
  | (s, none) => (s, [])

end Diag

/-- The loop of `isp_diag_handler`. -/
def ispDiagHandler : Machine Diag (List UInt8) (List UInt8) where
  step := Diag.recv

/-- The 16-bit length field of a packet. -/
def lenField (p : List UInt8) : Nat := 256 * (p.getD 6 0).toNat + (p.getD 5 0).toNat

/-- A well-formed packet: a flag, eight bytes of header, a body and a flag. -/
structure IsPacket (p : List UInt8) : Prop where
  first : p.headD 0 = 0x7e
  last : p.getLastD 0 = 0x7e
  header : 10 ≤ p.length
  len : lenField p + 2 = p.length
  le_buf : p.length ≤ cmdBufSize

/-- What `recv` may return. -/
def IsChunk (c : List UInt8) : Prop := c ≠ [] ∧ c.length ≤ cmdBufSize

/-- The chunks keep to what `isp_RecDataCheck` can put together; of the first packet, `fr` has been
received, and `rx` is what earlier chunks left in `diag_rx_buf`. No chunk holds bytes of two
packets. Where a packet comes in several chunks, the first one does not end with a flag and shows
the length of the packet, the last one does not begin with a flag, and none in between does both. -/
def Gathers (rx : Mem) (fr : List UInt8) : List (List UInt8) → List (List UInt8) → Prop
  | [], ps => ps = []
  | _ :: _, [] => False
  | c :: cs, p :: ps =>
    (fr ++ c = p ∧ (fr = [] ∨ c.headD 0 ≠ 0x7e) ∧ Gathers (rx.store 0 c) [] cs ps) ∨
    (fr ++ c ≠ p ∧ fr ++ c <+: p ∧
      (fr = [] → c.getLastD 0 ≠ 0x7e ∧ packetLen (rx.store 0 c) + 2 = p.length) ∧
      (fr ≠ [] → ¬(c.headD 0 = 0x7e ∧ c.getLastD 0 = 0x7e)) ∧
      Gathers (rx.store 0 c) (fr ++ c) cs (p :: ps))

/-! ## What is handled was received -/

section Counting

variable {s : Diag}

theorem recv_of_overrun (h : s.overrun = true) (c : List UInt8) :
    (s.recv c).2 = [] ∧ (s.recv c).1.overrun = true := by
  simp [Diag.recv, Diag.ispRecDataCheck, h]

theorem run_of_overrun (h : s.overrun = true) (cs : List (List UInt8)) :
    (ispDiagHandler.run s cs).2 = [] := by
  induction cs generalizing s with
  | nil => rfl
  | cons c cs ih =>
    obtain ⟨hnil, hover⟩ := recv_of_overrun h c
    rw [Machine.run_cons]
    show (s.recv c).2 ++ _ = []
    rw [hnil, List.nil_append]
    exact ih hover

/-- The state after a chunk that completes a packet. -/
def Diag.done (s : Diag) (c : List UInt8) : Diag :=
  ⟨s.diagRxBuf.store 0 c, s.diagCmdBuf.store s.rxPacketLen c, 0, 0, false⟩

/-- The state after a chunk that completes nothing. -/
def Diag.more (s : Diag) (c : List UInt8) : Diag :=
  ⟨s.diagRxBuf.store 0 c, s.diagCmdBuf.store s.rxPacketLen c, s.rxPacketLen + c.length,
    s.totalLen (c.headD 0) (s.diagRxBuf.store 0 c), false⟩

section Recv

variable {c : List UInt8} (hs : s.overrun = false) (hle : s.rxPacketLen + c.length ≤ cmdBufSize)

include hs hle

theorem not_overrun : ¬(s.overrun = true ∨ cmdBufSize < s.rxPacketLen + c.length) := by
  rw [hs]
  rintro (h | h)
  · exact nomatch h
  · omega

/-- A chunk between two flags. -/
theorem recv_one (hone : c.headD 0 = 0x7e ∧ c.getLastD 0 = 0x7e) :
    s.recv c = (s.done c, [(s.done c).diagCmdBuf.bytes 0 c.length]) := by
  unfold Diag.recv Diag.ispRecDataCheck
  simp only [if_neg (not_overrun hs hle), if_pos hone]
  rfl

/-- The chunk that completes a packet. -/
theorem recv_all (hone : ¬(c.headD 0 = 0x7e ∧ c.getLastD 0 = 0x7e))
    (hall : c.getLastD 0 = 0x7e ∧
      s.rxPacketLen + c.length = s.totalLen (c.headD 0) (s.diagRxBuf.store 0 c)) :
    s.recv c = (s.done c, [(s.done c).diagCmdBuf.bytes 0 (s.rxPacketLen + c.length)]) := by
  unfold Diag.recv Diag.ispRecDataCheck
  simp only [if_neg (not_overrun hs hle), if_neg hone, if_pos hall]
  rfl

/-- Any other chunk. -/
theorem recv_more (hone : ¬(c.headD 0 = 0x7e ∧ c.getLastD 0 = 0x7e))
    (hall : ¬(c.getLastD 0 = 0x7e ∧
      s.rxPacketLen + c.length = s.totalLen (c.headD 0) (s.diagRxBuf.store 0 c))) :
    s.recv c = (s.more c, []) := by
  unfold Diag.recv Diag.ispRecDataCheck
  simp only [if_neg (not_overrun hs hle), if_neg hone, if_neg hall]
  rfl

end Recv

/-- What one chunk can do. -/
theorem recv_cases (s : Diag) (c : List UInt8) :
    ((s.recv c).2 = [] ∧ (s.recv c).1.overrun = true) ∨
    (c.headD 0 = 0x7e ∧ c.getLastD 0 = 0x7e) ∧
      s.recv c = (s.done c, [(s.done c).diagCmdBuf.bytes 0 c.length]) ∨
    ¬(c.headD 0 = 0x7e ∧ c.getLastD 0 = 0x7e) ∧
      s.rxPacketLen + c.length = s.totalLen (c.headD 0) (s.diagRxBuf.store 0 c) ∧
      s.recv c = (s.done c, [(s.done c).diagCmdBuf.bytes 0 (s.rxPacketLen + c.length)]) ∨
    ¬(c.headD 0 = 0x7e ∧ c.getLastD 0 = 0x7e) ∧ s.recv c = (s.more c, []) := by
  by_cases hover : s.overrun = true ∨ cmdBufSize < s.rxPacketLen + c.length
  · left
    unfold Diag.recv Diag.ispRecDataCheck
    simp only [if_pos hover]
    exact ⟨trivial, trivial⟩
  · right
    have hs : s.overrun = false := by simpa using fun h => hover (Or.inl h)
    have hle : s.rxPacketLen + c.length ≤ cmdBufSize := Nat.not_lt.mp fun h => hover (Or.inr h)
    by_cases hone : c.headD 0 = 0x7e ∧ c.getLastD 0 = 0x7e
    · exact Or.inl ⟨hone, recv_one hs hle hone⟩
    · right
      by_cases hall : c.getLastD 0 = 0x7e ∧
          s.rxPacketLen + c.length = s.totalLen (c.headD 0) (s.diagRxBuf.store 0 c)
      · exact Or.inl ⟨hone, hall.2, recv_all hs hle hone hall⟩
      · exact Or.inr ⟨hone, recv_more hs hle hone hall⟩

/-- All that is handled was received. -/
theorem handled_length (cs : List (List UInt8)) (s : Diag) :
    (ispDiagHandler.run s cs).2.flatten.length ≤ s.rxPacketLen + cs.flatten.length := by
  induction cs generalizing s with
  | nil => simp
  | cons c cs ih =>
    rw [Machine.run_cons]
    show ((s.recv c).2 ++ (ispDiagHandler.run (s.recv c).1 cs).2).flatten.length ≤ _
    rw [List.flatten_append, List.length_append, List.flatten_cons, List.length_append]
    have ih := ih (s.recv c).1
    rcases recv_cases s c with ⟨hnil, hover⟩ | ⟨-, he⟩ | ⟨-, -, he⟩ | ⟨-, he⟩
    · rw [hnil, run_of_overrun hover]
      simp
    · rw [he] at ih ⊢
      simp only [List.flatten_cons, List.flatten_nil, List.append_nil, Mem.length_bytes,
        Diag.done, Nat.zero_add] at ih ⊢
      omega
    · rw [he] at ih ⊢
      simp only [List.flatten_cons, List.flatten_nil, List.append_nil, Mem.length_bytes,
        Diag.done, Nat.zero_add] at ih ⊢
      omega
    · rw [he] at ih ⊢
      simp only [List.flatten_nil, List.length_nil, Diag.more, Nat.zero_add] at ih ⊢
      omega

/-- Bytes that are put together with others but not handled with them are lost. -/
theorem handled_ne_of_lost {p : List UInt8} {ps cs : List (List UInt8)} {c : List UInt8}
    (hpos : 0 < s.rxPacketLen) (hone : c.headD 0 = 0x7e ∧ c.getLastD 0 = 0x7e)
    (hlen : s.rxPacketLen + (c :: cs).flatten.length = (p :: ps).flatten.length) :
    (ispDiagHandler.run s (c :: cs)).2 ≠ p :: ps := by
  intro heq
  rw [Machine.run_cons] at heq
  replace heq : (s.recv c).2 ++ (ispDiagHandler.run (s.recv c).1 cs).2 = p :: ps := heq
  have hcount := handled_length cs (s.recv c).1
  have htotal := congrArg (fun l => l.flatten.length) heq
  simp only [List.flatten_append, List.length_append] at htotal
  rw [List.flatten_cons, List.length_append] at hlen
  rcases recv_cases s c with ⟨hnil, hover⟩ | ⟨-, he⟩ | ⟨hno, -⟩ | ⟨hno, -⟩
  · rw [hnil, run_of_overrun hover] at heq
    exact nomatch heq
  · rw [he] at htotal hcount
    simp only [List.flatten_cons, List.flatten_nil, List.append_nil, Mem.length_bytes,
      List.length_append, Diag.done] at htotal hcount hlen
    omega
  · exact absurd hone hno
  · exact absurd hone hno

/-- A receiver that waits for the wrong number of bytes, or has more than it waits for, does not get
the packet any more. -/
theorem handled_ne_of_stuck {p : List UInt8} {ps : List (List UInt8)} :
    ∀ (cs : List (List UInt8)) (s : Diag), 0 < s.rxPacketLen →
      (s.rxPacketTotalLen ≠ p.length ∨ s.rxPacketTotalLen < s.rxPacketLen) →
      s.rxPacketLen + cs.flatten.length = (p :: ps).flatten.length →
      (ispDiagHandler.run s cs).2 ≠ p :: ps := by
  intro cs
  induction cs with
  | nil => intro s _ _ _ heq; exact nomatch heq
  | cons c cs ih =>
    intro s hpos hwrong hlen
    by_cases hone : c.headD 0 = 0x7e ∧ c.getLastD 0 = 0x7e
    · exact handled_ne_of_lost hpos hone hlen
    · intro heq
      rw [Machine.run_cons] at heq
      replace heq : (s.recv c).2 ++ (ispDiagHandler.run (s.recv c).1 cs).2 = p :: ps := heq
      have htl : s.totalLen (c.headD 0) (s.diagRxBuf.store 0 c) = s.rxPacketTotalLen := by
        unfold Diag.totalLen
        rw [if_neg fun h => absurd h.2.2 (Nat.pos_iff_ne_zero.mp hpos)]
      rcases recv_cases s c with ⟨hnil, hover⟩ | ⟨hyes, -⟩ | ⟨-, hall, he⟩ | ⟨-, he⟩
      · rw [hnil, run_of_overrun hover] at heq
        exact nomatch heq
      · exact hone hyes
      · rw [he] at heq
        have hhead := congrArg List.length (List.cons.inj heq).1
        rw [Mem.length_bytes] at hhead
        rw [htl] at hall
        omega
      · rw [he] at heq
        refine ih (s.more c) ?_ ?_ ?_ heq
        · exact Nat.add_pos_left hpos _
        · simp only [Diag.more, htl]
          omega
        · rw [List.flatten_cons, List.length_append] at hlen
          simp only [Diag.more]
          omega

end Counting

/-! ## Putting packets together -/

/-- `fr` has been received of the packet `p`, and its length is known. -/
structure Collects (s : Diag) (fr p : List UInt8) : Prop where
  sound : s.overrun = false
  len : s.rxPacketLen = fr.length
  total : s.rxPacketTotalLen = if fr = [] then 0 else p.length
  cmd : s.diagCmdBuf.bytes 0 fr.length = fr

section Collects

variable {s : Diag} {fr c p x : List UInt8}

theorem headD_append {a : List UInt8} (b : List UInt8) (h : a ≠ []) :
    (a ++ b).headD 0 = a.headD 0 := by
  cases a with
  | nil => exact absurd rfl h
  | cons y a => rfl

theorem getLastD_append (a : List UInt8) {b : List UInt8} (h : b ≠ []) :
    (a ++ b).getLastD 0 = b.getLastD 0 := by
  rw [List.getLastD_eq_getLast?, List.getLastD_eq_getLast?, List.getLast?_append_of_ne_nil _ h]

/-- The chunk lands behind what is there already. -/
theorem Collects.bytes (h : Collects s fr p) (c : List UInt8) :
    (s.done c).diagCmdBuf.bytes 0 (fr ++ c).length = fr ++ c := by
  show (s.diagCmdBuf.store s.rxPacketLen c).bytes 0 (fr ++ c).length = fr ++ c
  rw [List.length_append, Mem.bytes_add, h.len, Nat.zero_add, Mem.bytes_store_self,
    Mem.bytes_store_of_apart _ _ (Or.inl (Nat.le_of_eq (Nat.zero_add _))), h.cmd]

/-- The length field of a packet is in `diag_rx_buf` if the first chunk holds it. -/
theorem packetLen_store (rx : Mem) (h : 7 ≤ c.length) : packetLen (rx.store 0 c) = lenField c := by
  have hget : ∀ i, i < c.length → rx.store 0 c i = c.getD i 0 := by
    intro i hi
    unfold Mem.store
    rw [if_pos ⟨Nat.zero_le i, by omega⟩, Nat.sub_zero]
  rw [packetLen, lenField, hget 5 (by omega), hget 6 (by omega)]

theorem lenField_append {a : List UInt8} (b : List UInt8) (h : 7 ≤ a.length) :
    lenField (a ++ b) = lenField a := by
  simp only [lenField, List.getD_eq_getElem?_getD]
  rw [List.getElem?_append_left (by omega), List.getElem?_append_left (by omega)]

theorem Collects.fresh (s : Diag) (c p : List UInt8) : Collects (s.done c) [] p :=
  ⟨rfl, rfl, rfl, rfl⟩

theorem Collects.more (h : Collects s fr p) (hc : c ≠ [])
    (htotal : s.totalLen (c.headD 0) (s.diagRxBuf.store 0 c) = p.length) :
    Collects (s.more c) (fr ++ c) p := by
  refine ⟨rfl, ?_, ?_, h.bytes c⟩
  · rw [List.length_append, ← h.len]
    rfl
  · rw [if_neg (List.append_ne_nil_of_right_ne_nil fr hc)]
    exact htotal

/-- The length that the receiver goes by. -/
theorem Collects.totalLen (h : Collects s fr p) :
    s.totalLen (c.headD 0) (s.diagRxBuf.store 0 c) =
      if fr = [] then if c.headD 0 = 0x7e then packetLen (s.diagRxBuf.store 0 c) + 2 else 0
      else p.length := by
  unfold Diag.totalLen
  rw [h.total, h.len]
  by_cases hfr : fr = []
  · subst hfr
    simp
  · have hpos := List.length_pos_iff.mpr hfr
    rw [if_neg hfr, if_neg hfr, if_neg (by omega)]

theorem run_more {cs : List (List UInt8)} (h : s.recv c = (s.more c, [])) :
    (ispDiagHandler.run s (c :: cs)).2 = (ispDiagHandler.run (s.more c) cs).2 := by
  rw [Machine.run_cons]
  show (s.recv c).2 ++ (ispDiagHandler.run (s.recv c).1 cs).2 = _
  rw [h]
  rfl

theorem run_done {cs : List (List UInt8)} {out : List UInt8} (h : s.recv c = (s.done c, [out])) :
    (ispDiagHandler.run s (c :: cs)).2 = out :: (ispDiagHandler.run (s.done c) cs).2 := by
  rw [Machine.run_cons]
  show (s.recv c).2 ++ (ispDiagHandler.run (s.recv c).1 cs).2 = _
  rw [h]
  rfl

variable {ps cs : List (List UInt8)}

/-- A chunk between two flags at the beginning of a packet is handled as it is. -/
theorem run_first_one (h : Collects s [] p) (hc : IsChunk c)
    (hone : c.headD 0 = 0x7e ∧ c.getLastD 0 = 0x7e) :
    (ispDiagHandler.run s (c :: cs)).2 = c :: (ispDiagHandler.run (s.done c) cs).2 := by
  have hle : s.rxPacketLen + c.length ≤ cmdBufSize := by
    rw [h.len, List.length_nil, Nat.zero_add]
    exact hc.2
  rw [run_done (recv_one h.sound hle hone)]
  have hbytes := h.bytes c
  rw [List.nil_append] at hbytes
  rw [hbytes]

end Collects

/-- The chunk ends inside the packet. -/
theorem handled_inside {s : Diag} {fr c p x : List UInt8} {ps cs : List (List UInt8)} {g : Prop}
    (h : Collects s fr p) (hp : IsPacket p) (hc : IsChunk c) (hx : x ≠ []) (hpx : fr ++ c ++ x = p)
    (hlen : s.rxPacketLen + (c :: cs).flatten.length = (p :: ps).flatten.length)
    (ih : Collects (s.more c) (fr ++ c) p → ((ispDiagHandler.run (s.more c) cs).2 = p :: ps ↔ g)) :
    (ispDiagHandler.run s (c :: cs)).2 = p :: ps ↔
      (fr = [] → c.getLastD 0 ≠ 0x7e ∧ packetLen (s.diagRxBuf.store 0 c) + 2 = p.length) ∧
      (fr ≠ [] → ¬(c.headD 0 = 0x7e ∧ c.getLastD 0 = 0x7e)) ∧ g := by
  have hshort : fr.length + c.length < p.length := by
    have hpos := List.length_pos_iff.mpr hx
    rw [← hpx, List.length_append, List.length_append]
    omega
  have hle : s.rxPacketLen + c.length ≤ cmdBufSize := by
    have := hp.le_buf
    rw [h.len]
    omega
  have hcpos := List.length_pos_iff.mpr hc.1
  have htl := h.totalLen (c := c)
  by_cases hfr : fr = []
  · subst hfr
    have hhead : c.headD 0 = 0x7e := by
      rw [← headD_append x hc.1, ← hp.first, ← hpx]
      rfl
    simp only [true_implies, ne_eq, not_true_eq_false, false_implies, true_and]
    by_cases hlast : c.getLastD 0 = 0x7e
    · rw [run_first_one h hc ⟨hhead, hlast⟩]
      refine iff_of_false (fun heq => ?_) fun hg => hg.1.1 hlast
      have := congrArg List.length (List.cons.inj heq).1
      rw [List.length_nil] at hshort
      omega
    · have hmore := recv_more h.sound hle (fun hc => hlast hc.2) fun hc => hlast hc.1
      rw [run_more hmore]
      simp only [if_true, hhead] at htl
      by_cases htotal : packetLen (s.diagRxBuf.store 0 c) + 2 = p.length
      · rw [ih (h.more hc.1 (by rw [hhead, htl, htotal]))]
        exact ⟨fun hg => ⟨⟨hlast, htotal⟩, hg⟩, fun hg => hg.2⟩
      · -- the length comes from an earlier chunk
        refine iff_of_false ?_ fun hg => htotal hg.1.2
        rw [List.flatten_cons, List.length_append] at hlen
        refine handled_ne_of_stuck cs (s.more c) ?_ (Or.inl ?_) ?_
        · exact Nat.add_pos_right _ hcpos
        · simp only [Diag.more, hhead, htl]
          exact htotal
        · simp only [Diag.more]
          omega
  · simp only [hfr, false_implies, ne_eq, not_false_eq_true, true_implies, true_and]
    by_cases hone : c.headD 0 = 0x7e ∧ c.getLastD 0 = 0x7e
    · refine iff_of_false (handled_ne_of_lost ?_ hone hlen) fun hg => hg.1 hone
      rw [h.len]
      exact List.length_pos_iff.mpr hfr
    · rw [if_neg hfr] at htl
      have hmore := recv_more h.sound hle hone fun hall => by
        rw [htl, h.len] at hall
        omega
      rw [run_more hmore, ih (h.more hc.1 htl)]
      exact ⟨fun hg => ⟨hone, hg⟩, fun hg => hg.2⟩

/-- The chunk ends with the packet. -/
theorem handled_end {s : Diag} {fr c p : List UInt8} {ps cs : List (List UInt8)} {g : Prop}
    (h : Collects s fr p) (hp : IsPacket p) (hc : IsChunk c) (hpx : fr ++ c = p)
    (hlen : s.rxPacketLen + (c :: cs).flatten.length = (p :: ps).flatten.length)
    (ih : (ispDiagHandler.run (s.done c) cs).2 = ps ↔ g) :
    (ispDiagHandler.run s (c :: cs)).2 = p :: ps ↔ (fr = [] ∨ c.headD 0 ≠ 0x7e) ∧ g := by
  have hlast : c.getLastD 0 = 0x7e := by rw [← getLastD_append fr hc.1, hpx, hp.last]
  have hplen : fr.length + c.length = p.length := by rw [← hpx, List.length_append]
  have hle : s.rxPacketLen + c.length ≤ cmdBufSize := by
    have := hp.le_buf
    rw [h.len]
    omega
  by_cases hfr : fr = []
  · subst hfr
    rw [List.nil_append] at hpx
    subst hpx
    rw [run_first_one h hc ⟨hp.first, hlast⟩, List.cons.injEq, and_iff_right rfl, ih]
    exact ⟨fun hg => ⟨Or.inl rfl, hg⟩, fun hg => hg.2⟩
  · by_cases hhead : c.headD 0 = 0x7e
    · refine iff_of_false (handled_ne_of_lost ?_ ⟨hhead, hlast⟩ hlen) ?_
      · rw [h.len]
        exact List.length_pos_iff.mpr hfr
      · rintro ⟨hfr' | hno, -⟩
        · exact hfr hfr'
        · exact hno hhead
    · have htl := h.totalLen (c := c)
      rw [if_neg hfr] at htl
      have hall := recv_all h.sound hle (fun hc => hhead hc.1) ⟨hlast, by rw [htl, h.len, hplen]⟩
      have hbytes := h.bytes c
      rw [hpx] at hbytes
      rw [run_done hall, h.len, hplen, hbytes, List.cons.injEq, and_iff_right rfl, ih]
      exact ⟨fun hg => ⟨Or.inr hhead, hg⟩, fun hg => hg.2⟩

/-- The chunk holds bytes of the next packet. -/
theorem handled_ne_of_over {s : Diag} {fr c p x : List UInt8} {ps cs : List (List UInt8)}
    (h : Collects s fr p) (hp : IsPacket p) (hc : IsChunk c) (hx : x ≠ []) (hpx : fr ++ c = p ++ x)
    (hfr : fr.length < p.length)
    (hlen : s.rxPacketLen + (c :: cs).flatten.length = (p :: ps).flatten.length) :
    (ispDiagHandler.run s (c :: cs)).2 ≠ p :: ps := by
  have hlong : p.length < fr.length + c.length := by
    have hpos := List.length_pos_iff.mpr hx
    rw [← List.length_append, hpx, List.length_append]
    omega
  -- whatever is collected is more than the packet
  have hstuck : s.totalLen (c.headD 0) (s.diagRxBuf.store 0 c) = p.length →
      (ispDiagHandler.run (s.more c) cs).2 ≠ p :: ps := by
    intro htl
    rw [List.flatten_cons, List.length_append] at hlen
    refine handled_ne_of_stuck cs (s.more c) ?_ (Or.inr ?_) ?_
    · show 0 < s.rxPacketLen + c.length
      rw [h.len]
      omega
    · simp only [Diag.more, htl, h.len]
      exact hlong
    · simp only [Diag.more]
      omega
  have htl := h.totalLen (c := c)
  by_cases hnil : fr = []
  · subst hnil
    rw [List.nil_append] at hpx
    have h10 := hp.header
    have hhead : c.headD 0 = 0x7e := by
      rw [hpx, headD_append x (List.ne_nil_of_length_pos (by omega)), hp.first]
    by_cases hlast : c.getLastD 0 = 0x7e
    · rw [run_first_one h hc ⟨hhead, hlast⟩]
      intro heq
      have := congrArg List.length (List.cons.inj heq).1
      rw [List.length_nil] at hlong
      omega
    · have hle : s.rxPacketLen + c.length ≤ cmdBufSize := by
        rw [h.len, List.length_nil, Nat.zero_add]
        exact hc.2
      rw [run_more (recv_more h.sound hle (fun hc => hlast hc.2) fun hc => hlast hc.1)]
      refine hstuck ?_
      simp only [if_true, hhead] at htl
      rw [List.length_nil] at hlong
      rw [hhead, htl, packetLen_store _ (by omega), hpx, lenField_append x (by omega), hp.len]
  · rw [if_neg hnil] at htl
    by_cases hone : c.headD 0 = 0x7e ∧ c.getLastD 0 = 0x7e
    · refine handled_ne_of_lost ?_ hone hlen
      rw [h.len]
      exact List.length_pos_iff.mpr hnil
    · rcases recv_cases s c with ⟨hno, hover⟩ | ⟨hyes, -⟩ | ⟨-, hall, -⟩ | ⟨-, he⟩
      · rw [Machine.run_cons]
        show (s.recv c).2 ++ (ispDiagHandler.run (s.recv c).1 cs).2 ≠ _
        rw [hno, run_of_overrun hover]
        nofun
      · exact absurd hyes hone
      · rw [htl, h.len] at hall
        omega
      · rw [run_more he]
        exact hstuck htl

/-- **The induction over the chunks.** -/
theorem handled_iff_gathers (cs : List (List UInt8)) {ps : List (List UInt8)} {fr : List UInt8}
    {s : Diag} (hps : ∀ p ∈ ps, IsPacket p) (hcs : ∀ c ∈ cs, IsChunk c)
    (hstream : fr ++ cs.flatten = ps.flatten)
    (hcol : ∀ p ∈ ps.head?, Collects s fr p ∧ fr.length < p.length) :
    (ispDiagHandler.run s cs).2 = ps ↔ Gathers s.diagRxBuf fr cs ps := by
  induction cs generalizing ps fr s with
  | nil => exact eq_comm
  | cons c cs ih =>
    have hc := hcs c List.mem_cons_self
    have hcs' : ∀ c ∈ cs, IsChunk c := fun c hmem => hcs c (List.mem_cons_of_mem _ hmem)
    rw [List.flatten_cons, ← List.append_assoc] at hstream
    cases ps with
    | nil =>
      exact absurd (List.append_eq_nil_iff.mp (List.append_eq_nil_iff.mp hstream).1).2 hc.1
    | cons p ps =>
      have hp := hps p List.mem_cons_self
      have hps' : ∀ p ∈ ps, IsPacket p := fun p hmem => hps p (List.mem_cons_of_mem _ hmem)
      obtain ⟨h, hfr⟩ := hcol p rfl
      have hlen : s.rxPacketLen + (c :: cs).flatten.length = (p :: ps).flatten.length := by
        rw [← hstream, h.len, List.flatten_cons]
        simp only [List.length_append]
        omega
      rw [List.flatten_cons] at hstream
      unfold Gathers
      rcases read_cases hstream with ⟨x, hx, hpx⟩ | ⟨hpx, hrest⟩ | ⟨x, hx, hpx, -⟩
      · have hne : fr ++ c ≠ p := by
          intro heq
          rw [heq] at hpx
          exact hx (List.append_cancel_left (hpx.trans (List.append_nil p).symm))
        have hlt : (fr ++ c).length < p.length := by
          have hpos := List.length_pos_iff.mpr hx
          have := congrArg List.length hpx
          rw [List.length_append] at this
          omega
        have hstream' : fr ++ c ++ cs.flatten = (p :: ps).flatten := by
          rw [List.flatten_cons]
          exact hstream
        rw [handled_inside h hp hc hx hpx hlen fun hcol' => ih hps hcs' hstream' fun p' hp' => by
          cases hp'; exact ⟨hcol', hlt⟩]
        constructor
        · exact fun hg => Or.inr ⟨hne, ⟨x, hpx⟩, hg⟩
        · rintro (⟨heq, -⟩ | ⟨-, -, hg⟩)
          · exact absurd heq hne
          · exact hg
      · rw [handled_end h hp hc hpx hlen (ih hps' hcs' hrest fun p' hp' =>
          ⟨.fresh s c p', Nat.lt_of_lt_of_le (by decide) (hps' p' (List.mem_of_mem_head? hp')).header⟩)]
        constructor
        · exact fun hg => Or.inl ⟨hpx, hg⟩
        · rintro (⟨-, hg⟩ | ⟨hne, -⟩)
          · exact hg
          · exact absurd hpx hne
      · refine iff_of_false (handled_ne_of_over h hp hc hx hpx hfr hlen) ?_
        have hpos := List.length_pos_iff.mpr hx
        have hover : (fr ++ c).length = p.length + x.length := by rw [hpx, List.length_append]
        rintro (⟨heq, -⟩ | ⟨-, hpre, -⟩)
        · rw [heq] at hover
          omega
        · have := hpre.length_le
          omega

/-- **Packets and chunks.** Whatever the static buffers hold, `handle_isp_data` is called for exactly
the packets of the stream if and only if the chunks keep to what can be put together. -/
theorem handled_iff (rx cmd : Mem) (ps cs : List (List UInt8)) (hps : ∀ p ∈ ps, IsPacket p)
    (hcs : ∀ c ∈ cs, IsChunk c) (hstream : cs.flatten = ps.flatten) :
    (ispDiagHandler.run (.init rx cmd) cs).2 = ps ↔ Gathers rx [] cs ps :=
  handled_iff_gathers cs hps hcs hstream fun p hp =>
    ⟨⟨rfl, rfl, rfl, rfl⟩,
      Nat.lt_of_lt_of_le (by decide) (hps p (List.mem_of_mem_head? hp)).header⟩

/-- A packet without a body. -/
def emptyPacket (b : UInt8) : List UInt8 := [0x7e, b, 0, 0, 0, 8, 0, 0xfe, 1, 0x7e]

theorem isPacket_emptyPacket (b : UInt8) : IsPacket (emptyPacket b) :=
  ⟨rfl, rfl, Nat.le_refl 10, rfl, Nat.le_of_ble_eq_true rfl⟩

/-- Two packets, the second one in two chunks. -/
theorem handled_iff_apart :
    (ispDiagHandler.run (.init (fun _ => 0) fun _ => 0)
      [emptyPacket 1, (emptyPacket 2).take 8, (emptyPacket 2).drop 8]).2 =
        [emptyPacket 1, emptyPacket 2] ↔
      Gathers (fun _ => 0) [] [emptyPacket 1, (emptyPacket 2).take 8, (emptyPacket 2).drop 8]
        [emptyPacket 1, emptyPacket 2] := by
  refine handled_iff _ _ _ _ ?_ ?_ (by decide)
  · intro p hp
    rcases List.mem_pair.mp hp with rfl | rfl
    · exact isPacket_emptyPacket 1
    · exact isPacket_emptyPacket 2
  · simp [IsChunk, emptyPacket, cmdBufSize]

/-- Two packets in one chunk are handled as one. -/
theorem together_not_handled :
    (ispDiagHandler.run (.init (fun _ => 0) fun _ => 0) [emptyPacket 1 ++ emptyPacket 2]).2 ≠
      [emptyPacket 1, emptyPacket 2] := by
  decide

end SprdHal.Isp
