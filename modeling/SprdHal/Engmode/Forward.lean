import SprdHal.Engmode.Vdiag

/-!
# What is forwarded to the modem

Every chunk written to the modem comes from `log_data` or from `ext_data_buf`, and the frame in
`ext_data_buf` is a segment of what was received, as long as no byte of a read is left out and the
parser does not write over it. It does so when half of the buffer is used before the closing flag
is there: that frame is parsed where it is, and copied for the modem only afterwards.

`forwards_received` has a condition for each of the two: the second read of an iteration does not
fail, and a frame that is parsed unfinished has nothing in it that the parser would overwrite.
-/

namespace SprdHal.Engmode

open SprdHal.Lib

/-- There is nothing in the frame that `eng_diag_parse` would overwrite. -/
structure Unwritten (frame : List UInt8) : Prop where
  escape : 0x7d ∉ frame
  separator : frame.getD 7 0 = diagCmdAt → AudioText (frame.drop diagText) →
    NoSeparator (frame.drop diagText)

/-- The second read is not made or does not fail. -/
def SerialRead.Lossless (r : SerialRead) : Prop :=
  ∀ a ∈ r.first, a.length = dataBufSize / 2 → r.second ≠ none

/-- No byte read is left out, and a frame that is parsed before it is complete is `Unwritten`. -/
structure RawIteration (s : Vdiag) (it : Iteration) : Prop where
  lossless : it.read.Lossless
  unwritten : ∀ log f, it.read.logData = some log → s.status = .recvToAP →
    gather s.extBuf.frame log = (f, false) → dataExtDiagSize / 2 ≤ f.length → Unwritten f

theorem SerialRead.received_of_logData {r : SerialRead} (h : r.Lossless) :
    r.logData.getD [] = r.received := by
  unfold logData received
  cases hfirst : r.first with
  | none => rfl
  | some a =>
    simp only
    split
    · rename_i hfull
      cases hsecond : r.second with
      | none => exact absurd hsecond (h a hfirst hfull)
      | some b => rfl
    · split
      · rename_i hnil
        rw [hnil]
        rfl
      · rfl

theorem mem_writeLoop {backup bytes : List UInt8} {ws : List (Option Nat)}
    (h : VdiagOut.modem bytes ∈ writeLoop backup ws) : bytes <:+: backup := by
  induction ws generalizing backup with
  | nil => cases h
  | cons w ws ih =>
    cases w with
    | none =>
      unfold writeLoop at h
      split at h
      · cases h
      · exact ih h
    | some w =>
      unfold writeLoop at h
      rcases List.mem_cons.mp h with heq | h
      · cases heq
        exact (List.take_prefix w backup).isInfix
      · split at h
        · cases h
        · exact (ih h).trans (List.drop_suffix w backup).isInfix

/-! ## The collected frame is a segment of the stream -/

section Gather

variable {past fr log f : List UInt8} (hin : fr <:+: past)
  (hsuf : fr.length < dataExtDiagSize → fr <:+ past)

include hin hsuf

theorem gather_infix : (gather fr log).1 <:+: past ++ log := by
  cases hopen : opened fr log with
  | none =>
    rw [gather_eq_nil hopen]
    exact List.nil_infix
  | some r =>
    obtain ⟨f₀, rest⟩ := r
    obtain ⟨hsuffix, hcases⟩ := opened_suffix hopen
    rcases hcases with ⟨rfl, -⟩ | ⟨hne, rfl, rfl⟩
    · rw [gather_eq_goOn hopen]
      exact (goOn_prefix_append f₀ rest).isInfix.trans
        (hsuffix.isInfix.trans (List.suffix_append past log).isInfix)
    · by_cases hlt : f₀.length < dataExtDiagSize
      · rw [gather_eq_goOn hopen]
        refine (goOn_prefix_append f₀ rest).isInfix.trans ?_
        obtain ⟨pre, rfl⟩ := hsuf hlt
        exact ⟨pre, [], by simp⟩
      · rw [gather_full hne (by omega)]
        exact hin.trans (List.prefix_append past rest).isInfix

/-- A frame that is not complete goes to the end of the stream, if there is room for it. -/
theorem gather_suffix (hg : gather fr log = (f, false)) (hlt : f.length < dataExtDiagSize) :
    f <:+ past ++ log := by
  rcases gather_incomplete hg with rfl | ⟨f₀, rest, hopen, -, rfl⟩
  · exact List.nil_suffix
  · have hall : rest.take (dataExtDiagSize - f₀.length) = rest := by
      apply List.take_of_length_le
      rw [List.length_append, List.length_take] at hlt
      omega
    rw [hall] at hlt ⊢
    obtain ⟨hsuffix, ⟨rfl, -⟩ | ⟨hne, rfl, rfl⟩⟩ := opened_suffix hopen
    · exact hsuffix.trans (List.suffix_append past log)
    · rw [List.length_append] at hlt
      obtain ⟨pre, rfl⟩ := hsuf (by omega)
      exact ⟨pre, by simp⟩

end Gather

/-- A frame that is not complete has no flag but the first byte. -/
theorem gather_no_flag {fr log f : List UInt8} (hfr : 0x7e ∉ fr.tail)
    (hg : gather fr log = (f, false)) : 0x7e ∉ f.tail := by
  rcases gather_incomplete hg with rfl | ⟨f₀, rest, hopen, hmem, rfl⟩
  · exact List.not_mem_nil
  · rcases (opened_suffix hopen).2 with ⟨-, rfl⟩ | ⟨hne, rfl, -⟩
    · exact hmem
    · rw [List.tail_append_of_ne_nil hne, List.mem_append, not_or]
      exact ⟨hfr, hmem⟩

/-! ## The buffer behind the frame -/

/-- The buffer was cleared behind the frame. -/
def ExtBuf.Cleared (e : ExtBuf) : Prop := ∀ k, e.len ≤ k → e.data.getD k 0 = 0

theorem cleared_initUserDiagBuf : initUserDiagBuf.Cleared := by
  intro k _
  rw [List.getD_eq_getElem?_getD, initUserDiagBuf, List.getElem?_replicate]
  split <;> rfl

theorem ExtBuf.Cleared.put {e : ExtBuf} (he : e.Cleared) (b : UInt8) (h : e.len < dataExtDiagSize) :
    (e.put b h).Cleared := by
  intro k hk
  have hne : e.len ≠ k := Nat.ne_of_lt hk
  rw [List.getD_eq_getElem?_getD, ExtBuf.put, List.getElem?_set_ne hne,
    ← List.getD_eq_getElem?_getD]
  exact he k (Nat.le_of_lt hk)

theorem cleared_getUserDiagBuf {e : ExtBuf} (he : e.Cleared) (log : List UInt8) :
    (getUserDiagBuf e log).1.Cleared := by
  induction log generalizing e with
  | nil => exact he
  | cons b log ih =>
    unfold getUserDiagBuf
    split
    · exact ih (he.put b _)
    · split
      · split
        · exact he.put b _
        · exact ih (he.put b _)
      · exact ih he

section Text

variable {e : ExtBuf} (hclear : e.Cleared) (hlen : dataExtDiagSize / 2 ≤ e.len)

include hclear in
/-- Behind the frame there are only zeros. -/
theorem mem_data_drop {n : Nat} {b : UInt8} (hb : b ∈ e.data.drop n) :
    b ∈ e.frame.drop n ∨ b = 0 := by
  obtain ⟨k, hk⟩ := List.mem_iff_getElem?.mp hb
  rw [List.getElem?_drop] at hk
  by_cases hlt : n + k < e.len
  · refine Or.inl (List.mem_iff_getElem?.mpr ⟨k, ?_⟩)
    rw [List.getElem?_drop, ExtBuf.frame, List.getElem?_take_of_lt hlt, hk]
  · have hzero := hclear (n + k) (by omega)
    rw [List.getD_eq_getElem?_getD, hk] at hzero
    exact Or.inr hzero

include hlen in
/-- A frame this long has the whole name of an audio command. -/
theorem audioText_frame (h : AudioText (e.data.drop diagText)) :
    AudioText (e.frame.drop diagText) := by
  have hframe : e.frame.drop diagText <+: e.data.drop diagText := by
    rw [ExtBuf.frame, List.drop_take]
    exact List.take_prefix _ _
  have hlong : 10 ≤ (e.frame.drop diagText).length := by
    have hhalf : dataExtDiagSize / 2 = 8192 := rfl
    have htext : diagText = 9 := rfl
    rw [List.length_drop, ExtBuf.length_frame]
    omega
  have hpre : ∀ name : List UInt8, name.length ≤ 10 → name <+: e.data.drop diagText →
      name <+: e.frame.drop diagText := fun name hname h =>
    List.prefix_of_prefix_length_le h hframe (Nat.le_trans hname hlong)
  rcases h with h | h | h
  · exact Or.inl (hpre _ (by decide) h)
  · exact Or.inr (Or.inl (hpre _ (by decide) h))
  · exact Or.inr (Or.inr (hpre _ (by decide) h))

include hclear hlen in
/-- **An unwritten frame survives the parser.** -/
theorem parse_unwritten (hflag : 0x7e ∉ e.frame.tail) (h : Unwritten e.frame) (env : DiagEnv) :
    (e.parse env).2 = e := by
  have hplain : ∀ b ∈ (e.data.take e.len).tail, isSpecial b = false := by
    intro b hb
    rw [Bool.eq_false_iff, ne_eq, isSpecial_iff]
    rintro (rfl | rfl)
    · exact h.escape (List.mem_of_mem_tail hb)
    · exact hflag hb
  have htype : e.frame.getD 7 0 = e.data.getD 7 0 := by
    have hhalf : dataExtDiagSize / 2 = 8192 := rfl
    rw [List.getD_eq_getElem?_getD, List.getD_eq_getElem?_getD, ExtBuf.frame,
      List.getElem?_take_of_lt (by omega)]
  have hdata : (engDiagParse env e.data e.len).2 = e.data := by
    apply engDiagParse_buf env hplain
    intro hat haudio
    have hsep := h.separator (htype.trans hat) (audioText_frame hlen haudio)
    refine ⟨fun hc => ?_, fun hc => ?_⟩
    · exact (mem_data_drop hclear hc).elim hsep.comma (by decide)
    · exact (mem_data_drop hclear hc).elim hsep.quote (by decide)
  cases e
  simp only [ExtBuf.parse, hdata]

end Text

/-! ## Whole runs -/

/-- What the receiver has is a segment of what was received, at its end as long as there is room. -/
structure Raw (past : List UInt8) (s : Vdiag) : Prop where
  segment : s.extBuf.frame <:+: past
  last : s.extBuf.frame.length < dataExtDiagSize → s.extBuf.frame <:+ past
  flag : 0x7e ∉ s.extBuf.frame.tail
  cleared : s.extBuf.Cleared
  exclusive : Exclusive s

theorem raw_of_empty {past : List UInt8} {s : Vdiag} (hlen : s.extBuf.len = 0)
    (hc : s.extBuf.Cleared) : Raw past s where
  segment := by rw [ExtBuf.frame_eq_nil.mpr hlen]; exact List.nil_infix
  last _ := by rw [ExtBuf.frame_eq_nil.mpr hlen]; exact List.nil_suffix
  flag := by rw [ExtBuf.frame_eq_nil.mpr hlen]; exact List.not_mem_nil
  cleared := hc
  exclusive _ := hlen

theorem Raw.collect {past log : List UInt8} {s : Vdiag} (h : Raw past s) {e : ExtBuf}
    (he : (getUserDiagBuf s.extBuf log).1 = e) (hg : gather s.extBuf.frame log = (e.frame, false)) :
    Raw (past ++ log) ⟨.recvToAP, e⟩ where
  segment := by
    have hseg : (gather s.extBuf.frame log).1 <:+: past ++ log := gather_infix h.segment h.last
    rwa [hg] at hseg
  last := gather_suffix h.segment h.last hg
  flag := gather_no_flag h.flag hg
  cleared := he ▸ cleared_getUserDiagBuf h.cleared log
  exclusive := fun h => by cases h

/-- **One read.** -/
theorem Raw.handle {past log : List UInt8} {s : Vdiag} (h : Raw past s) (env : DiagEnv)
    (hun : ∀ f, s.status = .recvToAP → gather s.extBuf.frame log = (f, false) →
      dataExtDiagSize / 2 ≤ f.length → Unwritten f) :
    Raw (past ++ log) (handle s env log).state ∧
      ∀ b ∈ (handle s env log).backup, b <:+: past ++ log := by
  have hcases := handles s env log
  generalize Engmode.handle s env log = r at hcases ⊢
  cases hcases with
  | toCP hcp status =>
    refine ⟨raw_of_empty (h.exclusive hcp) h.cleared, ?_⟩
    rintro _ ⟨rfl⟩
    exact (List.suffix_append past log).isInfix
  | found hap hg =>
    have hseg : (gather s.extBuf.frame log).1 <:+: past ++ log := gather_infix h.segment h.last
    rw [hg] at hseg
    refine ⟨raw_of_empty rfl cleared_initUserDiagBuf, fun b hb => ?_⟩
    simp only at hb
    split at hb
    · cases hb
    · cases hb
      exact hseg
  | idle hap he hg hnil =>
    refine ⟨h.collect he hg, ?_⟩
    rintro _ ⟨rfl⟩
    exact (List.suffix_append past log).isInfix
  | more hap he hg hlt => exact ⟨h.collect he hg, fun b hb => by cases hb⟩
  | @keep hap e he hg hle ht =>
    have hraw := h.collect he hg
    have hsame := parse_unwritten hraw.cleared hle hraw.flag
      (hun _ hap hg (by rwa [ExtBuf.length_frame])) env
    rw [hsame]
    exact ⟨hraw, fun b hb => by cases hb⟩
  | @handOver hap e he hg hle ht =>
    have hraw := h.collect he hg
    have hsame := parse_unwritten hraw.cleared hle hraw.flag
      (hun _ hap hg (by rwa [ExtBuf.length_frame])) env
    rw [hsame]
    refine ⟨raw_of_empty rfl cleared_initUserDiagBuf, ?_⟩
    rintro _ ⟨rfl⟩
    exact hraw.segment

/-- **One iteration.** -/
theorem Raw.step {past : List UInt8} {s : Vdiag} {it : Iteration} (h : Raw past s)
    (hit : RawIteration s it) :
    Raw (past ++ it.read.received) (vdiagStep s it).1 ∧
      ∀ bytes, .modem bytes ∈ (vdiagStep s it).2 → bytes <:+: past ++ it.read.received := by
  have hrec := SerialRead.received_of_logData hit.lossless
  cases hread : it.read.logData with
  | none =>
    rw [hread] at hrec
    rw [vdiagStep_none hread, ← hrec]
    simp only [Option.getD_none, List.append_nil]
    exact ⟨h, fun bytes hb => by cases hb⟩
  | some log =>
    rw [hread, Option.getD_some] at hrec
    have hstep := h.handle it.env fun f => hit.unwritten log f hread
    rw [← hrec, vdiagStep_state hread]
    refine ⟨hstep.1, fun bytes hb => ?_⟩
    simp only [vdiagStep, hread, List.mem_append, List.mem_map] at hb
    rcases hb with ⟨f, -, hf⟩ | hb
    · cases hf
    · cases hbackup : (Engmode.handle s it.env log).backup with
      | none =>
        rw [hbackup] at hb
        cases hb
      | some b =>
        rw [hbackup] at hb
        exact (mem_writeLoop hb).trans (hstep.2 b hbackup)

theorem Raw.run (its : List Iteration) {past : List UInt8} {s : Vdiag} (h : Raw past s)
    (hadm : vdiag.Admits RawIteration s its) :
    ∀ bytes, .modem bytes ∈ (vdiag.run s its).2 →
      bytes <:+: past ++ its.flatMap (·.read.received) := by
  induction its generalizing past s with
  | nil => exact fun bytes hb => by cases hb
  | cons it its ih =>
    intro bytes hb
    obtain ⟨hraw, hout⟩ := h.step hadm.1
    rw [Machine.run_cons, List.mem_append] at hb
    rw [List.flatMap_cons, ← List.append_assoc]
    rcases hb with hb | hb
    · exact (hout bytes hb).trans (List.prefix_append _ _).isInfix
    · exact ih hraw hadm.2 bytes hb

/-- **The modem gets what was received.** In every run in which no read loses a byte and every frame
that is parsed before it is complete is `Unwritten`, each chunk written to the modem is a segment of
the bytes received. -/
theorem forwards_received (its : List Iteration) (hadm : vdiag.Admits RawIteration .init its) :
    ∀ bytes, .modem bytes ∈ (vdiag.run .init its).2 →
      bytes <:+: its.flatMap (·.read.received) := by
  have hinit : Raw [] .init := raw_of_empty rfl cleared_initUserDiagBuf
  exact hinit.run its hadm

theorem rawIteration_of_short {s : Vdiag} {it : Iteration} {log : List UInt8}
    (hloss : it.read.Lossless) (hread : it.read.logData = some log)
    (h : s.extBuf.len + log.length < dataExtDiagSize / 2) : RawIteration s it := by
  refine ⟨hloss, fun log' f hlog _ hg hle => ?_⟩
  cases hread.symm.trans hlog
  have hlen : f.length ≤ s.extBuf.frame.length + log.length := by
    have hgather := length_gather_le s.extBuf.frame log
    rwa [hg] at hgather
  rw [ExtBuf.length_frame] at hlen
  omega

theorem lossless_readOf {c : List UInt8} (h : c.length ≤ dataBufSize) : (readOf c h).Lossless :=
  fun _ _ _ hnone => by cases hnone

/-- `eng_diag` leaves every frame to the modem. -/
def leavingEnv : DiagEnv := { plainDiagEnv with engDiag _ := false }

/-- A frame in two reads, written to the modem in two pieces. -/
def twoReads : List Iteration :=
  [⟨readOf [0x7e, 1] (by decide), leavingEnv, []⟩,
    ⟨readOf [2, 0x7e] (by decide), leavingEnv, [none, some 3, some 1]⟩]

theorem twoReads_forwarded :
    .modem [0x7e, 1, 2] ∈ (vdiag.run .init twoReads).2 ∧
      [0x7e, 1, 2] <:+: twoReads.flatMap (·.read.received) := by
  have hmem : .modem [0x7e, 1, 2] ∈ (vdiag.run .init twoReads).2 := by decide +kernel
  refine ⟨hmem, forwards_received twoReads ?_ _ hmem⟩
  exact ⟨rawIteration_of_short (lossless_readOf (by decide)) rfl (by decide),
    rawIteration_of_short (lossless_readOf (by decide)) rfl (by decide +kernel), trivial⟩

/-! ## An escape in a long frame -/

/-- The first escape is undone and the rest moves down. -/
theorem decode_escaped_head {plain : List UInt8} (hplain : ∀ b ∈ plain, isSpecial b = false)
    (rest : List UInt8) :
    ∃ rest', engDiagDecode7d7e (0x7d :: 0x5d :: (plain ++ rest)) (plain.length + 2) =
      0x7d :: (plain ++ rest') := by
  obtain ⟨rest', hmove⟩ := memcpyDown_append [0x7d] 0x5d plain rest
  refine ⟨rest', ?_⟩
  have hbyte : (0x5d : UInt8) ^^^ 0x20 = 0x7d := by decide
  have hstep := @decode7d7eLoop_special [] 0x7d (0x5d :: (plain ++ rest)) (plain.length + 2)
    (Nat.succ_pos _) rfl
  simp only [List.nil_append, List.length_nil, Nat.zero_add, List.getD_cons_zero, hbyte,
    Nat.reduceSubDiff] at hstep
  rw [engDiagDecode7d7e, hstep]
  rw [List.singleton_append, List.length_singleton, List.singleton_append] at hmove
  rw [hmove]
  apply decode7d7eLoop_of_plain
  intro k hk hlt
  obtain ⟨k, rfl⟩ := Nat.exists_eq_add_of_le' hk
  have hk' : k < plain.length := by omega
  rw [List.getD_cons_succ, List.getD_eq_getElem?_getD, List.getElem?_append_left hk',
    List.getElem?_eq_getElem hk']
  exact hplain _ (List.getElem_mem hk')

/-- A frame with an escape, as long as half of the buffer, whose end has not arrived. -/
def plainBytes : List UInt8 := List.replicate 8189 0x55

def escapedFrame : List UInt8 := 0x7e :: 0x7d :: 0x5d :: plainBytes

theorem length_escapedFrame : escapedFrame.length = dataBufSize / 2 := by
  simp only [escapedFrame, plainBytes, List.length_cons, List.length_replicate]
  rfl

theorem getElem?_plainBytes {k : Nat} (hk : k < 8189) (rest : List UInt8) :
    (plainBytes ++ rest)[k]? = some 0x55 := by
  have hlen : plainBytes.length = 8189 := List.length_replicate
  rw [List.getElem?_append_left (by omega), plainBytes, List.getElem?_replicate, if_pos hk]

/-- Parsing the buffer with `escapedFrame` changes its third byte. -/
theorem parse_escapedFrame {e : ExtBuf} (he : e.frame = escapedFrame) (env : DiagEnv) :
    (e.parse env).1 = .common ∧ (e.parse env).2.frame[2]? = some 0x55 := by
  have hlen : e.len = plainBytes.length + 3 := by
    rw [← e.length_frame, he]
    rfl
  obtain ⟨rest, hdata⟩ : ∃ rest, e.data = 0x7e :: 0x7d :: 0x5d :: (plainBytes ++ rest) := by
    have hsplit := List.take_append_drop e.len e.data
    rw [← ExtBuf.frame, he] at hsplit
    exact ⟨_, hsplit.symm⟩
  have hplain : ∀ b ∈ plainBytes, isSpecial b = false := fun b hb => by
    rw [List.eq_of_mem_replicate hb]
    rfl
  obtain ⟨rest', hdec⟩ := decode_escaped_head hplain rest
  have htype : (0x7e :: 0x7d :: (plainBytes ++ rest')).getD 7 0 = 0x55 := by
    rw [List.getD_cons_succ, List.getD_cons_succ, List.getD_eq_getElem?_getD,
      getElem?_plainBytes (by omega)]
    rfl
  have hcmd : diagCmdType env (0x7e :: 0x7d :: (plainBytes ++ rest')) = .common := by
    rw [diagCmdType, htype]
    rfl
  have hparse : engDiagParse env e.data e.len =
      (.common, 0x7e :: 0x7d :: (plainBytes ++ rest')) := by
    rw [hdata, hlen, engDiagParse]
    simp only [List.take_succ_cons, List.take_zero, List.drop_succ_cons, List.drop_zero,
      Nat.add_succ_sub_one, hdec, List.singleton_append, htype, hcmd]
    exact if_neg (by decide)
  refine ⟨congrArg Prod.fst hparse, ?_⟩
  have hframe := congrArg (fun r => (r.2.take e.len)[2]?) hparse
  apply hframe.trans
  simp only
  rw [List.getElem?_take_of_lt (by omega)]
  exact getElem?_plainBytes (by decide) rest'

/-- The iteration that reads `escapedFrame`. -/
def escapedIteration : Iteration :=
  ⟨readOf escapedFrame (by rw [length_escapedFrame]; decide), leavingEnv, [some 8192]⟩

/-- A frame that is handed over is written in the first `write`, if that takes all of it. -/
theorem modem_of_handOver {s : Vdiag} {it : Iteration} {log f : List UInt8}
    (hs : s.status = .recvToAP) (hread : it.read.logData = some log)
    (hg : gather s.extBuf.frame log = (f, false)) (hle : dataExtDiagSize / 2 ≤ f.length)
    (ht : ((getUserDiagBuf s.extBuf log).1.parse it.env).1 = .common)
    (hw : it.writes = [some f.length]) :
    .modem ((getUserDiagBuf s.extBuf log).1.parse it.env).2.frame ∈ (vdiagStep s it).2 := by
  have hlen : ((getUserDiagBuf s.extBuf log).1.parse it.env).2.frame.length = f.length := by
    rw [ExtBuf.length_frame, ExtBuf.len_parse, (getUserDiagBuf_of_gather hg).2.2]
  simp only [vdiagStep, hread, handle_long it.env hs hg hle, ht, ne_eq, not_true_eq_false, if_false,
    Option.elim_some, hw, writeLoop]
  rw [← hlen, List.take_length]
  exact List.mem_append_right _ List.mem_cons_self

/-- A chunk as long as the only read that differs from it. -/
theorem not_segment {it : Iteration} {log b : List UInt8} (hloss : it.read.Lossless)
    (hread : it.read.logData = some log) (hmem : .modem b ∈ (vdiagStep .init it).2)
    (hlen : b.length = log.length) (hne : b ≠ log) :
    ∃ bytes, .modem bytes ∈ (vdiag.run .init [it]).2 ∧
      ¬ bytes <:+: [it].flatMap (·.read.received) := by
  have hrec : [it].flatMap (·.read.received) = log := by
    rw [List.flatMap_singleton, ← SerialRead.received_of_logData hloss, hread]
    rfl
  refine ⟨b, ?_, fun h => ?_⟩
  · rw [Machine.run_cons]
    exact List.mem_append_left _ hmem
  · rw [hrec] at h
    exact hne (h.eq_of_length hlen)

/-- What the modem gets is not a segment of what was received. -/
theorem escapedIteration_forwarded :
    ∃ bytes, .modem bytes ∈ (vdiag.run .init [escapedIteration]).2 ∧
      ¬ bytes <:+: [escapedIteration].flatMap (·.read.received) := by
  have hsize : escapedFrame.length ≤ dataBufSize := by
    rw [length_escapedFrame]
    decide
  have hread : escapedIteration.read.logData = some escapedFrame :=
    logData_readOf (List.cons_ne_nil _ _) hsize
  have hg : gather Vdiag.init.extBuf.frame escapedFrame = (escapedFrame, false) := by
    rw [Vdiag.init, frame_initUserDiagBuf]
    refine gather_begin ?_ ?_
    · simp only [List.mem_cons, not_or]
      exact ⟨by decide, by decide, fun h => by cases List.eq_of_mem_replicate h⟩
    · have hlen := length_escapedFrame
      rw [escapedFrame, List.length_cons] at hlen
      have hhalf : dataBufSize / 2 < dataExtDiagSize := by decide
      omega
  obtain ⟨hframe, -, hlen⟩ := getUserDiagBuf_of_gather hg
  obtain ⟨ht, hbyte⟩ := parse_escapedFrame hframe escapedIteration.env
  have hmem := modem_of_handOver rfl hread hg (Nat.le_of_eq length_escapedFrame.symm) ht (by
    rw [length_escapedFrame]
    rfl)
  refine not_segment (lossless_readOf hsize) hread hmem ?_ fun heq => ?_
  · rw [ExtBuf.length_frame, ExtBuf.len_parse, hlen]
  · rw [heq] at hbyte
    cases hbyte

end SprdHal.Engmode
