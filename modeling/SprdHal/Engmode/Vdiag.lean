import SprdHal.Engmode.Parse
import SprdHal.Lib.Machine

/-!
# The diag receiver (`vdiag.c`)

`eng_vdiag_wthread` reads from the serial port, collects diag frames in `ext_data_buf`, passes the
complete ones to `eng_diag` and writes what the AP does not consume to the modem. One iteration of
its loop is a step of the machine `vdiag`; its input is what the reads and writes of the iteration
return, and the answers of the code it calls.

`gather` says what `get_user_diag_buf` does to the frame that is being collected, in terms of the
bytes alone.
-/

namespace SprdHal.Engmode

open SprdHal.Lib

/-- `DATA_BUF_SIZE` and `DATA_EXT_DIAG_SIZE` -/
def dataBufSize : Nat := 4096 * 4
def dataExtDiagSize : Nat := 4096 * 4

/-- `ext_data_buf` and `ext_buf_len` -/
structure ExtBuf where
  data : List UInt8
  len : Nat
  length_data : data.length = dataExtDiagSize
  len_le : len ≤ dataExtDiagSize

/-- The bytes collected so far. -/
def ExtBuf.frame (e : ExtBuf) : List UInt8 := e.data.take e.len

/-- `init_user_diag_buf` -/
def initUserDiagBuf : ExtBuf where
  data := List.replicate dataExtDiagSize 0
  len := 0
  length_data := List.length_replicate
  len_le := Nat.zero_le _

/-- `ext_data_buf[ext_buf_len++] = b` -/
def ExtBuf.put (e : ExtBuf) (b : UInt8) (h : e.len < dataExtDiagSize) : ExtBuf where
  data := e.data.set e.len b
  len := e.len + 1
  length_data := by rw [List.length_set, e.length_data]
  len_le := h

/-- `get_user_diag_buf` -/
def getUserDiagBuf (e : ExtBuf) : List UInt8 → ExtBuf × Bool
  | [] => (e, false)
  | b :: buf =>
    if h : b = 0x7e ∧ e.len = 0 then
      getUserDiagBuf (e.put b (by rw [h.2]; decide)) buf
    else if h : 0 < e.len ∧ e.len < dataExtDiagSize then
      if b = 0x7e then (e.put b h.2, true) else getUserDiagBuf (e.put b h.2) buf
    else getUserDiagBuf e buf

/-- The two reads of an iteration; the second one is made if the first one fills its half of
`log_data`. `none` is an error. -/
structure SerialRead where
  first : Option (List UInt8)
  second : Option (List UInt8)
  first_le : ∀ a ∈ first, a.length ≤ dataBufSize / 2
  second_le : ∀ b ∈ second, b.length ≤ dataBufSize / 2

/-- `log_data`, up to `r_cnt`, or `none` if that is not positive. The result -1 of the second read
is added to `r_cnt` like any other. -/
def SerialRead.logData (r : SerialRead) : Option (List UInt8) :=
  match r.first with
  | none => none
  | some a =>
    if a.length = dataBufSize / 2 then
      match r.second with
      | none => some (a.take (dataBufSize / 2 - 1))
      | some b => some (a ++ b)
    else if a = [] then none
    else some a

/-- The bytes that were taken from the port. -/
def SerialRead.received (r : SerialRead) : List UInt8 :=
  match r.first with
  | none => []
  | some a => if a.length = dataBufSize / 2 then a ++ r.second.getD [] else a

/-- `g_diag_status` -/
inductive DiagStatus
  | recvToAP | recvToCP
  deriving DecidableEq, Repr

structure Vdiag where
  status : DiagStatus
  extBuf : ExtBuf

def Vdiag.init : Vdiag := ⟨.recvToAP, initUserDiagBuf⟩

/-- A frame is passed to `eng_diag`; bytes are written to `modem_fd`. -/
inductive VdiagOut
  | diag (frame : List UInt8)
  | modem (bytes : List UInt8)
  deriving DecidableEq, Repr

/-- An iteration: the reads, the answers of the code that is called, and the results of `write`,
of which `none` is an error. -/
structure Iteration where
  read : SerialRead
  env : DiagEnv
  writes : List (Option Nat)

/-- The state after the `switch`, the frame passed to `eng_diag`, and `backup_data_buf` unless
`has_processed` is 1. -/
structure Handled where
  state : Vdiag
  passed : Option (List UInt8)
  backup : Option (List UInt8)

/-- `eng_diag_parse(ext_data_buf, ext_buf_len)`, which works in place. -/
def ExtBuf.parse (e : ExtBuf) (env : DiagEnv) : DiagCmdType × ExtBuf :=
  ((engDiagParse env e.data e.len).1,
    { e with
      data := (engDiagParse env e.data e.len).2
      length_data := by rw [length_engDiagParse, e.length_data] })

@[simp] theorem ExtBuf.len_parse (e : ExtBuf) (env : DiagEnv) : (e.parse env).2.len = e.len := rfl

/-- The `switch` over `g_diag_status`. -/
def handle (s : Vdiag) (env : DiagEnv) (log : List UInt8) : Handled :=
  match s.status with
  | .recvToCP =>
    ⟨{ s with status := if log.getLast? = some 0x7E then .recvToAP else .recvToCP }, none, some log⟩
  | .recvToAP =>
    let r := getUserDiagBuf s.extBuf log
    if r.2 then
      ⟨⟨.recvToAP, initUserDiagBuf⟩, some r.1.frame,
        if env.engDiag r.1.frame then none else some r.1.frame⟩
    else if r.1.len = 0 then ⟨⟨.recvToAP, r.1⟩, none, some log⟩
    else if dataExtDiagSize / 2 ≤ r.1.len then
      let p := r.1.parse env
      if p.1 ≠ .common then ⟨⟨.recvToAP, p.2⟩, none, none⟩
      else ⟨⟨.recvToCP, initUserDiagBuf⟩, none, some p.2.frame⟩
    else ⟨⟨.recvToAP, r.1⟩, none, none⟩

/-- The loop that writes `backup_data_buf` to the modem. -/
def writeLoop (backup : List UInt8) : List (Option Nat) → List VdiagOut
  | [] => []
  | none :: ws => if backup = [] then [] else writeLoop backup ws
  | some w :: ws =>
    .modem (backup.take w) :: (if backup.drop w = [] then [] else writeLoop (backup.drop w) ws)

/-- One iteration of the loop of `eng_vdiag_wthread`. If nothing was read, the port is opened
again. -/
def vdiagStep (s : Vdiag) (it : Iteration) : Vdiag × List VdiagOut :=
  match it.read.logData with
  | none => (s, [])
  | some log =>
    let h := handle s it.env log
    (h.state, h.passed.toList.map .diag ++ h.backup.elim [] (writeLoop · it.writes))

def vdiag : Machine Vdiag Iteration VdiagOut := ⟨vdiagStep⟩

theorem vdiag_step : vdiag.step = vdiagStep := rfl

theorem vdiagStep_none {it : Iteration} (hread : it.read.logData = none) (s : Vdiag) :
    vdiagStep s it = (s, []) := by
  simp only [vdiagStep, hread]

theorem vdiagStep_state {it : Iteration} {log : List UInt8} (hread : it.read.logData = some log)
    (s : Vdiag) : (vdiagStep s it).1 = (handle s it.env log).state := by
  simp only [vdiagStep, hread]

/-- The reads that deliver `c`. -/
def readOf (c : List UInt8) (h : c.length ≤ dataBufSize) : SerialRead where
  first := some (c.take (dataBufSize / 2))
  second := some (c.drop (dataBufSize / 2))
  first_le := by
    rintro _ ⟨rfl⟩
    exact List.length_take_le _ _
  second_le := by
    rintro _ ⟨rfl⟩
    rw [List.length_drop]
    unfold dataBufSize at *
    omega

theorem logData_readOf {c : List UInt8} (hc : c ≠ []) (h : c.length ≤ dataBufSize) :
    (readOf c h).logData = some c := by
  have hpos := List.length_pos_iff.mpr hc
  by_cases hlt : c.length < dataBufSize / 2
  · have htake : c.take (dataBufSize / 2) = c := List.take_of_length_le (by omega)
    simp only [SerialRead.logData, readOf, htake]
    rw [if_neg (by omega), if_neg hc]
  · have hlen : (c.take (dataBufSize / 2)).length = dataBufSize / 2 := by
      rw [List.length_take]
      omega
    simp only [SerialRead.logData, readOf, hlen, if_true, List.take_append_drop]

/-- No audio data is expected, no AT command is known, and `eng_diag` handles every frame. -/
def plainDiagEnv : DiagEnv where
  gIsData := false
  cmdType := 0
  eqOrTunType := 0
  gIndex := 0
  audioModeNum := 0
  isApAtCmd _ := false
  isBtwifiAddr _ := false
  engDiag _ := true

/-! ## Collecting a frame -/

/-- The frame that is being collected, begun in `log` if there is none yet, and what of `log` comes
after it. -/
def opened (frame log : List UInt8) : Option (List UInt8 × List UInt8) :=
  if frame = [] then
    match log.dropWhile (· ≠ 0x7e) with
    | [] => none
    | b :: rest => some ([b], rest)
  else some (frame, log)

/-- A frame goes on to the next flag, or to the end of the buffer. -/
def goOn (f rest : List UInt8) : List UInt8 × Bool :=
  let part := rest.take (dataExtDiagSize - f.length)
  if 0x7e ∈ part then (f ++ part.takeWhile (· ≠ 0x7e) ++ [0x7e], true) else (f ++ part, false)

/-- What is collected of a frame, and whether it is complete. -/
def gather (frame log : List UInt8) : List UInt8 × Bool :=
  match opened frame log with
  | none => ([], false)
  | some (f, rest) => goOn f rest

@[simp] theorem ExtBuf.length_frame (e : ExtBuf) : e.frame.length = e.len := by
  rw [frame, List.length_take, e.length_data, Nat.min_eq_left e.len_le]

theorem ExtBuf.frame_put (e : ExtBuf) (b : UInt8) (h : e.len < dataExtDiagSize) :
    (e.put b h).frame = e.frame ++ [b] := by
  have hlt : e.len < e.data.length := by rw [e.length_data]; exact h
  exact take_succ_set hlt b

@[simp] theorem frame_initUserDiagBuf : initUserDiagBuf.frame = [] := rfl

theorem ExtBuf.frame_eq_nil {e : ExtBuf} : e.frame = [] ↔ e.len = 0 := by
  rw [← List.length_eq_zero_iff, length_frame]

theorem getUserDiagBuf_goOn {e : ExtBuf} (he : 0 < e.len) (log : List UInt8) :
    ((getUserDiagBuf e log).1.frame, (getUserDiagBuf e log).2) = goOn e.frame log := by
  induction log generalizing e with
  | nil => simp [getUserDiagBuf, goOn]
  | cons b log ih =>
    rw [getUserDiagBuf, dif_neg fun h => Nat.ne_of_gt he h.2]
    by_cases hlt : e.len < dataExtDiagSize
    · have hroom : dataExtDiagSize - e.frame.length =
          dataExtDiagSize - (e.frame ++ [b]).length + 1 := by
        rw [List.length_append, List.length_singleton, e.length_frame]
        omega
      rw [dif_pos ⟨he, hlt⟩]
      by_cases hb : b = 0x7e
      · rw [if_pos hb, e.frame_put, goOn, hroom, List.take_succ_cons]
        simp [hb]
      · have hne : 0x7e ≠ b := Ne.symm hb
        rw [if_neg hb, ih (Nat.succ_pos _), e.frame_put, goOn, goOn, hroom, List.take_succ_cons]
        simp [hb, hne]
    · have hroom : dataExtDiagSize - e.frame.length = 0 := by
        rw [e.length_frame]
        omega
      rw [dif_neg fun h => hlt h.2, ih he, goOn, goOn, hroom]
      rfl

/-- **`get_user_diag_buf`** collects what `gather` says. -/
theorem getUserDiagBuf_gather (e : ExtBuf) (log : List UInt8) :
    ((getUserDiagBuf e log).1.frame, (getUserDiagBuf e log).2) = gather e.frame log := by
  by_cases he : e.len = 0
  · have hf : e.frame = [] := e.frame_eq_nil.mpr he
    induction log with
    | nil => simp [getUserDiagBuf, gather, opened, hf]
    | cons b log ih =>
      rw [getUserDiagBuf]
      by_cases hb : b = 0x7e
      · rw [dif_pos ⟨hb, he⟩, getUserDiagBuf_goOn (Nat.succ_pos _), e.frame_put, hf]
        simp [gather, opened, hb]
      · rw [dif_neg fun h => hb h.1, dif_neg fun h => by omega, ih]
        simp [gather, opened, hf, hb]
  · rw [getUserDiagBuf_goOn (by omega), gather, opened,
      if_neg fun h => he (e.frame_eq_nil.mp h)]

section Gather

variable {e : ExtBuf} {log f : List UInt8} {found : Bool}

theorem getUserDiagBuf_of_gather (h : gather e.frame log = (f, found)) :
    (getUserDiagBuf e log).1.frame = f ∧ (getUserDiagBuf e log).2 = found ∧
      (getUserDiagBuf e log).1.len = f.length := by
  rw [← getUserDiagBuf_gather, Prod.mk.injEq] at h
  exact ⟨h.1, h.2, by rw [← h.1, ExtBuf.length_frame]⟩

theorem takeWhile_concat_prefix_self {b : UInt8} {l : List UInt8} (h : b ∈ l) :
    l.takeWhile (· ≠ b) ++ [b] <+: l := by
  induction l with
  | nil => cases h
  | cons c l ih =>
    by_cases hc : c = b
    · simp [hc]
    · rw [List.mem_cons] at h
      simpa [hc] using ih (h.resolve_left (Ne.symm hc))

theorem goOn_prefix_append (f rest : List UInt8) : (goOn f rest).1 <+: f ++ rest := by
  have htake := List.take_prefix (dataExtDiagSize - f.length) rest
  unfold goOn
  simp only
  split
  · rename_i hmem
    rw [List.append_assoc]
    exact (List.prefix_append_right_inj f).mpr ((takeWhile_concat_prefix_self hmem).trans htake)
  · exact (List.prefix_append_right_inj f).mpr htake

/-- The bytes of a frame are consecutive. -/
theorem opened_suffix {frame log rest : List UInt8} (h : opened frame log = some (f, rest)) :
    f ++ rest <:+ frame ++ log ∧
      (frame = [] ∧ f = [0x7e] ∨ frame ≠ [] ∧ f = frame ∧ rest = log) := by
  unfold opened at h
  split at h
  · rename_i hnil
    split at h
    · cases h
    · rename_i b tail hdrop
      have hflag : b = 0x7e := by
        have hhead := List.head?_dropWhile_not (fun b : UInt8 => decide (b ≠ 0x7e)) log
        rw [hdrop] at hhead
        simpa using hhead
      cases h
      have hsuffix := List.dropWhile_suffix (l := log) fun b : UInt8 => decide (b ≠ 0x7e)
      rw [hdrop] at hsuffix
      rw [hnil]
      exact ⟨hsuffix, Or.inl ⟨rfl, by rw [hflag]⟩⟩
  · rename_i hne
    cases h
    exact ⟨List.suffix_refl _, Or.inr ⟨hne, rfl, rfl⟩⟩

theorem gather_eq_nil {frame : List UInt8} (h : opened frame log = none) :
    gather frame log = ([], false) := by
  rw [gather, h]

theorem gather_eq_goOn {frame rest : List UInt8} (h : opened frame log = some (f, rest)) :
    gather frame log = goOn f rest := by
  rw [gather, h]

theorem length_gather_le (frame log : List UInt8) :
    (gather frame log).1.length ≤ frame.length + log.length := by
  cases h : opened frame log with
  | none =>
    rw [gather_eq_nil h]
    exact Nat.zero_le _
  | some r =>
    have hlen := Nat.le_trans (goOn_prefix_append r.1 r.2).length_le (opened_suffix h).1.length_le
    rw [gather_eq_goOn h]
    rw [← List.length_append]
    exact hlen

/-- The flag that closes the frame is found. -/
theorem goOn_closed {a : List UInt8} (ha : 0x7e ∉ a) (hroom : f.length + a.length < dataExtDiagSize)
    (rest : List UInt8) : goOn f (a ++ 0x7e :: rest) = (f ++ a ++ [0x7e], true) := by
  have htake : (a ++ 0x7e :: rest).take (dataExtDiagSize - f.length) =
      a ++ 0x7e :: rest.take (dataExtDiagSize - f.length - a.length - 1) := by
    obtain ⟨n, hn⟩ : ∃ n, dataExtDiagSize - f.length - a.length = n + 1 :=
      ⟨dataExtDiagSize - f.length - a.length - 1, by omega⟩
    rw [List.take_append, List.take_of_length_le (by omega), hn, List.take_succ_cons]
    rfl
  have hwhile : ∀ tail, (a ++ 0x7e :: tail).takeWhile (· ≠ 0x7e) = a := by
    intro tail
    have hne : ∀ b ∈ a, decide (b ≠ 0x7e) = true := by
      intro b hb
      apply decide_eq_true
      rintro rfl
      exact ha hb
    rw [List.takeWhile_append_of_pos hne]
    simp
  rw [goOn, htake, if_pos (by simp), hwhile]

theorem goOn_open {rest : List UInt8} (h : 0x7e ∉ rest.take (dataExtDiagSize - f.length)) :
    goOn f rest = (f ++ rest.take (dataExtDiagSize - f.length), false) := if_neg h

/-- A frame that is not complete has no flag in what was added to it. -/
theorem gather_incomplete {frame : List UInt8} (h : gather frame log = (f, false)) :
    f = [] ∨ ∃ f₀ rest, opened frame log = some (f₀, rest) ∧
      0x7e ∉ rest.take (dataExtDiagSize - f₀.length) ∧
      f = f₀ ++ rest.take (dataExtDiagSize - f₀.length) := by
  cases hopen : opened frame log with
  | none =>
    cases (gather_eq_nil hopen).symm.trans h
    exact Or.inl rfl
  | some r =>
    obtain ⟨f₀, rest⟩ := r
    rw [gather_eq_goOn hopen] at h
    by_cases hmem : 0x7e ∈ rest.take (dataExtDiagSize - f₀.length)
    · rw [goOn, if_pos hmem] at h
      cases h
    · cases (goOn_open hmem).symm.trans h
      exact Or.inr ⟨f₀, rest, rfl, hmem, rfl⟩

/-- A frame that begins with the read and for which there is room. -/
theorem gather_begin {t : List UInt8} (hflag : 0x7e ∉ t) (hlen : t.length < dataExtDiagSize) :
    gather [] (0x7e :: t) = (0x7e :: t, false) := by
  have hopen : opened [] (0x7e :: t) = some ([0x7e], t) := rfl
  have hroom : t.length ≤ dataExtDiagSize - [(0x7e : UInt8)].length := by
    rw [List.length_singleton]
    omega
  rw [gather_eq_goOn hopen, goOn_open (by rwa [List.take_of_length_le hroom]),
    List.take_of_length_le hroom]
  rfl

/-- A full buffer takes no byte. -/
theorem gather_full (hne : f ≠ []) (hlen : dataExtDiagSize ≤ f.length) (log : List UInt8) :
    gather f log = (f, false) := by
  have hopen : opened f log = some (f, log) := if_neg hne
  rw [gather_eq_goOn hopen, goOn, Nat.sub_eq_zero_of_le hlen, List.take_zero,
    if_neg List.not_mem_nil, List.append_nil]

end Gather

/-! ## The branches of an iteration -/

section Branches

variable {s : Vdiag} (env : DiagEnv) {log f : List UInt8} (hs : s.status = .recvToAP)

include hs

theorem handle_found (hg : gather s.extBuf.frame log = (f, true)) :
    handle s env log = ⟨.init, some f, if env.engDiag f then none else some f⟩ := by
  obtain ⟨hf, hfound, -⟩ := getUserDiagBuf_of_gather hg
  simp only [handle, hs, hfound, hf, if_true]
  rfl

theorem handle_idle (hg : gather s.extBuf.frame log = ([], false)) :
    handle s env log = ⟨⟨.recvToAP, (getUserDiagBuf s.extBuf log).1⟩, none, some log⟩ := by
  obtain ⟨-, hfound, hlen⟩ := getUserDiagBuf_of_gather hg
  simp only [handle, hs, hfound, hlen, Bool.false_eq_true, if_false, List.length_nil, if_true]

theorem handle_more (hg : gather s.extBuf.frame log = (f, false)) (hne : f ≠ [])
    (hlt : f.length < dataExtDiagSize / 2) :
    handle s env log = ⟨⟨.recvToAP, (getUserDiagBuf s.extBuf log).1⟩, none, none⟩ := by
  obtain ⟨-, hfound, hlen⟩ := getUserDiagBuf_of_gather hg
  have hpos := List.length_pos_iff.mpr hne
  simp only [handle, hs, hfound, hlen, Bool.false_eq_true, if_false]
  rw [if_neg (by omega), if_neg (by omega)]

/-- Half of the buffer is used and the frame is not complete: it is parsed as it is. -/
theorem handle_long (hg : gather s.extBuf.frame log = (f, false))
    (hle : dataExtDiagSize / 2 ≤ f.length) :
    handle s env log =
      let p := (getUserDiagBuf s.extBuf log).1.parse env
      if p.1 ≠ .common then ⟨⟨.recvToAP, p.2⟩, none, none⟩
      else ⟨⟨.recvToCP, initUserDiagBuf⟩, none, some p.2.frame⟩ := by
  obtain ⟨-, hfound, hlen⟩ := getUserDiagBuf_of_gather hg
  have hpos : f.length ≠ 0 := by
    have : dataExtDiagSize / 2 = 8192 := rfl
    omega
  simp only [handle, hs, hfound, hlen, Bool.false_eq_true, if_false]
  rw [if_neg hpos, if_pos hle]

end Branches

/-- The ways in which the bytes of a read are handled. `e` is the buffer after the bytes were
collected. -/
inductive Handles (s : Vdiag) (env : DiagEnv) (log : List UInt8) : Handled → Prop
  | toCP (hs : s.status = .recvToCP) (status : DiagStatus) :
      Handles s env log ⟨{ s with status := status }, none, some log⟩
  | found (hs : s.status = .recvToAP) {f : List UInt8}
      (hg : gather s.extBuf.frame log = (f, true)) :
      Handles s env log ⟨.init, some f, if env.engDiag f then none else some f⟩
  | idle (hs : s.status = .recvToAP) {e : ExtBuf} (he : (getUserDiagBuf s.extBuf log).1 = e)
      (hg : gather s.extBuf.frame log = (e.frame, false)) (hnil : e.len = 0) :
      Handles s env log ⟨⟨.recvToAP, e⟩, none, some log⟩
  | more (hs : s.status = .recvToAP) {e : ExtBuf} (he : (getUserDiagBuf s.extBuf log).1 = e)
      (hg : gather s.extBuf.frame log = (e.frame, false)) (hlt : e.len < dataExtDiagSize / 2) :
      Handles s env log ⟨⟨.recvToAP, e⟩, none, none⟩
  | keep (hs : s.status = .recvToAP) {e : ExtBuf} (he : (getUserDiagBuf s.extBuf log).1 = e)
      (hg : gather s.extBuf.frame log = (e.frame, false)) (hle : dataExtDiagSize / 2 ≤ e.len)
      (ht : (e.parse env).1 ≠ .common) :
      Handles s env log ⟨⟨.recvToAP, (e.parse env).2⟩, none, none⟩
  | handOver (hs : s.status = .recvToAP) {e : ExtBuf} (he : (getUserDiagBuf s.extBuf log).1 = e)
      (hg : gather s.extBuf.frame log = (e.frame, false)) (hle : dataExtDiagSize / 2 ≤ e.len)
      (ht : (e.parse env).1 = .common) :
      Handles s env log ⟨⟨.recvToCP, initUserDiagBuf⟩, none, some (e.parse env).2.frame⟩

/-- **The `switch` takes one of these ways.** -/
theorem handles (s : Vdiag) (env : DiagEnv) (log : List UInt8) :
    Handles s env log (handle s env log) := by
  cases hs : s.status with
  | recvToCP =>
    simp only [handle, hs]
    exact .toCP hs _
  | recvToAP =>
    rcases hg : gather s.extBuf.frame log with ⟨f, found⟩
    obtain ⟨hf, -, hlen⟩ := getUserDiagBuf_of_gather hg
    cases found with
    | true =>
      rw [handle_found env hs hg]
      exact .found hs hg
    | false =>
      have hg' : gather s.extBuf.frame log = ((getUserDiagBuf s.extBuf log).1.frame, false) := by
        rw [hg, hf]
      by_cases hnil : f = []
      · subst hnil
        rw [handle_idle env hs hg]
        exact .idle hs rfl hg' hlen
      · by_cases hlt : f.length < dataExtDiagSize / 2
        · rw [handle_more env hs hg hnil hlt]
          exact .more hs rfl hg' (by omega)
        · rw [handle_long env hs hg (by omega)]
          simp only
          split
          · exact .keep hs rfl hg' (by omega) ‹_›
          · exact .handOver hs rfl hg' (by omega) (not_not.mp ‹_›)

/-- The modem gets everything only while nothing is being collected. -/
def Exclusive (s : Vdiag) : Prop := s.status = .recvToCP → s.extBuf.len = 0

theorem exclusive_step {s : Vdiag} (hs : Exclusive s) (it : Iteration) :
    Exclusive (vdiagStep s it).1 := by
  cases hread : it.read.logData with
  | none =>
    rw [vdiagStep_none hread]
    exact hs
  | some log =>
    rw [vdiagStep_state hread]
    have hcases := handles s it.env log
    generalize handle s it.env log = h at hcases ⊢
    cases hcases with
    | toCP hcp status => exact fun _ => hs hcp
    | found | idle | more | keep => intro h; cases h
    | handOver => exact fun _ => rfl

end SprdHal.Engmode
