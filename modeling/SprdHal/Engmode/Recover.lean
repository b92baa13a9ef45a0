import SprdHal.Engmode.Vdiag

/-!
# Whether the receiver recovers

While a frame is being collected, a flag completes it and the buffer is reset. A frame that is too
long for the buffer is handed over to the modem, unless `eng_diag_parse` takes it for a command of
the AP: then the buffer stays full, `get_user_diag_buf` ignores every byte and nothing resets it.
`receiver_recovers` says that this is the only way to get there.
-/

namespace SprdHal.Engmode

open SprdHal.Lib

/-- The bytes of the iteration fill the buffer up with a frame that is not complete and that is
taken for a command of the AP. -/
def Overfull (s : Vdiag) (it : Iteration) : Prop :=
  s.status = .recvToAP ∧ ∃ log f, it.read.logData = some log ∧
    gather s.extBuf.frame log = (f, false) ∧ f.length = dataExtDiagSize ∧
    (engDiagParse it.env f dataExtDiagSize).1 ≠ .common

section Step

variable {s : Vdiag} {it : Iteration}

/-- A full buffer is a frame. -/
theorem ExtBuf.parse_full {e : ExtBuf} (h : e.len = dataExtDiagSize) (env : DiagEnv) :
    ((e.parse env).1, (e.parse env).2.frame) = engDiagParse env e.frame dataExtDiagSize := by
  have hdata : e.frame = e.data := by
    rw [frame, h, ← e.length_data, List.take_length]
  have hlen : (engDiagParse env e.data e.len).2.length = e.len := by
    rw [length_engDiagParse, e.length_data, h]
  have hframe : (e.parse env).2.frame = (engDiagParse env e.data e.len).2 :=
    List.take_of_length_le (Nat.le_of_eq hlen)
  rw [hframe, hdata, ← h]
  rfl

theorem overfull_iff {log : List UInt8} (hread : it.read.logData = some log)
    (hap : s.status = .recvToAP) {e : ExtBuf} (hg : gather s.extBuf.frame log = (e.frame, false)) :
    Overfull s it ↔ e.len = dataExtDiagSize ∧ (e.parse it.env).1 ≠ .common := by
  constructor
  · rintro ⟨-, log', f, hlog, hf, hlen, ht⟩
    cases hread.symm.trans hlog
    cases hg.symm.trans hf
    rw [ExtBuf.length_frame] at hlen
    rw [← e.parse_full hlen] at ht
    exact ⟨hlen, ht⟩
  · rintro ⟨hlen, ht⟩
    refine ⟨hap, log, e.frame, hread, hg, by rw [ExtBuf.length_frame, hlen], ?_⟩
    rwa [← e.parse_full hlen]

theorem not_overfull_of_room {log : List UInt8} (hread : it.read.logData = some log)
    (h : s.extBuf.len + log.length < dataExtDiagSize) : ¬ Overfull s it := by
  rintro ⟨-, log', f, hlog, hf, hlen, -⟩
  cases hread.symm.trans hlog
  have hle := length_gather_le s.extBuf.frame log
  rw [hf, hlen, ExtBuf.length_frame] at hle
  omega

theorem len_initUserDiagBuf_ne : initUserDiagBuf.len ≠ dataExtDiagSize := by decide

/-- **Filling the buffer up.** A buffer that is not full is full after the iteration in this one
case. -/
theorem full_step_iff (hs : s.extBuf.len ≠ dataExtDiagSize) (it : Iteration) :
    (vdiagStep s it).1.extBuf.len = dataExtDiagSize ↔ Overfull s it := by
  cases hread : it.read.logData with
  | none =>
    rw [vdiagStep_none hread]
    apply iff_of_false hs
    rintro ⟨-, log, f, hlog, -⟩
    cases hread.symm.trans hlog
  | some log =>
    have hhalf : dataExtDiagSize / 2 < dataExtDiagSize := by decide
    rw [vdiagStep_state hread]
    have hcases := handles s it.env log
    generalize handle s it.env log = h at hcases ⊢
    cases hcases with
    | toCP hcp status => exact iff_of_false hs fun h => by cases hcp.symm.trans h.1
    | found hap hg =>
      apply iff_of_false len_initUserDiagBuf_ne
      rintro ⟨-, log', f, hlog, hf, -⟩
      cases hread.symm.trans hlog
      cases hg.symm.trans hf
    | @idle hap e he hg hnil =>
      have hne : e.len ≠ dataExtDiagSize := by omega
      exact iff_of_false hne fun h => hne ((overfull_iff hread hap hg).mp h).1
    | @more hap e he hg hlt =>
      have hne : e.len ≠ dataExtDiagSize := by omega
      exact iff_of_false hne fun h => hne ((overfull_iff hread hap hg).mp h).1
    | keep hap he hg hle ht =>
      rw [overfull_iff hread hap hg]
      exact ⟨fun hlen => ⟨hlen, ht⟩, fun h => h.1⟩
    | handOver hap he hg hle ht =>
      exact iff_of_false len_initUserDiagBuf_ne fun h => ((overfull_iff hread hap hg).mp h).2 ht

/-- **A flag resets the buffer**, unless the bytes before it fill it up. -/
theorem len_step_of_flag (hex : Exclusive s) (hs : s.extBuf.len ≠ 0) {log : List UInt8}
    (hread : it.read.logData = some log) (hflag : 0x7e ∈ log) (hover : ¬ Overfull s it) :
    (vdiagStep s it).1.extBuf.len = 0 := by
  have hframe : s.extBuf.frame ≠ [] := fun h => hs (ExtBuf.frame_eq_nil.mp h)
  have hopen : opened s.extBuf.frame log = some (s.extBuf.frame, log) := if_neg hframe
  -- a frame that is not complete has no room left
  have hfull : ∀ f, gather s.extBuf.frame log = (f, false) → f.length = dataExtDiagSize := by
    intro f hf
    rw [gather_eq_goOn hopen] at hf
    by_cases hmem : 0x7e ∈ log.take (dataExtDiagSize - s.extBuf.frame.length)
    · rw [goOn, if_pos hmem] at hf
      cases hf
    · rw [goOn_open hmem] at hf
      cases hf
      have hlt : dataExtDiagSize - s.extBuf.frame.length < log.length := by
        by_contra hge
        rw [List.take_of_length_le (by omega)] at hmem
        exact hmem hflag
      have hle := s.extBuf.len_le
      rw [List.length_append, List.length_take, ExtBuf.length_frame] at *
      omega
  rw [vdiagStep_state hread]
  have hcases := handles s it.env log
  generalize handle s it.env log = h at hcases ⊢
  have hhalf : dataExtDiagSize / 2 < dataExtDiagSize := by decide
  cases hcases with
  | toCP hcp status => exact absurd (hex hcp) hs
  | found => rfl
  | idle hap he hg hnil => exact hnil
  | more hap he hg hlt =>
    have hlen := hfull _ hg
    rw [ExtBuf.length_frame] at hlen
    omega
  | keep hap he hg hle ht =>
    have hlen := hfull _ hg
    rw [ExtBuf.length_frame] at hlen
    exact absurd ((overfull_iff hread hap hg).mpr ⟨hlen, ht⟩) hover
  | handOver => rfl

end Step

/-- Every iteration of a run avoids filling the buffer up if and only if it is full in no state of
the run. -/
theorem admits_iff_not_full (its : List Iteration) {s : Vdiag}
    (hs : s.extBuf.len ≠ dataExtDiagSize) :
    vdiag.Admits (fun s it => ¬ Overfull s it) s its ↔
      ∀ pre, pre <+: its → (vdiag.run s pre).1.extBuf.len ≠ dataExtDiagSize := by
  induction its generalizing s with
  | nil =>
    refine iff_of_true trivial fun pre hpre => ?_
    rw [List.prefix_nil.mp hpre]
    exact hs
  | cons it its ih =>
    rw [Machine.Admits, ← full_step_iff hs]
    constructor
    · rintro ⟨hstep, hadm⟩ pre hpre
      rcases List.prefix_cons_iff.mp hpre with rfl | ⟨pre, rfl, hpre₁⟩
      · exact hs
      · exact (ih hstep).mp hadm pre hpre₁
    · intro h
      have hstep : (vdiagStep s it).1.extBuf.len ≠ dataExtDiagSize :=
        h [it] (List.cons_prefix_cons.mpr ⟨rfl, List.nil_prefix⟩)
      exact ⟨hstep, (ih hstep).mpr fun pre hpre =>
        h (it :: pre) (List.cons_prefix_cons.mpr ⟨rfl, hpre⟩)⟩

/-- **Recovery.** The buffer is full in no state of a run exactly if no iteration of it fills it up
with a frame taken for a command of the AP. After such a run it is not full, and it is empty or any
bytes with a flag among them that do not fill it up in this way empty it. -/
theorem receiver_recovers (its : List Iteration) :
    (vdiag.Admits (fun s it => ¬ Overfull s it) .init its ↔
      ∀ pre, pre <+: its → (vdiag.run .init pre).1.extBuf.len ≠ dataExtDiagSize) ∧
    (vdiag.Admits (fun s it => ¬ Overfull s it) .init its →
      let s := (vdiag.run .init its).1
      s.extBuf.len < dataExtDiagSize ∧
        (s.extBuf.len = 0 ∨ ∀ it log, it.read.logData = some log → 0x7e ∈ log → ¬ Overfull s it →
          (vdiagStep s it).1.extBuf.len = 0)) := by
  have hiff := admits_iff_not_full its len_initUserDiagBuf_ne (s := .init)
  have hinit : Exclusive .init := fun h => by cases h
  have hex : Exclusive (vdiag.run .init its).1 :=
    vdiag.run_invariant (P := Exclusive) (fun s it h => exclusive_step h it) its .init hinit
  refine ⟨hiff, fun hadm => ⟨?_, ?_⟩⟩
  · exact Nat.lt_of_le_of_ne (ExtBuf.len_le _) (hiff.mp hadm its (List.prefix_refl its))
  · by_cases hzero : (vdiag.run .init its).1.extBuf.len = 0
    · exact Or.inl hzero
    · exact Or.inr fun it log hread hflag hover => len_step_of_flag hex hzero hread hflag hover

/-- A frame in two reads. -/
theorem receiver_recovers_flag :
    let s := (vdiag.run .init [⟨readOf [0x7e, 1] (by decide), plainDiagEnv, []⟩]).1
    s.extBuf.len = 2 ∧
      (vdiagStep s ⟨readOf [2, 0x7e] (by decide), plainDiagEnv, []⟩).1.extBuf.len = 0 := by
  intro s
  have hs : s.extBuf.len = 2 := by decide +kernel
  have h := (receiver_recovers [⟨readOf [0x7e, 1] (by decide), plainDiagEnv, []⟩]).2
    ⟨not_overfull_of_room rfl (by decide), trivial⟩
  refine ⟨hs, h.2.resolve_left (fun h0 => ?_) _ [2, 0x7e] rfl (by decide) ?_⟩
  · rw [hs] at h0
    cases h0
  · exact not_overfull_of_room rfl (by rw [hs]; decide)

/-! ## A full buffer -/

/-- A full buffer stays full if its frame is taken for a command of the AP and parsing leaves it as
it is. -/
theorem step_full {s : Vdiag} {it : Iteration} {log f : List UInt8} (hs : s.status = .recvToAP)
    (hread : it.read.logData = some log) (hg : gather s.extBuf.frame log = (f, false))
    (hlen : f.length = dataExtDiagSize) {t : DiagCmdType} (ht : t ≠ .common)
    (hparse : engDiagParse it.env f dataExtDiagSize = (t, f)) :
    (vdiagStep s it).1.status = .recvToAP ∧ (vdiagStep s it).1.extBuf.frame = f := by
  obtain ⟨hframe, -, he⟩ := getUserDiagBuf_of_gather hg
  have hp := ExtBuf.parse_full (he.trans hlen) it.env
  rw [hframe, hparse, Prod.mk.injEq] at hp
  rw [vdiagStep_state hread, handle_long it.env hs hg (by rw [hlen]; decide)]
  simp only [hp.1, if_pos ht]
  exact ⟨trivial, hp.2⟩

/-- An unfinished `DIAG_CMD_ADC_F` command as long as the buffer. -/
def longAdcFrame : List UInt8 := [0x7e, 0, 0, 0, 0, 0, 0, 0x0f] ++ List.replicate 16376 0x55

theorem length_longAdcFrame : longAdcFrame.length = dataExtDiagSize := by
  rw [longAdcFrame, List.length_append, List.length_replicate]
  rfl

theorem mem_longAdcFrame {b : UInt8} (hb : b ∈ longAdcFrame.tail) :
    b = 0 ∨ b = 0x0f ∨ b = 0x55 := by
  simp only [longAdcFrame, List.cons_append, List.tail_cons, List.nil_append, List.mem_cons,
    List.mem_replicate] at hb
  tauto

theorem engDiagParse_longAdcFrame :
    engDiagParse plainDiagEnv longAdcFrame dataExtDiagSize = (.userAdc, longAdcFrame) := by
  refine engDiagParse_type plainDiagEnv (fun b hb => ?_) (by decide)
  rw [List.take_of_length_le (Nat.le_of_eq length_longAdcFrame)] at hb
  rcases mem_longAdcFrame hb with rfl | rfl | rfl <;> rfl

/-- The reads of `longAdcFrame`, and of a flag. -/
def longIteration : Iteration :=
  ⟨readOf longAdcFrame (Nat.le_of_eq length_longAdcFrame), plainDiagEnv, []⟩

def flagIteration : Iteration := ⟨readOf [0x7e] (by decide), plainDiagEnv, []⟩

theorem gather_longAdcFrame : gather [] longAdcFrame = (longAdcFrame, false) := by
  have hflag : 0x7e ∉ longAdcFrame.tail := fun h => by
    rcases mem_longAdcFrame h with h | h | h <;> cases h
  have hlen : longAdcFrame.tail.length < dataExtDiagSize := by
    rw [List.length_tail, length_longAdcFrame]
    decide
  exact gather_begin hflag hlen

/-- Two iterations, each of which leaves the buffer full. -/
theorem run_full {a b : Iteration} {f : List UInt8} (hlen : f.length = dataExtDiagSize)
    (h₁ : (vdiagStep .init a).1.extBuf.frame = f)
    (h₂ : (vdiagStep (vdiagStep .init a).1 b).1.extBuf.frame = f) :
    (vdiag.run .init [a]).1.extBuf.len = dataExtDiagSize ∧
      (vdiag.run .init [a, b]).1.extBuf.len = dataExtDiagSize := by
  simp only [← ExtBuf.length_frame, Machine.run_cons, Machine.run_nil, vdiag_step, h₁, h₂, hlen,
    and_self]

/-- After `longAdcFrame` the buffer is full, and a flag is ignored. -/
theorem longIteration_stuck :
    (vdiag.run .init [longIteration]).1.extBuf.len = dataExtDiagSize ∧
      (vdiag.run .init [longIteration, flagIteration]).1.extBuf.len = dataExtDiagSize := by
  have hne : longAdcFrame ≠ [] := List.cons_ne_nil _ _
  have hread : longIteration.read.logData = some longAdcFrame :=
    logData_readOf hne (Nat.le_of_eq length_longAdcFrame)
  have hflag : flagIteration.read.logData = some [0x7e] := rfl
  have hg₀ : gather Vdiag.init.extBuf.frame longAdcFrame = (longAdcFrame, false) := by
    rw [Vdiag.init, frame_initUserDiagBuf]
    exact gather_longAdcFrame
  obtain ⟨hs₁, hf₁⟩ := step_full rfl hread hg₀ length_longAdcFrame (by decide)
    engDiagParse_longAdcFrame
  have hg : gather (vdiagStep .init longIteration).1.extBuf.frame [0x7e] =
      (longAdcFrame, false) := by
    rw [hf₁]
    exact gather_full hne (Nat.le_of_eq length_longAdcFrame.symm) _
  obtain ⟨-, hf₂⟩ := step_full hs₁ hflag hg length_longAdcFrame (by decide)
    engDiagParse_longAdcFrame
  exact run_full length_longAdcFrame hf₁ hf₂

end SprdHal.Engmode
