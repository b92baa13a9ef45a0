import Mathlib.Data.List.Infix
import SprdHal.Engmode.Vdiag
import SprdHal.Lib.Frames

/-!
# Frames and the reads they arrive in

A stream of complete frames arrives in reads. `get_user_diag_buf` stops at the first closing flag
of a read, and then the buffer is reset: the rest of that read is dropped. So the frames passed to
`eng_diag` are those of the stream exactly if every frame ends where a read ends
(`chunking_iff`).

The loop is a receiver of frames (`vdiag_receiver`): while nothing has been dropped the buffer holds
the beginning of the next frame, and what is passed is never longer than what was read.
-/

namespace SprdHal.Engmode

open SprdHal.Lib

/-- A complete diag frame, shorter than half of the buffer. -/
structure IsDiagFrame (f : List UInt8) : Prop where
  form : ∃ body, 0x7e ∉ body ∧ f = 0x7e :: (body ++ [0x7e])
  short : f.length < dataExtDiagSize / 2

theorem IsDiagFrame.length_pos {f : List UInt8} (h : IsDiagFrame f) : 0 < f.length := by
  obtain ⟨body, -, rfl⟩ := h.form
  exact Nat.succ_pos _

/-- What `translate_packet` writes is a frame, if it is not too long. -/
theorem isDiagFrame_translatePacket {p : List UInt8}
    (h : p.length + p.countP isSpecial + 2 < dataExtDiagSize / 2) :
    IsDiagFrame (translatePacket p) := by
  rw [translatePacket_eq]
  refine ⟨⟨_, fun hflag => ?_, rfl⟩, ?_⟩
  · cases Escape.special_of_mem_stuff hflag rfl
  · rw [List.length_cons, List.length_append, Escape.length_stuff]
    exact h

def passedFrames (out : List VdiagOut) : List (List UInt8) :=
  out.filterMap fun
    | .diag f => some f
    | .modem _ => none

theorem passedFrames_append (a b : List VdiagOut) :
    passedFrames (a ++ b) = passedFrames a ++ passedFrames b := List.filterMap_append

theorem passedFrames_writeLoop (backup : List UInt8) (ws : List (Option Nat)) :
    passedFrames (writeLoop backup ws) = [] := by
  induction ws generalizing backup with
  | nil => rfl
  | cons w ws ih =>
    cases w with
    | none =>
      unfold writeLoop
      split
      · rfl
      · exact ih backup
    | some w =>
      unfold writeLoop
      split
      · rfl
      · exact ih _

section Step

variable {s : Vdiag} {it : Iteration} {log : List UInt8} (hread : it.read.logData = some log)

include hread

theorem passedFrames_step :
    passedFrames (vdiagStep s it).2 = (handle s it.env log).passed.toList := by
  simp only [vdiagStep, hread, passedFrames_append]
  have hwrite :
      passedFrames ((handle s it.env log).backup.elim [] (writeLoop · it.writes)) = [] := by
    cases (handle s it.env log).backup with
    | none => rfl
    | some b => exact passedFrames_writeLoop b it.writes
  rw [hwrite, List.append_nil]
  cases (handle s it.env log).passed <;> rfl

end Step

/-! ## Bytes are only dropped -/

/-- The frame that is passed and what is kept come from what was kept and what was read. -/
theorem handle_bytes (s : Vdiag) (env : DiagEnv) (log : List UInt8) :
    (handle s env log).passed.toList.flatten.length + (handle s env log).state.extBuf.len ≤
      s.extBuf.len + log.length := by
  have hgather := length_gather_le s.extBuf.frame log
  rw [s.extBuf.length_frame] at hgather
  have hcases := handles s env log
  generalize handle s env log = h at hcases ⊢
  cases hcases with
  | toCP hs status => exact Nat.le_add_right_of_le (by simp)
  | found hs hg =>
    rw [hg] at hgather
    simpa [Vdiag.init, initUserDiagBuf] using hgather
  | idle hs he hg | more hs he hg =>
    rw [hg, ExtBuf.length_frame] at hgather
    simpa using hgather
  | keep hs he hg =>
    rw [hg, ExtBuf.length_frame] at hgather
    simpa [ExtBuf.parse] using hgather
  | handOver => simp [initUserDiagBuf]

/-- The bytes of the iteration's read. -/
def Iteration.bytes (it : Iteration) : List UInt8 := it.read.logData.getD []

/-- The iteration reads something. -/
def Iteration.Reads (_ : Vdiag) (it : Iteration) : Prop := ∃ c, it.read.logData = some c

theorem run_bytes (its : List Iteration) (s : Vdiag) (hadm : vdiag.Admits Iteration.Reads s its) :
    (passedFrames (vdiag.run s its).2).flatten.length ≤
      s.extBuf.len + (its.map Iteration.bytes).flatten.length := by
  induction its generalizing s with
  | nil => exact Nat.zero_le _
  | cons it its ih =>
    obtain ⟨⟨c, hread⟩, hadm⟩ := hadm
    have hbytes : it.bytes = c := by rw [Iteration.bytes, hread, Option.getD_some]
    have hstep := handle_bytes s it.env c
    have hrest := ih (vdiagStep s it).1 hadm
    rw [vdiagStep_state hread] at hrest
    rw [Machine.run_cons, passedFrames_append, List.flatten_append, List.length_append, vdiag_step,
      passedFrames_step hread, vdiagStep_state hread, List.map_cons, hbytes, List.flatten_cons,
      List.length_append]
    omega

/-! ## Reads inside a frame -/

section Frame

variable {f fr c x : List UInt8} (hf : IsDiagFrame f) (hfr : fr.length < f.length)

include hf hfr

/-- Collecting goes on from a beginning of the frame that is not empty. -/
theorem opened_of_prefix {y : List UInt8} (hc : c ≠ []) (h : fr ++ c ++ x = f ++ y) :
    ∃ b₀ rest, opened fr c = some (0x7e :: b₀, rest) ∧ (0x7e :: b₀) ++ rest = fr ++ c ∧
      (0x7e :: b₀).length < f.length := by
  obtain ⟨body, hbody, rfl⟩ := hf.form
  cases fr with
  | nil =>
    obtain ⟨b, c, rfl⟩ := List.exists_cons_of_ne_nil hc
    simp only [List.nil_append, List.cons_append, List.cons.injEq] at h
    refine ⟨[], c, ?_, ?_, ?_⟩
    · simp [opened, h.1]
    · simp [h.1]
    · simp
  | cons b fr =>
    simp only [List.cons_append, List.cons.injEq] at h
    refine ⟨fr, c, ?_, ?_, ?_⟩
    · simp [opened, h.1]
    · simp [h.1]
    · simpa using hfr

/-- A read that ends inside the frame is added to what is there. -/
theorem gather_inside (hc : c ≠ []) (hx : x ≠ []) (h : fr ++ c ++ x = f) :
    gather fr c = (fr ++ c, false) := by
  obtain ⟨b₀, rest, hopen, happ, hlt⟩ := opened_of_prefix hf hfr hc (x := x) (y := [])
    (by rw [h, List.append_nil])
  have hshort := hf.short
  obtain ⟨body, hbody, rfl⟩ := hf.form
  obtain ⟨x, z, rfl⟩ := List.eq_nil_or_concat x |>.resolve_left hx
  rw [← happ] at h ⊢
  have hb : b₀ ++ rest ++ x = body := by
    rw [List.concat_eq_append, ← List.append_assoc, List.cons_append, List.cons_append,
      List.cons_append, List.cons.injEq] at h
    exact (List.append_inj' h.2 rfl).1
  have hrest : 0x7e ∉ rest := fun hmem => hbody (by simp [← hb, hmem])
  have hroom : rest.length ≤ dataExtDiagSize - (0x7e :: b₀).length := by
    simp only [← hb, List.length_cons, List.length_append, List.length_nil] at hshort ⊢
    omega
  rw [gather_eq_goOn hopen, goOn_open (by rwa [List.take_of_length_le hroom]),
    List.take_of_length_le hroom]

/-- A read that goes to the end of the frame or further completes it. -/
theorem gather_end (hc : c ≠ []) (h : fr ++ c = f ++ x) : gather fr c = (f, true) := by
  obtain ⟨b₀, rest, hopen, happ, hlt⟩ := opened_of_prefix hf hfr hc (x := []) (y := x)
    (by rw [h, List.append_nil])
  have hshort := hf.short
  obtain ⟨body, hbody, rfl⟩ := hf.form
  have hb : b₀ ++ rest = body ++ 0x7e :: x := by
    rw [← happ, List.cons_append, List.cons_append, List.append_assoc, List.cons.injEq] at h
    exact h.2
  -- the body is what is there already and the bytes up to the flag
  obtain ⟨b₁, rfl, rfl⟩ : ∃ b₁, body = b₀ ++ b₁ ∧ rest = b₁ ++ 0x7e :: x := by
    rcases List.append_eq_append_iff.mp hb with h | ⟨b₁, rfl, htail⟩
    · exact h
    · simp only [List.length_cons, List.length_append, List.length_nil] at hlt
      obtain rfl : b₁ = [] := List.length_eq_zero_iff.mp (by omega)
      exact ⟨[], by simp, by simpa using htail.symm⟩
  have hb₁ : 0x7e ∉ b₁ := fun hmem => hbody (List.mem_append_right _ hmem)
  rw [gather_eq_goOn hopen, goOn_closed hb₁]
  · simp
  · simp only [List.length_cons, List.length_append, List.length_nil] at hshort ⊢
    omega

end Frame

/-! ## Whole streams -/

theorem SerialRead.logData_ne_nil {r : SerialRead} {log : List UInt8} (h : r.logData = some log) :
    log ≠ [] := by
  unfold logData at h
  split at h
  · cases h
  · rename_i a _
    split at h
    · rename_i hfull
      have ha : 1 < a.length := by rw [hfull]; decide
      split at h
      · cases h
        apply List.ne_nil_of_length_pos
        rw [List.length_take]
        exact Nat.lt_min.mpr ⟨by decide, by omega⟩
      · cases h
        exact List.append_ne_nil_of_left_ne_nil (List.ne_nil_of_length_pos (by omega)) _
    · split at h
      · cases h
      · rename_i hne
        cases h
        exact hne

/-- The receiver waits for the rest of a frame of which it has `fr`. -/
structure Waiting (s : Vdiag) (fr : List UInt8) : Prop where
  status : s.status = .recvToAP
  frame : s.extBuf.frame = fr

section Waiting

variable {s : Vdiag} {it : Iteration} {f fr c x : List UInt8} (hw : Waiting s fr)
  (hread : it.read.logData = some c) (hf : IsDiagFrame f) (hfr : fr.length < f.length)

include hw hread hf hfr

theorem step_inside (hx : x ≠ []) (h : fr ++ c ++ x = f) :
    passedFrames (vdiagStep s it).2 = [] ∧ Waiting (vdiagStep s it).1 (fr ++ c) := by
  have hc := it.read.logData_ne_nil hread
  have hg : gather s.extBuf.frame c = (fr ++ c, false) := by
    rw [hw.frame]
    exact gather_inside hf hfr hc hx h
  have hlen : (fr ++ c).length < dataExtDiagSize / 2 := by
    have hshort := hf.short
    rw [← h, List.length_append] at hshort
    omega
  rw [passedFrames_step hread, vdiagStep_state hread,
    handle_more it.env hw.status hg (List.append_ne_nil_of_right_ne_nil _ hc) hlen]
  exact ⟨rfl, rfl, (getUserDiagBuf_of_gather hg).1⟩

theorem step_end (h : fr ++ c = f ++ x) :
    passedFrames (vdiagStep s it).2 = [f] ∧ Waiting (vdiagStep s it).1 [] := by
  have hg : gather s.extBuf.frame c = (f, true) := by
    rw [hw.frame]
    exact gather_end hf hfr (it.read.logData_ne_nil hread) h
  rw [passedFrames_step hread, vdiagStep_state hread, handle_found it.env hw.status hg]
  exact ⟨rfl, rfl, rfl⟩

end Waiting

theorem vdiag_receiver :
    Receiver vdiag Iteration.Reads IsDiagFrame Iteration.bytes passedFrames Waiting where
  frame_ne_nil f hf := List.ne_nil_of_length_pos hf.length_pos
  frames_nil := rfl
  frames_append := passedFrames_append
  skip s it fr hw hok hc := by
    obtain ⟨c, hread⟩ := hok
    rw [Iteration.bytes, hread] at hc
    exact absurd hc (it.read.logData_ne_nil hread)
  inside s it fr f x hw hok hf _ hx h := by
    obtain ⟨c, hread⟩ := hok
    rw [Iteration.bytes, hread] at h ⊢
    have hlt : fr.length < f.length := by
      have hpos := List.length_pos_iff.mpr hx
      rw [← h, List.length_append, List.length_append]
      omega
    exact step_inside hw hread hf hlt hx h
  complete s it fr f x hw hok hf hlt h := by
    obtain ⟨c, hread⟩ := hok
    rw [Iteration.bytes, hread] at h
    exact step_end hw hread hf hlt h
  bytes its s hw hadm := by
    have hle := run_bytes its s hadm
    rw [← ExtBuf.length_frame, hw.frame, List.length_nil, Nat.zero_add] at hle
    exact hle

/-- Reads that return `chunks`. -/
theorem reads_of_logData {its : List Iteration} {chunks : List (List UInt8)}
    (h : its.map (·.read.logData) = chunks.map some) (s : Vdiag) :
    vdiag.Admits Iteration.Reads s its ∧ its.map Iteration.bytes = chunks := by
  induction its generalizing chunks s with
  | nil => exact ⟨trivial, (List.map_eq_nil_iff.mp h.symm).symm⟩
  | cons it its ih =>
    cases chunks with
    | nil => cases h
    | cons c chunks =>
      rw [List.map_cons, List.map_cons, List.cons.injEq] at h
      obtain ⟨hadm, hmap⟩ := ih h.2 (vdiag.step s it).1
      refine ⟨⟨⟨c, h.1⟩, hadm⟩, ?_⟩
      rw [List.map_cons, hmap, Iteration.bytes, h.1, Option.getD_some]

/-- **Frames and reads.** A stream of complete frames arrives in reads of any size. The frames
passed to `eng_diag` are those of the stream exactly if every frame ends where a read ends. -/
theorem chunking_iff (fs chunks : List (List UInt8)) (hfs : ∀ f ∈ fs, IsDiagFrame f)
    (its : List Iteration) (hreads : its.map (·.read.logData) = chunks.map some)
    (hstream : chunks.flatten = fs.flatten) :
    passedFrames (vdiag.run .init its).2 = fs ↔
      ∀ fs₁, fs₁ <+: fs → ∃ cs, cs <+: chunks ∧ cs.flatten = fs₁.flatten := by
  have hw : Waiting .init [] := ⟨rfl, rfl⟩
  obtain ⟨hadm, hmap⟩ := reads_of_logData hreads .init
  subst hmap
  rw [vdiag_receiver.receiver_iff its hw hadm hfs hstream
    fun f hmem => (hfs f (List.mem_of_mem_head? hmem)).length_pos]
  constructor
  · intro h fs₁ hpre
    by_cases hne : fs₁ = []
    · exact ⟨[], List.nil_prefix, by rw [hne]⟩
    · exact h fs₁ hne hpre
  · exact fun h fs₁ _ hpre => h fs₁ hpre

def twoFrames : List (List UInt8) := [[0x7e, 1, 0x7e], [0x7e, 2, 0x7e]]

theorem twoFrames_isDiagFrame : ∀ f ∈ twoFrames, IsDiagFrame f := by
  intro f hf
  simp only [twoFrames, List.mem_cons, List.not_mem_nil, or_false] at hf
  rcases hf with rfl | rfl
  · exact ⟨⟨[1], by decide, rfl⟩, by decide⟩
  · exact ⟨⟨[2], by decide, rfl⟩, by decide⟩

theorem twoFrames_apart :
    passedFrames (vdiag.run .init
      [⟨readOf [0x7e, 1] (by decide), plainDiagEnv, []⟩,
        ⟨readOf [0x7e] (by decide), plainDiagEnv, []⟩,
        ⟨readOf [0x7e, 2, 0x7e] (by decide), plainDiagEnv, []⟩]).2 = twoFrames := by
  refine (chunking_iff twoFrames [[0x7e, 1], [0x7e], [0x7e, 2, 0x7e]] twoFrames_isDiagFrame _ rfl
    rfl).mpr fun fs₁ hpre => ?_
  have h : ∀ fs₁ ∈ twoFrames.inits, ∃ cs ∈ [[0x7e, 1], [0x7e], [0x7e, 2, 0x7e]].inits,
      cs.flatten = fs₁.flatten := by decide
  obtain ⟨cs, hcs, heq⟩ := h fs₁ ((List.mem_inits _ _).mpr hpre)
  exact ⟨cs, (List.mem_inits _ _).mp hcs, heq⟩

/-- Two frames in one read: the second one is lost. -/
theorem twoFrames_together :
    (∀ f ∈ twoFrames, IsDiagFrame f) ∧ twoFrames.flatten = [0x7e, 1, 0x7e, 0x7e, 2, 0x7e] ∧
      passedFrames (vdiag.run .init
        [⟨readOf [0x7e, 1, 0x7e, 0x7e, 2, 0x7e] (by decide), plainDiagEnv, []⟩]).2 =
        [[0x7e, 1, 0x7e]] :=
  ⟨twoFrames_isDiagFrame, rfl, by decide +kernel⟩

end SprdHal.Engmode
