import SprdHal.Audio.MuxRead

/-!
# Flow control of `mux_pcm_write`

The voice processor acknowledges the samples it has taken, and `bytes_written` is what is still
outstanding. It is kept between calls, but acknowledgements are waited for only behind a `write` that
fills the buffer: a call that starts with a full buffer has no `write` to make and never comes to the
wait. An acknowledgement of more than is outstanding is noted in `ret`, which the next one
overwrites.

`muxPcmWriteEvents` records what the loop does beside its result.
-/

namespace SprdHal.Audio

open SprdHal.Lib

/-! ## What a call does -/

/-- A `write` with `bytes_written`, `left` and `sendlen` at it and what it returns, if it returns, and
a wait for acknowledgements with what is outstanding and the answers. -/
inductive PlaybackEvent
  | write (bytesWritten left sendlen : Int) (ret : Option Int)
  | wait (outstanding : Nat) (answers : List Int)

/-- What is outstanding after an answer. -/
def outstandingAfter (outstanding : Nat) (answer : Int) : Nat :=
  if 0 ≤ answer ∧ answer ≤ outstanding then outstanding - answer.toNat else outstanding

/-- The answers `mux_write_wait_response` gets. -/
def waitAnswers (muxFd : Int) (streamType : Nat) (bytesToWait : Nat) (o : List Outcome) :
    List Int :=
  if bytesToWait = 0 then []
  else
    match saudioWaitCommonCmd muxFd (saudioCmdReceive <<< 16) streamType o with
    | none => []
    | some (ret, rest) =>
      ret ::
        if ret < 0 then []
        else if rest.length < o.length then
          waitAnswers muxFd streamType (outstandingAfter bytesToWait ret) rest
        else []
termination_by o.length

/-- The number of bytes acknowledged by answers. -/
def acknowledged (outstanding : Nat) : List Int → Nat
  | [] => 0
  | a :: answers => outstanding - outstandingAfter outstanding a +
      acknowledged (outstandingAfter outstanding a) answers

/-- An answer acknowledges more than is outstanding. -/
def Exceeds (outstanding : Nat) : List Int → Prop
  | [] => False
  | a :: answers => outstanding < a ∨ Exceeds (outstandingAfter outstanding a) answers

/-- The wait ends with an error. -/
def Fails (answers : List Int) : Prop := ∃ a ∈ answers, a < 0

/-- The length of the next `write`. -/
def sendLen (left bytesWritten : Int) : Int :=
  if left < audioPlaybackBuffer - bytesWritten then left else audioPlaybackBuffer - bytesWritten

/-- What the loop of `mux_pcm_write` does. -/
def muxPcmWriteEvents (muxFd : Int) (streamType : Nat) (ret left bytesWritten : Int) :
    List Outcome → List PlaybackEvent
  | [] => if left = 0 then [] else [.write bytesWritten left (sendLen left bytesWritten) none]
  | wr :: o =>
    if left = 0 then []
    else
      .write bytesWritten left (sendLen left bytesWritten) (some wr.ret) ::
        if 0 < wr.ret then
          if audioPlaybackBuffer ≤ bytesWritten + wr.ret then
            .wait (bytesWritten + wr.ret).toNat
                (waitAnswers muxFd streamType (bytesWritten + wr.ret).toNat o) ::
              match muxWriteWaitResponse muxFd streamType (bytesWritten + wr.ret).toNat 0 o with
              | none => []
              | some (ret, bytesToWait, rest) =>
                if ret ≠ 0 then []
                else if rest.length < (wr :: o).length then
                  muxPcmWriteEvents muxFd streamType ret (left - wr.ret) bytesToWait rest
                else []
          else
            muxPcmWriteEvents muxFd streamType ret (left - wr.ret) (bytesWritten + wr.ret) o
        else if wr.again = false ∨ ret = 0 then []
        else muxPcmWriteEvents muxFd streamType ret left bytesWritten o
termination_by o => o.length
decreasing_by
  · assumption
  · exact Nat.lt_succ_self _
  · exact Nat.lt_succ_self _

/-- The bytes the device accepts. -/
def accepted : List PlaybackEvent → Nat
  | [] => 0
  | .write _ _ _ ret :: events => (ret.getD 0).toNat + accepted events
  | .wait _ _ :: events => accepted events

/-- The bytes that are acknowledged. -/
def totalAcknowledged : List PlaybackEvent → Nat
  | [] => 0
  | .write _ _ _ _ :: events => totalAcknowledged events
  | .wait outstanding answers :: events =>
    acknowledged outstanding answers + totalAcknowledged events

/-- What `mux_pcm_write` does. -/
def World.playbackEvents (w : World) (pcm : MuxPcm) (count : Nat) (dev : Devices) :
    List PlaybackEvent :=
  if 0 < pcm.muxFd then
    match w.start pcm dev.ctl with
    | .error _ => []
    | .ok (ret, _, _) =>
      if ret ≠ 0 then []
      else
        match if pcm.state = 0 then muxPipeClear pcm.muxFd dev.data else some dev.data with
        | none => []
        | some data => muxPcmWriteEvents pcm.muxFd pcm.streamType ret (Int.bmod count (2 ^ 32))
            pcm.bytesWritten data
  else []

/-! ## Waiting for acknowledgements -/

theorem outstandingAfter_le (n : Nat) (a : Int) : outstandingAfter n a ≤ n := by
  unfold outstandingAfter
  split
  · exact Nat.sub_le _ _
  · exact Nat.le_refl _

/-- One answer that is not negative, as the loop takes it. -/
theorem muxWriteWaitResponse_answer {muxFd : Int} {streamType n : Nat} {ret' : Int}
    {o rest : List Outcome} (ret : Int) (hn : n ≠ 0)
    (hs : saudioWaitCommonCmd muxFd (saudioCmdReceive <<< 16) streamType o = some (ret', rest))
    (hret : ¬ ret' < 0) (hlen : rest.length < o.length) :
    ∃ ret'', muxWriteWaitResponse muxFd streamType n ret o =
        muxWriteWaitResponse muxFd streamType (outstandingAfter n ret') ret'' rest ∧
      (outstandingAfter n ret' = 0 → 0 ≤ ret'') := by
  rw [muxWriteWaitResponse, if_neg hn, hs]
  simp only [if_neg hret, if_pos hlen, outstandingAfter]
  by_cases hle : ret' ≤ n
  · refine ⟨ret', ?_, fun _ => by omega⟩
    rw [if_pos hle, if_pos ⟨by omega, hle⟩]
  · refine ⟨-1, ?_, fun h => ?_⟩
    · rw [if_neg hle, if_neg (by omega)]
    · rw [if_neg (by omega)] at h
      omega

/-- What a wait returns. -/
theorem muxWriteWaitResponse_spec (muxFd : Int) (streamType n : Nat) (o : List Outcome) :
    ∀ ret₀ : Int, (n = 0 → 0 ≤ ret₀) → ∀ ret n' rest,
      muxWriteWaitResponse muxFd streamType n ret₀ o = some (ret, n', rest) →
      n' + acknowledged n (waitAnswers muxFd streamType n o) = n ∧
        (ret < 0 ↔ Fails (waitAnswers muxFd streamType n o)) ∧ (ret < 0 ∨ ret = 0 ∧ n' = 0) := by
  fun_induction waitAnswers muxFd streamType n o with
  | case1 o =>
    intro ret₀ h₀ ret n' rest heq
    have hnonneg : ¬ ret₀ < 0 := Int.not_lt.mpr (h₀ rfl)
    rw [muxWriteWaitResponse, if_pos rfl, if_neg hnonneg] at heq
    cases heq
    exact ⟨rfl, by simp [Fails], .inr ⟨rfl, rfl⟩⟩
  | case2 n o hn hs =>
    intro ret₀ _ ret n' rest heq
    rw [muxWriteWaitResponse, if_neg hn, hs] at heq
    cases heq
  | case3 n o hn ans rest₁ hs ih =>
    intro ret₀ _ ret n' rest heq
    by_cases hneg : ans < 0
    · rw [muxWriteWaitResponse, if_neg hn, hs] at heq
      simp only [if_pos hneg] at heq
      cases heq
      have hafter : outstandingAfter n ans = n := if_neg (by omega)
      simp [acknowledged, hafter, Fails, hneg]
    · by_cases hlen : rest₁.length < o.length
      · obtain ⟨ret₁, hnext, hret₁⟩ :=
          muxWriteWaitResponse_answer ret₀ hn hs hneg hlen
        rw [hnext] at heq
        obtain ⟨hack, hfail, hret⟩ := ih hlen ret₁ hret₁ ret n' rest heq
        have hle := outstandingAfter_le n ans
        rw [if_neg hneg, if_pos hlen, acknowledged]
        refine ⟨by omega, hfail.trans ?_, hret⟩
        simp only [Fails, List.mem_cons, exists_eq_or_imp, hneg, false_or]
      · rw [muxWriteWaitResponse, if_neg hn, hs] at heq
        simp only [if_neg hneg, if_neg hlen] at heq
        cases heq

/-- A wait with a failing answer returns. -/
theorem muxWriteWaitResponse_fails (muxFd : Int) (streamType n : Nat) (o : List Outcome) :
    ∀ ret₀ : Int, Fails (waitAnswers muxFd streamType n o) →
      ∃ r, muxWriteWaitResponse muxFd streamType n ret₀ o = some r := by
  fun_induction waitAnswers muxFd streamType n o with
  | case1 o =>
    intro ret₀ hf
    simp [Fails] at hf
  | case2 n o hn hs =>
    intro ret₀ hf
    simp [Fails] at hf
  | case3 n o hn ans rest₁ hs ih =>
    intro ret₀ hf
    by_cases hneg : ans < 0
    · rw [muxWriteWaitResponse, if_neg hn, hs]
      exact ⟨_, if_pos hneg⟩
    · by_cases hlen : rest₁.length < o.length
      · obtain ⟨ret₁, hnext, -⟩ := muxWriteWaitResponse_answer ret₀ hn hs hneg hlen
        rw [if_neg hneg, if_pos hlen] at hf
        rw [hnext]
        refine ih hlen ret₁ ?_
        simpa only [Fails, List.mem_cons, exists_eq_or_imp, hneg, false_or] using hf
      · rw [if_neg hneg, if_neg hlen] at hf
        simp [Fails, hneg] at hf

/-! ## The loop of `mux_pcm_write` -/

/-- A `write` is given at least one byte and not more than are left, between the bounds of what may
be outstanding. -/
def PlaybackEvent.WriteOk : PlaybackEvent → Prop
  | .write bytesWritten left sendlen _ =>
    0 ≤ bytesWritten ∧ bytesWritten ≤ audioPlaybackBuffer ∧ 1 ≤ sendlen ∧ sendlen ≤ left
  | .wait _ _ => True

/-- A device accepts no more bytes than it is given. -/
def PlaybackEvent.Honest : PlaybackEvent → Prop
  | .write _ _ sendlen ret => ∀ r, ret = some r → -1 ≤ r ∧ r ≤ sendlen
  | .wait _ _ => True

def PlaybackEvent.Failed : PlaybackEvent → Prop
  | .write _ _ _ _ => False
  | .wait _ answers => Fails answers

/-- The wait fails, and before that nothing is acknowledged. -/
def PlaybackEvent.Silent : PlaybackEvent → Prop
  | .write _ _ _ _ => False
  | .wait outstanding answers => Fails answers ∧ acknowledged outstanding answers = 0

/-- What a run of the loop does: `ret'`, `left'` and `bytesWritten'` are its result. -/
structure LoopSpec (left bytesWritten : Int) (events : List PlaybackEvent)
    (ret' left' bytesWritten' : Int) : Prop where
  left_eq : left' = left - accepted events
  balance : bytesWritten' = bytesWritten + accepted events - totalAcknowledged events
  left_nonneg : 0 ≤ left'
  nonneg : 0 ≤ bytesWritten'
  le : bytesWritten' ≤ audioPlaybackBuffer
  ret_nonpos : ret' ≤ 0
  fails_iff : ret' < 0 ↔ ∃ e ∈ events, e.Failed
  full_iff : bytesWritten' = audioPlaybackBuffer ↔ ∃ e ∈ events, e.Silent

theorem sendLen_le (left bytesWritten : Int) :
    sendLen left bytesWritten ≤ left ∧
      sendLen left bytesWritten ≤ audioPlaybackBuffer - bytesWritten := by
  unfold sendLen
  split <;> omega

theorem writeOk_sendLen {left bytesWritten : Int} (ret : Option Int) (hleft : 0 < left)
    (hnonneg : 0 ≤ bytesWritten) (hlt : bytesWritten < audioPlaybackBuffer) :
    (PlaybackEvent.write bytesWritten left (sendLen left bytesWritten) ret).WriteOk := by
  refine ⟨hnonneg, Int.le_of_lt hlt, ?_, (sendLen_le left bytesWritten).1⟩
  unfold sendLen
  split <;> omega

namespace LoopSpec

variable {left bytesWritten sendlen : Int} {events : List PlaybackEvent}
  {ret' left' bytesWritten' : Int}

theorem nil (hleft : 0 ≤ left) (hnonneg : 0 ≤ bytesWritten)
    (hlt : bytesWritten < audioPlaybackBuffer) :
    LoopSpec left bytesWritten [] 0 left bytesWritten where
  left_eq := by simp [accepted]
  balance := by simp [accepted, totalAcknowledged]
  left_nonneg := hleft
  nonneg := hnonneg
  le := Int.le_of_lt hlt
  ret_nonpos := Int.le_refl 0
  fails_iff := by simp
  full_iff := by simpa using Int.ne_of_lt hlt

/-- Behind a `write`. -/
theorem write {r : Int}
    (h : LoopSpec (left - r.toNat) (bytesWritten + r.toNat) events ret' left' bytesWritten') :
    LoopSpec left bytesWritten (.write bytesWritten left sendlen (some r) :: events) ret' left'
      bytesWritten' where
  left_eq := by
    have heq := h.left_eq
    simp only [accepted, Option.getD_some]
    omega
  balance := by
    have heq := h.balance
    simp only [accepted, totalAcknowledged, Option.getD_some]
    omega
  left_nonneg := h.left_nonneg
  nonneg := h.nonneg
  le := h.le
  ret_nonpos := h.ret_nonpos
  fails_iff := by
    rw [h.fails_iff]
    simp only [List.mem_cons, exists_eq_or_imp, PlaybackEvent.Failed, false_or]
  full_iff := by
    rw [h.full_iff]
    simp only [List.mem_cons, exists_eq_or_imp, PlaybackEvent.Silent, false_or]

/-- Behind a wait in which everything is acknowledged. -/
theorem wait {answers : List Int} (hack : acknowledged bytesWritten.toNat answers = bytesWritten)
    (hfail : ¬ Fails answers) (h : LoopSpec left 0 events ret' left' bytesWritten') :
    LoopSpec left bytesWritten (.wait bytesWritten.toNat answers :: events) ret' left'
      bytesWritten' where
  left_eq := h.left_eq
  balance := by
    have heq := h.balance
    simp only [accepted, totalAcknowledged]
    omega
  left_nonneg := h.left_nonneg
  nonneg := h.nonneg
  le := h.le
  ret_nonpos := h.ret_nonpos
  fails_iff := by
    rw [h.fails_iff]
    simp only [List.mem_cons, exists_eq_or_imp, PlaybackEvent.Failed, hfail, false_or]
  full_iff := by
    rw [h.full_iff]
    simp only [List.mem_cons, exists_eq_or_imp, PlaybackEvent.Silent, hfail, false_and, false_or]

/-- A wait that fails. -/
theorem waitFails {answers : List Int} {ret : Int} {n : Nat} (hleft : 0 ≤ left)
    (hfull : bytesWritten = audioPlaybackBuffer)
    (hack : n + acknowledged bytesWritten.toNat answers = bytesWritten.toNat)
    (hfail : Fails answers) (hret : ret < 0) :
    LoopSpec left bytesWritten [.wait bytesWritten.toNat answers] ret left n where
  left_eq := by simp [accepted]
  balance := by
    simp only [accepted, totalAcknowledged, audioPlaybackBuffer] at *
    omega
  left_nonneg := hleft
  nonneg := Int.natCast_nonneg n
  le := by
    simp only [audioPlaybackBuffer] at *
    omega
  ret_nonpos := Int.le_of_lt hret
  fails_iff := by simp [PlaybackEvent.Failed, hfail, hret]
  full_iff := by
    simp only [List.mem_singleton, exists_eq_left, PlaybackEvent.Silent, hfail, true_and,
      audioPlaybackBuffer] at *
    omega

end LoopSpec

theorem muxPcmWriteLoop_spec (muxFd : Int) (streamType : Nat) (ret left bytesWritten : Int)
    (o : List Outcome) : ret = 0 → 0 ≤ left → 0 ≤ bytesWritten →
      bytesWritten < audioPlaybackBuffer →
      (∀ e ∈ muxPcmWriteEvents muxFd streamType ret left bytesWritten o, e.Honest) →
      (∀ e ∈ muxPcmWriteEvents muxFd streamType ret left bytesWritten o, e.WriteOk) ∧
        ∀ ret' left' bytesWritten',
          muxPcmWriteLoop muxFd streamType ret left bytesWritten o =
              some (ret', left', bytesWritten') →
            LoopSpec left bytesWritten (muxPcmWriteEvents muxFd streamType ret left bytesWritten o)
              ret' left' bytesWritten' := by
  fun_induction muxPcmWriteEvents muxFd streamType ret left bytesWritten o with
  | case1 ret bytesWritten =>
    intro hret hleft hnonneg hlt _
    refine ⟨by simp, fun ret' left' bytesWritten' heq => ?_⟩
    rw [muxPcmWriteLoop, if_pos rfl] at heq
    cases heq
    rw [hret]
    exact .nil hleft hnonneg hlt
  | case2 ret left bytesWritten hz =>
    intro hret hleft hnonneg hlt _
    refine ⟨?_, fun ret' left' bytesWritten' heq => ?_⟩
    · rw [List.forall_mem_singleton]
      exact writeOk_sendLen none (by omega) hnonneg hlt
    · rw [muxPcmWriteLoop, if_neg hz] at heq
      cases heq
  | case3 ret bytesWritten wr o =>
    intro hret hleft hnonneg hlt _
    refine ⟨by simp, fun ret' left' bytesWritten' heq => ?_⟩
    rw [muxPcmWriteLoop, if_pos rfl] at heq
    cases heq
    rw [hret]
    exact .nil hleft hnonneg hlt
  | case4 ret left bytesWritten wr o hz ihWait ihWrite ihAgain =>
    intro hret hleft hnonneg hlt hk
    obtain ⟨hkw, hrest⟩ := List.forall_mem_cons.mp hk
    have hok := writeOk_sendLen (some wr.ret) (by omega : 0 < left) hnonneg hlt
    obtain ⟨-, hle⟩ := hkw wr.ret rfl
    have hsend := sendLen_le left bytesWritten
    rw [List.forall_mem_cons]
    by_cases hpos : 0 < wr.ret
    · have hnat : (wr.ret.toNat : Int) = wr.ret := by omega
      by_cases hfull : audioPlaybackBuffer ≤ bytesWritten + wr.ret
      · have hsum : bytesWritten + wr.ret = audioPlaybackBuffer := by omega
        have hzero : (bytesWritten + wr.ret).toNat = 0 → (0 : Int) ≤ 0 := fun _ => Int.le_refl 0
        rw [if_pos hpos, if_pos hfull] at hrest ⊢
        rw [muxPcmWriteLoop, if_neg hz, if_pos hpos, if_pos hfull]
        rcases hw : muxWriteWaitResponse muxFd streamType (bytesWritten + wr.ret).toNat 0 o with
          _ | ⟨ret₁, n, rest⟩
        · simp only [List.forall_mem_singleton]
          exact ⟨⟨hok, trivial⟩, fun ret' left' bytesWritten' heq => by cases heq⟩
        · obtain ⟨hack, hfail, hend⟩ :=
            muxWriteWaitResponse_spec muxFd streamType _ o 0 hzero ret₁ n rest hw
          simp only [hw] at hrest ⊢
          rcases hend with hneg | ⟨rfl, rfl⟩
          · have hstop : ret₁ ≠ 0 := by omega
            rw [if_pos hstop, List.forall_mem_singleton]
            refine ⟨⟨hok, trivial⟩, fun ret' left' bytesWritten' heq => ?_⟩
            rw [if_pos hstop] at heq
            cases heq
            refine .write ?_
            rw [hnat]
            exact .waitFails (by omega) hsum hack (hfail.mp hneg) hneg
          · rw [Nat.zero_add] at hack
            have hall : acknowledged (bytesWritten + wr.ret).toNat
                (waitAnswers muxFd streamType (bytesWritten + wr.ret).toNat o) =
                  bytesWritten + wr.ret := by omega
            have hnot : ¬ Fails _ := fun h => absurd (hfail.mpr h) (Int.lt_irrefl 0)
            simp only [ne_eq, not_true_eq_false, if_false] at hrest ⊢
            by_cases hlen : rest.length < (wr :: o).length
            · rw [if_pos hlen] at hrest ⊢
              obtain ⟨hwrites, hspec⟩ := ihWait 0 0 rest hlen rfl (by omega) (Int.le_refl 0)
                (by decide) (List.forall_mem_cons.mp hrest).2
              refine ⟨⟨hok, List.forall_mem_cons.mpr ⟨trivial, hwrites⟩⟩, ?_⟩
              intro ret' left' bytesWritten' heq
              rw [if_pos hlen] at heq
              refine .write ?_
              rw [hnat]
              exact .wait hall hnot (hspec ret' left' bytesWritten' heq)
            · rw [if_neg hlen, List.forall_mem_singleton]
              refine ⟨⟨hok, trivial⟩, fun ret' left' bytesWritten' heq => ?_⟩
              rw [if_neg hlen] at heq
              cases heq
      · rw [if_pos hpos, if_neg hfull] at hrest ⊢
        rw [muxPcmWriteLoop, if_neg hz, if_pos hpos, if_neg hfull]
        obtain ⟨hwrites, hspec⟩ := ihWrite hret (by omega) (by omega) (by omega) hrest
        refine ⟨⟨hok, hwrites⟩, fun ret' left' bytesWritten' heq => .write ?_⟩
        rw [hnat]
        exact hspec ret' left' bytesWritten' heq
    · have hstop : wr.again = false ∨ ret = 0 := .inr hret
      rw [muxPcmWriteLoop, if_neg hz, if_neg hpos, if_pos hstop, if_neg hpos, if_pos hstop]
      refine ⟨⟨hok, by simp⟩, fun ret' left' bytesWritten' heq => .write ?_⟩
      cases heq
      have hnat : (wr.ret.toNat : Int) = 0 := by omega
      rw [hnat, Int.sub_zero, Int.add_zero, hret]
      exact .nil hleft hnonneg hlt

/-- After a wait that fails the loop returns. -/
theorem muxPcmWriteLoop_returns (muxFd : Int) (streamType : Nat) (ret left bytesWritten : Int)
    (o : List Outcome)
    (hf : ∃ e ∈ muxPcmWriteEvents muxFd streamType ret left bytesWritten o, e.Failed) :
    ∃ r, muxPcmWriteLoop muxFd streamType ret left bytesWritten o = some r := by
  fun_induction muxPcmWriteEvents muxFd streamType ret left bytesWritten o with
  | case1 ret bytesWritten => simp at hf
  | case2 ret left bytesWritten hz => simp [PlaybackEvent.Failed] at hf
  | case3 ret bytesWritten wr o => simp at hf
  | case4 ret left bytesWritten wr o hz ihWait ihWrite ihAgain =>
    simp only [List.mem_cons, exists_eq_or_imp, PlaybackEvent.Failed, false_or] at hf
    rw [muxPcmWriteLoop, if_neg hz]
    by_cases hpos : 0 < wr.ret
    · rw [if_pos hpos] at hf ⊢
      by_cases hfull : audioPlaybackBuffer ≤ bytesWritten + wr.ret
      · rw [if_pos hfull] at hf ⊢
        simp only [List.mem_cons, exists_eq_or_imp] at hf
        rcases hw : muxWriteWaitResponse muxFd streamType (bytesWritten + wr.ret).toNat 0 o with
          _ | ⟨ret₁, n, rest⟩
        · simp only [hw, List.not_mem_nil, false_and, exists_false, or_false] at hf
          obtain ⟨r, hr⟩ := muxWriteWaitResponse_fails muxFd streamType _ o 0 hf
          rw [hw] at hr
          cases hr
        · simp only [hw] at hf ⊢
          by_cases hret : ret₁ ≠ 0
          · rw [if_pos hret]
            exact ⟨_, rfl⟩
          · rw [if_neg hret] at hf ⊢
            have hnot : ¬ Fails _ := fun h =>
              hret (Int.ne_of_lt ((muxWriteWaitResponse_spec muxFd streamType _ o 0
                (fun _ => Int.le_refl 0) ret₁ n rest hw).2.1.mpr h))
            replace hf := hf.resolve_left hnot
            by_cases hlen : rest.length < (wr :: o).length
            · rw [if_pos hlen] at hf ⊢
              exact ihWait ret₁ n rest hlen hf
            · rw [if_neg hlen] at hf
              simp at hf
      · rw [if_neg hfull] at hf ⊢
        exact ihWrite hf
    · rw [if_neg hpos] at hf ⊢
      by_cases hstop : wr.again = false ∨ ret = 0
      · rw [if_pos hstop]
        exact ⟨_, rfl⟩
      · rw [if_neg hstop] at hf ⊢
        exact ihAgain hf

/-! ## Playback that goes on -/

/-- A `struct cmd_common` that acknowledges a full buffer. -/
def ackBytes : List UInt8 := [0, 0, 0x40, 0, 0, 0, 0, 0, 0, 0x0C, 0, 0, 0, 0, 0, 0]

def fullAck : List Outcome := [⟨1, false, true, []⟩, ⟨16, false, false, ackBytes⟩]

/-- A device that accepts what it is given and acknowledges each full buffer. -/
def serving (left bytesWritten : Nat) : List Outcome :=
  if left = 0 ∨ 3072 ≤ bytesWritten then []
  else
    ⟨min left (3072 - bytesWritten), false, false, []⟩ ::
      if left < 3072 - bytesWritten then []
      else fullAck ++ serving (left - (3072 - bytesWritten)) 0
termination_by left
decreasing_by omega

theorem saudioWaitCommonCmd_fullAck {muxFd : Int} (hfd : 0 ≤ muxFd) (o : List Outcome) :
    saudioWaitCommonCmd muxFd (saudioCmdReceive <<< 16) audioPlayback (fullAck ++ o) =
      some (3072, o) := by
  have hread : muxRead muxFd 16 (fullAck ++ o) =
      some (16, Memory.store (fun _ => 0) 0 ackBytes, o) := by
    rw [muxRead, if_neg (Int.not_lt.mpr hfd)]
    show muxReadLoop 16 _ 0 16 (_ :: _ :: o) = _
    rw [muxReadLoop_read _ _ _ _ (by decide) (by decide), if_pos (by decide)]
    exact muxReadLoop_zero 16 _ _ o
  have hcmd : (Memory.store (fun _ => 0) 0 ackBytes).word 0 = saudioCmdReceive <<< 16 := by decide
  have hack : (Memory.store (fun _ => 0) 0 ackBytes).word 8 = 3072 := by decide
  have hint : Int.bmod (3072 : Nat) (2 ^ 32) = 3072 := by decide
  rw [saudioWaitCommonCmd, hread]
  simp only [ne_eq, not_true_eq_false, audioPlayback, if_false, hcmd, if_true, hack, hint]

theorem muxWriteWaitResponse_fullAck {muxFd : Int} (hfd : 0 ≤ muxFd) (o : List Outcome) :
    muxWriteWaitResponse muxFd audioPlayback 3072 0 (fullAck ++ o) = some (0, 0, o) := by
  have hlen : o.length < (fullAck ++ o).length := by
    rw [List.length_append]
    exact Nat.lt_add_of_pos_left (by decide)
  rw [muxWriteWaitResponse, if_neg (by decide), saudioWaitCommonCmd_fullAck hfd]
  simp only [if_neg (by decide : ¬ (3072 : Int) < 0), if_pos hlen]
  rw [if_pos (by decide), muxWriteWaitResponse]
  rfl

/-- Such a device is honest and plays everything. -/
theorem serving_spec {muxFd : Int} (hfd : 0 ≤ muxFd) (left bytesWritten : Nat) :
    bytesWritten < 3072 →
      (∀ e ∈ muxPcmWriteEvents muxFd audioPlayback 0 left bytesWritten (serving left bytesWritten),
        e.Honest) ∧
      ∃ b, muxPcmWriteLoop muxFd audioPlayback 0 left bytesWritten (serving left bytesWritten) =
        some (0, 0, b) := by
  fun_induction serving left bytesWritten with
  | case1 left bytesWritten hstop =>
    intro hlt
    have hz : left = 0 := by omega
    subst hz
    rw [muxPcmWriteEvents, muxPcmWriteLoop]
    exact ⟨by simp, _, rfl⟩
  | case2 left bytesWritten hgo ih =>
    intro hlt
    have hleft : ¬ (left : Int) = 0 := by omega
    have hsend : sendLen left bytesWritten = min (left : Int) (3072 - bytesWritten) := by
      have hbuf : audioPlaybackBuffer = 3072 := rfl
      rw [sendLen, hbuf]
      omega
    have hpos : (0 : Int) < min (left : Int) (3072 - bytesWritten) := by omega
    have hhonest : (PlaybackEvent.write bytesWritten left (sendLen left bytesWritten)
        (some (min (left : Int) (3072 - bytesWritten)))).Honest := by
      intro r hr
      cases hr
      omega
    by_cases hlast : left < 3072 - bytesWritten
    · have hmin : min (left : Int) (3072 - bytesWritten) = left := by omega
      have hfull : ¬ audioPlaybackBuffer ≤ (bytesWritten : Int) + left := by
        simp only [audioPlaybackBuffer]
        omega
      rw [hmin] at hhonest hpos
      rw [if_pos hlast, hmin, muxPcmWriteEvents, muxPcmWriteLoop, if_neg hleft, if_neg hleft,
        if_pos hpos, if_pos hpos, if_neg hfull, if_neg hfull, Int.sub_self, muxPcmWriteEvents,
        muxPcmWriteLoop]
      exact ⟨by simpa using hhonest, _, rfl⟩
    · obtain ⟨ihk, b, ihl⟩ := ih hlast (by decide)
      have hmin : min (left : Int) (3072 - bytesWritten) = 3072 - bytesWritten := by omega
      have hsum : (bytesWritten : Int) + (3072 - bytesWritten) = 3072 := by omega
      have hrest : (left : Int) - (3072 - bytesWritten) = ↑(left - (3072 - bytesWritten)) := by
        omega
      have hfull : audioPlaybackBuffer ≤ (3072 : Int) := by decide
      have hlen : (serving (left - (3072 - bytesWritten)) 0).length <
          ((⟨3072 - bytesWritten, false, false, []⟩ : Outcome) ::
            (fullAck ++ serving (left - (3072 - bytesWritten)) 0)).length := by
        rw [List.length_cons, List.length_append]
        omega
      have hnat : (3072 : Int).toNat = 3072 := rfl
      rw [hmin] at hhonest hpos
      rw [if_neg hlast, hmin, muxPcmWriteEvents, muxPcmWriteLoop, if_neg hleft, if_neg hleft,
        if_pos hpos, if_pos hpos, hsum, if_pos hfull, if_pos hfull, hnat,
        muxWriteWaitResponse_fullAck hfd]
      simp only [ne_eq, not_true_eq_false, if_false, if_pos hlen, hrest]
      refine ⟨?_, b, ihl⟩
      simp only [List.forall_mem_cons]
      exact ⟨hhonest, trivial, ihk⟩

/-! ## The call -/

/-- A stream whose START has been sent keeps everything but its state and its lock. -/
theorem World.start_eq {w w' : World} {pcm pcm' : MuxPcm} {ctl : List Outcome} {ret : Int}
    (h : w.start pcm ctl = .ok (ret, pcm', w')) :
    pcm' = { pcm with lock := true, state := if pcm.state = 0 then 1 else pcm.state } ∧
      (pcm.state ≠ 0 → ret = 0) := by
  unfold World.start MuxPcm.lockPcm at h
  by_cases hlock : pcm.lock = true
  · rw [if_pos hlock] at h
    cases h
  · rw [if_neg hlock] at h
    by_cases hs : pcm.state = 0
    · simp only [ok_bind, if_pos hs] at h ⊢
      rcases hsend : w.send { pcm with lock := true, state := 1 } saudioCmdStart ctl with
        e | ⟨ret₁, w₁, rest⟩
      · rw [hsend] at h
        cases h
      · rw [hsend] at h
        cases h
        exact ⟨rfl, fun hne => absurd hs hne⟩
    · simp only [ok_bind, if_neg hs] at h ⊢
      cases h
      exact ⟨rfl, fun _ => rfl⟩

/-- A call that returns has not written, or has been through its loop. -/
theorem World.muxPcmWrite_ok {w w' : World} {pcm pcm' : MuxPcm} {count : Nat} {dev : Devices}
    {ret : Int} (hfd : 0 < pcm.muxFd) (h : w.muxPcmWrite pcm count dev = .ok (ret, pcm', w')) :
    (∃ b, pcm' = { pcm with
        lock := false, state := if pcm.state = 0 then 1 else pcm.state, bytesWritten := b }) ∧
      (w.playbackEvents pcm count dev = [] ∧ ret = 0 ∧ pcm'.bytesWritten = pcm.bytesWritten ∨
        ∃ data ret₁ left,
          w.playbackEvents pcm count dev = muxPcmWriteEvents pcm.muxFd pcm.streamType 0
            (Int.bmod count (2 ^ 32)) pcm.bytesWritten data ∧
          muxPcmWriteLoop pcm.muxFd pcm.streamType 0 (Int.bmod count (2 ^ 32)) pcm.bytesWritten
            data = some (ret₁, left, pcm'.bytesWritten) ∧
          ret = if ret₁ < 0 then -1 else count - left) := by
  unfold World.muxPcmWrite at h
  unfold World.playbackEvents
  rw [if_pos hfd] at h ⊢
  rcases hstart : w.start pcm dev.ctl with e | ⟨ret₀, pcm₀, w₀⟩
  · rw [hstart] at h
    cases h
  · obtain ⟨rfl, -⟩ := World.start_eq hstart
    rw [hstart] at h
    simp only [ok_bind] at h ⊢
    by_cases hret : ret₀ ≠ 0
    · rw [if_pos hret] at h ⊢
      cases h
      exact ⟨⟨pcm.bytesWritten, rfl⟩, .inl ⟨rfl, rfl, rfl⟩⟩
    · obtain rfl : ret₀ = 0 := Decidable.not_not.mp hret
      rw [if_neg hret] at h ⊢
      rcases hd : (if pcm.state = 0 then muxPipeClear pcm.muxFd dev.data else some dev.data) with
        _ | data
      · rw [hd] at h
        cases h
      · simp only [hd, await, ok_bind] at h
        rcases hl : muxPcmWriteLoop pcm.muxFd pcm.streamType 0 (Int.bmod count (2 ^ 32))
            pcm.bytesWritten data with _ | ⟨ret₁, left, b⟩
        · rw [hl] at h
          cases h
        · simp only [hl, ok_bind] at h
          cases h
          exact ⟨⟨b, rfl⟩, .inr ⟨data, ret₁, left, rfl, hl, rfl⟩⟩

/-- A call with a wait that fails returns. -/
theorem World.muxPcmWrite_fails {w : World} {pcm : MuxPcm} {count : Nat} {dev : Devices}
    (hf : ∃ e ∈ w.playbackEvents pcm count dev, e.Failed) :
    ∃ ret pcm' w', w.muxPcmWrite pcm count dev = .ok (ret, pcm', w') := by
  unfold World.playbackEvents at hf
  unfold World.muxPcmWrite
  by_cases hfd : 0 < pcm.muxFd
  · rw [if_pos hfd] at hf ⊢
    rcases hstart : w.start pcm dev.ctl with e | ⟨ret₀, pcm₀, w₀⟩
    · simp [hstart] at hf
    · simp only [hstart, ok_bind] at hf ⊢
      by_cases hret : ret₀ ≠ 0
      · simp [if_pos hret] at hf
      · rw [if_neg hret] at hf ⊢
        rcases hd : (if pcm.state = 0 then muxPipeClear pcm.muxFd dev.data else some dev.data) with
          _ | data
        · simp [hd] at hf
        · simp only [hd, await, ok_bind] at hf ⊢
          obtain ⟨⟨ret₁, left, b⟩, hl⟩ := muxPcmWriteLoop_returns _ _ _ _ _ _ hf
          rw [hl]
          exact ⟨_, _, _, rfl⟩
  · simp [if_neg hfd] at hf

/-- A stream that has been started goes to its loop at once. -/
theorem World.muxPcmWrite_started {w : World} {pcm : MuxPcm} (hfd : 0 < pcm.muxFd)
    (hlock : pcm.lock = false) (hs : pcm.state ≠ 0) (count : Nat) (dev : Devices) :
    w.playbackEvents pcm count dev = muxPcmWriteEvents pcm.muxFd pcm.streamType 0
        (Int.bmod count (2 ^ 32)) pcm.bytesWritten dev.data ∧
      ∀ ret left b, muxPcmWriteLoop pcm.muxFd pcm.streamType 0 (Int.bmod count (2 ^ 32))
          pcm.bytesWritten dev.data = some (ret, left, b) →
        w.muxPcmWrite pcm count dev =
          .ok (if ret < 0 then -1 else count - left, { pcm with bytesWritten := b }, w) := by
  have hstart : w.start pcm dev.ctl = .ok (0, { pcm with lock := true }, w) := by
    simp only [World.start, MuxPcm.lockPcm, hlock, Bool.false_eq_true, if_false, ok_bind, if_neg hs]
    rfl
  constructor
  · simp only [World.playbackEvents, if_pos hfd, hstart, ne_eq, not_true_eq_false, if_false,
      if_neg hs]
  · intro ret left b hl
    simp only [World.muxPcmWrite, if_pos hfd, hstart, ok_bind, ne_eq, not_true_eq_false, if_false,
      if_neg hs, await, hl, MuxPcm.unlockPcm, ← hlock]
    rfl

/-! ## Sequences of calls -/

/-- A playback stream, with the bytes sent to it and acknowledged by it so far. -/
structure Playback where
  world : World
  pcm : MuxPcm
  sent : Nat
  acked : Nat

/-- The arguments of a call of `mux_pcm_write` and what the devices answer. -/
structure WriteCall where
  count : Nat
  dev : Devices

namespace Playback

def events (p : Playback) (c : WriteCall) : List PlaybackEvent :=
  p.world.playbackEvents p.pcm c.count c.dev

def write (p : Playback) (c : WriteCall) : Except Stop Playback := do
  let (_, pcm, world) ← p.world.muxPcmWrite p.pcm c.count c.dev
  return ⟨world, pcm, p.sent + accepted (p.events c), p.acked + totalAcknowledged (p.events c)⟩

end Playback

/-- Calls of `mux_pcm_write` one after the other. The outputs are the states in which the calls
are made, with the calls. -/
def muxWrites : Machine (Except Stop Playback) WriteCall (Playback × WriteCall) where
  step s c :=
    match s with
    | .error e => (.error e, [])
    | .ok p => (p.write c, [(p, c)])

/-- Some device plays so many bytes in one call. -/
def Resumes (w : World) (pcm : MuxPcm) (count : Nat) : Prop :=
  ∃ dev, (∀ e ∈ w.playbackEvents pcm count dev, e.Honest) ∧
    ∃ pcm' w', w.muxPcmWrite pcm count dev = .ok (count, pcm', w')

def PlaybackEvent.Exceeded : PlaybackEvent → Prop
  | .write _ _ _ _ => False
  | .wait outstanding answers => Exceeds outstanding answers

/-- The lengths of the writes are right, `bytes_written` is what has been sent and not acknowledged,
a result that is not negative is the number of bytes accepted, more acknowledged than outstanding
gives -1, and after the call playback can go on. -/
structure CallSound (p : Playback) (c : WriteCall) : Prop where
  writes : ∀ e ∈ p.events c, e.WriteOk
  outstanding : ∀ ret pcm w, p.world.muxPcmWrite p.pcm c.count c.dev = .ok (ret, pcm, w) →
    0 ≤ pcm.bytesWritten ∧ pcm.bytesWritten ≤ audioPlaybackBuffer ∧
      pcm.bytesWritten = (p.sent + accepted (p.events c) : Int) -
        (p.acked + totalAcknowledged (p.events c))
  returned : ∀ ret pcm w, p.world.muxPcmWrite p.pcm c.count c.dev = .ok (ret, pcm, w) →
    0 ≤ ret → ret = accepted (p.events c)
  exceeded : (∃ e ∈ p.events c, e.Exceeded) →
    ∃ pcm w, p.world.muxPcmWrite p.pcm c.count c.dev = .ok (-1, pcm, w)
  resumes : ∀ ret pcm w, p.world.muxPcmWrite p.pcm c.count c.dev = .ok (ret, pcm, w) →
    ∀ count, 0 < count → count < 2 ^ 31 → Resumes w pcm count

/-- No wait of the call fails before something is acknowledged, and if in one of them more is
acknowledged than outstanding one fails. -/
structure CallFine (p : Playback) (c : WriteCall) : Prop where
  not_silent : ∀ e ∈ p.events c, ¬ e.Silent
  exceeded : (∃ e ∈ p.events c, e.Exceeded) → ∃ e ∈ p.events c, e.Failed

/-- The count is not negative as an `int`, and the device accepts no more than it is given. -/
structure Served (p : Playback) (c : WriteCall) : Prop where
  count_lt : c.count < 2 ^ 31
  honest : ∀ e ∈ p.events c, e.Honest

/-- An open stream that can go on. -/
structure Playback.Inv (p : Playback) : Prop where
  open_ : 0 < p.pcm.muxFd
  type_eq : p.pcm.streamType = audioPlayback
  nonneg : 0 ≤ p.pcm.bytesWritten
  lt : p.pcm.bytesWritten < audioPlaybackBuffer
  outstanding : p.pcm.bytesWritten = p.sent - p.acked

/-- With a full buffer nothing is accepted. -/
theorem muxPcmWriteLoop_full {muxFd : Int} {streamType : Nat} {o : List Outcome}
    {ret' left' bytesWritten' : Int}
    (hk : ∀ e ∈ muxPcmWriteEvents muxFd streamType 0 1 audioPlaybackBuffer o, e.Honest)
    (h : muxPcmWriteLoop muxFd streamType 0 1 audioPlaybackBuffer o =
      some (ret', left', bytesWritten')) : left' = 1 := by
  rcases o with _ | ⟨wr, o⟩
  · rw [muxPcmWriteLoop] at h
    cases h
  · rw [muxPcmWriteEvents] at hk
    have hle := ((List.forall_mem_cons.mp hk).1 wr.ret rfl).2
    have hsend := (sendLen_le 1 audioPlaybackBuffer).2
    rw [muxPcmWriteLoop, if_neg (by decide), if_neg (by omega), if_pos (.inr rfl)] at h
    cases h
    rfl

/-- A started stream goes on when its buffer is not full. -/
theorem resumes_iff {w : World} {pcm : MuxPcm} (hfd : 0 < pcm.muxFd)
    (htype : pcm.streamType = audioPlayback) (hlock : pcm.lock = false) (hs : pcm.state ≠ 0)
    (hnonneg : 0 ≤ pcm.bytesWritten) (hle : pcm.bytesWritten ≤ audioPlaybackBuffer) :
    (∀ count, 0 < count → count < 2 ^ 31 → Resumes w pcm count) ↔
      pcm.bytesWritten ≠ audioPlaybackBuffer := by
  constructor
  · intro hall hfull
    obtain ⟨dev, hk, pcm', w', hret⟩ := hall 1 (by decide) (by decide)
    obtain ⟨-, ⟨-, hzero, -⟩ | ⟨data, ret₁, left, hev, hl, hone⟩⟩ := World.muxPcmWrite_ok hfd hret
    · cases hzero
    · rw [hev, hfull] at hk
      rw [hfull] at hl
      have hleft := muxPcmWriteLoop_full hk hl
      split at hone
      · cases hone
      · omega
  · intro hne count hpos hlt
    obtain ⟨b, hb⟩ := Int.eq_ofNat_of_zero_le hnonneg
    obtain ⟨hev, hret⟩ :=
      World.muxPcmWrite_started (w := w) hfd hlock hs count ⟨0, 0, [], serving count b⟩
    obtain ⟨hk, b', hl⟩ := serving_spec (Int.le_of_lt hfd) count b (by
      simp only [audioPlaybackBuffer] at hle hne
      omega)
    have hcount : Int.bmod count (2 ^ 32) = count := by
      rw [Int.bmod_def]
      omega
    rw [hcount, htype, hb] at hev hret
    have hplayed := hret 0 0 b' hl
    rw [if_neg (Int.lt_irrefl 0), Int.sub_zero] at hplayed
    exact ⟨_, by rwa [hev], _, _, hplayed⟩

theorem World.playbackEvents_cases (w : World) (pcm : MuxPcm) (count : Nat) (dev : Devices) :
    w.playbackEvents pcm count dev = [] ∨ ∃ data, w.playbackEvents pcm count dev =
      muxPcmWriteEvents pcm.muxFd pcm.streamType 0 (Int.bmod count (2 ^ 32)) pcm.bytesWritten
        data := by
  unfold World.playbackEvents
  by_cases hfd : 0 < pcm.muxFd
  · rw [if_pos hfd]
    rcases w.start pcm dev.ctl with e | ⟨ret₀, pcm₀, w₀⟩
    · exact .inl rfl
    · by_cases hret : ret₀ ≠ 0
      · exact .inl (if_pos hret)
      · obtain rfl : ret₀ = 0 := Decidable.not_not.mp hret
        simp only [if_neg hret]
        rcases (if pcm.state = 0 then muxPipeClear pcm.muxFd dev.data else some dev.data) with
          _ | data
        · exact .inl rfl
        · exact .inr ⟨data, rfl⟩
  · exact .inl (if_neg hfd)

namespace Playback.Inv

variable {p : Playback} {c : WriteCall}

theorem writes (h : p.Inv) (hs : Served p c) : ∀ e ∈ p.events c, e.WriteOk := by
  have hcount : Int.bmod c.count (2 ^ 32) = c.count := by
    have hlt := hs.count_lt
    rw [Int.bmod_def]
    omega
  have hk := hs.honest
  unfold Playback.events at hk ⊢
  rcases p.world.playbackEvents_cases p.pcm c.count c.dev with hev | ⟨data, hev⟩
  · simp [hev]
  · rw [hev, hcount] at hk ⊢
    exact (muxPcmWriteLoop_spec _ _ 0 _ _ data rfl (Int.natCast_nonneg _) h.nonneg h.lt hk).1

/-- What a call returns and leaves. -/
theorem returned (h : p.Inv) (hs : Served p c) {ret : Int} {pcm : MuxPcm} {w : World}
    (hret : p.world.muxPcmWrite p.pcm c.count c.dev = .ok (ret, pcm, w)) :
    ∃ ret₁ left, LoopSpec c.count p.pcm.bytesWritten (p.events c) ret₁ left pcm.bytesWritten ∧
      ret = if ret₁ < 0 then -1 else c.count - left := by
  have hcount : Int.bmod c.count (2 ^ 32) = c.count := by
    have hlt := hs.count_lt
    rw [Int.bmod_def]
    omega
  have hk := hs.honest
  unfold Playback.events at hk ⊢
  obtain ⟨-, ⟨hev, rfl, hb⟩ | ⟨data, ret₁, left, hev, hl, rfl⟩⟩ :=
    World.muxPcmWrite_ok h.open_ hret
  · rw [hev, hb]
    exact ⟨0, c.count, .nil (Int.natCast_nonneg _) h.nonneg h.lt, by simp⟩
  · rw [hev, hcount] at hk
    rw [hcount] at hl
    rw [hev, hcount]
    exact ⟨ret₁, left, (muxPcmWriteLoop_spec _ _ 0 _ _ data rfl (Int.natCast_nonneg _) h.nonneg
      h.lt hk).2 _ _ _ hl, rfl⟩

/-- After a call playback can go on unless a wait of the call was silent. -/
theorem resumes_iff (h : p.Inv) (hs : Served p c) {ret : Int} {pcm : MuxPcm} {w : World}
    (hret : p.world.muxPcmWrite p.pcm c.count c.dev = .ok (ret, pcm, w)) :
    (∀ count, 0 < count → count < 2 ^ 31 → Resumes w pcm count) ↔
      ¬ ∃ e ∈ p.events c, e.Silent := by
  obtain ⟨ret₁, left, hspec, -⟩ := h.returned hs hret
  obtain ⟨⟨b, rfl⟩, -⟩ := World.muxPcmWrite_ok h.open_ hret
  rw [← hspec.full_iff]
  refine Audio.resumes_iff h.open_ h.type_eq rfl ?_ hspec.nonneg hspec.le
  show (if p.pcm.state = 0 then 1 else p.pcm.state) ≠ 0
  split <;> omega

theorem callSound_iff (h : p.Inv) (hs : Served p c) : CallSound p c ↔ CallFine p c := by
  constructor
  · intro hsound
    constructor
    · intro e he hsilent
      have hfails : ∃ e ∈ p.events c, e.Failed := by
        refine ⟨e, he, ?_⟩
        cases e with
        | write b l s r => exact hsilent
        | wait n answers => exact hsilent.1
      obtain ⟨ret, pcm, w, hret⟩ := World.muxPcmWrite_fails hfails
      exact (h.resumes_iff hs hret).mp (hsound.resumes ret pcm w hret) ⟨e, he, hsilent⟩
    · intro hex
      obtain ⟨pcm, w, hret⟩ := hsound.exceeded hex
      obtain ⟨ret₁, left, hspec, hret₁⟩ := h.returned hs hret
      refine hspec.fails_iff.mp ?_
      by_contra hneg
      have hleft := hspec.left_eq
      rw [if_neg hneg] at hret₁
      omega
  · intro hfine
    refine ⟨h.writes hs, ?_, ?_, ?_, ?_⟩
    · intro ret pcm w hret
      obtain ⟨ret₁, left, hspec, -⟩ := h.returned hs hret
      have hbal := hspec.balance
      have hout := h.outstanding
      exact ⟨hspec.nonneg, hspec.le, by omega⟩
    · intro ret pcm w hret hnonneg
      obtain ⟨ret₁, left, hspec, hret₁⟩ := h.returned hs hret
      have hleft := hspec.left_eq
      split at hret₁
      · omega
      · omega
    · intro hex
      obtain ⟨ret, pcm, w, hret⟩ := World.muxPcmWrite_fails (hfine.exceeded hex)
      obtain ⟨ret₁, left, hspec, hret₁⟩ := h.returned hs hret
      rw [if_pos (hspec.fails_iff.mpr (hfine.exceeded hex))] at hret₁
      exact ⟨pcm, w, hret₁ ▸ hret⟩
    · intro ret pcm w hret
      exact (h.resumes_iff hs hret).mpr fun ⟨e, he, hsilent⟩ => hfine.not_silent e he hsilent

/-- The next state. -/
theorem write (h : p.Inv) (hs : Served p c) (hfine : CallFine p c) {p' : Playback}
    (hw : p.write c = .ok p') : p'.Inv := by
  unfold Playback.write at hw
  rcases hret : p.world.muxPcmWrite p.pcm c.count c.dev with e | ⟨ret, pcm, w⟩
  · rw [hret] at hw
    cases hw
  · rw [hret] at hw
    cases hw
    obtain ⟨ret₁, left, hspec, -⟩ := h.returned hs hret
    have hnot : ¬ ∃ e ∈ p.events c, e.Silent := fun ⟨e, he, hsilent⟩ =>
      hfine.not_silent e he hsilent
    have hne := fun heq => hnot (hspec.full_iff.mp heq)
    obtain ⟨⟨b, rfl⟩, -⟩ := World.muxPcmWrite_ok h.open_ hret
    have hbal : b = _ := hspec.balance
    have hout := h.outstanding
    refine ⟨h.open_, h.type_eq, hspec.nonneg, Int.lt_iff_le_and_ne.mpr ⟨hspec.le, hne⟩, ?_⟩
    show b = ((p.sent + accepted (p.events c) : Nat) : Int) -
      (p.acked + totalAcknowledged (p.events c) : Nat)
    omega

end Playback.Inv

/-- **Flow control.** The calls of a run on a new playback stream are all sound if and only if each
is fine in the state in which it is made. -/
theorem muxWrites_sound_iff (w : World) (pcm : MuxPcm) (hfd : 0 < pcm.muxFd)
    (htype : pcm.streamType = audioPlayback) (hnew : pcm.bytesWritten = 0) (calls : List WriteCall)
    (hs : muxWrites.Admits (fun s c => ∀ p, s = .ok p → Served p c) (.ok ⟨w, pcm, 0, 0⟩) calls) :
    (∀ e ∈ (muxWrites.run (.ok ⟨w, pcm, 0, 0⟩) calls).2, CallSound e.1 e.2) ↔
      muxWrites.Admits (fun s c => ∀ p, s = .ok p → CallFine p c) (.ok ⟨w, pcm, 0, 0⟩) calls := by
  have hinv : Playback.Inv ⟨w, pcm, 0, 0⟩ :=
    ⟨hfd, htype, Int.le_of_eq hnew.symm, by simp [hnew, audioPlaybackBuffer], by simp [hnew]⟩
  refine muxWrites.outputs_safe_iff_of_legal (P := fun s => ∀ p, s = .ok p → p.Inv) ?_ ?_ calls
    _ (fun q hq => by cases hq; exact hinv) hs
  · rintro (e | p) c hP hlegal
    · simp [muxWrites]
    · simp only [muxWrites, List.forall_mem_singleton, Except.ok.injEq, forall_eq']
      exact (hP p rfl).callSound_iff (hlegal p rfl)
  · rintro (e | p) c hP hlegal hok q hq
    · cases hq
    · exact (hP p rfl).write (hlegal p rfl) (hok p rfl) hq

/-- A stream that has been started and has nothing outstanding. -/
def startedPcm : MuxPcm := ⟨5, 0, false, 5, audioPlayback, 1, 0, some 0⟩

theorem events_startedPcm (c : WriteCall) :
    Playback.events ⟨muxInit, startedPcm, 0, 0⟩ c =
      muxPcmWriteEvents 5 audioPlayback 0 (Int.bmod c.count (2 ^ 32)) 0 c.dev.data :=
  (World.muxPcmWrite_started (by decide) rfl (by decide) c.count c.dev).1

/-- Ten bytes that are accepted. -/
def tenBytes : WriteCall := ⟨10, ⟨0, 0, [], [⟨10, false, false, []⟩]⟩⟩

theorem events_tenBytes :
    Playback.events ⟨muxInit, startedPcm, 0, 0⟩ tenBytes = [.write 0 10 10 (some 10)] := by
  rw [events_startedPcm]
  show muxPcmWriteEvents 5 audioPlayback 0 (Int.bmod (10 : Nat) (2 ^ 32)) 0
    [⟨10, false, false, []⟩] = _
  have hcount : Int.bmod (10 : Nat) (2 ^ 32) = 10 := by decide
  rw [hcount, muxPcmWriteEvents, if_neg (by decide), if_pos (by decide), if_neg (by decide),
    muxPcmWriteEvents, if_pos (by decide)]
  rfl

theorem muxWrites_sound_tenBytes : CallSound ⟨muxInit, startedPcm, 0, 0⟩ tenBytes := by
  have hcall : (⟨muxInit, startedPcm, 0, 0⟩, tenBytes) ∈
      (muxWrites.run (.ok ⟨muxInit, startedPcm, 0, 0⟩) [tenBytes]).2 := List.mem_cons_self
  refine (muxWrites_sound_iff muxInit startedPcm (by decide) rfl rfl [tenBytes] ⟨?_, trivial⟩).mpr
    ⟨?_, trivial⟩ _ hcall
  · rintro p ⟨⟩
    refine ⟨by decide, ?_⟩
    rw [events_tenBytes, List.forall_mem_singleton]
    rintro r ⟨⟩
    decide
  · rintro p ⟨⟩
    constructor
    · rw [events_tenBytes, List.forall_mem_singleton]
      exact id
    · rw [events_tenBytes]
      simp [PlaybackEvent.Exceeded]

/-- A full buffer, and nothing is acknowledged in time. -/
def noAck : WriteCall := ⟨3072, ⟨0, 0, [], [⟨3072, false, false, []⟩, ⟨0, false, false, []⟩]⟩⟩

theorem events_noAck : Playback.events ⟨muxInit, startedPcm, 0, 0⟩ noAck =
    [.write 0 3072 3072 (some 3072), .wait 3072 [-1]] := by
  have hwait : saudioWaitCommonCmd 5 (saudioCmdReceive <<< 16) audioPlayback
      [⟨0, false, false, []⟩] = some (-1, []) := rfl
  have hresp : muxWriteWaitResponse 5 audioPlayback 3072 0 [⟨0, false, false, []⟩] =
      some (-1, 3072, []) := by
    rw [muxWriteWaitResponse, if_neg (by decide), hwait]
    rfl
  have hans : waitAnswers 5 audioPlayback 3072 [⟨0, false, false, []⟩] = [-1] := by
    rw [waitAnswers, if_neg (by decide), hwait]
    rfl
  rw [events_startedPcm]
  show muxPcmWriteEvents 5 audioPlayback 0 (Int.bmod (3072 : Nat) (2 ^ 32)) 0
    [⟨3072, false, false, []⟩, ⟨0, false, false, []⟩] = _
  have hcount : Int.bmod (3072 : Nat) (2 ^ 32) = 3072 := by decide
  have hnat : ((0 : Int) + 3072).toNat = 3072 := rfl
  rw [hcount, muxPcmWriteEvents, if_neg (by decide), if_pos (by decide), if_pos (by decide), hnat,
    hresp, hans]
  rfl

/-- A wait that times out leaves the buffer full: no later call plays anything. -/
theorem not_sound_noAck :
    muxWrites.Admits (fun s c => ∀ p, s = .ok p → Served p c) (.ok ⟨muxInit, startedPcm, 0, 0⟩)
        [noAck] ∧
      ¬ ∀ e ∈ (muxWrites.run (.ok ⟨muxInit, startedPcm, 0, 0⟩) [noAck]).2, CallSound e.1 e.2 := by
  have hinv : Playback.Inv ⟨muxInit, startedPcm, 0, 0⟩ :=
    ⟨by decide, rfl, by decide, by decide, rfl⟩
  have hserved : Served ⟨muxInit, startedPcm, 0, 0⟩ noAck := by
    refine ⟨by decide, ?_⟩
    rw [events_noAck]
    simp [PlaybackEvent.Honest]
  constructor
  · refine ⟨?_, trivial⟩
    rintro p ⟨⟩
    exact hserved
  · intro h
    have hsound := h (⟨muxInit, startedPcm, 0, 0⟩, noAck) (List.mem_cons_self ..)
    have hfine := (hinv.callSound_iff hserved).mp hsound
    refine hfine.not_silent (.wait 3072 [-1]) (by simp [events_noAck]) ⟨by simp [Fails], rfl⟩

end SprdHal.Audio
