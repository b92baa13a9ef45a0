import SprdHal.Lib.Machine

/-!
# Pictures captured for the tuning server (`isp_video.c`)

`CMD_TAKE_PICTURE` clears `capture_img_end_flag`, sets `capture_flag` and `capture_format`, has the
camera take a picture and waits on `capture_sem_lock`. The camera calls `send_capture_data` for the
raw, the YUV and the JPEG data, one after the other: the first call with the wanted format sends the
picture and sets `capture_img_end_flag`, and `send_capture_data_end` posts the semaphore at the JPEG
data and then clears `capture_flag`.

Whatever the interleaving, a request that is completed has had one picture, and the camera does not
send while the tool thread uses `eng_rsp_diag` (`capture_run`). But the tool thread may have set
`capture_flag` for the next request when the camera clears it for the last one. Such a request is
lost, nothing ends it any more, and every other request can be completed (`capture_completes_iff`);
requests are lost in no other way (`capture_lost_iff`). And `capture_format` is set last: until then
a picture of the format of the last request passes for the one that is wanted, and only then has a
picture another format than its request (`capture_matching_iff`).
-/

namespace SprdHal.Isp

open SprdHal.Lib

/-- `ISP_VIDEO_JPG` -/
def videoJpg : UInt32 := 0x10

/-- Where the tool thread is in `handle_isp_data`. -/
inductive TakePc
  | idle
  /-- `eng_rsp_diag` is cleared and the response begun -/
  | building
  /-- behind `capture_img_end_flag = 0` -/
  | opened
  /-- behind `capture_flag = 1` -/
  | flagged
  /-- at `sem_wait` -/
  | waiting
  /-- behind `sem_wait` -/
  | woken
  deriving DecidableEq, Repr

/-- Where the camera is in `send_capture_data`, called with a format. -/
inductive DataPc
  | idle
  /-- before the test of `capture_img_end_flag` -/
  | entered (format : UInt32)
  /-- before the test of `capture_format` -/
  | wanted (format : UInt32)
  /-- in `handle_img_data`, which fills `eng_rsp_diag` -/
  | sending (format : UInt32)
  /-- before `capture_img_end_flag = 1` -/
  | sent (format : UInt32)
  /-- in `send_capture_data_end`, before the test of `capture_flag` -/
  | ending (format : UInt32)
  /-- before the tests of `capture_img_end_flag` and of the format -/
  | flagged (format : UInt32)
  /-- before `sem_post` -/
  | posting
  /-- before `capture_flag = 0` -/
  | clearing
  deriving DecidableEq, Repr

/-- The two threads and what they share; the formats of the pictures asked for and of the pictures
sent, the last one first; and how many requests were completed. -/
structure Capture where
  tool : TakePc
  camera : DataPc
  captureImgEndFlag : Bool
  captureFlag : Bool
  captureFormat : UInt32
  captureSemLock : Nat
  asked : List UInt32
  sent : List UInt32
  completed : Nat
  deriving DecidableEq

def Capture.init : Capture := ⟨.idle, .idle, true, false, 1, 0, [], [], 0⟩

inductive CaptureAct
  /-- the tool thread begins to handle a command -/
  | toolBegin
  /-- it sends the response to another command -/
  | toolRespond
  /-- it has no memory for the packet, or the packet holds no `ISP_CAPTURE` -/
  | toolDecline
  /-- `capture_img_end_flag = 0` -/
  | toolOpen
  /-- `capture_flag = 1` -/
  | toolFlag
  /-- `capture_format` is set and `take_picture` called -/
  | toolFormat (format : UInt32)
  /-- `sem_wait` returns -/
  | toolWait
  /-- `capture_flag = 0` -/
  | toolEnd
  /-- `send_capture_data` is called -/
  | cameraData (format : UInt32)
  /-- the next statement of `send_capture_data` -/
  | cameraStep
  deriving DecidableEq, Repr

/-- A statement of `send_capture_data` or of `send_capture_data_end`. -/
def Capture.cameraStep (s : Capture) : Capture :=
  match s.camera with
  | .idle => s
  | .entered f =>
    { s with camera := if s.captureImgEndFlag = false then .wanted f else .ending f }
  | .wanted f => { s with camera := if f = s.captureFormat then .sending f else .ending f }
  | .sending f => { s with camera := .sent f, sent := f :: s.sent }
  | .sent f => { s with camera := .ending f, captureImgEndFlag := true }
  | .ending f => { s with camera := if s.captureFlag = true then .flagged f else .idle }
  | .flagged f =>
    { s with camera := if s.captureImgEndFlag = true ∧ f = videoJpg then .posting else .idle }
  | .posting => { s with camera := .clearing, captureSemLock := s.captureSemLock + 1 }
  | .clearing => { s with camera := .idle, captureFlag := false }

/-- A step that its thread is not ready for changes nothing. -/
def Capture.act (s : Capture) : CaptureAct → Capture
  | .toolBegin => if s.tool = .idle then { s with tool := .building } else s
  | .toolRespond => if s.tool = .building then { s with tool := .idle } else s
  | .toolDecline =>
    if s.tool = .building then { s with tool := .idle, captureFlag := false } else s
  | .toolOpen =>
    if s.tool = .building then { s with tool := .opened, captureImgEndFlag := false } else s
  | .toolFlag => if s.tool = .opened then { s with tool := .flagged, captureFlag := true } else s
  | .toolFormat f =>
    if s.tool = .flagged then
      { s with tool := .waiting, captureFormat := f, asked := f :: s.asked }
    else s
  | .toolWait =>
    if s.tool = .waiting ∧ 0 < s.captureSemLock then
      { s with tool := .woken, captureSemLock := s.captureSemLock - 1 }
    else s
  | .toolEnd =>
    if s.tool = .woken then
      { s with tool := .idle, captureFlag := false, completed := s.completed + 1 }
    else s
  | .cameraData f => if s.camera = .idle then { s with camera := .entered f } else s
  | .cameraStep => s.cameraStep

def capture : Machine Capture CaptureAct Unit where
  step s a := (s.act a, [])

/-- A request is in progress from the clearing of `capture_img_end_flag` on. -/
def Capture.inProgress (s : Capture) : Prop := s.tool ≠ .idle ∧ s.tool ≠ .building

/-- One picture for each completed request and at most one for the request in progress, no surplus
post, and no two threads in `eng_rsp_diag`. -/
structure CaptureOk (s : Capture) : Prop where
  sent_eq : s.sent.length = s.completed ∨ s.inProgress ∧ s.sent.length = s.completed + 1
  sem_le : s.captureSemLock ≤ 1
  sem_eq : ¬s.inProgress → s.captureSemLock = 0
  buffer : ¬(s.tool = .building ∧ ∃ f, s.camera = .sending f)

/-- The semaphore is not posted yet, and `capture_flag` is clear or about to be cleared for the
request before. -/
def Capture.Lost (s : Capture) : Prop :=
  (s.tool = .flagged ∨ s.tool = .waiting) ∧ s.captureSemLock = 0 ∧
    (s.captureFlag = false ∨ s.camera = .clearing)

/-- The camera is not between the post for a request and the clearing of `capture_flag` when the
tool thread sets it for the next one. -/
def NotLate (s : Capture) : CaptureAct → Prop
  | .toolFlag => s.tool = .opened → s.camera ≠ .clearing
  | _ => True

/-- The camera has no picture to send and no semaphore to post. -/
def DataPc.Quiet (c : DataPc) : Prop :=
  c = .idle ∨ (∃ f, c = .entered f) ∨ (∃ f, c = .ending f) ∨ c = .clearing

/-- The course of a request. -/
inductive InCourse (s : Capture) : Prop
  | rest (ht : s.tool = .idle ∨ s.tool = .building) (hc : s.camera.Quiet)
      (he : s.captureImgEndFlag = true) (hf : s.captureFlag = false) (hs : s.captureSemLock = 0)
      (hn : s.sent.length = s.completed)
  /-- without its picture -/
  | asked (ht : s.tool = .opened ∧ s.captureFlag = false ∨ s.tool = .flagged ∨ s.tool = .waiting)
      (hc : (∀ f, s.camera ≠ .sent f) ∧ s.camera ≠ .posting)
      (hflag : ∀ f, s.camera = .flagged f → s.captureFlag = true)
      (he : s.captureImgEndFlag = false) (hs : s.captureSemLock = 0)
      (hn : s.sent.length = s.completed)
  | sent (ht : s.tool = .opened ∧ s.captureFlag = false ∨ s.tool = .flagged ∨ s.tool = .waiting)
      (hc : ∃ f, s.camera = .sent f) (he : s.captureImgEndFlag = false)
      (hs : s.captureSemLock = 0) (hn : s.sent.length = s.completed + 1)
  /-- with its picture, before the post -/
  | ending (ht : s.tool = .opened ∧ s.captureFlag = false ∨ s.tool = .flagged ∨ s.tool = .waiting)
      (hc : s.camera = .idle ∨ (∃ f, s.camera = .entered f) ∨ (∃ f, s.camera = .ending f) ∨
        ((∃ f, s.camera = .flagged f) ∨ s.camera = .posting) ∧ s.captureFlag = true)
      (he : s.captureImgEndFlag = true) (hs : s.captureSemLock = 0)
      (hn : s.sent.length = s.completed + 1)
  | posted (ht : s.tool = .flagged ∨ s.tool = .waiting) (hc : s.camera.Quiet)
      (hf : s.captureFlag = true → s.camera = .clearing)
      (he : s.captureImgEndFlag = true) (hs : s.captureSemLock = 1)
      (hn : s.sent.length = s.completed + 1)
  | woken (ht : s.tool = .woken) (hc : s.camera.Quiet)
      (hf : s.captureFlag = true → s.camera = .clearing)
      (he : s.captureImgEndFlag = true) (hs : s.captureSemLock = 0)
      (hn : s.sent.length = s.completed + 1)

theorem InCourse.toolBegin {s : Capture} (h : InCourse s) : InCourse (s.act .toolBegin) := by
  by_cases hpc : s.tool = .idle
  · rw [Capture.act, if_pos hpc]
    cases h with
    | rest ht hc he hf hs hn => exact .rest (Or.inr rfl) hc he hf hs hn
    | _ => grind
  · rwa [Capture.act, if_neg hpc]

theorem InCourse.toolRespond {s : Capture} (h : InCourse s) : InCourse (s.act .toolRespond) := by
  by_cases hpc : s.tool = .building
  · rw [Capture.act, if_pos hpc]
    cases h with
    | rest ht hc he hf hs hn => exact .rest (Or.inl rfl) hc he hf hs hn
    | _ => grind
  · rwa [Capture.act, if_neg hpc]

theorem InCourse.toolDecline {s : Capture} (h : InCourse s) : InCourse (s.act .toolDecline) := by
  by_cases hpc : s.tool = .building
  · rw [Capture.act, if_pos hpc]
    cases h with
    | rest ht hc he hf hs hn => exact .rest (Or.inl rfl) hc he rfl hs hn
    | _ => grind
  · rwa [Capture.act, if_neg hpc]

theorem InCourse.toolOpen {s : Capture} (h : InCourse s) : InCourse (s.act .toolOpen) := by
  by_cases hpc : s.tool = .building
  · rw [Capture.act, if_pos hpc]
    cases h with
    | rest ht hc he hf hs hn =>
      unfold DataPc.Quiet at hc
      exact .asked (Or.inl ⟨rfl, hf⟩) (by grind) (by grind) rfl hs hn
    | _ => grind
  · rwa [Capture.act, if_neg hpc]

theorem InCourse.toolFlag {s : Capture} (h : InCourse s) : InCourse (s.act .toolFlag) := by
  by_cases hpc : s.tool = .opened
  · rw [Capture.act, if_pos hpc]
    cases h with
    | asked ht hc hflag he hs hn => exact .asked (by simp) hc (fun _ _ => rfl) he hs hn
    | sent ht hc he hs hn => exact .sent (by simp) hc he hs hn
    | ending ht hc he hs hn => exact .ending (by simp) (by grind) he hs hn
    | _ => grind
  · rwa [Capture.act, if_neg hpc]

theorem InCourse.toolFormat {s : Capture} (h : InCourse s) (f : UInt32) :
    InCourse (s.act (.toolFormat f)) := by
  by_cases hpc : s.tool = .flagged
  · rw [Capture.act, if_pos hpc]
    cases h with
    | asked ht hc hflag he hs hn => exact .asked (by simp) hc hflag he hs hn
    | sent ht hc he hs hn => exact .sent (by simp) hc he hs hn
    | ending ht hc he hs hn => exact .ending (by simp) hc he hs hn
    | posted ht hc hf he hs hn => exact .posted (by simp) hc hf he hs hn
    | _ => grind
  · rwa [Capture.act, if_neg hpc]

/-- Only a request with its picture is woken. -/
theorem InCourse.toolWait {s : Capture} (h : InCourse s) : InCourse (s.act .toolWait) := by
  by_cases hpc : s.tool = .waiting ∧ 0 < s.captureSemLock
  · rw [Capture.act, if_pos hpc]
    cases h with
    | posted ht hc hf he hs hn => exact .woken rfl hc hf he (by simp [hs]) hn
    | _ => grind
  · rwa [Capture.act, if_neg hpc]

theorem InCourse.toolEnd {s : Capture} (h : InCourse s) : InCourse (s.act .toolEnd) := by
  by_cases hpc : s.tool = .woken
  · rw [Capture.act, if_pos hpc]
    cases h with
    | woken ht hc hf he hs hn => exact .rest (Or.inl rfl) hc he rfl hs hn
    | _ => grind
  · rwa [Capture.act, if_neg hpc]

theorem InCourse.cameraData {s : Capture} (h : InCourse s) (f : UInt32) :
    InCourse (s.act (.cameraData f)) := by
  by_cases hpc : s.camera = .idle
  · rw [Capture.act, if_pos hpc]
    have hquiet : (DataPc.entered f).Quiet := Or.inr (Or.inl ⟨f, rfl⟩)
    cases h with
    | rest ht hc he hf hs hn => exact .rest ht hquiet he hf hs hn
    | asked ht hc hflag he hs hn => exact .asked ht (by simp) (by simp) he hs hn
    | sent ht hc he hs hn => grind
    | ending ht hc he hs hn => exact .ending ht (by simp) he hs hn
    | posted ht hc hf he hs hn => exact .posted ht hquiet (by grind) he hs hn
    | woken ht hc hf he hs hn => exact .woken ht hquiet (by grind) he hs hn
  · rwa [Capture.act, if_neg hpc]

/-- The camera moves on to `c`, which is not a state in which it has sent or is about to post. -/
theorem InCourse.moveCamera {s : Capture} (h : InCourse s) {c : DataPc} (hc : c.Quiet)
    (hnot : c ≠ .clearing) (hlast : s.captureFlag = true → s.camera ≠ .clearing)
    (hsent : ∀ f, s.camera ≠ .sent f) : InCourse { s with camera := c } := by
  have hquiet : c = .idle ∨ (∃ f, c = .entered f) ∨ (∃ f, c = .ending f) := by
    unfold DataPc.Quiet at hc
    grind
  cases h with
  | rest ht _ he hf hs hn => exact .rest ht hc he hf hs hn
  | asked ht _ hflag he hs hn => exact .asked ht (by grind) (by grind) he hs hn
  | sent ht hsend he hs hn => exact absurd hsend.choose_spec (hsent _)
  | ending ht _ he hs hn => exact .ending ht (by grind) he hs hn
  | posted ht _ hf he hs hn => exact .posted ht hc (by grind) he hs hn
  | woken ht _ hf he hs hn => exact .woken ht hc (by grind) he hs hn

/-- A statement of the camera, by where it is. -/
theorem InCourse.cameraStep {s : Capture} (h : InCourse s) : InCourse s.cameraStep := by
  have hidle : DataPc.idle.Quiet := Or.inl rfl
  have hending (f : UInt32) : (DataPc.ending f).Quiet := Or.inr (Or.inr (Or.inl ⟨f, rfl⟩))
  cases hcam : s.camera with
  | idle => simpa [Capture.cameraStep, hcam] using h
  | entered f =>
    simp only [Capture.cameraStep, hcam]
    split
    case isTrue he =>
      cases h with
      | asked ht _ _ _ hs hn => exact .asked ht (by simp) (by simp) he hs hn
      | _ => grind
    case isFalse => exact h.moveCamera (hending f) (by simp) (by simp [hcam]) (by simp [hcam])
  | wanted f =>
    simp only [Capture.cameraStep, hcam]
    split
    case isTrue hf =>
      cases h with
      | asked ht _ _ he hs hn => exact .asked ht (by simp) (by simp) he hs hn
      | _ => grind [DataPc.Quiet]
    case isFalse => exact h.moveCamera (hending f) (by simp) (by simp [hcam]) (by simp [hcam])
  | sending f =>
    simp only [Capture.cameraStep, hcam]
    cases h with
    | asked ht _ _ he hs hn => exact .sent ht ⟨f, rfl⟩ he hs (by simp [hn])
    | _ => grind [DataPc.Quiet]
  | sent f =>
    simp only [Capture.cameraStep, hcam]
    cases h with
    | sent ht _ he hs hn => exact .ending ht (by simp) rfl hs hn
    | _ => grind [DataPc.Quiet]
  | ending f =>
    simp only [Capture.cameraStep, hcam]
    split
    case isTrue hf =>
      cases h with
      | asked ht _ _ he hs hn => exact .asked ht (by simp) (fun _ _ => hf) he hs hn
      | ending ht _ he hs hn => exact .ending ht (by simp [hf]) he hs hn
      | _ => grind
    case isFalse => exact h.moveCamera hidle (by simp) (by simp [hcam]) (by simp [hcam])
  | flagged f =>
    simp only [Capture.cameraStep, hcam]
    split
    case isTrue hpost =>
      cases h with
      | ending ht hc he hs hn => exact .ending ht (by grind) he hs hn
      | _ => grind [DataPc.Quiet]
    case isFalse => exact h.moveCamera hidle (by simp) (by simp [hcam]) (by simp [hcam])
  | posting =>
    simp only [Capture.cameraStep, hcam]
    cases h with
    | ending ht hc he hs hn =>
      exact .posted (by grind) (by simp [DataPc.Quiet]) (fun _ => rfl) he (by simp [hs]) hn
    | _ => grind [DataPc.Quiet]
  | clearing =>
    simp only [Capture.cameraStep, hcam]
    cases h with
    | rest ht _ he hf hs hn => exact .rest ht hidle he rfl hs hn
    | asked ht _ _ he hs hn =>
      exact .asked (by simpa using ht.imp And.left id) (by simp) (by simp) he hs hn
    | posted ht _ hf he hs hn => exact .posted ht hidle (by simp) he hs hn
    | woken ht _ hf he hs hn => exact .woken ht hidle (by simp) he hs hn
    | _ => grind

theorem InCourse.act {s : Capture} (h : InCourse s) (a : CaptureAct) : InCourse (s.act a) := by
  cases a with
  | toolBegin => exact h.toolBegin
  | toolRespond => exact h.toolRespond
  | toolDecline => exact h.toolDecline
  | toolOpen => exact h.toolOpen
  | toolFlag => exact h.toolFlag
  | toolFormat f => exact h.toolFormat f
  | toolWait => exact h.toolWait
  | toolEnd => exact h.toolEnd
  | cameraData f => exact h.cameraData f
  | cameraStep => exact h.cameraStep

theorem InCourse.init : InCourse Capture.init :=
  .rest (Or.inl rfl) (Or.inl rfl) rfl rfl rfl rfl

theorem InCourse.run {s : Capture} (h : InCourse s) (acts : List CaptureAct) :
    InCourse (capture.run s acts).1 :=
  capture.run_invariant (fun _ a h => h.act a) acts s h

theorem InCourse.captureOk {s : Capture} (h : InCourse s) : CaptureOk s := by
  cases h with
  | rest ht hc he hf hs hn =>
    refine ⟨Or.inl hn, by omega, fun _ => hs, ?_⟩
    rintro ⟨-, f, hsend⟩
    simp [DataPc.Quiet, hsend] at hc
  | asked ht hc hflag he hs hn => exact ⟨Or.inl hn, by omega, fun _ => hs, by grind⟩
  | sent ht hc he hs hn =>
    exact ⟨Or.inr ⟨by unfold Capture.inProgress; grind, hn⟩, by omega, fun _ => hs, by grind⟩
  | ending ht hc he hs hn =>
    exact ⟨Or.inr ⟨by unfold Capture.inProgress; grind, hn⟩, by omega, fun _ => hs, by grind⟩
  | posted ht hc hf he hs hn =>
    have hopen : s.inProgress := by unfold Capture.inProgress; grind
    exact ⟨Or.inr ⟨hopen, hn⟩, by omega, fun h => absurd hopen h, by grind⟩
  | woken ht hc hf he hs hn =>
    exact ⟨Or.inr ⟨by unfold Capture.inProgress; grind, hn⟩, by omega, fun _ => hs, by grind⟩

/-- In every interleaving. -/
theorem capture_run (acts : List CaptureAct) : CaptureOk (capture.run Capture.init acts).1 :=
  (InCourse.init.run acts).captureOk

/-! ### Lost requests -/

/-- A lost request stays lost. -/
theorem Capture.Lost.act {s : Capture} (hl : s.Lost) (h : InCourse s) (a : CaptureAct) :
    (s.act a).Lost ∧ (s.act a).completed = s.completed := by
  obtain ⟨ht, hs, hlate⟩ := hl
  cases a with
  | cameraStep =>
    have hflag : ∀ f, s.camera = .flagged f → s.captureFlag = true := by
      cases h <;> grind [DataPc.Quiet]
    have hpost : s.camera = .posting → s.captureFlag = true := by
      cases h <;> grind [DataPc.Quiet]
    cases hcam : s.camera <;> grind [Capture.act, Capture.cameraStep, Capture.Lost]
  | _ => grind [Capture.act, Capture.Lost]

theorem Capture.Lost.run {s : Capture} (hl : s.Lost) (h : InCourse s) (acts : List CaptureAct) :
    (capture.run s acts).1.completed = s.completed := by
  have hstep : ∀ (t : Capture) a, InCourse t ∧ t.Lost ∧ t.completed = s.completed →
      InCourse (capture.step t a).1 ∧ (capture.step t a).1.Lost ∧
        (capture.step t a).1.completed = s.completed := fun t a ht =>
    ⟨ht.1.act a, (ht.2.1.act ht.1 a).1, (ht.2.1.act ht.1 a).2.trans ht.2.2⟩
  exact (capture.run_invariant hstep acts s ⟨h, hl, rfl⟩).2.2

/-- Requests are lost at the setting of `capture_flag` only. -/
theorem Capture.not_lost_act_iff {s : Capture} (h : InCourse s) (hl : ¬s.Lost) (a : CaptureAct) :
    ¬(s.act a).Lost ↔ NotLate s a := by
  cases a with
  | toolFlag =>
    by_cases ht : s.tool = .opened
    · have hs : s.captureSemLock = 0 := by cases h <;> grind
      simp [Capture.act, NotLate, Capture.Lost, ht, hs]
    · simpa [Capture.act, NotLate, ht] using hl
  | cameraStep =>
    refine iff_of_true ?_ trivial
    cases hcam : s.camera <;> grind [Capture.act, Capture.cameraStep, Capture.Lost]
  | _ =>
    refine iff_of_true ?_ trivial
    grind [Capture.act, Capture.Lost]

/-- In exactly the interleavings in which the camera is never late, no request is lost. -/
theorem capture_lost_iff (acts : List CaptureAct) :
    (∀ pre, pre <+: acts → ¬(capture.run Capture.init pre).1.Lost) ↔
      capture.Admits NotLate Capture.init acts := by
  have hstep : ∀ (s : Capture) a, InCourse s → ¬s.Lost →
      (¬(capture.step s a).1.Lost ↔ NotLate s a) := fun _ a h hl => Capture.not_lost_act_iff h hl a
  have hinit : ¬Capture.init.Lost := fun h => h.1.elim nofun nofun
  exact capture.good_iff_of_invariant (fun _ a h => h.act a) hstep acts _ InCourse.init hinit

/-- The camera has posted for a picture in JPEG and still has to clear `capture_flag`. -/
example : (capture.run Capture.init [.toolBegin, .toolOpen, .toolFlag, .toolFormat videoJpg,
    .cameraData videoJpg, .cameraStep, .cameraStep, .cameraStep, .cameraStep, .cameraStep,
    .cameraStep, .cameraStep, .toolWait, .toolEnd, .toolBegin, .toolOpen, .toolFlag]).1.Lost :=
  ⟨Or.inl rfl, rfl, Or.inr rfl⟩

/-! ### Requests that can be completed -/

/-- A continuation completes the request. -/
def Capture.CanComplete (s : Capture) : Prop :=
  ∃ acts, s.completed < (capture.run s acts).1.completed

theorem Capture.completed_le_act (s : Capture) (a : CaptureAct) :
    s.completed ≤ (s.act a).completed := by
  cases a with
  | cameraStep => cases hcam : s.camera <;> simp [Capture.act, Capture.cameraStep, hcam]
  | _ => grind [Capture.act]

theorem Capture.CanComplete.of_act {s : Capture} (a : CaptureAct) (h : (s.act a).CanComplete) :
    s.CanComplete := by
  obtain ⟨acts, hlt⟩ := h
  exact ⟨a :: acts, Nat.lt_of_le_of_lt (s.completed_le_act a) hlt⟩

theorem Capture.canComplete_of_posted {s : Capture} (ht : s.tool = .waiting)
    (hs : 0 < s.captureSemLock) : s.CanComplete :=
  ⟨[.toolWait, .toolEnd], by simp [capture, Machine.run, Capture.act, ht, hs]⟩

/-- Where the camera has only to post. -/
theorem Capture.canComplete_of_posting {s : Capture} (ht : s.tool = .waiting)
    (hcam : s.camera = .posting) : s.CanComplete := by
  apply CanComplete.of_act .cameraStep
  apply canComplete_of_posted
  · simp [Capture.act, Capture.cameraStep, hcam, ht]
  · simp [Capture.act, Capture.cameraStep, hcam]

/-- Where the picture was sent and the camera handles the JPEG data. -/
theorem Capture.canComplete_of_ending_jpg {s : Capture} (ht : s.tool = .waiting)
    (he : s.captureImgEndFlag = true) (hf : s.captureFlag = true)
    (hcam : s.camera = .ending videoJpg) : s.CanComplete := by
  apply CanComplete.of_act .cameraStep
  apply CanComplete.of_act .cameraStep
  apply canComplete_of_posting <;> simp [Capture.act, Capture.cameraStep, hcam, ht, he, hf]

theorem Capture.canComplete_of_idle_sent {s : Capture} (ht : s.tool = .waiting)
    (he : s.captureImgEndFlag = true) (hf : s.captureFlag = true) (hcam : s.camera = .idle) :
    s.CanComplete := by
  apply CanComplete.of_act (.cameraData videoJpg)
  apply CanComplete.of_act .cameraStep
  apply canComplete_of_ending_jpg <;> simp [Capture.act, Capture.cameraStep, hcam, ht, he, hf]

theorem Capture.canComplete_of_flagged {s : Capture} (ht : s.tool = .waiting)
    (he : s.captureImgEndFlag = true) (hf : s.captureFlag = true) {f : UInt32}
    (hcam : s.camera = .flagged f) : s.CanComplete := by
  apply CanComplete.of_act .cameraStep
  by_cases hjpg : f = videoJpg
  · apply canComplete_of_posting <;> simp [Capture.act, Capture.cameraStep, hcam, ht, he, hjpg]
  · apply canComplete_of_idle_sent <;>
      simp [Capture.act, Capture.cameraStep, hcam, ht, he, hf, hjpg]

theorem Capture.canComplete_of_ending_sent {s : Capture} (ht : s.tool = .waiting)
    (he : s.captureImgEndFlag = true) (hf : s.captureFlag = true) {f : UInt32}
    (hcam : s.camera = .ending f) : s.CanComplete := by
  apply CanComplete.of_act .cameraStep
  apply canComplete_of_flagged (f := f) <;>
    simp [Capture.act, Capture.cameraStep, hcam, ht, he, hf]

theorem Capture.canComplete_of_sending {s : Capture} (ht : s.tool = .waiting)
    (hf : s.captureFlag = true) {f : UInt32} (hcam : s.camera = .sending f) : s.CanComplete := by
  apply CanComplete.of_act .cameraStep
  apply CanComplete.of_act .cameraStep
  apply canComplete_of_ending_sent (f := f) <;>
    simp [Capture.act, Capture.cameraStep, hcam, ht, hf]

/-- The camera delivers the wanted format. -/
theorem Capture.canComplete_of_idle {s : Capture} (ht : s.tool = .waiting)
    (hf : s.captureFlag = true) (hcam : s.camera = .idle) : s.CanComplete := by
  by_cases he : s.captureImgEndFlag = true
  · exact canComplete_of_idle_sent ht he hf hcam
  · apply CanComplete.of_act (.cameraData s.captureFormat)
    apply CanComplete.of_act .cameraStep
    apply CanComplete.of_act .cameraStep
    apply canComplete_of_sending (f := s.captureFormat) <;>
      simp [Capture.act, Capture.cameraStep, hcam, ht, he, hf]

theorem Capture.canComplete_of_ending {s : Capture} (ht : s.tool = .waiting)
    (hf : s.captureFlag = true) {f : UInt32} (hcam : s.camera = .ending f) : s.CanComplete := by
  by_cases he : s.captureImgEndFlag = true
  · exact canComplete_of_ending_sent ht he hf hcam
  · apply CanComplete.of_act .cameraStep
    apply CanComplete.of_act .cameraStep
    apply canComplete_of_idle <;> simp [Capture.act, Capture.cameraStep, hcam, ht, he, hf]

/-- Wherever the camera is, if it does not clear `capture_flag` next. -/
theorem Capture.canComplete_of_waiting {s : Capture} (ht : s.tool = .waiting)
    (hl : ¬s.Lost) : s.CanComplete := by
  by_cases hs : 0 < s.captureSemLock
  · exact canComplete_of_posted ht hs
  have hopen : s.captureFlag = true ∧ s.camera ≠ .clearing := by
    simp only [Capture.Lost, ht] at hl
    grind
  obtain ⟨hf, hclear⟩ := hopen
  cases hcam : s.camera with
  | idle => exact canComplete_of_idle ht hf hcam
  | entered f =>
    by_cases he : s.captureImgEndFlag = true
    · apply CanComplete.of_act .cameraStep
      apply canComplete_of_ending (f := f) <;>
        simp [Capture.act, Capture.cameraStep, hcam, ht, he, hf]
    · apply CanComplete.of_act .cameraStep
      apply CanComplete.of_act .cameraStep
      by_cases hwant : f = s.captureFormat
      · apply canComplete_of_sending (f := f) <;>
          simp [Capture.act, Capture.cameraStep, hcam, ht, he, hf, hwant]
      · apply canComplete_of_ending (f := f) <;>
          simp [Capture.act, Capture.cameraStep, hcam, ht, he, hf, hwant]
  | wanted f =>
    apply CanComplete.of_act .cameraStep
    by_cases hwant : f = s.captureFormat
    · apply canComplete_of_sending (f := f) <;>
        simp [Capture.act, Capture.cameraStep, hcam, ht, hf, hwant]
    · apply canComplete_of_ending (f := f) <;>
        simp [Capture.act, Capture.cameraStep, hcam, ht, hf, hwant]
  | sending f => exact canComplete_of_sending ht hf hcam
  | sent f =>
    apply CanComplete.of_act .cameraStep
    apply canComplete_of_ending (f := f) <;> simp [Capture.act, Capture.cameraStep, hcam, ht, hf]
  | ending f => exact canComplete_of_ending ht hf hcam
  | flagged f =>
    by_cases he : s.captureImgEndFlag = true
    · exact canComplete_of_flagged ht he hf hcam
    · apply CanComplete.of_act .cameraStep
      apply canComplete_of_idle <;> simp [Capture.act, Capture.cameraStep, hcam, ht, he, hf]
  | posting => exact canComplete_of_posting ht hcam
  | clearing => exact absurd hcam hclear

/-- A request that has set `capture_flag` can be completed if and only if it is not lost. -/
theorem capture_completes_iff (acts : List CaptureAct) :
    let s := (capture.run Capture.init acts).1
    s.tool = .flagged ∨ s.tool = .waiting → (s.CanComplete ↔ ¬s.Lost) := by
  intro s ht
  have h : InCourse s := InCourse.init.run acts
  constructor
  · rintro ⟨more, hlt⟩ hl
    rw [hl.run h more] at hlt
    exact Nat.lt_irrefl _ hlt
  · intro hl
    rcases ht with ht | ht
    · apply Capture.CanComplete.of_act (.toolFormat videoJpg)
      apply Capture.canComplete_of_waiting
      · simp [Capture.act, ht]
      · simpa [Capture.act, Capture.Lost, ht] using hl
    · exact Capture.canComplete_of_waiting ht hl

/-- A request at its semaphore, and none before it. -/
theorem capture_completes_iff_waiting :
    let s := (capture.run Capture.init [.toolBegin, .toolOpen, .toolFlag, .toolFormat 4]).1
    (s.tool = .flagged ∨ s.tool = .waiting) ∧ s.CanComplete :=
  have hlost : ¬(capture.run Capture.init
      [.toolBegin, .toolOpen, .toolFlag, .toolFormat 4]).1.Lost :=
    fun h => h.2.2.elim nofun nofun
  ⟨Or.inr rfl, (capture_completes_iff [.toolBegin, .toolOpen, .toolFlag, .toolFormat 4]
    (Or.inr rfl)).mpr hlost⟩

/-! ### The formats of the pictures -/

/-- The pictures sent, with the one that is being sent. -/
def Capture.pictures (s : Capture) : List UInt32 :=
  match s.camera with
  | .sending f => f :: s.sent
  | _ => s.sent

/-- Between the clearing of `capture_img_end_flag` and the setting of `capture_format`, the camera
tests no picture of the format of the last request. -/
def NotEarly (s : Capture) : CaptureAct → Prop
  | .cameraStep => ∀ f, s.camera = .wanted f → s.tool = .opened ∨ s.tool = .flagged →
    f ≠ s.captureFormat
  | _ => True

/-- The requests that have set `capture_format`. -/
structure Asked (s : Capture) : Prop where
  course : InCourse s
  length_eq : s.asked.length =
    s.completed + if s.tool = .waiting ∨ s.tool = .woken then 1 else 0
  head_eq : s.asked = [] ∨ s.asked.head? = some s.captureFormat

theorem Asked.init : Asked Capture.init :=
  ⟨InCourse.init, rfl, Or.inl rfl⟩

theorem Asked.act {s : Capture} (h : Asked s) (a : CaptureAct) : Asked (s.act a) := by
  refine ⟨h.course.act a, ?_, ?_⟩
  · have hlen := h.length_eq
    cases a with
    | cameraStep =>
      cases hcam : s.camera <;> simpa [Capture.act, Capture.cameraStep, hcam] using hlen
    | _ => grind [Capture.act]
  · have hhead := h.head_eq
    cases a with
    | cameraStep =>
      cases hcam : s.camera <;> simpa [Capture.act, Capture.cameraStep, hcam] using hhead
    | _ => grind [Capture.act]

/-- Each picture has the format of its request. -/
def Capture.Matching (s : Capture) : Prop := s.pictures <:+ s.asked

/-- The picture that passes the test of the format. -/
theorem Asked.matching_wanted_iff {s : Capture} (h : Asked s) (hm : s.Matching) {f : UInt32}
    (hcam : s.camera = .wanted f) : (s.act .cameraStep).Matching ↔ NotEarly s .cameraStep := by
  have hsent : s.sent <:+ s.asked := by
    simpa [Capture.Matching, Capture.pictures, hcam] using hm
  obtain ⟨ht, hn⟩ : (s.tool = .opened ∨ s.tool = .flagged ∨ s.tool = .waiting) ∧
      s.sent.length = s.completed := by
    cases h.course <;> grind [DataPc.Quiet]
  have hlen := h.length_eq
  by_cases hf : f = s.captureFormat
  · have hnext : (s.act .cameraStep).Matching ↔ f :: s.sent <:+ s.asked := by
      simp [Capture.Matching, Capture.pictures, Capture.act, Capture.cameraStep, hcam, hf]
    rw [hnext]
    simp only [NotEarly, hcam, hf]
    constructor
    · intro hsuffix g _ hearly
      have hle := hsuffix.length_le
      grind
    · intro hlate
      have hwait : s.tool = .waiting := by grind
      obtain ⟨earlier, hasked⟩ := hsent
      have hearlier : earlier.length = 1 := by
        have := congrArg List.length hasked
        simp only [List.length_append] at this
        simp [hwait] at hlen
        omega
      obtain ⟨g, rfl⟩ := List.length_eq_one_iff.mp hearlier
      have hhead := h.head_eq
      simp only [← hasked] at hhead ⊢
      simp at hhead
      simp [hhead]
  · refine iff_of_true ?_ ?_
    · simpa [Capture.Matching, Capture.pictures, Capture.act, Capture.cameraStep, hcam, hf] using
        hsent
    · simp [NotEarly, hcam, hf]

theorem Asked.matching_act_iff {s : Capture} (h : Asked s) (hm : s.Matching) (a : CaptureAct) :
    (s.act a).Matching ↔ NotEarly s a := by
  cases a with
  | cameraStep =>
    cases hcam : s.camera with
    | wanted f => exact h.matching_wanted_iff hm hcam
    | _ =>
      refine iff_of_true ?_ (by simp [NotEarly, hcam])
      simp only [Capture.Matching, Capture.pictures, hcam] at hm
      simp only [Capture.Matching, Capture.pictures, Capture.act, Capture.cameraStep, hcam]
      grind
  | cameraData f =>
    refine iff_of_true ?_ trivial
    grind [Capture.Matching, Capture.pictures, Capture.act]
  | toolFormat f =>
    refine iff_of_true ?_ trivial
    grind [Capture.Matching, Capture.pictures, Capture.act, List.suffix_cons]
  | _ =>
    refine iff_of_true ?_ trivial
    grind [Capture.Matching, Capture.pictures, Capture.act]

end SprdHal.Isp
