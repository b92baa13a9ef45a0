import SprdHal.Lib.Machine

/-!
# Preview pictures of the tuning server (`isp_video.c`)

The thread of the PC tool handles `CMD_GET_PREVIEW_PICTURE` by clearing `preview_img_end_flag`,
waiting on `preview_sem_lock` and setting the flag again. The camera thread calls `send_img_data` for
each frame: while the flag is clear it sends the frame, through the same buffer `eng_rsp_diag` in
which the tool thread builds its responses, and posts the semaphore.

Between the post and the moment the flag is set again the camera thread still takes the request for
open. A frame that is tested in this window is a picture nobody asked for, and its post lets the next
request end without a picture.
-/

namespace SprdHal.Isp

open SprdHal.Lib

/-- Where the tool thread is in `handle_isp_data`. -/
inductive ToolPc
  | idle
  /-- `eng_rsp_diag` is cleared and the response begun -/
  | building
  /-- at `sem_wait` -/
  | waiting
  /-- behind `sem_wait` -/
  | woken
  deriving DecidableEq, Repr

/-- Where the camera thread is in `send_img_data`. -/
inductive CameraPc
  | idle
  /-- in `handle_img_data`, which fills `eng_rsp_diag` -/
  | sending
  /-- before `sem_post` -/
  | posting
  deriving DecidableEq, Repr

/-- The two threads, with `preview_flag` equal to 1, and how many pictures were sent and requests
completed. -/
structure Preview where
  tool : ToolPc
  camera : CameraPc
  previewImgEndFlag : Bool
  previewSemLock : Nat
  sent : Nat
  completed : Nat
  deriving DecidableEq

def Preview.init : Preview := ⟨.idle, .idle, true, 0, 0, 0⟩

inductive PreviewAct
  /-- the tool thread begins to handle a command -/
  | toolBegin
  /-- it sends the response to another command -/
  | toolRespond
  /-- `preview_img_end_flag = 0` -/
  | toolRequest
  /-- `sem_wait` returns -/
  | toolWait
  /-- `preview_img_end_flag = 1` -/
  | toolEnd
  /-- `send_img_data` tests `preview_img_end_flag` -/
  | cameraTest
  /-- `handle_img_data` returns -/
  | cameraSent
  /-- `sem_post` -/
  | cameraPost
  deriving DecidableEq, Repr

/-- A step that its thread is not ready for changes nothing. -/
def Preview.act (s : Preview) : PreviewAct → Preview
  | .toolBegin => if s.tool = .idle then { s with tool := .building } else s
  | .toolRespond => if s.tool = .building then { s with tool := .idle } else s
  | .toolRequest =>
    if s.tool = .building then { s with tool := .waiting, previewImgEndFlag := false } else s
  | .toolWait =>
    if s.tool = .waiting ∧ 0 < s.previewSemLock then
      { s with tool := .woken, previewSemLock := s.previewSemLock - 1 }
    else s
  | .toolEnd =>
    if s.tool = .woken then
      { s with tool := .idle, previewImgEndFlag := true, completed := s.completed + 1 }
    else s
  | .cameraTest =>
    if s.camera = .idle ∧ s.previewImgEndFlag = false then { s with camera := .sending } else s
  | .cameraSent =>
    if s.camera = .sending then { s with camera := .posting, sent := s.sent + 1 } else s
  | .cameraPost =>
    if s.camera = .posting then
      { s with camera := .idle, previewSemLock := s.previewSemLock + 1 }
    else s

def preview : Machine Preview PreviewAct Unit where
  step s a := (s.act a, [])

/-- A request is in progress from the clearing of the flag to its setting. -/
def Preview.inProgress (s : Preview) : Prop := s.tool = .waiting ∨ s.tool = .woken

/-- One picture for each request, no surplus post, and no two threads in `eng_rsp_diag`. -/
structure PreviewOk (s : Preview) : Prop where
  sent_eq : s.sent = s.completed ∨ s.inProgress ∧ s.sent = s.completed + 1
  sem_eq : ¬s.inProgress → s.previewSemLock = 0
  buffer : ¬(s.tool = .building ∧ s.camera = .sending)

/-- A frame that finds the flag clear finds the request without a picture: it is not tested between
the post for the request and the setting of the flag. -/
def NoSecondFrame (s : Preview) : PreviewAct → Prop
  | .cameraTest => s.camera = .idle → s.previewImgEndFlag = false →
    s.tool = .waiting ∧ s.previewSemLock = 0
  | _ => True

/-- The course of a request, `n` being the requests before it. -/
inductive Orderly : Preview → Prop
  | rest (n : Nat) : Orderly ⟨.idle, .idle, true, 0, n, n⟩
  | building (n : Nat) : Orderly ⟨.building, .idle, true, 0, n, n⟩
  | asked (n : Nat) : Orderly ⟨.waiting, .idle, false, 0, n, n⟩
  | sending (n : Nat) : Orderly ⟨.waiting, .sending, false, 0, n, n⟩
  | posting (n : Nat) : Orderly ⟨.waiting, .posting, false, 0, n + 1, n⟩
  | posted (n : Nat) : Orderly ⟨.waiting, .idle, false, 1, n + 1, n⟩
  | woken (n : Nat) : Orderly ⟨.woken, .idle, false, 0, n + 1, n⟩

theorem Orderly.previewOk {s : Preview} (h : Orderly s) : PreviewOk s := by
  cases h with
  | rest n => exact ⟨Or.inl rfl, fun _ => rfl, nofun⟩
  | building n => exact ⟨Or.inl rfl, fun _ => rfl, nofun⟩
  | asked n => exact ⟨Or.inl rfl, fun _ => rfl, nofun⟩
  | sending n => exact ⟨Or.inl rfl, fun _ => rfl, nofun⟩
  | posting n => exact ⟨Or.inr ⟨Or.inl rfl, rfl⟩, fun _ => rfl, nofun⟩
  | posted n => exact ⟨Or.inr ⟨Or.inl rfl, rfl⟩, fun h => absurd (Or.inl rfl) h, nofun⟩
  | woken n => exact ⟨Or.inr ⟨Or.inr rfl, rfl⟩, fun _ => rfl, nofun⟩

/-- A step of the tool thread. -/
theorem Orderly.tool {s : Preview} (h : Orderly s) {a : PreviewAct}
    (ha : a ∈ [.toolBegin, .toolRespond, .toolRequest, .toolWait, .toolEnd]) :
    Orderly (s.act a) := by
  simp only [List.mem_cons, List.not_mem_nil, or_false] at ha
  cases h with
  | rest n =>
    rcases ha with rfl | rfl | rfl | rfl | rfl
    · exact .building n
    all_goals exact .rest n
  | building n =>
    rcases ha with rfl | rfl | rfl | rfl | rfl
    · exact .building n
    · exact .rest n
    · exact .asked n
    all_goals exact .building n
  | asked n => rcases ha with rfl | rfl | rfl | rfl | rfl <;> exact .asked n
  | sending n => rcases ha with rfl | rfl | rfl | rfl | rfl <;> exact .sending n
  | posting n => rcases ha with rfl | rfl | rfl | rfl | rfl <;> exact .posting n
  | posted n =>
    rcases ha with rfl | rfl | rfl | rfl | rfl
    · exact .posted n
    · exact .posted n
    · exact .posted n
    · exact .woken n
    · exact .posted n
  | woken n =>
    rcases ha with rfl | rfl | rfl | rfl | rfl
    · exact .woken n
    · exact .woken n
    · exact .woken n
    · exact .woken n
    · exact .rest (n + 1)

/-- The camera thread tests the flag. -/
theorem Orderly.cameraTest {s : Preview} (h : Orderly s) (hn : NoSecondFrame s .cameraTest) :
    Orderly (s.act .cameraTest) := by
  cases h with
  | rest n => exact .rest n
  | building n => exact .building n
  | asked n => exact .sending n
  | sending n => exact .sending n
  | posting n => exact .posting n
  | posted n => exact nomatch (hn rfl rfl).2
  | woken n => exact nomatch (hn rfl rfl).1

theorem Orderly.cameraSent {s : Preview} (h : Orderly s) : Orderly (s.act .cameraSent) := by
  cases h with
  | rest n => exact .rest n
  | building n => exact .building n
  | asked n => exact .asked n
  | sending n => exact .posting n
  | posting n => exact .posting n
  | posted n => exact .posted n
  | woken n => exact .woken n

theorem Orderly.cameraPost {s : Preview} (h : Orderly s) : Orderly (s.act .cameraPost) := by
  cases h with
  | rest n => exact .rest n
  | building n => exact .building n
  | asked n => exact .asked n
  | sending n => exact .sending n
  | posting n => exact .posted n
  | posted n => exact .posted n
  | woken n => exact .woken n

theorem Orderly.act {s : Preview} (h : Orderly s) {a : PreviewAct} (hn : NoSecondFrame s a) :
    Orderly (s.act a) := by
  cases a with
  | cameraTest => exact h.cameraTest hn
  | cameraSent => exact h.cameraSent
  | cameraPost => exact h.cameraPost
  | toolBegin => exact h.tool (by simp)
  | toolRespond => exact h.tool (by simp)
  | toolRequest => exact h.tool (by simp)
  | toolWait => exact h.tool (by simp)
  | toolEnd => exact h.tool (by simp)

/-- In every interleaving in which no frame is tested between the post for a request and the setting
of the flag, every state is in order. -/
theorem preview_run (acts : List PreviewAct)
    (hadm : preview.Admits NoSecondFrame Preview.init acts) :
    PreviewOk (preview.run Preview.init acts).1 := by
  have hstep : ∀ (s : Preview) (log : List Unit) (a : PreviewAct), Orderly s →
      NoSecondFrame s a → Orderly (preview.step s a).1 := fun _ _ _ h hn => h.act hn
  have hinit : Orderly Preview.init := .rest 0
  exact (preview.run_induction (P := fun s _ => Orderly s) hstep acts _ [] hinit hadm).previewOk

/-- A request with its picture, and a frame after it. -/
theorem preview_run_one_request :
    PreviewOk (preview.run Preview.init [.toolBegin, .toolRequest, .cameraTest, .cameraSent,
      .cameraPost, .toolWait, .toolEnd, .cameraTest]).1 :=
  preview_run _ ⟨trivial, trivial, fun _ _ => ⟨rfl, rfl⟩, trivial, trivial, trivial, trivial,
    fun _ h => (nomatch h), trivial⟩

/-- A second frame before the tool thread has run again: two pictures were sent for one completed
request, and the semaphore is not zero; and the picture may be sent while the tool thread builds its
next response. -/
theorem preview_not_ok :
    ¬PreviewOk (preview.run Preview.init [.toolBegin, .toolRequest, .cameraTest, .cameraSent,
      .cameraPost, .cameraTest, .cameraSent, .cameraPost, .toolWait, .toolEnd]).1 ∧
    ¬PreviewOk (preview.run Preview.init [.toolBegin, .toolRequest, .cameraTest, .cameraSent,
      .cameraPost, .cameraTest, .toolWait, .toolEnd, .toolBegin]).1 := by
  constructor
  · intro h
    exact absurd (h.sem_eq (by rintro (h | h) <;> exact nomatch h)) (by decide)
  · intro h
    exact h.buffer (by decide)

end SprdHal.Isp
