import SprdHal.Hwc.ScaleTwice

/-!
# Blending the layer list (`SprdUtil.cpp`)

`composerLayerList` has the GSP blend the layers of the planes into the buffer of one of them. The
video layers are below the OSD layers. The first layer goes over the background, and each further
one over what there is so far; only if the first two leave nothing of the screen out are they
blended in one step. The GSP cannot scale the upper one of two layers, and a layer behind the first
that is to be scaled makes `composerLayerList` return 0 with nothing blended.
-/

namespace SprdHal.Hwc

/-- `SprdUtil`; `mGsp_cap` is there once its `magic` is. -/
structure SprdUtil where
  mGspCap : Option GspCapability
  mFBInfo : FrameBufferInfo
  mOutputFormat : Int32
  deriving DecidableEq

/-- A call of `composerLayers`. -/
structure Composition where
  l1 : Option SprdHWLayer
  l2 : Option SprdHWLayer
  dstBuffer : Option PrivateHandle
  dstFormat : Int32
  deriving DecidableEq

/-- `need_scaling_check` of a layer that is not NULL -/
def needScalingCheck (layer : SprdHWLayer) : Int :=
  if (rotationTypeConvert layer.mAndroidLayer.transform).odd then
    if layer.srcRect.w = layer.fbRect.h ∧ layer.srcRect.h = layer.fbRect.w then 0 else 1
  else if layer.srcRect.w = layer.fbRect.w ∧ layer.srcRect.h = layer.fbRect.h then 0 else 1

/-- The calls of `composerLayers` one after the other, up to the first that fails.
`composerLayers` is what the last of a number of calls returns. -/
def composeEach (composerLayers : List Composition → Int) :
    List Composition → List Composition → Int × List Composition
  | calls, [] => (0, calls)
  | calls, c :: cs =>
    let ret := composerLayers (calls ++ [c])
    if ret ≠ 0 then (ret, calls ++ [c]) else composeEach composerLayers (calls ++ [c]) cs

namespace SprdUtil

variable (util : SprdUtil) (videoLayerList osdLayerList : List SprdHWLayer)
  (buffer1 buffer2 : Option PrivateHandle)

/-- The check of the parameters in `composerLayerList`. A list that is not empty is not NULL. -/
def accepts : Bool :=
  let videoLayerCount := videoLayerList.length
  let osdLayerCount := osdLayerList.length
  let layerTotal := videoLayerCount + osdLayerCount
  match util.mGspCap with
  | none => false
  | some cap =>
    ¬(layerTotal = 0 ∨
      videoLayerCount = 0 ∧ layerTotal > cap.maxLayerCnt.toNat ∨
      videoLayerCount > 0 ∧ layerTotal > cap.maxLayerCntWithVideo.toNat ∨
      videoLayerCount > cap.maxVideoLayerCnt.toNat ∨
      (videoLayerCount > 0 ∧ osdLayerCount > 0) ∧ cap.blendVideoWithOSD = false ∨
      videoLayerCount > 0 ∧ buffer1 = none ∨
      videoLayerCount = 0 ∧ osdLayerCount > 0 ∧ buffer2 = none ∨
      buffer1 = none ∧ buffer2 = none)

/-- One call: the layer at a place of the list. -/
def layerCall (dstBuffer : Option PrivateHandle) (i : Nat) (layer : SprdHWLayer) : Composition :=
  if i = 0 then ⟨some layer, none, dstBuffer, util.mOutputFormat⟩
  else ⟨none, some layer, dstBuffer, util.mOutputFormat⟩

/-- The calls from the bottom to the top. A single layer is not compared with the screen. -/
def bottomToTop (dstBuffer : Option PrivateHandle) (layerList : List SprdHWLayer) :
    List Composition :=
  if layerList.length = 1 then layerList.mapIdx (util.layerCall dstBuffer)
  else
    match fullScreenCheck layerList util.mFBInfo with
    | (full, l0 :: l1 :: rest) =>
      if needScalingCheck l1 = 0 ∧ full = 1 then
        ⟨some l0, some l1, dstBuffer, util.mOutputFormat⟩ ::
          rest.mapIdx fun i => util.layerCall dstBuffer (i + 2)
      else (l0 :: l1 :: rest).mapIdx (util.layerCall dstBuffer)
    | (_, layerList) => layerList.mapIdx (util.layerCall dstBuffer)

/-- `composerLayerList`: what it returns, and the calls of `composerLayers`. `none` is a store
behind `LayerList[8]`. -/
def composerLayerList (composerLayers : List Composition → Int) :
    Option (Int × List Composition) :=
  let layerTotal := videoLayerList.length + osdLayerList.length
  if ¬util.accepts videoLayerList osdLayerList buffer1 buffer2 then some (-1, [])
  else
    let dstBuffer := if videoLayerList.length > 0 then buffer1 else buffer2
    let layerList := videoLayerList ++ osdLayerList
    if layerTotal > 8 then none
    else
      let processOrder := (layerList.drop 1).any (needScalingCheck · = 1)
      if util.mGspCap.any (·.osdScaling = 0) ∧ processOrder then some (0, [])
      else if ¬processOrder then
        some (composeEach composerLayers [] (util.bottomToTop dstBuffer layerList))
      -- the order from the top to the bottom is not supported
      else some (0, [])

end SprdUtil

/-! ## Pixels -/

/-- The destination of the layer has the pixel. -/
def SprdHWLayer.Covers (p q : Nat) (l : SprdHWLayer) : Prop := l.fbRect.toRect.Contains p q

instance (p q : Nat) (l : SprdHWLayer) : Decidable (l.Covers p q) :=
  inferInstanceAs (Decidable (_ ∧ _))

/-- The layers on one pixel, from the bottom to the top over the background; `none` is a pixel that
was not written, or with what happened to be in the buffer. -/
abbrev Pixel := Option (List SprdHWLayer)

/-- What the GSP makes of a pixel. The first layer of a list alone is put on the background, and two
layers leave as it is what neither of them covers. -/
def Composition.pixel (p q : Nat) (below : Pixel) (c : Composition) : Pixel :=
  match c.l1, c.l2 with
  | some l1, some l2 =>
    if l1.Covers p q ∨ l2.Covers p q then some ([l1, l2].filter (·.Covers p q)) else none
  | some l1, none => some ([l1].filter (·.Covers p q))
  | none, some l2 => if l2.Covers p q then below.map (· ++ [l2]) else below
  | none, none => below

def pixels (calls : List Composition) (p q : Nat) : Pixel :=
  calls.foldl (Composition.pixel p q) none

/-- All pixels of the screen have the layers that cover them, in the order of the list. -/
def Paints (fbInfo : FrameBufferInfo) (layerList : List SprdHWLayer) (calls : List Composition) :
    Prop :=
  ∀ p < fbInfo.width, ∀ q < fbInfo.height,
    pixels calls p q = some (layerList.filter (·.Covers p q))

variable {util : SprdUtil} {dstBuffer : Option PrivateHandle} {layerList : List SprdHWLayer}

/-! ## The check of the screen -/

theorem fullScreenCheck_keepsOrder (hin : ∀ l ∈ layerList, l.OnScreen fbInfo) :
    KeepsOrder SprdHWLayer.Overlaps layerList (fullScreenCheck layerList fbInfo).2 := by
  have hkeep := adjustIndependentLayer_keepsOrder hin
  unfold fullScreenCheck
  simp only
  split
  · exact .refl _
  · split <;> exact hkeep

/-- The two layers for which the check returns 1. -/
theorem cover_of_fullScreenCheck (hin : ∀ l ∈ layerList, l.OnScreen fbInfo)
    (harea : fbInfo.width * fbInfo.height < 2 ^ 32) {rest : List SprdHWLayer}
    (h : fullScreenCheck layerList fbInfo = (1, l :: m :: rest)) :
    Rect.Cover fbInfo.width fbInfo.height l.fbRect.toRect m.fbRect.toRect := by
  have hkeep := fullScreenCheck_keepsOrder hin
  rw [h] at hkeep
  have hl : l.OnScreen fbInfo := hin l (hkeep.mem (by simp))
  have hm : m.OnScreen fbInfo := hin m (hkeep.mem (by simp))
  unfold fullScreenCheck at h
  simp only at h
  split at h
  · rename_i hany
    rw [(Prod.mk.inj h).2] at hany
    exact cover_of_any hl hm hany
  · split at h
    · rename_i hchecks
      rw [(Prod.mk.inj h).2] at hchecks
      exact cover_of_checks harea hl hm hchecks
    · exact absurd (Prod.mk.inj h).1 Int.zero_ne_one

/-! ## The parameters -/

theorem SprdUtil.accepts_of (util : SprdUtil) {cap : GspCapability} (hcap : util.mGspCap = some cap)
    {videoLayerList osdLayerList : List SprdHWLayer} {buffer1 buffer2 : Option PrivateHandle}
    (hpos : 0 < videoLayerList.length + osdLayerList.length)
    (hosd : videoLayerList.length = 0 →
      osdLayerList.length ≤ cap.maxLayerCnt.toNat ∧ buffer2 ≠ none)
    (hvideo : 0 < videoLayerList.length →
      videoLayerList.length + osdLayerList.length ≤ cap.maxLayerCntWithVideo.toNat ∧
      videoLayerList.length ≤ cap.maxVideoLayerCnt.toNat ∧
      (0 < osdLayerList.length → cap.blendVideoWithOSD = true) ∧ buffer1 ≠ none) :
    util.accepts videoLayerList osdLayerList buffer1 buffer2 := by
  simp only [accepts, hcap, decide_eq_true_eq]
  rcases Nat.eq_zero_or_pos videoLayerList.length with hzero | hvideoPos
  · obtain ⟨hmax, hbuffer⟩ := hosd hzero
    rintro (h | ⟨-, h⟩ | ⟨h, -⟩ | h | ⟨⟨h, -⟩, -⟩ | ⟨h, -⟩ | ⟨-, -, h⟩ | ⟨-, h⟩)
    all_goals first | exact hbuffer h | omega
  · obtain ⟨hmax, hmaxVideo, hblend, hbuffer⟩ := hvideo hvideoPos
    rintro (h | ⟨h, -⟩ | ⟨-, h⟩ | h | ⟨⟨-, h⟩, hno⟩ | ⟨-, h⟩ | ⟨h, -⟩ | ⟨h, -⟩)
    case inr.inr.inr.inr.inr.inl =>
      rw [hblend h] at hno
      exact absurd hno (by simp)
    all_goals first | exact hbuffer h | omega

/-! ## What is painted -/

/-- Layers that go over what is there. -/
theorem foldl_layerCall (p q : Nat) (rest : List SprdHWLayer) :
    ∀ (k : Nat) (below : List SprdHWLayer),
      (rest.mapIdx fun i => util.layerCall dstBuffer (i + (k + 1))).foldl
        (Composition.pixel p q) (some below) = some (below ++ rest.filter (·.Covers p q)) := by
  induction rest with
  | nil => intro k below; simp
  | cons l rest ih =>
    intro k below
    have hshift : (fun i => util.layerCall dstBuffer (i + 1 + (k + 1))) =
        fun i => util.layerCall dstBuffer (i + (k + 1 + 1)) := by
      funext i
      rw [Nat.add_right_comm, Nat.add_assoc]
    rw [List.mapIdx_cons, hshift, List.foldl_cons]
    have hcall : util.layerCall dstBuffer (0 + (k + 1)) l =
        ⟨none, some l, dstBuffer, util.mOutputFormat⟩ := by
      simp [SprdUtil.layerCall]
    rw [hcall]
    by_cases hl : l.Covers p q
    · simp only [Composition.pixel, if_pos hl, Option.map_some]
      rw [ih, List.filter_cons_of_pos (by simpa using hl), List.append_assoc, List.singleton_append]
    · simp only [Composition.pixel, if_neg hl]
      rw [ih, List.filter_cons_of_neg (by simpa using hl)]

/-- One layer in each call. -/
theorem pixels_layerCalls (p q : Nat) (hne : layerList ≠ []) :
    pixels (layerList.mapIdx (util.layerCall dstBuffer)) p q =
      some (layerList.filter (·.Covers p q)) := by
  obtain ⟨l, rest, rfl⟩ := List.exists_cons_of_ne_nil hne
  rw [pixels, List.mapIdx_cons, List.foldl_cons]
  have hcall : Composition.pixel p q none (util.layerCall dstBuffer 0 l) =
      some ([l].filter (·.Covers p q)) := rfl
  rw [hcall, foldl_layerCall p q rest 0, ← List.filter_append, List.singleton_append]

/-- The first two layers in one call. -/
theorem pixels_pair {p q : Nat} {rest : List SprdHWLayer} (hcover : l.Covers p q ∨ m.Covers p q) :
    pixels (⟨some l, some m, dstBuffer, util.mOutputFormat⟩ ::
      rest.mapIdx fun i => util.layerCall dstBuffer (i + 2)) p q =
      some ((l :: m :: rest).filter (·.Covers p q)) := by
  rw [pixels, List.foldl_cons]
  have hpair : Composition.pixel p q none ⟨some l, some m, dstBuffer, util.mOutputFormat⟩ =
      some ([l, m].filter (·.Covers p q)) := by
    simp only [Composition.pixel, if_pos hcover]
  rw [hpair, foldl_layerCall p q rest 1, ← List.filter_append]
  rfl

/-- The order that `full_screen_check` leaves, and the step it makes possible, are not seen. -/
theorem paints_bottomToTop (dstBuffer : Option PrivateHandle)
    (hin : ∀ l ∈ layerList, l.OnScreen util.mFBInfo)
    (harea : util.mFBInfo.width * util.mFBInfo.height < 2 ^ 32) (hne : layerList ≠ []) :
    Paints util.mFBInfo layerList (util.bottomToTop dstBuffer layerList) := by
  intro p hp q hq
  unfold SprdUtil.bottomToTop
  by_cases hone : layerList.length = 1
  · rw [if_pos hone]
    exact pixels_layerCalls p q hne
  rw [if_neg hone]
  have hkeep := fullScreenCheck_keepsOrder hin
  have hoverlap : ∀ a b : SprdHWLayer, a.Covers p q → b.Covers p q → a.Overlaps b :=
    fun a b ha hb => ⟨p, q, ha, hb⟩
  rw [hkeep.filter_eq (fun l => decide (l.Covers p q)) (by simpa using hoverlap)]
  have hne' : (fullScreenCheck layerList util.mFBInfo).2 ≠ [] := by
    rw [← List.length_pos_iff, ← hkeep.length_eq]
    exact List.length_pos_iff.mpr hne
  rcases hcheck : fullScreenCheck layerList util.mFBInfo with ⟨full, checked⟩
  rw [hcheck] at hne'
  split
  · rename_i full' l0 l1 rest heq
    obtain ⟨rfl, rfl⟩ := Prod.mk.inj heq
    split
    · rename_i hpair
      obtain ⟨-, rfl⟩ := hpair
      exact pixels_pair (cover_of_fullScreenCheck hin harea hcheck p hp q hq)
    · exact pixels_layerCalls p q hne'
  · rename_i heq
    obtain ⟨rfl, rfl⟩ := Prod.mk.inj heq
    exact pixels_layerCalls p q hne'

/-! ## The calls -/

/-- All calls are made, or the last of them failed. -/
theorem composeEach_spec (composerLayers : List Composition → Int) (cs : List Composition) :
    ∀ calls, composeEach composerLayers calls cs = (0, calls ++ cs) ∨
      (composeEach composerLayers calls cs).1 ≠ 0 ∧ (composeEach composerLayers calls cs).1 =
        composerLayers (composeEach composerLayers calls cs).2 := by
  induction cs with
  | nil => intro calls; simp [composeEach]
  | cons c cs ih =>
    intro calls
    rw [composeEach]
    by_cases hret : composerLayers (calls ++ [c]) = 0
    · simpa [hret] using ih (calls ++ [c])
    · simp [hret]

theorem needScalingCheck_eq (l : SprdHWLayer) :
    needScalingCheck l = 1 ↔ ¬needScalingCheck l = 0 := by
  unfold needScalingCheck
  split <;> split <;> simp

/-- Nothing is on the pixels of the screen. -/
theorem not_paints_nil (hwidth : 0 < fbInfo.width) (hheight : 0 < fbInfo.height) :
    ¬Paints fbInfo layerList [] := by
  intro hpaints
  exact absurd (hpaints 0 hwidth 0 hheight) (by simp [pixels])

/-- `composerLayerList` on parameters that it accepts: it fails only as a call of `composerLayers`
does. If it returns 0, each pixel of the screen has the layers that cover it, each once and in their
order, just if no layer behind the first is to be scaled. -/
theorem composerLayerList_outcome (util : SprdUtil)
    (videoLayerList osdLayerList : List SprdHWLayer) (buffer1 buffer2 : Option PrivateHandle)
    (composerLayers : List Composition → Int)
    (haccept : util.accepts videoLayerList osdLayerList buffer1 buffer2)
    (hcount : videoLayerList.length + osdLayerList.length ≤ 8)
    (hin : ∀ l ∈ videoLayerList ++ osdLayerList, l.OnScreen util.mFBInfo)
    (harea : util.mFBInfo.width * util.mFBInfo.height < 2 ^ 32)
    (hwidth : 0 < util.mFBInfo.width) (hheight : 0 < util.mFBInfo.height) :
    ∃ ret calls, util.composerLayerList videoLayerList osdLayerList buffer1 buffer2
        composerLayers = some (ret, calls) ∧
      (ret ≠ 0 → ret = composerLayers calls) ∧
      (ret = 0 → (Paints util.mFBInfo (videoLayerList ++ osdLayerList) calls ↔
        ∀ l ∈ (videoLayerList ++ osdLayerList).drop 1, needScalingCheck l = 0)) := by
  have hne : videoLayerList ++ osdLayerList ≠ [] := by
    intro hnil
    have hzero : videoLayerList.length + osdLayerList.length = 0 := by
      rw [← List.length_append, hnil, List.length_nil]
    unfold SprdUtil.accepts at haccept
    cases hcap : util.mGspCap <;> simp [hcap, hzero] at haccept
  unfold SprdUtil.composerLayerList
  simp only [haccept, not_true, if_false]
  rw [if_neg (by omega)]
  generalize videoLayerList ++ osdLayerList = layerList at hin hne ⊢
  by_cases hall : ∀ l ∈ layerList.drop 1, needScalingCheck l = 0
  · have hany : (layerList.drop 1).any (needScalingCheck · = 1) = false := by
      rw [List.any_eq_false]
      intro l hl
      simp [hall l hl]
    simp only [hany, Bool.false_eq_true, and_false, if_false, not_false_eq_true, if_true]
    generalize (if videoLayerList.length > 0 then buffer1 else buffer2) = dstBuffer
    have hpaints := paints_bottomToTop dstBuffer hin harea hne
    generalize util.bottomToTop dstBuffer layerList = cs at hpaints
    rcases composeEach_spec composerLayers cs [] with heq | ⟨hfails, hlast⟩
    · rw [heq]
      exact ⟨0, cs, rfl, fun h => absurd rfl h, fun _ => iff_of_true hpaints hall⟩
    · exact ⟨_, _, rfl, fun _ => hlast, fun h => absurd h hfails⟩
  · have hany : (layerList.drop 1).any (needScalingCheck · = 1) = true := by
      obtain ⟨l, hl, hscale⟩ : ∃ l ∈ layerList.drop 1, ¬needScalingCheck l = 0 := by
        simpa only [not_forall, exists_prop] using hall
      rw [List.any_eq_true]
      exact ⟨l, hl, decide_eq_true ((needScalingCheck_eq l).mpr hscale)⟩
    simp only [hany, and_true, not_true, if_false, ite_self]
    exact ⟨0, [], rfl, fun h => absurd rfl h, fun _ =>
      iff_of_false (not_paints_nil hwidth hheight) hall⟩

end SprdHal.Hwc
