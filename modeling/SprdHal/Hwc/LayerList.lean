import SprdHal.Hwc.Layer
import Mathlib.Data.List.Range
import Mathlib.Logic.Function.Basic

/-!
# The layer list of the hardware composer (`SprdHWLayerList.cpp`, `SprdPrimaryDisplayDevice.cpp`)

`updateGeometry` takes each layer for the OSD plane, for the video plane or for neither, and
`revisitGeometry` gives back to SurfaceFlinger what the GSP cannot blend. `attachToDisplayPlane` and
`commit` then show either the planes, or what the overlay composer makes of the layers, or the
framebuffer target. The lists are kept as the code keeps them: arrays with NULL in the place of a
layer that was given back, and counters beside them.
-/

namespace SprdHal.Hwc

/-! ## Data -/

/-- `compositionType` of a layer that is not the framebuffer target. -/
inductive CompositionType
  | framebuffer | overlay | other
  deriving DecidableEq, Repr

/-- A layer of `hwc_display_contents_1_t`. -/
structure AndroidLayer where
  layer : HwcLayer
  compositionType : CompositionType
  deriving DecidableEq

/-- `SprdHWLayer` with its places in the lists. -/
structure ListedLayer where
  sprd : SprdHWLayer
  compositionType : CompositionType
  mLayerIndex : Int
  mSprdLayerIndex : Int
  deriving DecidableEq

namespace ListedLayer

/-- `setAndroidLayer` of a new `SprdHWLayer` -/
def new (l : AndroidLayer) : ListedLayer := ⟨.new l.layer, l.compositionType, -1, -1⟩

/-- `InitCheck` -/
def initCheck (l : ListedLayer) : Bool := l.compositionType = .overlay

end ListedLayer

/-- `SprdHWLayerList`. An entry of `mOSDLayerList` and of `mVideoLayerList` is a place in
`mLayerList` or NULL; `mPrivateFlag` is its first entry. -/
structure SprdHWLayerList where
  mLayerList : Nat → ListedLayer
  mOSDLayerList : List (Option Nat)
  mVideoLayerList : List (Option Nat)
  mYUVLayerCount : Nat
  mOSDLayerCount : Int
  mVideoLayerCount : Int
  mFBLayerCount : Int
  mSkipLayerFlag : Bool
  mPrivateFlag : Bool

namespace SprdHWLayerList

def modify (s : SprdHWLayerList) (i : Nat) (f : ListedLayer → ListedLayer) : SprdHWLayerList :=
  { s with mLayerList := Function.update s.mLayerList i (f (s.mLayerList i)) }

section Modify

variable (s : SprdHWLayerList) (i : Nat) (f : ListedLayer → ListedLayer)

@[simp] theorem modify_mOSDLayerList : (s.modify i f).mOSDLayerList = s.mOSDLayerList := rfl

@[simp] theorem modify_mVideoLayerList : (s.modify i f).mVideoLayerList = s.mVideoLayerList := rfl

@[simp] theorem modify_mOSDLayerCount : (s.modify i f).mOSDLayerCount = s.mOSDLayerCount := rfl

@[simp] theorem modify_mVideoLayerCount : (s.modify i f).mVideoLayerCount = s.mVideoLayerCount := rfl

@[simp] theorem modify_mFBLayerCount : (s.modify i f).mFBLayerCount = s.mFBLayerCount := rfl

end Modify

/-- `list[index] = i` in an array that is filled up to its length. -/
def store (list : List (Option Nat)) (index i : Nat) : List (Option Nat) :=
  if index < list.length then list.set index (some i) else list ++ [some i]

/-- `setOverlayFlag` -/
def setOverlayFlag (s : SprdHWLayerList) (i : Nat) : SprdHWLayerList :=
  match (s.mLayerList i).sprd.mLayerType with
  | .osd =>
    { s.modify i fun l =>
        { l with
          compositionType := .overlay, mSprdLayerIndex := s.mOSDLayerCount, mLayerIndex := i }
      with
      mOSDLayerList := store s.mOSDLayerList s.mOSDLayerCount.toNat i
      mOSDLayerCount := s.mOSDLayerCount + 1 }
  | .overlay =>
    { s.modify i fun l =>
        { l with
          compositionType := .overlay, mSprdLayerIndex := s.mVideoLayerCount, mLayerIndex := i }
      with
      mVideoLayerList := store s.mVideoLayerList s.mVideoLayerCount.toNat i
      mVideoLayerCount := s.mVideoLayerCount + 1 }
  | .invalide => s.modify i fun l => { l with mLayerIndex := i }

/-- `resetOverlayFlag` -/
def resetOverlayFlag (s : SprdHWLayerList) (i : Nat) : SprdHWLayerList :=
  let l := s.mLayerList i
  let s := s.modify i fun l => { l with compositionType := .framebuffer }
  if l.mSprdLayerIndex < 0 then s
  else
    match l.sprd.mLayerType with
    | .osd =>
      { s with
        mOSDLayerList := s.mOSDLayerList.set l.mSprdLayerIndex.toNat none
        mOSDLayerCount := s.mOSDLayerCount - 1 }
    | .overlay =>
      { s with
        mVideoLayerList := s.mVideoLayerList.set l.mSprdLayerIndex.toNat none
        mVideoLayerCount := s.mVideoLayerCount - 1 }
    | .invalide => s

/-- `resetOverlayFlag` and `mFBLayerCount++` -/
def giveBack (s : SprdHWLayerList) (i : Nat) : SprdHWLayerList :=
  { s.resetOverlayFlag i with mFBLayerCount := s.mFBLayerCount + 1 }

end SprdHWLayerList

open SprdHWLayerList

/-! ## `updateGeometry` -/

namespace HwcEnv

variable (env : HwcEnv)

/-- `prepareVideoLayer` counts the layer in `mYUVLayerCount`. -/
def isYUVLayer (l : HwcLayer) : Bool := l.handle.any fun h => h.format.isYUV || h.isProtected

/-- `prepareOSDLayer` for the layer at `i`, with what it counts. -/
def listOSDLayer (s : SprdHWLayerList) (i : Nat) : SprdHWLayerList :=
  let r := env.prepareOSDLayer (s.mLayerList i).sprd
  { s.modify i fun l => { l with sprd := r.layer } with
    mFBLayerCount := if r.taken then s.mFBLayerCount - 1 else s.mFBLayerCount
    mPrivateFlag := if r.taken then r.layer.mAccelerator = .overlayComposer else s.mPrivateFlag
    mSkipLayerFlag := r.skip || s.mSkipLayerFlag }

/-- `prepareVideoLayer` for the layer at `i`, with what it counts. -/
def listVideoLayer (s : SprdHWLayerList) (i : Nat) : SprdHWLayerList :=
  let l := (s.mLayerList i).sprd
  let r := env.prepareVideoLayer l
  { s.modify i fun l => { l with sprd := r.layer } with
    mFBLayerCount := if r.taken then s.mFBLayerCount - 1 else s.mFBLayerCount
    mYUVLayerCount :=
      if isYUVLayer l.mAndroidLayer then s.mYUVLayerCount + 1 else s.mYUVLayerCount }

/-- The layer at `i` of `updateGeometry`. -/
def updateLayer (s : SprdHWLayerList) (i : Nat) (l : AndroidLayer) : SprdHWLayerList :=
  let s := s.modify i fun _ => .new l
  if l.layer.skip then { s with mSkipLayerFlag := true }
  else (env.listVideoLayer (env.listOSDLayer (s.resetOverlayFlag i) i) i).setOverlayFlag i

/-- The loop of `updateGeometry` from `i` on. -/
def updateLoop (i : Nat) : List AndroidLayer → SprdHWLayerList → SprdHWLayerList
  | [], s => s
  | l :: ls, s => updateLoop (i + 1) ls (env.updateLayer s i l)

/-- `updateGeometry` for the layers in front of the framebuffer target. `mPrivateFlag` is what the
list before has left. -/
def updateGeometry (mPrivateFlag : Bool) (ls : List AndroidLayer) : SprdHWLayerList :=
  env.updateLoop 0 ls
    { mLayerList := fun _ => .new ⟨⟨true, none, 0, false, ⟨0, 0, 0, 0⟩, ⟨0, 0, 0, 0⟩⟩, .other⟩
      mOSDLayerList := []
      mVideoLayerList := []
      mYUVLayerCount := 0
      mOSDLayerCount := 0
      mVideoLayerCount := 0
      mFBLayerCount := ls.length
      mSkipLayerFlag := false
      mPrivateFlag := mPrivateFlag }

end HwcEnv

/-! ### What `updateGeometry` leaves -/

namespace HwcEnv

variable (env : HwcEnv)

/-- A layer behind `prepareOSDLayer`. -/
def osdPrepared (l : HwcLayer) : Prepared := env.prepareOSDLayer (.new l)

/-- A layer behind both functions. -/
def videoPrepared (l : HwcLayer) : Prepared := env.prepareVideoLayer (env.osdPrepared l).layer

/-- `prepareOSDLayer` takes the layer. -/
def takesOSD (l : AndroidLayer) : Bool := !l.layer.skip && (env.osdPrepared l.layer).taken

/-- `prepareVideoLayer` takes the layer. -/
def takesVideo (l : AndroidLayer) : Bool := !l.layer.skip && (env.videoPrepared l.layer).taken

/-- The layer as the list has it. -/
def settled (l : AndroidLayer) : SprdHWLayer :=
  if l.layer.skip then .new l.layer else (env.videoPrepared l.layer).layer

def typeOf (l : AndroidLayer) : LayerType := (env.settled l).mLayerType

theorem typeOf_eq (l : AndroidLayer) :
    env.typeOf l =
      if env.takesVideo l then .overlay else if env.takesOSD l then .osd else .invalide := by
  unfold typeOf settled takesVideo takesOSD
  by_cases hskip : l.layer.skip = true
  · simp [hskip, SprdHWLayer.new]
  · have hosd : (env.osdPrepared l.layer).layer.mLayerType =
        if (env.osdPrepared l.layer).taken then .osd else .invalide :=
      (env.prepareOSDLayer_takes (.new l.layer)).type_eq
    have hvideo : (env.videoPrepared l.layer).layer.mLayerType =
        if (env.videoPrepared l.layer).taken then .overlay
          else (env.osdPrepared l.layer).layer.mLayerType :=
      (env.prepareVideoLayer_takes (env.osdPrepared l.layer).layer).type_eq
    simp [hskip, hvideo, hosd]

theorem settled_mAndroidLayer (l : AndroidLayer) :
    (env.settled l).mAndroidLayer = l.layer := by
  unfold settled
  split
  · rfl
  · exact (env.prepareVideoLayer_takes _).android.trans (env.prepareOSDLayer_takes _).android

/-- The places of the layers of a type. -/
def places (t : LayerType) (ls : List AndroidLayer) : List Nat :=
  ls.findIdxs fun l => env.typeOf l = t

/-- The layer at `i` with its places in the lists. -/
def listed (ls : List AndroidLayer) (i : Nat) (l : AndroidLayer) : ListedLayer where
  sprd := env.settled l
  compositionType :=
    if l.layer.skip then l.compositionType
    else if env.typeOf l = .invalide then .framebuffer else .overlay
  mLayerIndex := if l.layer.skip then -1 else i
  mSprdLayerIndex :=
    if env.typeOf l = .invalide then -1 else (env.places (env.typeOf l) (ls.take i)).length

/-- `mPrivateFlag[0]` behind the layers: the last layer that was taken for the OSD plane decides. -/
def privateFlag (mPrivateFlag : Bool) (ls : List AndroidLayer) : Bool :=
  match (ls.filter env.takesOSD).getLast? with
  | some l => (env.osdPrepared l.layer).layer.mAccelerator = .overlayComposer
  | none => mPrivateFlag

/-- The lists and the counters behind the layers `ls`, with `total` layers to begin with. -/
structure Updated (mPrivateFlag : Bool) (total : Int) (ls : List AndroidLayer)
    (s : SprdHWLayerList) : Prop where
  layer_eq : ∀ i l, ls[i]? = some l → s.mLayerList i = env.listed ls i l
  osd_eq : s.mOSDLayerList = (env.places .osd ls).map some
  video_eq : s.mVideoLayerList = (env.places .overlay ls).map some
  osdCount_eq : s.mOSDLayerCount = (env.places .osd ls).length
  videoCount_eq : s.mVideoLayerCount = (env.places .overlay ls).length
  fbCount_eq : s.mFBLayerCount = total - ls.countP env.takesOSD - ls.countP env.takesVideo
  yuvCount_eq : s.mYUVLayerCount = ls.countP fun l => !l.layer.skip && isYUVLayer l.layer
  private_eq : s.mPrivateFlag = env.privateFlag mPrivateFlag ls

variable {env} {ls : List AndroidLayer} {s : SprdHWLayerList} {p : Bool} {total : Int}

theorem places_append (t : LayerType) (ls : List AndroidLayer) (l : AndroidLayer) :
    env.places t (ls ++ [l]) =
      env.places t ls ++ if env.typeOf l = t then [ls.length] else [] := by
  simp [places, List.findIdxs_append, List.findIdxs_cons]

theorem listed_append (ls : List AndroidLayer) (l' : AndroidLayer) {i : Nat} (hi : i ≤ ls.length)
    (l : AndroidLayer) : env.listed (ls ++ [l']) i l = env.listed ls i l := by
  simp [listed, List.take_append_of_le_length hi]

theorem privateFlag_append (p : Bool) (ls : List AndroidLayer) (l : AndroidLayer) :
    env.privateFlag p (ls ++ [l]) =
      if env.takesOSD l then
        decide ((env.osdPrepared l.layer).layer.mAccelerator = .overlayComposer)
      else env.privateFlag p ls := by
  unfold privateFlag
  by_cases h : env.takesOSD l <;> simp [h]

/-- The state behind a layer that is not skipped, before its flag is set. -/
theorem listVideoLayer_eq (s : SprdHWLayerList) (i : Nat) (l : AndroidLayer)
    (hskip : l.layer.skip = false) :
    env.listVideoLayer
        (env.listOSDLayer ((s.modify i fun _ => .new l).resetOverlayFlag i) i) i =
      { s with
        mLayerList := Function.update s.mLayerList i ⟨env.settled l, .framebuffer, -1, -1⟩
        mFBLayerCount := s.mFBLayerCount - (if env.takesOSD l then 1 else 0) -
          if env.takesVideo l then 1 else 0
        mYUVLayerCount := s.mYUVLayerCount + if isYUVLayer l.layer then 1 else 0
        mPrivateFlag :=
          if env.takesOSD l then (env.osdPrepared l.layer).layer.mAccelerator = .overlayComposer
          else s.mPrivateFlag
        mSkipLayerFlag := (env.osdPrepared l.layer).skip || s.mSkipLayerFlag } := by
  have hosd : env.prepareOSDLayer (.new l.layer) = env.osdPrepared l.layer := rfl
  have hvideo : env.prepareVideoLayer (env.osdPrepared l.layer).layer = env.videoPrepared l.layer :=
    rfl
  have handroid : (env.osdPrepared l.layer).layer.mAndroidLayer = l.layer :=
    (env.prepareOSDLayer_takes _).android
  simp only [listVideoLayer, listOSDLayer, resetOverlayFlag, SprdHWLayerList.modify,
    ListedLayer.new, Function.update_self, Function.update_idem, takesOSD, takesVideo, settled,
    hskip]
  have hminus : ∀ (taken : Bool) (count : Int),
      (if taken then count - 1 else count) = count - if taken then 1 else 0 := by
    intro taken count
    cases taken <;> simp
  cases hyuv : isYUVLayer l.layer <;> simp [hosd, hvideo, handroid, hminus, hyuv]

/-- One more layer. -/
theorem Updated.updateLayer (h : env.Updated p total ls s) (l : AndroidLayer) :
    env.Updated p total (ls ++ [l]) (env.updateLayer s ls.length l) := by
  have hold : ∀ (f : Nat → ListedLayer) (x : ListedLayer),
      f = Function.update s.mLayerList ls.length x → env.listed ls ls.length l = x →
      ∀ i l', (ls ++ [l])[i]? = some l' → f i = env.listed (ls ++ [l]) i l' := by
    rintro f x rfl hx i l' hl'
    rcases Nat.lt_trichotomy i ls.length with hi | rfl | hi
    · rw [List.getElem?_append_left hi] at hl'
      rw [Function.update_of_ne hi.ne, listed_append ls l hi.le]
      exact h.layer_eq i l' hl'
    · rw [List.getElem?_concat_length, Option.some_inj] at hl'
      rw [Function.update_self, ← hl', listed_append ls l le_rfl, hx]
    · rw [List.getElem?_eq_none (by simpa [Nat.succ_le_iff] using hi)] at hl'
      exact absurd hl' (by simp)
  by_cases hskip : l.layer.skip = true
  · have hosd : env.takesOSD l = false := by simp [takesOSD, hskip]
    have hvideo : env.takesVideo l = false := by simp [takesVideo, hskip]
    have htype : env.typeOf l = .invalide := by simp [typeOf_eq, hosd, hvideo]
    simp only [HwcEnv.updateLayer, hskip, if_true]
    refine ⟨hold _ _ rfl ?_, ?_, ?_, ?_, ?_, ?_, ?_, ?_⟩
    · simp [listed, hskip, htype, ListedLayer.new, settled]
    · simp [SprdHWLayerList.modify, places_append, htype, h.osd_eq]
    · simp [SprdHWLayerList.modify, places_append, htype, h.video_eq]
    · simp [SprdHWLayerList.modify, places_append, htype, h.osdCount_eq]
    · simp [SprdHWLayerList.modify, places_append, htype, h.videoCount_eq]
    · simp [SprdHWLayerList.modify, hosd, hvideo, h.fbCount_eq]
    · simp [SprdHWLayerList.modify, hskip, h.yuvCount_eq]
    · simp [SprdHWLayerList.modify, privateFlag_append, hosd, h.private_eq]
  · have hskip : l.layer.skip = false := by simpa using hskip
    have hfb : s.mFBLayerCount - (if env.takesOSD l then 1 else 0) -
        (if env.takesVideo l then 1 else 0) =
        total - (ls ++ [l]).countP env.takesOSD - (ls ++ [l]).countP env.takesVideo := by
      rw [h.fbCount_eq, List.countP_append, List.countP_append, List.countP_singleton,
        List.countP_singleton]
      push_cast
      omega
    have hyuv : s.mYUVLayerCount + (if isYUVLayer l.layer then 1 else 0) =
        (ls ++ [l]).countP fun l => !l.layer.skip && isYUVLayer l.layer := by
      rw [h.yuvCount_eq, List.countP_append, List.countP_singleton]
      simp [hskip]
    have hprivate : env.privateFlag p (ls ++ [l]) = _ := privateFlag_append p ls l
    rw [← h.private_eq] at hprivate
    simp only [HwcEnv.updateLayer, hskip, Bool.false_eq_true, if_false]
    rw [listVideoLayer_eq s ls.length l hskip]
    cases htype : env.typeOf l with
    | osd =>
      have htype' : (env.settled l).mLayerType = .osd := htype
      simp only [setOverlayFlag, Function.update_self, htype', SprdHWLayerList.modify,
        Function.update_idem, h.osd_eq, h.osdCount_eq]
      refine ⟨hold _ _ rfl ?_, ?_, ?_, ?_, ?_, hfb, hyuv, hprivate.symm⟩
      · simp [listed, hskip, htype]
      · simp [places_append, htype, store]
      · simp [places_append, htype, h.video_eq]
      · simp [places_append, htype]
      · simp [places_append, htype, h.videoCount_eq]
    | overlay =>
      have htype' : (env.settled l).mLayerType = .overlay := htype
      simp only [setOverlayFlag, Function.update_self, htype', SprdHWLayerList.modify,
        Function.update_idem, h.video_eq, h.videoCount_eq]
      refine ⟨hold _ _ rfl ?_, ?_, ?_, ?_, ?_, hfb, hyuv, hprivate.symm⟩
      · simp [listed, hskip, htype]
      · simp [places_append, htype, h.osd_eq]
      · simp [places_append, htype, store]
      · simp [places_append, htype, h.osdCount_eq]
      · simp [places_append, htype]
    | invalide =>
      have htype' : (env.settled l).mLayerType = .invalide := htype
      simp only [setOverlayFlag, Function.update_self, htype', SprdHWLayerList.modify,
        Function.update_idem]
      refine ⟨hold _ _ rfl ?_, ?_, ?_, ?_, ?_, hfb, hyuv, hprivate.symm⟩
      · simp [listed, hskip, htype]
      · simp [places_append, htype, h.osd_eq]
      · simp [places_append, htype, h.video_eq]
      · simp [places_append, htype, h.osdCount_eq]
      · simp [places_append, htype, h.videoCount_eq]

theorem updateLoop_append (i : Nat) (ls : List AndroidLayer) (l : AndroidLayer)
    (s : SprdHWLayerList) :
    env.updateLoop i (ls ++ [l]) s = env.updateLayer (env.updateLoop i ls s) (i + ls.length) l := by
  induction ls generalizing i s with
  | nil => rfl
  | cons l' ls ih =>
    rw [List.cons_append, updateLoop, ih, updateLoop, List.length_cons]
    congr 1
    omega

theorem Updated.updateLoop (h : env.Updated p total [] s) (ls : List AndroidLayer) :
    env.Updated p total ls (env.updateLoop 0 ls s) := by
  induction ls using List.reverseRecOn with
  | nil => exact h
  | append_singleton ls l ih =>
    rw [updateLoop_append, Nat.zero_add]
    exact ih.updateLayer l

/-- A layer that neither function takes. -/
def isFB (env : HwcEnv) (l : AndroidLayer) : Bool := !env.takesOSD l && !env.takesVideo l

/-- A layer that both functions take. -/
def takesBoth (env : HwcEnv) (l : AndroidLayer) : Bool := env.takesOSD l && env.takesVideo l

theorem countP_isFB (env : HwcEnv) (ls : List AndroidLayer) :
    ls.countP env.isFB + ls.countP env.takesOSD + ls.countP env.takesVideo =
      ls.length + ls.countP env.takesBoth := by
  induction ls with
  | nil => rfl
  | cons l ls ih =>
    simp only [List.countP_cons, List.length_cons]
    rcases hosd : env.takesOSD l <;> rcases hvideo : env.takesVideo l <;>
      simp [isFB, takesBoth, hosd, hvideo] <;> omega

/-- The lists hold the layers of their type in order, and each layer its place in its list. But a
layer that both functions take is left out of `mFBLayerCount` twice. -/
theorem updateGeometry_lists (env : HwcEnv) (p : Bool) (ls : List AndroidLayer) :
    env.Updated p ls.length ls (env.updateGeometry p ls) ∧
      (env.updateGeometry p ls).mFBLayerCount =
        (ls.countP env.isFB : Int) - ls.countP env.takesBoth := by
  have h : env.Updated p ls.length ls (env.updateGeometry p ls) := by
    refine Updated.updateLoop ?_ ls
    exact ⟨fun i l hl => by simp at hl, rfl, rfl, rfl, rfl, by simp, rfl, rfl⟩
  refine ⟨h, ?_⟩
  have hcount := countP_isFB env ls
  rw [h.fbCount_eq]
  omega

end HwcEnv

/-! ## `revisitGeometry` -/

/-- The variables of `revisitGeometry`. -/
structure Revisit where
  list : SprdHWLayerList
  yuvLayer : Option Nat
  rgbLayer : Option Nat
  accelerateVideoByGSP : Bool
  accelerateOSDByOVC : Bool
  singleRGBLayerCond : Bool

namespace Revisit

def setLayerAccelerator (v : Revisit) (i : Nat) (a : Accelerator) : Revisit :=
  { v with list := v.list.modify i fun l => { l with sprd := l.sprd.setLayerAccelerator a } }

/-- The video layer at `entry`, of `count` ones. -/
def visitVideo (cap : GspCapability) (count : Int) (v : Revisit) (entry : Nat) : Revisit :=
  let l := v.list.mLayerList entry
  if ¬l.initCheck then v
  else if count > cap.maxVideoLayerCnt.toNat then { v with list := v.list.giveBack entry }
  else if v.list.mFBLayerCount > 0 ∨ cap.blendVideoWithOSD = false ∧ v.list.mOSDLayerCount > 0 ∨
      count + v.list.mOSDLayerCount > cap.maxLayerCntWithVideo.toNat then
    { v.setLayerAccelerator entry .overlayComposer with
      yuvLayer := some entry, accelerateVideoByGSP := false }
  else { v with yuvLayer := some entry, accelerateVideoByGSP := l.sprd.mAccelerator.isGXP }

/-- The OSD layer at `entry`. -/
def visitOSD (cap : GspCapability) (layerCount : Nat) (v : Revisit) (entry : Nat) : Revisit :=
  let l := v.list.mLayerList entry
  if ¬l.initCheck then v
  else if v.list.mPrivateFlag ∧ v.list.mVideoLayerCount = 0 ∧ v.list.mOSDLayerCount > 0 then
    { v with list := v.list.giveBack entry, rgbLayer := some entry }
  else
    let ovc : Bool := l.sprd.mAccelerator = .overlayComposer
    let v := { v with accelerateOSDByOVC := ovc, rgbLayer := some entry }
    if l.mLayerIndex = 0 ∧ layerCount = 2 then { v with singleRGBLayerCond := true }
    else
      let above : Bool := match v.yuvLayer with
        | some y => (v.list.mLayerList y).mLayerIndex < l.mLayerIndex
        | none => false
      let v := match v.yuvLayer with
        | some y =>
          if above then v
          else { v.setLayerAccelerator y .overlayComposer with accelerateVideoByGSP := false }
        | none => v
      let resetOSDLayerCond : Prop :=
        above ∧ v.list.mOSDLayerCount + v.list.mVideoLayerCount >
          (cap.maxLayerCntWithVideo.toNat : Int) ∨
        ¬above ∧ (v.list.mOSDLayerCount > (cap.maxLayerCnt.toNat : Int) ∨
          v.list.mOSDLayerCount > 0 ∧ v.list.mFBLayerCount > 0 ∨ ovc)
      if resetOSDLayerCond then { v with list := v.list.giveBack entry, rgbLayer := none }
      else match v.yuvLayer with
        | some y =>
          if ovc then
            { v.setLayerAccelerator y .overlayComposer with accelerateVideoByGSP := false }
          else v
        | none => v

/-- The loop over the video layers, with `n` of `count` still to visit; none where the code
dereferences NULL. -/
def videoLoop (cap : GspCapability) (count : Nat) : Nat → Revisit → Option Revisit
  | 0, v => some v
  | n + 1, v => do
    let entry ← (v.list.mVideoLayerList[count - (n + 1)]?).join
    videoLoop cap count n (v.visitVideo cap count entry)

/-- The loop over the OSD layers, which ends at a single layer. -/
def osdLoop (cap : GspCapability) (layerCount count : Nat) : Nat → Revisit → Option Revisit
  | 0, v => some v
  | n + 1, v => do
    let entry ← (v.list.mOSDLayerList[count - (n + 1)]?).join
    let v := v.visitOSD cap layerCount entry
    if v.singleRGBLayerCond then some v else osdLoop cap layerCount count n v

end Revisit

namespace SprdHWLayerList

/-- A layer of the list for which the overlay composer is forced. -/
def forceLayer (s : SprdHWLayerList) (j : Nat) : SprdHWLayerList :=
  let l := s.mLayerList j
  if l.sprd.mAndroidLayer.skip ∨ l.compositionType ≠ .framebuffer then s
  else
    let s := s.modify j fun l =>
      { l with sprd :=
          if l.sprd.checkRGBLayerFormat then l.sprd.setLayerType .osd
          else if l.sprd.checkYUVLayerFormat then l.sprd.setLayerType .overlay
          else l.sprd }
    { s.setOverlayFlag j with mFBLayerCount := s.mFBLayerCount - 1 }

/-- A layer of the list which goes back to SurfaceFlinger. -/
def releaseLayer (s : SprdHWLayerList) (j : Nat) : SprdHWLayerList :=
  if (s.mLayerList j).initCheck then s.giveBack j else s

/-- `revisitOverlayComposerLayer` for `n` layers, and whether it sets
`HWC_DISPLAY_OVERLAY_COMPOSER_GPU`. -/
def revisitOverlayComposerLayer (s : SprdHWLayerList) (yuvLayer : Nat) (n : Nat) :
    SprdHWLayerList × Bool :=
  let isProtected := (s.mLayerList yuvLayer).sprd.mProtectedFlag
  let skip :=
    if s.mYUVLayerCount > 1 then true
    else if s.mYUVLayerCount = 1 ∧ ¬isProtected then true
    else if isProtected then false
    else s.mSkipLayerFlag
  if skip then
    ({ (List.range n).foldl releaseLayer s with mSkipLayerFlag := false }, false)
  else ({ (List.range n).foldl forceLayer s with mSkipLayerFlag := false }, true)

/-- `revisitGeometry` for `n` layers in front of the framebuffer target. -/
def revisitGeometry (cap : GspCapability) (n : Nat) (s : SprdHWLayerList) :
    Option (SprdHWLayerList × Bool) := do
  let v ← Revisit.videoLoop cap s.mVideoLayerCount.toNat s.mVideoLayerCount.toNat
    ⟨s, none, none, false, false, false⟩
  let v ← v.osdLoop cap (n + 1) v.list.mOSDLayerCount.toNat v.list.mOSDLayerCount.toNat
  match v.yuvLayer, v.accelerateVideoByGSP with
  | some y, false => some (v.list.revisitOverlayComposerLayer y n)
  | _, _ =>
    match v.rgbLayer with
    | some r =>
      if v.singleRGBLayerCond ∧ v.accelerateOSDByOVC then
        some ((v.list.modify r fun l =>
          { l with sprd := l.sprd.resetAccelerator }).giveBack r, false)
      else some (v.list, false)
    | none => some (v.list, false)

end SprdHWLayerList

/-! ## `attachToDisplayPlane` and `commit` -/

/-- The bits of `mHWCDisplayFlag`. -/
structure DisplayFlag where
  framebufferTarget : Bool
  primaryPlane : Bool
  overlayPlane : Bool
  overlayComposerGPU : Bool
  deriving DecidableEq

/-- What `commit` shows. -/
inductive Shown
  | framebufferTarget | planes | overlayComposer
  deriving DecidableEq, Repr

/-- The first layer of a list is attached to its plane. -/
def attaches (s : SprdHWLayerList) (list : List (Option Nat)) (count : Int) : Bool :=
  count > 0 ∧ list.head?.join.any fun i => (s.mLayerList i).initCheck

/-- `attachToDisplayPlane` -/
def attachToDisplayPlane (s : SprdHWLayerList) (gpu : Bool) : DisplayFlag :=
  let primary := attaches s s.mOSDLayerList s.mOSDLayerCount
  let overlay := attaches s s.mVideoLayerList s.mVideoLayerCount
  if gpu then ⟨false, false, false, true⟩
  else if s.mFBLayerCount > 0 then ⟨true, primary, overlay, false⟩
  else ⟨false, primary, overlay, false⟩

/-- The `switch` of `commit`. Without a case of its own, or with the framebuffer target among them,
the target is posted and nothing else. -/
def shown : DisplayFlag → Shown
  | ⟨false, true, _, false⟩ => .planes
  | ⟨false, false, true, false⟩ => .planes
  | ⟨false, false, false, true⟩ => .overlayComposer
  | _ => .framebufferTarget

/-- `SprdPrimaryDisplayDevice::prepare` and what `commit` makes of it. -/
def HwcEnv.prepare (env : HwcEnv) (mPrivateFlag : Bool) (ls : List AndroidLayer) :
    Option (SprdHWLayerList × Shown) := do
  let cap ← env.mPData
  let (s, gpu) ← (env.updateGeometry mPrivateFlag ls).revisitGeometry cap ls.length
  some (s, shown (attachToDisplayPlane s gpu))

end SprdHal.Hwc
