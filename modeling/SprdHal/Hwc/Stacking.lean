import SprdHal.Hwc.ComposeList
import SprdHal.Hwc.Shown

/-!
# The planes from the bottom to the top (`SprdPrimaryDisplayDevice.cpp`, `SprdUtil.cpp`)

The layers come from the bottom to the top, and `updateGeometry` puts them into two lists.
`composerLayerList` takes one list behind the other, whatever the order was. `revisitGeometry`
leaves the layers to the planes only if no OSD layer is below a video layer, so that the two lists
together are the list that came (`PlanesTakeAll.handed_eq`), and the GSP paints what that list shows
(`planes_paint_iff`).
-/

namespace SprdHal.Hwc

open SprdHWLayerList HwcEnv

namespace SprdHWLayerList

/-- The layers of one of the lists that `commit` hands on, `mVideoLayerCount` or `mOSDLayerCount` of
them. -/
def handed (s : SprdHWLayerList) (t : LayerType) : List SprdHWLayer :=
  ((s.listOf t).take (s.countOf t).toNat).filterMap fun entry =>
    entry.map fun i => (s.mLayerList i).sprd

/-- The call of `composerLayerList` in `commit`. The overlay plane has dequeued its buffer if it has
a layer, and the primary plane if the overlay plane has none. -/
def composePlanes (s : SprdHWLayerList) (util : SprdUtil)
    (overlayBuffer primaryBuffer : PrivateHandle) (composerLayers : List Composition → Int) :
    Option (Int × List Composition) :=
  let displayOverlayPlane := attaches s s.mVideoLayerList s.mVideoLayerCount
  util.composerLayerList (s.handed .overlay) (s.handed .osd)
    (if displayOverlayPlane then some overlayBuffer else none)
    (if displayOverlayPlane then none else some primaryBuffer) composerLayers

end SprdHWLayerList

variable {env : HwcEnv} {cap : GspCapability} {p : Bool} {ls : List AndroidLayer}
  {s : SprdHWLayerList}

/-- The places of the video layers and then those of the OSD layers are all places in order, if no
OSD layer is below a video layer. -/
theorem places_eq_range (hall : ∀ l ∈ ls, env.typeOf l ≠ .invalide)
    (hpair : ls.Pairwise (fun l l' => ¬(env.typeOf l = .osd ∧ env.typeOf l' = .overlay))) :
    env.places .overlay ls ++ env.places .osd ls = List.range ls.length := by
  induction ls using List.reverseRecOn with
  | nil => rfl
  | append_singleton ls l ih =>
    obtain ⟨hpair', -, hlast⟩ := List.pairwise_append.mp hpair
    have hrange := ih (fun l' hl' => hall l' (List.mem_append_left _ hl')) hpair'
    rw [places_append, places_append, List.length_append, List.length_singleton, List.range_succ,
      ← hrange]
    cases ht : env.typeOf l with
    | osd => simp
    | overlay =>
      have hnil : env.places .osd ls = [] := by
        rw [List.eq_nil_iff_forall_not_mem]
        intro i hi
        obtain ⟨l', hl', ht'⟩ := mem_places.mp hi
        exact hlast l' (List.mem_of_getElem? hl') l (List.mem_singleton_self l) ⟨ht', ht⟩
      simp [hnil]
    | invalide => exact absurd ht (hall l (by simp))

/-- The lists of the planes have no gap. -/
theorem Kept.take_listOf (h : Kept env p ls (fun _ => true) s) {t : LayerType}
    (ht : t ≠ .invalide) :
    (s.listOf t).take (s.countOf t).toNat = (env.places t ls).map some := by
  rw [h.list_eq t ht, h.count_eq t ht, List.take_of_length_le (by simp)]
  simp

theorem Kept.handed_eq (h : Kept env p ls (fun _ => true) s) {t : LayerType} (ht : t ≠ .invalide) :
    s.handed t = (env.places t ls).map fun i => (s.mLayerList i).sprd := by
  rw [handed, h.take_listOf ht, List.filterMap_map, ← List.filterMap_eq_map]
  rfl

/-- What the planes have is the list of the layers in its order. -/
theorem PlanesTakeAll.places_eq (h : PlanesTakeAll env cap p ls s)
    (hlost : NoLayerLost ls s .planes) :
    env.places .overlay ls ++ env.places .osd ls = List.range ls.length := by
  obtain ⟨hkept, hcases⟩ := h
  have hall : ∀ l ∈ ls, env.typeOf l ≠ .invalide := by
    have hfb := (noLayerLost_planes_iff hkept).mp hlost
    intro l hl ht
    exact List.countP_eq_zero.mp hfb l hl (isFB_iff.mpr ht)
  refine places_eq_range hall ?_
  rcases hcases with ⟨hnil, -⟩ | ⟨-, hblends⟩
  · rw [List.pairwise_iff_forall_sublist]
    rintro l l' hsub ⟨-, hvideo⟩
    have hmem : l' ∈ env.videoLayers ls := by
      rw [videoLayers, List.mem_filter]
      exact ⟨hsub.subset (by simp), by simpa using hvideo⟩
    rw [hnil] at hmem
    exact absurd hmem (by simp)
  · exact hblends.2.2.1

/-- The two lists that are handed on, one behind the other. -/
theorem PlanesTakeAll.handed_eq (h : PlanesTakeAll env cap p ls s)
    (hlost : NoLayerLost ls s .planes) :
    s.handed .overlay ++ s.handed .osd =
      (List.range ls.length).map fun i => (s.mLayerList i).sprd := by
  rw [h.1.handed_eq (by simp), h.1.handed_eq (by simp), ← List.map_append, h.places_eq hlost]

/-- The overlay plane has a layer if there is a video layer. -/
theorem PlanesTakeAll.attaches_iff (h : PlanesTakeAll env cap p ls s) :
    attaches s s.mVideoLayerList s.mVideoLayerCount = true ↔ env.places .overlay ls ≠ [] := by
  constructor
  · rintro hplane hnil
    have hcount := h.1.count_eq .overlay (by simp)
    simp only [countOf, hnil, List.countP_nil] at hcount
    simp [attaches, hcount] at hplane
  · intro hne
    exact h.1.attaches (t := .overlay) (by simp) (List.head?_eq_some_head hne) rfl

/-- `composerLayerList` accepts what the planes have. -/
theorem PlanesTakeAll.accepts (h : PlanesTakeAll env cap p ls s) (hlost : NoLayerLost ls s .planes)
    (hne : ls ≠ []) (hmax : 0 < cap.maxLayerCnt.toNat) (util : SprdUtil)
    (hutil : util.mGspCap = some cap) (overlayBuffer primaryBuffer : PrivateHandle) :
    util.accepts (s.handed .overlay) (s.handed .osd)
      (if attaches s s.mVideoLayerList s.mVideoLayerCount then some overlayBuffer else none)
      (if attaches s s.mVideoLayerList s.mVideoLayerCount then none else some primaryBuffer) := by
  have htotal : (env.places .overlay ls).length + (env.places .osd ls).length = ls.length := by
    have := congrArg List.length (h.places_eq hlost)
    simpa using this
  have hpos : 0 < ls.length := List.length_pos_iff.mpr hne
  have hvideo : (s.handed .overlay).length = (env.places .overlay ls).length := by
    rw [h.1.handed_eq (by simp), List.length_map]
  have hosd : (s.handed .osd).length = (env.places .osd ls).length := by
    rw [h.1.handed_eq (by simp), List.length_map]
  rcases h.2 with ⟨hnil, hfew⟩ | ⟨hfew, hblends⟩
  · have hplaces : env.places .overlay ls = [] := videoLayers_eq_nil.mp hnil
    have hzero : (env.places .overlay ls).length = 0 := by rw [hplaces, List.length_nil]
    have hplane : attaches s s.mVideoLayerList s.mVideoLayerCount = false := by
      rw [Bool.eq_false_iff]
      exact fun hplane => h.attaches_iff.mp hplane hplaces
    refine util.accepts_of hutil (by omega) (fun _ => ⟨?_, by simp [hplane]⟩) fun hpos => ?_
    · rw [hosd]
      rcases hfew with hone | hgives
      · omega
      · by_contra hlt
        exact hgives (Or.inr (Or.inl (by rw [length_osdLayers]; omega)))
    · omega
  · have hplaces : env.places .overlay ls ≠ [] := by
      intro hnil
      have hlast := hblends.2.1
      rw [videoLayers_eq_nil.mpr hnil] at hlast
      simp at hlast
    have hvideos : 0 < (env.places .overlay ls).length := List.length_pos_iff.mpr hplaces
    have hrefuses := mt (Revisit.refuses_iff cap h.1).mp (by simp [hblends.1])
    obtain ⟨-, hosdCount, -⟩ := h.1.fbCount_of_all
    rw [length_videoLayers] at hfew
    refine util.accepts_of hutil (by omega) (fun hnone => ?_) fun _ =>
      ⟨by omega, by omega, fun hosdPos => ?_, by simp [h.attaches_iff.mpr hplaces]⟩
    · omega
    · by_contra hblend
      exact hrefuses (Or.inr (Or.inl ⟨by simpa using hblend, by omega⟩))

end SprdHal.Hwc
