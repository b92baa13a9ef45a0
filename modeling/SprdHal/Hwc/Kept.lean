import SprdHal.Hwc.LayerList
import Mathlib.Data.List.Nodup

/-!
# Layers that go back to SurfaceFlinger (`SprdHWLayerList.cpp`)

Between `updateGeometry` and the end of `revisitGeometry` the lists differ from what
`updateGeometry` has left in the layers that went back only (`Kept`). `resetOverlayFlag` keeps this
form with one layer less, and it is all that the loops of `revisitGeometry` need to know.
-/

namespace SprdHal.Hwc

open SprdHWLayerList HwcEnv

namespace SprdHWLayerList

/-- The list of a type. -/
def listOf (s : SprdHWLayerList) : LayerType → List (Option Nat)
  | .osd => s.mOSDLayerList
  | .overlay => s.mVideoLayerList
  | .invalide => []

/-- The counter of a type. -/
def countOf (s : SprdHWLayerList) : LayerType → Int
  | .osd => s.mOSDLayerCount
  | .overlay => s.mVideoLayerCount
  | .invalide => 0

theorem giveBack_mLayerList (s : SprdHWLayerList) (i : Nat) :
    (s.giveBack i).mLayerList = Function.update s.mLayerList i
      { s.mLayerList i with compositionType := .framebuffer } := by
  simp only [giveBack, resetOverlayFlag]
  split
  · rfl
  · split <;> rfl

theorem giveBack_countOf (s : SprdHWLayerList) (i : Nat) {t : LayerType} (ht : t ≠ .invalide) :
    (s.giveBack i).countOf t = s.countOf t -
      if 0 ≤ (s.mLayerList i).mSprdLayerIndex ∧ (s.mLayerList i).sprd.mLayerType = t then 1
      else 0 := by
  simp only [giveBack, resetOverlayFlag]
  by_cases hindex : (s.mLayerList i).mSprdLayerIndex < 0
  · rw [if_pos hindex, if_neg (by omega)]
    cases t <;> simp [countOf]
  · rw [if_neg hindex]
    cases t <;> cases htype : (s.mLayerList i).sprd.mLayerType <;>
      simp_all [countOf, SprdHWLayerList.modify]

end SprdHWLayerList

/-- The lists between `updateGeometry` and the end of `revisitGeometry`: of the layers of both
planes those of `kept` are still there, and the others went back to SurfaceFlinger. -/
structure Kept (env : HwcEnv) (p : Bool) (ls : List AndroidLayer) (kept : Nat → Bool)
    (s : SprdHWLayerList) : Prop where
  layer_eq : ∀ i l, ls[i]? = some l → ∃ a, s.mLayerList i =
    { env.listed ls i l with
      sprd := (env.settled l).setLayerAccelerator a
      compositionType :=
        if env.typeOf l = .invalide ∨ kept i then (env.listed ls i l).compositionType
        else .framebuffer }
  osd_eq : ∀ i l, ls[i]? = some l → env.typeOf l = .osd → (s.mLayerList i).sprd = env.settled l
  list_eq : ∀ t, t ≠ .invalide →
    s.listOf t = (env.places t ls).map fun i => if kept i then some i else none
  count_eq : ∀ t, t ≠ .invalide → s.countOf t = (env.places t ls).countP kept
  fbCount_eq : s.mFBLayerCount + s.mOSDLayerCount + s.mVideoLayerCount =
    (ls.countP env.isFB : Int) - ls.countP env.takesBoth +
      (env.places .osd ls).length + (env.places .overlay ls).length
  yuvCount_eq : s.mYUVLayerCount = ls.countP fun l => !l.layer.skip && isYUVLayer l.layer
  private_eq : s.mPrivateFlag = env.privateFlag p ls

variable {env : HwcEnv} {p : Bool} {ls : List AndroidLayer} {kept : Nat → Bool}
  {s : SprdHWLayerList} {i : Nat} {l : AndroidLayer}

theorem mem_places {t : LayerType} :
    i ∈ env.places t ls ↔ ∃ l, ls[i]? = some l ∧ env.typeOf l = t := by
  simp [places, List.getElem?_eq_some_iff]

theorem nodup_places (env : HwcEnv) (ls : List AndroidLayer) (t : LayerType) :
    (env.places t ls).Nodup := List.nodup_findIdxs

/-- The place of a layer in the list of its type. -/
theorem places_getElem? (env : HwcEnv) (h : ls[i]? = some l) :
    (env.places (env.typeOf l) ls)[(env.places (env.typeOf l) (ls.take i)).length]? = some i := by
  have hi : i < ls.length := (List.getElem?_eq_some_iff.mp h).1
  have hsplit : ls = ls.take i ++ l :: ls.drop (i + 1) := by
    rw [← (List.getElem?_eq_some_iff.mp h).2, ← List.drop_eq_getElem_cons hi, List.take_append_drop]
  have hplaces : env.places (env.typeOf l) ls =
      env.places (env.typeOf l) (ls.take i) ++ i ::
        (ls.drop (i + 1)).findIdxs (fun l' => env.typeOf l' = env.typeOf l) (i + 1) := by
    conv_lhs => rw [places, hsplit, List.findIdxs_append, List.findIdxs_cons]
    simp [places, Nat.min_eq_left hi.le]
  rw [hplaces, List.getElem?_append_right le_rfl]
  simp

/-- A layer of the planes as the lists have it. -/
theorem kept_of_updated {n : Int} (h : env.Updated p n ls s) (hn : n = ls.length) :
    Kept env p ls (fun _ => true) s := by
  refine ⟨fun i l hl => ⟨(env.settled l).mAccelerator, ?_⟩, fun i l hl _ => ?_, ?_, ?_, ?_,
    h.yuvCount_eq, h.private_eq⟩
  · rw [h.layer_eq i l hl]
    simp [listed, SprdHWLayer.setLayerAccelerator]
  · rw [h.layer_eq i l hl]
    rfl
  · rintro (_ | _ | _) ht
    · simpa [listOf] using h.osd_eq
    · simpa [listOf] using h.video_eq
    · exact absurd rfl ht
  · rintro (_ | _ | _) ht
    · simpa [countOf] using h.osdCount_eq
    · simpa [countOf] using h.videoCount_eq
    · exact absurd rfl ht
  · have hcount := countP_isFB env ls
    rw [h.fbCount_eq, h.osdCount_eq, h.videoCount_eq]
    omega

/-- A list in which one more place is empty. -/
theorem map_set_none {xs : List Nat} (hxs : xs.Nodup) {k i : Nat} (hk : xs[k]? = some i)
    (kept : Nat → Bool) :
    (xs.map fun j => if kept j then some j else none).set k none =
      xs.map fun j => if Function.update kept i false j then some j else none := by
  apply List.ext_getElem?
  intro m
  rw [List.getElem?_set, List.getElem?_map, List.getElem?_map, List.length_map]
  obtain ⟨hklt, hki⟩ := List.getElem?_eq_some_iff.mp hk
  by_cases hm : k = m
  · subst hm
    simp [hklt, hki]
  · rw [if_neg hm]
    rcases hx : xs[m]? with _ | j
    · rfl
    · have hj : j ≠ i := by
        rintro rfl
        obtain ⟨hmlt, hmj⟩ := List.getElem?_eq_some_iff.mp hx
        exact hm ((hxs.getElem_inj_iff).mp (hki.trans hmj.symm))
      simp [hj]

theorem countP_update_false {xs : List Nat} (hxs : xs.Nodup) {i : Nat} (hi : i ∈ xs)
    (kept : Nat → Bool) (hk : kept i = true) :
    xs.countP (Function.update kept i false) + 1 = xs.countP kept := by
  induction xs with
  | nil => simp at hi
  | cons j xs ih =>
    obtain ⟨hj, hnodup⟩ := List.nodup_cons.mp hxs
    by_cases hij : i = j
    · subst hij
      have hrest : xs.countP (Function.update kept i false) = xs.countP kept := by
        apply List.countP_congr
        intro m hm
        rw [Function.update_of_ne (by rintro rfl; exact hj hm)]
      simp [hrest, hk]
    · have hmem : i ∈ xs := by simpa [hij] using hi
      have := ih hnodup hmem
      rw [List.countP_cons, List.countP_cons, Function.update_of_ne (Ne.symm hij)]
      omega

/-- A list that a layer does not belong to. -/
theorem countP_update_of_notMem {xs : List Nat} {i : Nat} (hi : i ∉ xs) (kept : Nat → Bool)
    (b : Bool) : xs.countP (Function.update kept i b) = xs.countP kept := by
  apply List.countP_congr
  intro m hm
  rw [Function.update_of_ne (by rintro rfl; exact hi hm)]

theorem map_update_of_notMem {xs : List Nat} {i : Nat} (hi : i ∉ xs) (kept : Nat → Bool)
    (b : Bool) :
    (xs.map fun j => if Function.update kept i b j then some j else none) =
      xs.map fun j => if kept j then some j else none := by
  apply List.map_congr_left
  intro m hm
  rw [Function.update_of_ne (by rintro rfl; exact hi hm)]

theorem notMem_places (hl : ls[i]? = some l) {t : LayerType} (ht : env.typeOf l ≠ t) :
    i ∉ env.places t ls := by
  intro hi
  obtain ⟨l', hl', rfl⟩ := mem_places.mp hi
  rw [hl, Option.some_inj] at hl'
  exact ht (by rw [hl'])

/-- A layer goes back. -/
theorem Kept.giveBack (h : Kept env p ls kept s) (hl : ls[i]? = some l)
    (ht : env.typeOf l ≠ .invalide) (hk : kept i = true) :
    Kept env p ls (Function.update kept i false) (s.giveBack i) := by
  obtain ⟨a, hi⟩ := h.layer_eq i l hl
  have hplace := places_getElem? env hl
  have hmem : i ∈ env.places (env.typeOf l) ls := List.mem_of_getElem? hplace
  have htype : (s.mLayerList i).sprd.mLayerType = env.typeOf l := by rw [hi]; rfl
  have hindex : (s.mLayerList i).mSprdLayerIndex =
      (env.places (env.typeOf l) (ls.take i)).length := by
    rw [hi]
    simp [listed, ht]
  have hcount := countP_update_false (nodup_places _ _ _) hmem _ hk
  have hlayers : ∀ (f : Nat → ListedLayer), f = Function.update s.mLayerList i
        { s.mLayerList i with compositionType := .framebuffer } →
      ∀ j l', ls[j]? = some l' → ∃ a, f j =
        { env.listed ls j l' with
          sprd := (env.settled l').setLayerAccelerator a
          compositionType :=
            if env.typeOf l' = .invalide ∨ Function.update kept i false j then
              (env.listed ls j l').compositionType
            else .framebuffer } := by
    rintro f rfl j l' hl'
    by_cases hj : j = i
    · subst hj
      obtain rfl : l = l' := Option.some_inj.mp (hl.symm.trans hl')
      refine ⟨a, ?_⟩
      simp [hi, ht]
    · obtain ⟨b, hb⟩ := h.layer_eq j l' hl'
      refine ⟨b, ?_⟩
      rw [Function.update_of_ne hj, Function.update_of_ne hj, hb]
  have hsprd : ∀ (f : Nat → ListedLayer), f = Function.update s.mLayerList i
        { s.mLayerList i with compositionType := .framebuffer } →
      ∀ j l', ls[j]? = some l' → env.typeOf l' = .osd → (f j).sprd = env.settled l' := by
    rintro f rfl j l' hl' ht'
    rw [← h.osd_eq j l' hl' ht']
    by_cases hj : j = i
    · rw [hj, Function.update_self]
    · rw [Function.update_of_ne hj]
  have hosd := h.list_eq .osd (by simp)
  have hvideo := h.list_eq .overlay (by simp)
  have hosdCount := h.count_eq .osd (by simp)
  have hvideoCount := h.count_eq .overlay (by simp)
  have hfb := h.fbCount_eq
  simp only [listOf, countOf] at hosd hvideo hosdCount hvideoCount
  simp only [SprdHWLayerList.giveBack, resetOverlayFlag, htype, hindex]
  rw [if_neg (by omega)]
  cases htl : env.typeOf l with
  | osd =>
    rw [htl] at hplace hcount hmem
    have hnot : i ∉ env.places .overlay ls := notMem_places hl (by simp [htl])
    refine ⟨hlayers _ rfl, hsprd _ rfl, ?_, ?_, ?_, h.yuvCount_eq, h.private_eq⟩
    · rintro (_ | _ | _) ht
      · simp only [listOf, SprdHWLayerList.modify, hosd]
        exact map_set_none (nodup_places _ _ _) hplace kept
      · simp only [listOf, SprdHWLayerList.modify, hvideo]
        exact (map_update_of_notMem hnot kept false).symm
      · exact absurd rfl ht
    · rintro (_ | _ | _) ht
      · simp only [countOf, SprdHWLayerList.modify, hosdCount]
        omega
      · simp only [countOf, SprdHWLayerList.modify, hvideoCount]
        rw [countP_update_of_notMem hnot]
      · exact absurd rfl ht
    · simp only [SprdHWLayerList.modify]
      omega
  | overlay =>
    rw [htl] at hplace hcount hmem
    have hnot : i ∉ env.places .osd ls := notMem_places hl (by simp [htl])
    refine ⟨hlayers _ rfl, hsprd _ rfl, ?_, ?_, ?_, h.yuvCount_eq, h.private_eq⟩
    · rintro (_ | _ | _) ht
      · simp only [listOf, SprdHWLayerList.modify, hosd]
        exact (map_update_of_notMem hnot kept false).symm
      · simp only [listOf, SprdHWLayerList.modify, hvideo]
        exact map_set_none (nodup_places _ _ _) hplace kept
      · exact absurd rfl ht
    · rintro (_ | _ | _) ht
      · simp only [countOf, SprdHWLayerList.modify, hosdCount]
        rw [countP_update_of_notMem hnot]
      · simp only [countOf, SprdHWLayerList.modify, hvideoCount]
        omega
      · exact absurd rfl ht
    · simp only [SprdHWLayerList.modify]
      omega
  | invalide => exact absurd htl ht

/-- The accelerator of a video layer changes. -/
theorem Kept.setAccelerator (h : Kept env p ls kept s) (hl : ls[i]? = some l)
    (ht : env.typeOf l = .overlay) (a : Accelerator) :
    Kept env p ls kept (s.modify i fun l => { l with sprd := l.sprd.setLayerAccelerator a }) := by
  refine ⟨fun j l hl => ?_, fun j l' hl' ht' => ?_, ?_, ?_, h.fbCount_eq, h.yuvCount_eq,
    h.private_eq⟩
  · obtain ⟨b, hb⟩ := h.layer_eq j l hl
    by_cases hj : j = i
    · subst hj
      refine ⟨a, ?_⟩
      simp [SprdHWLayerList.modify, hb, SprdHWLayer.setLayerAccelerator]
    · refine ⟨b, ?_⟩
      simp only [SprdHWLayerList.modify]
      rw [Function.update_of_ne hj, hb]
  · have hj : j ≠ i := by
      rintro rfl
      obtain rfl : l = l' := Option.some_inj.mp (hl.symm.trans hl')
      exact absurd (ht.symm.trans ht') (by simp)
    simp only [SprdHWLayerList.modify]
    rw [Function.update_of_ne hj, h.osd_eq j l' hl' ht']
  · rintro (_ | _ | _) ht
    · exact h.list_eq .osd ht
    · exact h.list_eq .overlay ht
    · exact absurd rfl ht
  · rintro (_ | _ | _) ht
    · exact h.count_eq .osd ht
    · exact h.count_eq .overlay ht
    · exact absurd rfl ht

/-- The layer at `i` is one of a plane. -/
theorem Kept.layer (h : Kept env p ls kept s) (hl : ls[i]? = some l)
    (ht : env.typeOf l ≠ .invalide) :
    (s.mLayerList i).initCheck = kept i ∧ (s.mLayerList i).mLayerIndex = i ∧
      (s.mLayerList i).sprd.mProtectedFlag = (env.settled l).mProtectedFlag := by
  obtain ⟨a, hi⟩ := h.layer_eq i l hl
  have hskip : l.layer.skip = false := by
    cases hs : l.layer.skip with
    | false => rfl
    | true => exact absurd (by simp [typeOf_eq, takesOSD, takesVideo, hs]) ht
  rw [hi]
  cases hk : kept i <;>
    simp [ListedLayer.initCheck, listed, ht, hskip, SprdHWLayer.setLayerAccelerator]

/-- The next entry that the loops visit is not NULL. -/
theorem Kept.entry (h : Kept env p ls kept s) {t : LayerType} (ht : t ≠ .invalide)
    {done rest : List Nat} (hplaces : env.places t ls = done ++ i :: rest) (hk : kept i = true) :
    ((s.listOf t)[(env.places t ls).length - (rest.length + 1)]?).join = some i := by
  have hlen : (env.places t ls).length - (rest.length + 1) = done.length := by
    rw [hplaces]
    simp
  rw [h.list_eq t ht, hlen, List.getElem?_map, hplaces]
  simp [hk]

end SprdHal.Hwc
