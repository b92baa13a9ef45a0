import SprdHal.Hwc.Revisit

/-!
# What the hardware composer shows (`SprdHWLayerList.cpp`, `SprdPrimaryDisplayDevice.cpp`)

Each layer must be in what `commit` shows: a layer marked for an overlay in the planes or in the
picture of the overlay composer, and any other layer in the framebuffer target. The main result is
the exact condition on the layers under which `prepare` sees to this (`prepare_noLayerLost_iff`).
It fails where the first OSD layers stay while a later one, which the GSP cannot blend, goes back;
where a layer that both functions take hides one that SurfaceFlinger has to compose; and where the
overlay composer is forced for a protected video among layers that it cannot show.
-/

namespace SprdHal.Hwc

open SprdHWLayerList HwcEnv

variable {env : HwcEnv} {p : Bool} {ls : List AndroidLayer} {kept : Nat → Bool}
  {s : SprdHWLayerList} {i : Nat} {l : AndroidLayer}

/-! ## The layers that go to one side -/

/-- The first `m` layers went back to SurfaceFlinger. -/
structure Released (env : HwcEnv) (ls : List AndroidLayer) (kept : Nat → Bool) (m : Nat)
    (s s' : SprdHWLayerList) : Prop where
  rest_eq : ∀ i, m ≤ i → s'.mLayerList i = s.mLayerList i
  released : ∀ i, i < m → (s'.mLayerList i).compositionType ≠ .overlay
  count_eq : ∀ t, t ≠ .invalide →
    s'.countOf t = (env.places t ls).countP fun i => kept i && decide (m ≤ i)

theorem keptFrom_succ (kept : Nat → Bool) (m : Nat) :
    (fun i => kept i && decide (m + 1 ≤ i)) =
      Function.update (fun i => kept i && decide (m ≤ i)) m false := by
  funext i
  by_cases hi : i = m
  · simp [hi]
  · have : m + 1 ≤ i ↔ m ≤ i := by omega
    simp [hi, this]

theorem Released.step (h : Kept env p ls kept s) {m : Nat} {s' : SprdHWLayerList}
    (hr : Released env ls kept m s s') (hl : ls[m]? = some l) :
    Released env ls kept (m + 1) s (s'.releaseLayer m) := by
  have hm : s'.mLayerList m = s.mLayerList m := hr.rest_eq m le_rfl
  obtain ⟨a, ha⟩ := h.layer_eq m l hl
  have hmem : ∀ t, m ∈ env.places t ls → env.typeOf l = t := by
    intro t ht
    obtain ⟨l', hl', rfl⟩ := mem_places.mp ht
    rw [Option.some_inj.mp (hl.symm.trans hl')]
  unfold releaseLayer
  by_cases hover : (s'.mLayerList m).initCheck = true
  · rw [if_pos hover]
    refine ⟨fun i hi => ?_, fun i hi => ?_, fun t ht => ?_⟩
    · rw [giveBack_mLayerList, Function.update_of_ne (by omega)]
      exact hr.rest_eq i (by omega)
    · rw [giveBack_mLayerList]
      by_cases him : i = m
      · simp [him]
      · rw [Function.update_of_ne him]
        exact hr.released i (by omega)
    · rw [giveBack_countOf s' m ht, hr.count_eq t ht, keptFrom_succ]
      by_cases htl : env.typeOf l = t
      · have hk : (s.mLayerList m).initCheck = kept m := (h.layer hl (by rw [htl]; exact ht)).1
        have hupdate := countP_update_false (nodup_places env ls t)
          (mem_places.mpr ⟨l, hl, htl⟩) (fun i => kept i && decide (m ≤ i))
          (by simp [← hk, ← hm, hover])
        have hindex : 0 ≤ (s.mLayerList m).mSprdLayerIndex ∧
            (s.mLayerList m).sprd.mLayerType = t := by
          rw [ha]
          refine ⟨?_, htl⟩
          simp only [listed, htl, if_neg ht]
          omega
        rw [hm, if_pos hindex]
        omega
      · have hnot : m ∉ env.places t ls := fun hin => htl (hmem t hin)
        have htype : (s.mLayerList m).sprd.mLayerType ≠ t := by
          rw [ha]
          exact htl
        rw [hm, if_neg (fun hc => htype hc.2), countP_update_of_notMem hnot]
        omega
  · rw [if_neg hover]
    refine ⟨fun i hi => hr.rest_eq i (by omega), fun i hi => ?_, fun t ht => ?_⟩
    · by_cases him : i = m
      · rw [him]
        simpa [ListedLayer.initCheck] using hover
      · exact hr.released i (by omega)
    · rw [hr.count_eq t ht, keptFrom_succ]
      by_cases htl : env.typeOf l = t
      · have hk : (s.mLayerList m).initCheck = kept m := (h.layer hl (by rw [htl]; exact ht)).1
        have hfalse : (kept m && decide (m ≤ m)) = false := by
          rw [← hk, ← hm]
          simpa using hover
        rw [← hfalse, Function.update_eq_self]
      · rw [countP_update_of_notMem fun hin => htl (hmem t hin)]

/-- All layers go back to SurfaceFlinger. -/
theorem released_all (h : Kept env p ls kept s) :
    Released env ls kept ls.length s ((List.range ls.length).foldl releaseLayer s) := by
  have hbelow : ∀ m ≤ ls.length,
      Released env ls kept m s ((List.range m).foldl releaseLayer s) := by
    intro m hm
    induction m with
    | zero =>
      refine ⟨fun _ _ => rfl, fun i hi => absurd hi (by omega), fun t ht => ?_⟩
      simpa using h.count_eq t ht
    | succ m ih =>
      rw [List.range_succ, List.foldl_append]
      exact (ih (by omega)).step h (List.getElem?_eq_getElem (by omega))
  exact hbelow ls.length le_rfl

/-- A layer that is for the overlay composer already, or is forced to be. -/
def ListedLayer.Forced (l : ListedLayer) : Prop :=
  l.compositionType = .overlay ∨
    l.sprd.mAndroidLayer.skip = false ∧ l.compositionType = .framebuffer ∧
      (l.sprd.checkRGBLayerFormat = true ∨ l.sprd.checkYUVLayerFormat = true ∨
        l.sprd.mLayerType ≠ .invalide)

theorem setOverlayFlag_mLayerList (s : SprdHWLayerList) {i j : Nat} (hij : i ≠ j) :
    (s.setOverlayFlag j).mLayerList i = s.mLayerList i := by
  unfold setOverlayFlag
  split <;> simp [SprdHWLayerList.modify, hij]

theorem setOverlayFlag_compositionType (s : SprdHWLayerList) (j : Nat) :
    ((s.setOverlayFlag j).mLayerList j).compositionType =
      if (s.mLayerList j).sprd.mLayerType = .invalide then (s.mLayerList j).compositionType
      else .overlay := by
  unfold setOverlayFlag
  split <;> simp [SprdHWLayerList.modify, *]

theorem forceLayer_mLayerList (s : SprdHWLayerList) {i j : Nat} (hij : i ≠ j) :
    (s.forceLayer j).mLayerList i = s.mLayerList i := by
  simp only [forceLayer]
  split
  · rfl
  · simp only [setOverlayFlag_mLayerList _ hij, SprdHWLayerList.modify]
    rw [Function.update_of_ne hij]

theorem forceLayer_overlay_iff (s : SprdHWLayerList) (j : Nat) :
    ((s.forceLayer j).mLayerList j).compositionType = .overlay ↔ (s.mLayerList j).Forced := by
  simp only [forceLayer]
  by_cases hout : (s.mLayerList j).sprd.mAndroidLayer.skip = true ∨
      (s.mLayerList j).compositionType ≠ .framebuffer
  · rw [if_pos hout]
    unfold ListedLayer.Forced
    refine ⟨Or.inl, fun h => h.elim id fun h => ?_⟩
    rcases hout with hout | hout
    · exact absurd (hout.symm.trans h.1) (by simp)
    · exact absurd h.2.1 hout
  · obtain ⟨hskip, hcomp⟩ : (s.mLayerList j).sprd.mAndroidLayer.skip = false ∧
        (s.mLayerList j).compositionType = .framebuffer := by simpa using hout
    rw [if_neg hout]
    simp only [setOverlayFlag_compositionType, SprdHWLayerList.modify, Function.update_self]
    simp only [ListedLayer.Forced, hskip, hcomp, SprdHWLayer.setLayerType]
    split <;> split <;> simp_all

/-- The overlay composer gets all layers that it can get. -/
theorem forced_all (s : SprdHWLayerList) (n : Nat) :
    ∀ i < n, (((List.range n).foldl forceLayer s).mLayerList i).compositionType = .overlay ↔
      (s.mLayerList i).Forced := by
  have hbelow : ∀ m,
      (∀ i, m ≤ i → ((List.range m).foldl forceLayer s).mLayerList i = s.mLayerList i) ∧
      ∀ i < m, (((List.range m).foldl forceLayer s).mLayerList i).compositionType = .overlay ↔
        (s.mLayerList i).Forced := by
    intro m
    induction m with
    | zero => exact ⟨fun _ _ => rfl, fun i hi => absurd hi (by omega)⟩
    | succ m ih =>
      rw [List.range_succ, List.foldl_append]
      refine ⟨fun i hi => ?_, fun i hi => ?_⟩
      · rw [List.foldl_cons, List.foldl_nil, forceLayer_mLayerList _ (by omega)]
        exact ih.1 i (by omega)
      · by_cases him : i = m
        · subst him
          rw [List.foldl_cons, List.foldl_nil, forceLayer_overlay_iff, ih.1 i le_rfl]
        · rw [List.foldl_cons, List.foldl_nil, forceLayer_mLayerList _ him]
          exact ih.2 i (by omega)
  exact (hbelow n).2

/-! ## No layer is lost -/

/-- SurfaceFlinger composes the skipped layers and those that are not marked for an overlay, and
its picture is the framebuffer target. The planes show the layers of their lists, and the overlay
composer shows the layers that are marked. -/
def NoLayerLost (ls : List AndroidLayer) (s : SprdHWLayerList) : Shown → Prop
  | .framebufferTarget => ∀ i l, ls[i]? = some l → l.layer.skip = false →
      (s.mLayerList i).compositionType ≠ .overlay
  | .planes => ∀ i l, ls[i]? = some l → l.layer.skip = false ∧
      (s.mLayerList i).compositionType = .overlay ∧
      (some i ∈ s.mOSDLayerList.take s.mOSDLayerCount.toNat ∨
        some i ∈ s.mVideoLayerList.take s.mVideoLayerCount.toNat)
  | .overlayComposer => ∀ i l, ls[i]? = some l → l.layer.skip = false ∧
      (s.mLayerList i).compositionType = .overlay

namespace HwcEnv

variable (env : HwcEnv) (cap : GspCapability) (p : Bool) (ls : List AndroidLayer)

def osdLayers : List AndroidLayer := ls.filter fun l => env.typeOf l = .osd

def videoLayers : List AndroidLayer := ls.filter fun l => env.typeOf l = .overlay

/-- Without a video layer left, `revisitGeometry` gives all OSD layers back, the first one
included. -/
def GivesOSDBack : Prop :=
  env.privateFlag p ls = true ∨ cap.maxLayerCnt.toNat < (env.osdLayers ls).length ∨
    (env.osdLayers ls).head?.any env.isOVC = true

instance : Decidable (env.GivesOSDBack cap p ls) := inferInstanceAs (Decidable (_ ∨ _ ∨ _))

/-- The GSP blends the video layers with the OSD layers above them. -/
def Blends : Prop :=
  env.refuses cap ls = false ∧
    (env.videoLayers ls).getLast?.any (fun l => (env.settled l).mAccelerator.isGXP) = true ∧
    ls.Pairwise (fun l l' => ¬(env.typeOf l = .osd ∧ env.typeOf l' = .overlay)) ∧
    ∀ l ∈ env.osdLayers ls, env.isOVC l = false

instance : Decidable (env.Blends cap ls) := inferInstanceAs (Decidable (_ ∧ _ ∧ _ ∧ _))

/-- The only video layer is protected. -/
def OnlyProtected : Prop :=
  (ls.countP fun l => !l.layer.skip && isYUVLayer l.layer) = 1 ∧
    (env.videoLayers ls).getLast?.any (fun l => (env.settled l).mProtectedFlag) = true

instance : Decidable (env.OnlyProtected ls) := inferInstanceAs (Decidable (_ ∧ _))

/-- With too many video layers or none, no layer is lost if SurfaceFlinger has a layer to compose
anyway, or all OSD layers go back, or all of them stay. Where the GSP blends the planes there must
be no other layer, and where a protected video forces the overlay composer, none that it cannot
show. -/
def KeepsLayers : Prop :=
  if cap.maxVideoLayerCnt.toNat < (env.videoLayers ls).length then
    0 < ls.countP env.isFB ∨ ls.countP env.takesBoth < (env.videoLayers ls).length ∨
      env.osdLayers ls = [] ∨ env.GivesOSDBack cap p ls
  else if env.videoLayers ls = [] then
    0 < ls.countP env.isFB ∨ env.GivesOSDBack cap p ls ∨
      ∀ l ∈ env.osdLayers ls, env.isOVC l = false
  else if env.Blends cap ls then ls.countP env.isFB = 0
  else env.OnlyProtected ls → ∀ l ∈ ls, env.isFB l → l.layer.skip = false ∧
    ((SprdHWLayer.new l.layer).checkRGBLayerFormat = true ∨
      (SprdHWLayer.new l.layer).checkYUVLayerFormat = true)

instance : Decidable (env.KeepsLayers cap p ls) := by
  delta KeepsLayers
  infer_instance

end HwcEnv

/-- The planes have all layers, and the GSP takes them: the OSD layers alone, or the video layers
below them. -/
def PlanesTakeAll (env : HwcEnv) (cap : GspCapability) (p : Bool) (ls : List AndroidLayer)
    (s : SprdHWLayerList) : Prop :=
  Kept env p ls (fun _ => true) s ∧
    (env.videoLayers ls = [] ∧ (ls.length = 1 ∨ ¬env.GivesOSDBack cap p ls) ∨
      (env.videoLayers ls).length ≤ cap.maxVideoLayerCnt.toNat ∧ env.Blends cap ls)

/-! ### The ends of a list of places -/

theorem length_places (t : LayerType) :
    (env.places t ls).length = (ls.filter fun l => env.typeOf l = t).length := by
  simp [places, List.countP_eq_length_filter]

theorem getLast?_places (t : LayerType) (ls : List AndroidLayer) :
    (env.places t ls).getLast?.bind (ls[·]?) = (ls.filter fun l => env.typeOf l = t).getLast? := by
  induction ls using List.reverseRecOn with
  | nil => rfl
  | append_singleton ls l ih =>
    rw [places_append]
    by_cases ht : env.typeOf l = t
    · simp [ht]
    · have hfilter : (ls ++ [l]).filter (fun l => env.typeOf l = t) =
          ls.filter fun l => env.typeOf l = t := by simp [ht]
      rw [if_neg ht, List.append_nil, hfilter, ← ih]
      rcases hlast : (env.places t ls).getLast? with _ | i
      · rfl
      · obtain ⟨l', hl', -⟩ := mem_places.mp (List.mem_of_getLast? hlast)
        simp only [Option.bind_some]
        rw [List.getElem?_append_left (List.getElem?_eq_some_iff.mp hl').1]

theorem head?_places (env : HwcEnv) (t : LayerType) (ls : List AndroidLayer) :
    (env.places t ls).head?.bind (ls[·]?) = (ls.filter fun l => env.typeOf l = t).head? := by
  induction ls using List.reverseRecOn with
  | nil => rfl
  | append_singleton ls l ih =>
    rw [places_append, List.filter_append, List.head?_append, List.head?_append, ← ih]
    rcases hhead : (env.places t ls).head? with _ | i
    · by_cases ht : env.typeOf l = t <;> simp [ht]
    · obtain ⟨l', hl', -⟩ := mem_places.mp (List.mem_of_head? hhead)
      simp only [Option.bind_some, Option.some_or]
      rw [List.getElem?_append_left (List.getElem?_eq_some_iff.mp hl').1, hl']
      rfl

/-! ### What is shown -/

theorem shown_of_pos (hfb : 0 < s.mFBLayerCount) :
    shown (attachToDisplayPlane s false) = .framebufferTarget := by
  simp only [attachToDisplayPlane, Bool.false_eq_true, if_false, gt_iff_lt, if_pos hfb]
  rfl

theorem shown_of_none (hosd : s.mOSDLayerCount = 0) (hvideo : s.mVideoLayerCount = 0) :
    shown (attachToDisplayPlane s false) = .framebufferTarget := by
  by_cases hfb : 0 < s.mFBLayerCount
  · exact shown_of_pos hfb
  · simp [attachToDisplayPlane, hfb, attaches, hosd, hvideo, shown]

/-- The first layer of its list is still there. -/
theorem Kept.attaches (h : Kept env p ls kept s) {t : LayerType} (ht : t ≠ .invalide)
    (hhead : (env.places t ls).head? = some i) (hk : kept i = true) :
    attaches s (s.listOf t) (s.countOf t) = true := by
  obtain ⟨l, hl, htl⟩ := mem_places.mp (List.mem_of_head? hhead)
  have hcheck := (h.layer hl (by rw [htl]; exact ht)).1
  have hpos : 0 < (env.places t ls).countP kept :=
    List.countP_pos_iff.mpr ⟨i, List.mem_of_head? hhead, hk⟩
  have hfirst : (s.listOf t).head? = some (some i) := by
    rw [h.list_eq t ht, List.head?_map, hhead]
    simp [hk]
  have hcount : s.countOf t > 0 := by
    rw [h.count_eq t ht]
    omega
  simp [Hwc.attaches, hcount, hfirst, hcheck, hk]

theorem shown_planes (hfb : s.mFBLayerCount ≤ 0)
    (hplane : attaches s s.mOSDLayerList s.mOSDLayerCount = true ∨
      attaches s s.mVideoLayerList s.mVideoLayerCount = true) :
    shown (attachToDisplayPlane s false) = .planes := by
  have hnot : ¬s.mFBLayerCount > 0 := by omega
  simp only [attachToDisplayPlane, Bool.false_eq_true, if_false, if_neg hnot]
  rcases hplane with h | h
  · rw [h]
    rfl
  · rw [h]
    cases Hwc.attaches s s.mOSDLayerList s.mOSDLayerCount <;> rfl

/-! ### The layers in the end -/

theorem skip_eq_false (ht : env.typeOf l ≠ .invalide) : l.layer.skip = false := by
  cases hs : l.layer.skip with
  | false => rfl
  | true => exact absurd (by simp [typeOf_eq, takesOSD, takesVideo, hs]) ht

theorem isFB_iff : env.isFB l = true ↔ env.typeOf l = .invalide := by
  rw [typeOf_eq, isFB]
  cases env.takesVideo l <;> cases env.takesOSD l <;> simp

theorem Kept.compositionType (h : Kept env p ls kept s) (hl : ls[i]? = some l)
    (hskip : l.layer.skip = false) :
    (s.mLayerList i).compositionType = .overlay ↔ env.typeOf l ≠ .invalide ∧ kept i = true := by
  obtain ⟨a, hi⟩ := h.layer_eq i l hl
  rw [hi]
  by_cases ht : env.typeOf l = .invalide
  · simp [listed, hskip, ht]
  · cases hk : kept i <;> simp [listed, hskip, ht]

/-- Nothing is left of the planes. -/
theorem noLayerLost_target (h : Kept env p ls kept s)
    (hback : ∀ i l, ls[i]? = some l → env.typeOf l ≠ .invalide → kept i = false) :
    NoLayerLost ls s .framebufferTarget := by
  intro i l hl hskip hover
  obtain ⟨ht, hk⟩ := (h.compositionType hl hskip).mp hover
  exact absurd hk (by simp [hback i l hl ht])

/-- A layer of a plane is left, and only the framebuffer target is shown. -/
theorem not_noLayerLost_target (h : Kept env p ls kept s) {t : LayerType} (ht : t ≠ .invalide)
    (hi : i ∈ env.places t ls) (hk : kept i = true) : ¬NoLayerLost ls s .framebufferTarget := by
  obtain ⟨l, hl, htl⟩ := mem_places.mp hi
  have ht' : env.typeOf l ≠ .invalide := by rw [htl]; exact ht
  have hskip := skip_eq_false ht'
  exact fun hall => hall i l hl hskip ((h.compositionType hl hskip).mpr ⟨ht', hk⟩)

/-- A layer of a plane went back, and only the planes are shown. -/
theorem not_noLayerLost_planes (h : Kept env p ls kept s) {t : LayerType}
    (hi : i ∈ env.places t ls) (hk : kept i = false) : ¬NoLayerLost ls s .planes := by
  obtain ⟨l, hl, htl⟩ := mem_places.mp hi
  intro hall
  obtain ⟨hskip, hover, -⟩ := hall i l hl
  have := ((h.compositionType hl hskip).mp hover).2
  simp [hk] at this

/-- All layers of the planes are left. -/
theorem noLayerLost_planes_iff (h : Kept env p ls (fun _ => true) s) :
    NoLayerLost ls s .planes ↔ ls.countP env.isFB = 0 := by
  rw [List.countP_eq_zero]
  constructor
  · intro hall l hmem hfb
    obtain ⟨i, hl⟩ := List.getElem?_of_mem hmem
    obtain ⟨hskip, hover, -⟩ := hall i l hl
    exact ((h.compositionType hl hskip).mp hover).1 (isFB_iff.mp hfb)
  · intro hnone i l hl
    have ht : env.typeOf l ≠ .invalide := fun ht =>
      hnone l (List.mem_of_getElem? hl) (isFB_iff.mpr ht)
    have hskip := skip_eq_false ht
    refine ⟨hskip, (h.compositionType hl hskip).mpr ⟨ht, rfl⟩, ?_⟩
    have hmem : i ∈ env.places (env.typeOf l) ls := mem_places.mpr ⟨l, hl, rfl⟩
    have hlist := h.list_eq _ ht
    have hcount := h.count_eq _ ht
    have hin : some i ∈ (s.listOf (env.typeOf l)).take (s.countOf (env.typeOf l)).toNat := by
      rw [hlist, hcount, List.take_of_length_le (by simp)]
      simpa using hmem
    cases htl : env.typeOf l with
    | osd => exact Or.inl (by simpa [htl, listOf, countOf] using hin)
    | overlay => exact Or.inr (by simpa [htl, listOf, countOf] using hin)
    | invalide => exact absurd htl ht

/-- All layers were given back one by one. -/
theorem Released.noLayerLost {s' : SprdHWLayerList}
    (h : Released env ls kept ls.length s s') :
    NoLayerLost ls s' .framebufferTarget ∧ s'.mOSDLayerCount = 0 ∧ s'.mVideoLayerCount = 0 := by
  have hnone : ∀ t, t ≠ .invalide → s'.countOf t = 0 := by
    intro t ht
    rw [h.count_eq t ht]
    have hzero : (env.places t ls).countP (fun i => kept i && decide (ls.length ≤ i)) = 0 := by
      rw [List.countP_eq_zero]
      intro i hi
      obtain ⟨l, hl, -⟩ := mem_places.mp hi
      have := (List.getElem?_eq_some_iff.mp hl).1
      simp
      omega
    omega
  refine ⟨fun i l hl _ => h.released i (List.getElem?_eq_some_iff.mp hl).1, ?_, ?_⟩
  · exact hnone .osd (by simp)
  · exact hnone .overlay (by simp)

/-- The layers for which the overlay composer is forced. -/
theorem Kept.noLayerLost_forced_iff (h : Kept env p ls kept s) (s' : SprdHWLayerList)
    (hs' : ∀ i < ls.length, (s'.mLayerList i).compositionType = .overlay ↔
      (s.mLayerList i).Forced) :
    NoLayerLost ls s' .overlayComposer ↔ ∀ l ∈ ls, env.isFB l → l.layer.skip = false ∧
      ((SprdHWLayer.new l.layer).checkRGBLayerFormat = true ∨
        (SprdHWLayer.new l.layer).checkYUVLayerFormat = true) := by
  have hlayer : ∀ i l, ls[i]? = some l → (l.layer.skip = false ∧ (s.mLayerList i).Forced ↔
      (env.isFB l → l.layer.skip = false ∧
        ((SprdHWLayer.new l.layer).checkRGBLayerFormat = true ∨
          (SprdHWLayer.new l.layer).checkYUVLayerFormat = true))) := by
    intro i l hl
    obtain ⟨a, hi⟩ := h.layer_eq i l hl
    have handroid := env.settled_mAndroidLayer l
    by_cases ht : env.typeOf l = .invalide
    · have hfb := isFB_iff.mpr ht
      have htype : (env.settled l).mLayerType = .invalide := ht
      cases hskip : l.layer.skip <;>
        simp [hi, ListedLayer.Forced, hfb, hskip, ht, htype, listed, handroid,
          SprdHWLayer.setLayerAccelerator, SprdHWLayer.checkRGBLayerFormat,
          SprdHWLayer.checkYUVLayerFormat, SprdHWLayer.new]
    · have hskip := skip_eq_false ht
      have hfb : ¬env.isFB l = true := fun hfb => ht (isFB_iff.mp hfb)
      have htype : (env.settled l).mLayerType ≠ .invalide := ht
      refine iff_of_true ⟨hskip, ?_⟩ fun h => absurd h hfb
      rw [hi]
      cases hk : kept i
      · exact Or.inr ⟨by simp [SprdHWLayer.setLayerAccelerator, handroid, hskip],
          by simp [ht], Or.inr (Or.inr htype)⟩
      · exact Or.inl (by simp [listed, hskip, ht])
  constructor
  · intro hall l hmem hfb
    obtain ⟨i, hl⟩ := List.getElem?_of_mem hmem
    obtain ⟨hskip, hover⟩ := hall i l hl
    exact (hlayer i l hl).mp
      ⟨hskip, (hs' i (List.getElem?_eq_some_iff.mp hl).1).mp hover⟩ hfb
  · intro hall i l hl
    obtain ⟨hskip, hforced⟩ := (hlayer i l hl).mpr fun hfb => hall l (List.mem_of_getElem? hl) hfb
    exact ⟨hskip, (hs' i (List.getElem?_eq_some_iff.mp hl).1).mpr hforced⟩

/-! ### The cases of `revisitGeometry` -/

/-- Both loops, and neither a single layer nor a video layer that the GSP does not blend. -/
theorem revisitGeometry_eq {cap : GspCapability} {n : Nat} {v v' : Revisit}
    (hvideo : Revisit.videoLoop cap s.mVideoLayerCount.toNat s.mVideoLayerCount.toNat
      ⟨s, none, none, false, false, false⟩ = some v)
    (hosd : v.osdLoop cap (n + 1) v.list.mOSDLayerCount.toNat v.list.mOSDLayerCount.toNat = some v')
    (hsingle : v'.singleRGBLayerCond = false)
    (hyuv : v'.yuvLayer = none ∨ v'.accelerateVideoByGSP = true) :
    s.revisitGeometry cap n = some (v'.list, false) := by
  obtain ⟨list, yuv, rgb, accelerate, ovc, single⟩ := v'
  simp only at hsingle hyuv
  subst hsingle
  simp only [revisitGeometry, hvideo, Option.bind_eq_bind, Option.bind_some, hosd]
  rcases hyuv with rfl | rfl
  · cases rgb <;> simp
  · cases yuv <;> cases rgb <;> simp

theorem takesBoth_le (env : HwcEnv) (ls : List AndroidLayer) :
    ls.countP env.takesBoth ≤ (env.places .overlay ls).length := by
  rw [places, List.length_findIdxs]
  apply List.countP_mono_left
  intro l _ hboth
  have : env.takesVideo l = true := by
    simp only [takesBoth, Bool.and_eq_true] at hboth
    exact hboth.2
  simp [typeOf_eq, this]

/-- The counters that the OSD loop begins with. -/
theorem Kept.osdCount_of_videos
    (h : Kept env p ls (fun i => decide (i ∉ env.places .overlay ls)) s) :
    s.mOSDLayerCount = (env.places .osd ls).length ∧ s.mVideoLayerCount = 0 ∧
      s.mFBLayerCount = (ls.countP env.isFB : Int) - ls.countP env.takesBoth +
        (env.places .overlay ls).length := by
  have hosd : s.mOSDLayerCount = (env.places .osd ls).length := by
    have hcount := h.count_eq .osd (by simp)
    simp only [countOf] at hcount
    rw [hcount, List.countP_eq_length.mpr]
    intro i hi
    obtain ⟨l, hl, ht⟩ := mem_places.mp hi
    simpa using notMem_places hl (t := .overlay) (by simp [ht])
  have hvideo : s.mVideoLayerCount = 0 := by
    have hcount := h.count_eq .overlay (by simp)
    simp only [countOf] at hcount
    rw [hcount, List.countP_eq_zero.mpr (by simp)]
    rfl
  have hfb := h.fbCount_eq
  exact ⟨hosd, hvideo, by omega⟩

/-- A list with OSD layers and video layers is no single layer. -/
theorem length_ne_one (hvideo : env.places .overlay ls ≠ []) (hosd : env.places .osd ls ≠ []) :
    ls.length + 1 ≠ 2 := by
  obtain ⟨i, hi⟩ := List.exists_mem_of_ne_nil _ hvideo
  obtain ⟨j, hj⟩ := List.exists_mem_of_ne_nil _ hosd
  obtain ⟨l, hl, ht⟩ := mem_places.mp hi
  obtain ⟨l', hl', ht'⟩ := mem_places.mp hj
  have hij : i ≠ j := by
    rintro rfl
    rw [Option.some_inj.mp (hl.symm.trans hl'), ht'] at ht
    exact absurd ht (by simp)
  have hi' := (List.getElem?_eq_some_iff.mp hl).1
  have hj' := (List.getElem?_eq_some_iff.mp hl').1
  omega

/-- The first OSD layer. -/
theorem head?_osd_isOVC :
    (∀ i ∈ (env.places .osd ls).head?, ∀ l, ls[i]? = some l → env.isOVC l = true) ↔
      env.osdLayers ls = [] ∨ (env.osdLayers ls).head?.any env.isOVC = true := by
  have hhead := head?_places env .osd ls
  rw [osdLayers, ← List.head?_eq_none_iff, ← hhead]
  rcases hplaces : (env.places .osd ls).head? with _ | i
  · simp
  · obtain ⟨l, hl, -⟩ := mem_places.mp (List.mem_of_head? hplaces)
    simp [hl]

theorem osdLayers_eq_nil : env.osdLayers ls = [] ↔ env.places .osd ls = [] := by
  rw [← List.length_eq_zero_iff, ← List.length_eq_zero_iff, length_places, osdLayers]

theorem videoLayers_eq_nil : env.videoLayers ls = [] ↔ env.places .overlay ls = [] := by
  rw [← List.length_eq_zero_iff, ← List.length_eq_zero_iff, length_places, videoLayers]

theorem length_osdLayers : (env.osdLayers ls).length = (env.places .osd ls).length :=
  (length_places .osd).symm

theorem length_videoLayers : (env.videoLayers ls).length = (env.places .overlay ls).length :=
  (length_places .overlay).symm

/-- The outcome of a list without a video layer left: `start` says whether the video layers went
back. -/
theorem osd_outcome (cap : GspCapability) (start : Nat → Bool) {v : Revisit}
    (h : Visiting env p ls start [] (env.places .osd ls) start v.list)
    (hyuv : v.yuvLayer = none) (hsingle : v.singleRGBLayerCond = false)
    (hvideos : ∀ i ∈ env.places .overlay ls, start i = false)
    (hstart : env.places .overlay ls = [] → start = fun _ => true)
    (hcount : env.places .osd ls ≠ [] → ls.length + 1 ≠ 2) (hfb : 0 ≤ v.list.mFBLayerCount)
    (hosd : v.list.mOSDLayerCount = (env.places .osd ls).length) :
    ∃ v', v.osdLoop cap (ls.length + 1) v.list.mOSDLayerCount.toNat v.list.mOSDLayerCount.toNat =
        some v' ∧ v'.yuvLayer = none ∧ v'.singleRGBLayerCond = false ∧
      (NoLayerLost ls v'.list (shown (attachToDisplayPlane v'.list false)) ↔
        0 < v.list.mFBLayerCount ∨ env.osdLayers ls = [] ∨ env.GivesOSDBack cap p ls ∨
          env.places .overlay ls = [] ∧ ls.countP env.isFB = 0 ∧
            ∀ l ∈ env.osdLayers ls, env.isOVC l = false) ∧
      (shown (attachToDisplayPlane v'.list false) = .planes → NoLayerLost ls v'.list .planes →
        PlanesTakeAll env cap p ls v'.list) := by
  have htoNat : v.list.mOSDLayerCount.toNat = (env.places .osd ls).length := by omega
  have hvideoCount : v.list.mVideoLayerCount = 0 := by
    rw [h.videoCount_eq, List.countP_eq_zero.mpr fun i hi => by simp [hvideos i hi]]
    rfl
  have hprivate : (v.list.mPrivateFlag = true ∧ v.list.mVideoLayerCount = 0) ↔
      env.privateFlag p ls = true := by
    rw [h.holds.private_eq]
    exact and_iff_left hvideoCount
  rw [htoNat]
  by_cases hreset : v.list.mPrivateFlag = true ∧ v.list.mVideoLayerCount = 0 ∨
      0 < v.list.mFBLayerCount ∨ (cap.maxLayerCnt.toNat : Int) < v.list.mOSDLayerCount ∨
      ∀ i ∈ (env.places .osd ls).head?, ∀ l, ls[i]? = some l → env.isOVC l = true
  · obtain ⟨v', kept', hloop, hy, hs, hvisit, hback⟩ :=
      Revisit.osdLoop_resets h hyuv hsingle hcount hfb hreset
    have hnone : v'.list.mOSDLayerCount = 0 ∧ v'.list.mVideoLayerCount = 0 := by
      have hosd' := hvisit.holds.count_eq .osd (by simp)
      simp only [countOf] at hosd'
      refine ⟨?_, ?_⟩
      · rw [hosd', List.countP_eq_zero.mpr fun i hi => by simp [hback i hi]]
        rfl
      · rw [hvisit.videoCount_eq, ← h.videoCount_eq, hvideoCount]
    refine ⟨v', hloop, hy, hs, iff_of_true ?_ ?_, fun hplanes => ?_⟩
    · rw [shown_of_none hnone.1 hnone.2]
      refine noLayerLost_target hvisit.holds fun i l hl ht => ?_
      cases htl : env.typeOf l with
      | osd => exact hback i (mem_places.mpr ⟨l, hl, htl⟩)
      | overlay =>
        rw [hvisit.same i (notMem_places hl (by simp [htl]))]
        exact hvideos i (mem_places.mpr ⟨l, hl, htl⟩)
      | invalide => exact absurd htl ht
    · rcases hreset with hr | hr | hr | hr
      · exact Or.inr (Or.inr (Or.inl (Or.inl (hprivate.mp hr))))
      · exact Or.inl hr
      · refine Or.inr (Or.inr (Or.inl (Or.inr (Or.inl ?_))))
        rw [length_osdLayers]
        omega
      · rcases head?_osd_isOVC.mp hr with hnil | hovc
        · exact Or.inr (Or.inl hnil)
        · exact Or.inr (Or.inr (Or.inl (Or.inr (Or.inr hovc))))
    · rw [shown_of_none hnone.1 hnone.2] at hplanes
      exact absurd hplanes (by simp)
  · obtain ⟨hr1, hr2, hr3, hr4⟩ : ¬(v.list.mPrivateFlag = true ∧ v.list.mVideoLayerCount = 0) ∧
        ¬0 < v.list.mFBLayerCount ∧ ¬(cap.maxLayerCnt.toNat : Int) < v.list.mOSDLayerCount ∧
        ¬∀ i ∈ (env.places .osd ls).head?, ∀ l, ls[i]? = some l → env.isOVC l = true := by
      simpa only [not_or] using hreset
    have hends := mt head?_osd_isOVC.mpr hr4
    rw [not_or] at hends
    have hgives : ¬env.GivesOSDBack cap p ls := by
      rintro (hg | hg | hg)
      · exact hr1 (hprivate.mpr hg)
      · rw [length_osdLayers] at hg
        omega
      · exact hends.2 hg
    have hrhs : (0 < v.list.mFBLayerCount ∨ env.osdLayers ls = [] ∨ env.GivesOSDBack cap p ls ∨
        env.places .overlay ls = [] ∧ ls.countP env.isFB = 0 ∧
          ∀ l ∈ env.osdLayers ls, env.isOVC l = false) ↔
        env.places .overlay ls = [] ∧ ls.countP env.isFB = 0 ∧
          ∀ l ∈ env.osdLayers ls, env.isOVC l = false := by
      simp only [hr2, hends.1, hgives, false_or]
    have hfirst : ∀ i ∈ (env.places .osd ls).head?, ∀ l, ls[i]? = some l →
        env.isOVC l = false := by
      intro i hi l hl
      by_contra hovc
      refine hr4 fun i' hi' l' hl' => ?_
      obtain rfl : i = i' := Option.some_inj.mp ((Option.mem_def.mp hi).symm.trans hi')
      rw [← Option.some_inj.mp (hl.symm.trans hl')]
      simpa using hovc
    obtain ⟨v', kept', hloop, hy, hs, hvisit, hcases⟩ :=
      Revisit.osdLoop_keeps cap h hyuv hsingle hcount (by omega) hr1 (by omega) hfirst
    refine ⟨v', hloop, hy, hs, ?_⟩
    rw [hrhs]
    rcases hcases with ⟨hall, hzero⟩ | ⟨hpos, ⟨i, hi, hk⟩, j, hj, l, hl, hovc⟩
    · have hnil : env.places .osd ls ≠ [] := fun hnil => hends.1 (osdLayers_eq_nil.mpr hnil)
      obtain ⟨i, hhead⟩ : ∃ i, (env.places .osd ls).head? = some i :=
        ⟨_, List.head?_eq_some_head hnil⟩
      have hplane := hvisit.holds.attaches (t := .osd) (by simp) hhead
        (hall i (List.mem_of_head? hhead)).1
      rw [shown_planes (by omega) (Or.inl hplane)]
      by_cases hvideo : env.places .overlay ls = []
      · have hkept : kept' = fun _ => true := by
          funext j
          by_cases hj : j ∈ env.places .osd ls
          · exact (hall j hj).1
          · rw [hvisit.same j hj, hstart hvideo]
        rw [noLayerLost_planes_iff (hkept ▸ hvisit.holds)]
        refine ⟨⟨fun hfb => ⟨hvideo, hfb, fun l hl => ?_⟩, fun hr => hr.2.1⟩, fun _ _ =>
          ⟨hkept ▸ hvisit.holds, Or.inl ⟨videoLayers_eq_nil.mpr hvideo, Or.inr hgives⟩⟩⟩
        rw [osdLayers, List.mem_filter, decide_eq_true_eq] at hl
        obtain ⟨j, hj⟩ := List.getElem?_of_mem hl.1
        exact (hall j (mem_places.mpr ⟨l, hj, hl.2⟩)).2 l hj
      · obtain ⟨j, hj⟩ := List.exists_mem_of_ne_nil _ hvideo
        obtain ⟨l, hl, ht⟩ := mem_places.mp hj
        have hback : kept' j = false := by
          rw [hvisit.same j (notMem_places hl (by simp [ht])), hvideos j hj]
        have hlost := not_noLayerLost_planes hvisit.holds hj hback
        exact ⟨iff_of_false hlost fun hr => hvideo hr.1, fun _ hkeeps => absurd hkeeps hlost⟩
    · rw [shown_of_pos hpos]
      refine ⟨iff_of_false (not_noLayerLost_target hvisit.holds (by simp) hi hk) ?_,
        fun hplanes => absurd hplanes (by simp)⟩
      rintro ⟨-, -, hnone⟩
      obtain ⟨l', hl', ht⟩ := mem_places.mp hj
      obtain rfl : l = l' := Option.some_inj.mp (hl.symm.trans hl')
      have := hnone l (by simpa [osdLayers] using ⟨List.mem_of_getElem? hl, ht⟩)
      simp [hovc] at this

/-- A single OSD layer stays, or goes back where the overlay composer has it. -/
theorem revisitGeometry_single (cap : GspCapability) (hl : ls = [l]) (ht : env.typeOf l = .osd)
    (h : Kept env p ls (fun _ => true) s) :
    ∃ s', s.revisitGeometry cap 1 = some (s', false) ∧
      NoLayerLost ls s' (shown (attachToDisplayPlane s' false)) ∧
      (shown (attachToDisplayPlane s' false) = .planes → PlanesTakeAll env cap p ls s') := by
  have hosd : env.places .osd ls = [0] := by simp [hl, places, ht]
  have hvideo : env.places .overlay ls = [] := by simp [hl, places, ht]
  have hget : ls[0]? = some l := by simp [hl]
  obtain ⟨hfb, hcount, hvideoCount⟩ := h.fbCount_of_all
  rw [hosd] at hcount
  rw [hvideo] at hvideoCount
  have hboth : ls.countP env.takesBoth = 0 := by
    have := takesBoth_le env ls
    simpa [hvideo] using this
  have hnone : ls.countP env.isFB = 0 := by
    rw [List.countP_eq_zero]
    intro l' hl' hfb
    rw [hl, List.mem_singleton] at hl'
    rw [isFB_iff, hl', ht] at hfb
    exact absurd hfb (by simp)
  have hlist : s.mOSDLayerList = [some 0] := by
    have := h.list_eq .osd (by simp)
    simpa [listOf, hosd] using this
  obtain ⟨hcheck, hindex, -⟩ := h.layer hget (by simp [ht])
  have hsprd := h.osd_eq 0 l hget ht
  -- the list that has lost its only layer
  have hlost : ∀ s' : SprdHWLayerList, (s'.mLayerList 0).compositionType = .framebuffer →
      s'.mOSDLayerCount = 0 → s'.mVideoLayerCount = 0 →
      NoLayerLost ls s' (shown (attachToDisplayPlane s' false)) ∧
        (shown (attachToDisplayPlane s' false) = .planes → PlanesTakeAll env cap p ls s') := by
    intro s' hcomp hosd' hvideo'
    rw [shown_of_none hosd' hvideo']
    refine ⟨?_, fun hplanes => absurd hplanes (by simp)⟩
    intro i l' hl' _
    have hi : i = 0 := by
      have := (List.getElem?_eq_some_iff.mp hl').1
      simp [hl] at this
      omega
    rw [hi, hcomp]
    simp
  have hback : ∀ s' : SprdHWLayerList, s'.mLayerList 0 = s.mLayerList 0 ∨
        s'.mLayerList 0 = { s.mLayerList 0 with sprd := (s.mLayerList 0).sprd.resetAccelerator } →
      s'.mOSDLayerCount = s.mOSDLayerCount → s'.mVideoLayerCount = s.mVideoLayerCount →
      NoLayerLost ls (s'.giveBack 0) (shown (attachToDisplayPlane (s'.giveBack 0) false)) ∧
        (shown (attachToDisplayPlane (s'.giveBack 0) false) = .planes →
          PlanesTakeAll env cap p ls (s'.giveBack 0)) := by
    intro s' hlayer hosd' hvideo'
    obtain ⟨a, ha⟩ := h.layer_eq 0 l hget
    have htype : (s'.mLayerList 0).sprd.mLayerType = .osd := by
      have : (s.mLayerList 0).sprd.mLayerType = .osd := by
        rw [hsprd]
        exact ht
      rcases hlayer with hlayer | hlayer <;> rw [hlayer] <;> exact this
    have hplace : 0 ≤ (s'.mLayerList 0).mSprdLayerIndex := by
      have : 0 ≤ (s.mLayerList 0).mSprdLayerIndex := by
        rw [ha]
        simp [listed, ht]
      rcases hlayer with hlayer | hlayer <;> rw [hlayer] <;> exact this
    refine hlost _ (by simp [giveBack_mLayerList]) ?_ ?_
    · have := giveBack_countOf s' 0 (t := .osd) (by simp)
      simp only [countOf, htype, hplace, hosd', hcount] at this
      simpa using this
    · have := giveBack_countOf s' 0 (t := .overlay) (by simp)
      simp only [countOf, htype, hvideo', hvideoCount] at this
      simpa using this
  have hvideoLoop : Revisit.videoLoop cap s.mVideoLayerCount.toNat s.mVideoLayerCount.toNat
      ⟨s, none, none, false, false, false⟩ = some ⟨s, none, none, false, false, false⟩ := by
    rw [hvideoCount]
    rfl
  simp only [revisitGeometry, hvideoLoop, Option.bind_eq_bind, Option.bind_some, hcount]
  simp only [List.length_cons, List.length_nil, Nat.cast_one, zero_add, Int.toNat_one]
  simp only [Revisit.osdLoop, hlist]
  simp
  by_cases hp : s.mPrivateFlag = true
  · have hvisit : Revisit.visitOSD cap 2 ⟨s, none, none, false, false, false⟩ 0 =
        ⟨s.giveBack 0, none, some 0, false, false, false⟩ := by
      simp [Revisit.visitOSD, hcheck, hp, hvideoCount, hcount]
    rw [hvisit]
    exact ⟨_, rfl, hback s (Or.inl rfl) rfl rfl⟩
  · have hvisit : Revisit.visitOSD cap 2 ⟨s, none, none, false, false, false⟩ 0 =
        ⟨s, none, some 0, false, env.isOVC l, true⟩ := by
      simp [Revisit.visitOSD, hcheck, hp, hindex, hsprd, isOVC]
    rw [hvisit]
    by_cases hovc : env.isOVC l = true
    · refine ⟨(s.modify 0 fun l => { l with sprd := l.sprd.resetAccelerator }).giveBack 0,
        by simp [hovc], hback _ (Or.inr ?_) rfl rfl⟩
      simp [SprdHWLayerList.modify]
    · refine ⟨s, by simp [hovc], ?_⟩
      have hplane := h.attaches (t := .osd) (i := 0) (by simp) (by simp [hosd]) rfl
      rw [shown_planes (by omega) (Or.inl hplane)]
      exact ⟨(noLayerLost_planes_iff h).mpr hnone, fun _ =>
        ⟨h, Or.inl ⟨videoLayers_eq_nil.mpr hvideo, Or.inl (by simp [hl])⟩⟩⟩

/-- A layer that `prepareVideoLayer` takes is counted in `mYUVLayerCount`. -/
theorem isYUVLayer_of_overlay (ht : env.typeOf l = .overlay) :
    (!l.layer.skip && isYUVLayer l.layer) = true := by
  have hskip : l.layer.skip = false := by
    have hne : env.typeOf l ≠ .invalide := by simp [ht]
    exact skip_eq_false hne
  have htaken : (env.videoPrepared l.layer).taken = true := by
    rw [typeOf_eq] at ht
    by_cases hv : env.takesVideo l = true
    · simpa [takesVideo, hskip] using hv
    · rw [if_neg hv] at ht
      split at ht <;> exact absurd ht (by simp)
  have handroid : (env.osdPrepared l.layer).layer.mAndroidLayer = l.layer :=
    (env.prepareOSDLayer_takes _).android
  rw [videoPrepared, prepareVideoLayer, handroid] at htaken
  rw [hskip, isYUVLayer]
  rcases hh : l.layer.handle with _ | privateH
  · simp [hh] at htaken
  · by_contra hnot
    simp only [Option.any_some, Bool.not_false, Bool.true_and, Bool.or_eq_true, not_or] at hnot
    simp [hh, SprdHWLayer.checkYUVLayerFormat, hnot] at htaken

/-- The outcome of a list whose video layer at `y` the GSP does not blend. -/
theorem revisitOverlayComposerLayer_outcome {y : Nat} {ly : AndroidLayer} (h : Kept env p ls kept s)
    (hy : ls[y]? = some ly) (hty : env.typeOf ly = .overlay)
    (hlast : (env.videoLayers ls).getLast? = some ly) :
    (NoLayerLost ls (s.revisitOverlayComposerLayer y ls.length).1
        (shown (attachToDisplayPlane (s.revisitOverlayComposerLayer y ls.length).1
          (s.revisitOverlayComposerLayer y ls.length).2)) ↔
      (env.OnlyProtected ls → ∀ l ∈ ls, env.isFB l → l.layer.skip = false ∧
        ((SprdHWLayer.new l.layer).checkRGBLayerFormat = true ∨
          (SprdHWLayer.new l.layer).checkYUVLayerFormat = true))) ∧
      shown (attachToDisplayPlane (s.revisitOverlayComposerLayer y ls.length).1
        (s.revisitOverlayComposerLayer y ls.length).2) ≠ .planes := by
  have hprotected := (h.layer hy (by simp [hty])).2.2
  have hcount : 0 < s.mYUVLayerCount := by
    rw [h.yuvCount_eq, List.countP_pos_iff]
    exact ⟨ly, List.mem_of_getElem? hy, isYUVLayer_of_overlay hty⟩
  have honly : env.OnlyProtected ls ↔
      s.mYUVLayerCount = 1 ∧ (s.mLayerList y).sprd.mProtectedFlag = true := by
    rw [hprotected, h.yuvCount_eq, OnlyProtected, hlast]
    simp
  by_cases hforce : s.mYUVLayerCount = 1 ∧ (s.mLayerList y).sprd.mProtectedFlag = true
  · have hresult : s.revisitOverlayComposerLayer y ls.length =
        ({ (List.range ls.length).foldl forceLayer s with mSkipLayerFlag := false }, true) := by
      simp [revisitOverlayComposerLayer, hforce]
    rw [hresult]
    have hshown := h.noLayerLost_forced_iff
      { (List.range ls.length).foldl forceLayer s with mSkipLayerFlag := false }
      (forced_all s ls.length)
    simp only [attachToDisplayPlane, if_true, shown]
    rw [hshown]
    exact ⟨⟨fun hall _ => hall, fun hall => hall (honly.mpr hforce)⟩, by simp⟩
  · have hresult : s.revisitOverlayComposerLayer y ls.length =
        ({ (List.range ls.length).foldl releaseLayer s with mSkipLayerFlag := false }, false) := by
      by_cases hmany : s.mYUVLayerCount > 1
      · simp [revisitOverlayComposerLayer, hmany]
      · have hone : s.mYUVLayerCount = 1 := by omega
        simp [revisitOverlayComposerLayer, hone, show ¬_ from fun hp => hforce ⟨hone, hp⟩]
    rw [hresult]
    obtain ⟨hlost, hosd, hvideo⟩ := (released_all h).noLayerLost
    rw [shown_of_none (s := { (List.range ls.length).foldl releaseLayer s with
      mSkipLayerFlag := false }) hosd hvideo]
    exact ⟨iff_of_true hlost fun hp => absurd (honly.mp hp) hforce, by simp⟩

theorem le_getLast? {xs : List Nat} (hxs : xs.Pairwise (· < ·)) {m k : Nat}
    (hm : xs.getLast? = some m) (hk : k ∈ xs) : k ≤ m := by
  rw [← List.dropLast_append_getLast? m hm] at hxs hk
  rcases List.mem_append.mp hk with hk | hk
  · exact ((List.pairwise_append.mp hxs).2.2 k hk m (by simp)).le
  · exact (List.mem_singleton.mp hk).le

/-- The GSP blends the planes: what the loops have found about the last video layer and the OSD
layers. -/
theorem blends_iff {cap : GspCapability} {y : Nat} {ly : AndroidLayer}
    (hy : (env.places .overlay ls).getLast? = some y) (hly : ls[y]? = some ly)
    (hlast : (env.videoLayers ls).getLast? = some ly) :
    env.Blends cap ls ↔
      (!env.refuses cap ls && (env.settled ly).mAccelerator.isGXP) = true ∧
        ∀ i ∈ env.places .osd ls, y < i ∧ ∀ l, ls[i]? = some l → env.isOVC l = false := by
  have horder : ls.Pairwise (fun l l' => ¬(env.typeOf l = .osd ∧ env.typeOf l' = .overlay)) ↔
      ∀ i ∈ env.places .osd ls, y < i := by
    obtain ⟨ly', hly', hty⟩ := mem_places.mp (List.mem_of_getLast? hy)
    rw [List.pairwise_iff_getElem]
    constructor
    · intro hpair i hi
      obtain ⟨l, hl, ht⟩ := mem_places.mp hi
      obtain ⟨hilt, hil⟩ := List.getElem?_eq_some_iff.mp hl
      obtain ⟨hylt, hyl⟩ := List.getElem?_eq_some_iff.mp hly'
      rcases Nat.lt_trichotomy i y with hlt | rfl | hlt
      · exact absurd ⟨hil ▸ ht, hyl ▸ hty⟩ (hpair i y hilt hylt hlt)
      · rw [Option.some_inj.mp (hl.symm.trans hly'), hty] at ht
        exact absurd ht (by simp)
      · exact hlt
    · rintro hall i j hi hj hij ⟨hosd, hvideo⟩
      have hyi := hall i (mem_places.mpr ⟨_, List.getElem?_eq_getElem hi, hosd⟩)
      have hmem : j ∈ env.places .overlay ls :=
        mem_places.mpr ⟨_, List.getElem?_eq_getElem hj, hvideo⟩
      have hjy := le_getLast? List.pairwise_findIdxs hy hmem
      omega
  have hosd : (∀ l ∈ env.osdLayers ls, env.isOVC l = false) ↔
      ∀ i ∈ env.places .osd ls, ∀ l, ls[i]? = some l → env.isOVC l = false := by
    constructor
    · intro hall i hi l hl
      obtain ⟨l', hl', ht⟩ := mem_places.mp hi
      obtain rfl : l = l' := Option.some_inj.mp (hl.symm.trans hl')
      exact hall l (by simpa [osdLayers] using ⟨List.mem_of_getElem? hl, ht⟩)
    · intro hall l hl
      rw [osdLayers, List.mem_filter, decide_eq_true_eq] at hl
      obtain ⟨i, hi⟩ := List.getElem?_of_mem hl.1
      exact hall i (mem_places.mpr ⟨l, hi, hl.2⟩) l hi
  rw [Blends, hlast, horder, hosd, Bool.and_eq_true, Bool.not_eq_true', forall₂_and]
  simp only [Option.any_some, and_assoc]

/-- What `prepare` leaves: whether a layer is lost, and what the planes have if none is. -/
theorem prepare_outcome (env : HwcEnv) (cap : GspCapability) (hcap : env.mPData = some cap)
    (p : Bool) (ls : List AndroidLayer) :
    ∃ s shows, env.prepare p ls = some (s, shows) ∧
      (NoLayerLost ls s shows ↔ env.KeepsLayers cap p ls) ∧
      (shows = .planes → NoLayerLost ls s shows → PlanesTakeAll env cap p ls s) := by
  have hkept : Kept env p ls (fun _ => true) (env.updateGeometry p ls) :=
    kept_of_updated (updateGeometry_lists env p ls).1 rfl
  have hsettled : ∀ i l, ls[i]? = some l →
      ((env.updateGeometry p ls).mLayerList i).sprd = env.settled l := by
    intro i l hl
    rw [(updateGeometry_lists env p ls).1.layer_eq i l hl]
    rfl
  generalize hs : env.updateGeometry p ls = s at hkept hsettled
  obtain ⟨hfb, hosd, hvideo⟩ := hkept.fbCount_of_all
  have hprepare : ∀ s' gpu, s.revisitGeometry cap ls.length = some (s', gpu) →
      env.prepare p ls = some (s', shown (attachToDisplayPlane s' gpu)) := by
    intro s' gpu hrevisit
    simp [prepare, hcap, hs, hrevisit]
  have hvideoNat : s.mVideoLayerCount.toNat = (env.places .overlay ls).length := by omega
  by_cases hexceeds : cap.maxVideoLayerCnt.toNat < (env.videoLayers ls).length
  · rw [KeepsLayers, if_pos hexceeds]
    rw [length_videoLayers] at hexceeds ⊢
    obtain ⟨s₁, hloop, hkept₁⟩ := Revisit.videoLoop_exceeds cap hkept hexceeds
    rw [← hvideoNat] at hloop
    obtain ⟨hosd₁, -, hfb₁⟩ := hkept₁.osdCount_of_videos
    have hboth := takesBoth_le env ls
    have hvideos : env.places .overlay ls ≠ [] := by
      rintro hnil
      rw [hnil] at hexceeds
      simp at hexceeds
    have hvisit : Visiting env p ls (fun i => decide (i ∉ env.places .overlay ls)) []
        (env.places .osd ls) (fun i => decide (i ∉ env.places .overlay ls)) s₁ := by
      refine ⟨rfl, hkept₁, fun i hi => ?_, fun _ _ => rfl⟩
      obtain ⟨l, hl, ht⟩ := mem_places.mp hi
      simpa using notMem_places hl (t := .overlay) (by simp [ht])
    obtain ⟨v', hosdLoop, hy, hsingle, hiff, hplanes⟩ := osd_outcome cap _
      (v := ⟨s₁, none, none, false, false, false⟩) hvisit rfl rfl (fun i hi => by simpa using hi)
      (fun hnil => absurd hnil hvideos) (length_ne_one hvideos) (by simp only; omega) hosd₁
    refine ⟨v'.list, _, hprepare _ _ (revisitGeometry_eq hloop hosdLoop hsingle (Or.inl hy)), ?_,
      fun hshown hlost => hplanes hshown (hshown ▸ hlost)⟩
    rw [hiff]
    have hpos : 0 < s₁.mFBLayerCount ↔ 0 < ls.countP env.isFB ∨
        ls.countP env.takesBoth < (env.places .overlay ls).length := by omega
    simp only [hpos, hvideos, false_and, or_false, or_assoc]
  · rw [KeepsLayers, if_neg hexceeds]
    rw [length_videoLayers] at hexceeds
    by_cases hnil : env.videoLayers ls = []
    · rw [if_pos hnil]
      have hplaces : env.places .overlay ls = [] := by
        rw [← List.length_eq_zero_iff, ← length_videoLayers, hnil]
        rfl
      have hboth : ls.countP env.takesBoth = 0 := by
        have := takesBoth_le env ls
        simpa [hplaces] using this
      by_cases hone : ls.length = 1 ∧ env.places .osd ls ≠ []
      · obtain ⟨l, rfl⟩ := List.length_eq_one_iff.mp hone.1
        have ht : env.typeOf l = .osd := by
          by_contra ht
          exact hone.2 (by simp [places, ht])
        obtain ⟨s', hrevisit, hlost, hplanes⟩ := revisitGeometry_single cap rfl ht hkept
        refine ⟨s', _, hprepare _ _ hrevisit, iff_of_true hlost ?_, fun hshown _ => hplanes hshown⟩
        have hlayers : env.osdLayers [l] = [l] := by simp [osdLayers, ht]
        cases hovc : env.isOVC l with
        | true => exact Or.inr (Or.inl (Or.inr (Or.inr (by simp [hlayers, hovc]))))
        | false => exact Or.inr (Or.inr (by simp [hlayers, hovc]))
      · have hloop : Revisit.videoLoop cap s.mVideoLayerCount.toNat s.mVideoLayerCount.toNat
            ⟨s, none, none, false, false, false⟩ = some ⟨s, none, none, false, false, false⟩ := by
          rw [hvideoNat, hplaces]
          rfl
        obtain ⟨v', hosdLoop, hy, hsingle, hiff, hplanes⟩ := osd_outcome cap
          (fun _ => true) (v := ⟨s, none, none, false, false, false⟩)
          ⟨rfl, hkept, fun _ _ => rfl, fun _ _ => rfl⟩ rfl rfl (by simp [hplaces]) (fun _ => rfl)
          (fun hne hlen => hone ⟨by omega, hne⟩) (by simp only; omega) hosd
        refine ⟨v'.list, _,
          hprepare _ _ (revisitGeometry_eq hloop hosdLoop hsingle (Or.inl hy)), ?_,
          fun hshown hlost => hplanes hshown (hshown ▸ hlost)⟩
        rw [hiff]
        have hpos : 0 < s.mFBLayerCount ↔ 0 < ls.countP env.isFB := by omega
        simp only [hpos, hplaces, true_and]
        constructor
        · rintro (h | h | h | ⟨-, h⟩)
          · exact Or.inl h
          · exact Or.inr (Or.inr (by simp [h]))
          · exact Or.inr (Or.inl h)
          · exact Or.inr (Or.inr h)
        · rintro (h | h | h)
          · exact Or.inl h
          · exact Or.inr (Or.inr (Or.inl h))
          · by_cases hf : 0 < ls.countP env.isFB
            · exact Or.inl hf
            · exact Or.inr (Or.inr (Or.inr ⟨by omega, h⟩))
    · rw [if_neg hnil]
      have hvideos : env.places .overlay ls ≠ [] := by
        intro hplaces
        exact hnil (List.length_eq_zero_iff.mp (by rw [length_videoLayers, hplaces]; rfl))
      obtain ⟨y, hy⟩ : ∃ y, (env.places .overlay ls).getLast? = some y :=
        ⟨_, List.getLast?_eq_some_getLast hvideos⟩
      obtain ⟨ly, hly, hty⟩ := mem_places.mp (List.mem_of_getLast? hy)
      have hlast : (env.videoLayers ls).getLast? = some ly := by
        rw [videoLayers, ← getLast?_places, hy]
        exact hly
      obtain ⟨s₁, hloop, hkept₁⟩ := Revisit.videoLoop_fits cap hkept (by omega)
      rw [hy, Option.any_some, hsettled y ly hly, ← hvideoNat] at hloop
      obtain ⟨hfb₁, hosd₁, hvideo₁⟩ := hkept₁.fbCount_of_all
      obtain ⟨v', kept', hosdLoop, hyuv, hsingle, hkept', hall, hiff⟩ :=
        Revisit.osdLoop_some cap (ls.length + 1)
          (v := ⟨s₁, some y, none, !env.refuses cap ls && (env.settled ly).mAccelerator.isGXP,
            false, false⟩) hly hty hkept₁ rfl rfl (length_ne_one hvideos) (by
            intro haccel
            rw [Bool.and_eq_true, Bool.not_eq_true'] at haccel
            have := mt (Revisit.refuses_iff cap hkept₁).mp (by simp [haccel.1])
            simp only
            omega)
      have hosdNat : s₁.mOSDLayerCount.toNat = (env.places .osd ls).length := by omega
      rw [← hosdNat] at hosdLoop
      rw [← blends_iff hy hly hlast] at hiff
      cases haccel : v'.accelerateVideoByGSP with
      | true =>
        have hblends := hiff.mp haccel
        obtain rfl : kept' = fun _ => true := funext (hall haccel)
        refine ⟨v'.list, _, hprepare _ _ (revisitGeometry_eq hloop hosdLoop hsingle
          (Or.inr haccel)), ?_, fun _ _ => ⟨hkept', Or.inr ⟨?_, hblends⟩⟩⟩
        swap
        · rw [length_videoLayers]
          omega
        rw [if_pos hblends]
        have hrefuses := mt (Revisit.refuses_iff cap hkept').mp (by simp [hblends.1])
        obtain ⟨i, hhead⟩ : ∃ i, (env.places .overlay ls).head? = some i :=
          ⟨_, List.head?_eq_some_head hvideos⟩
        have hplane := hkept'.attaches (t := .overlay) (by simp) hhead rfl
        rw [shown_planes (by omega) (Or.inr hplane)]
        exact noLayerLost_planes_iff hkept'
      | false =>
        have hblends : ¬env.Blends cap ls := fun hb => by simp [hiff.mpr hb] at haccel
        have hrevisit : s.revisitGeometry cap ls.length =
            some (v'.list.revisitOverlayComposerLayer y ls.length) := by
          obtain ⟨list, yuv, rgb, accelerate, ovc, single⟩ := v'
          simp only at hyuv haccel
          subst hyuv haccel
          simp only [revisitGeometry, hloop, Option.bind_eq_bind, Option.bind_some, hosdLoop]
        obtain ⟨hlost, hplanes⟩ := revisitOverlayComposerLayer_outcome hkept' hly hty hlast
        refine ⟨_, _, hprepare _ _ hrevisit, ?_, fun hshown => absurd hshown hplanes⟩
        rw [if_neg hblends]
        exact hlost

/-- **No layer is lost** between `prepare` and `commit` if and only if the list keeps its layers;
and `prepare` never dereferences NULL. -/
theorem prepare_noLayerLost_iff (env : HwcEnv) (cap : GspCapability) (hcap : env.mPData = some cap)
    (p : Bool) (ls : List AndroidLayer) :
    ∃ s shows, env.prepare p ls = some (s, shows) ∧
      (NoLayerLost ls s shows ↔ env.KeepsLayers cap p ls) := by
  obtain ⟨s, shows, hprepare, hlost, -⟩ := prepare_outcome env cap hcap p ls
  exact ⟨s, shows, hprepare, hlost⟩

/-- A GSP for three layers that does not scale RGB layers. -/
def unscaledCap : GspCapability :=
  ⟨3, 2, 1, true, 0, ⟨4, 4⟩, ⟨200, 200⟩, ⟨4, 4⟩, ⟨200, 200⟩, 64, 16, 1, 0, 0⟩

def unscaledEnv : HwcEnv := ⟨⟨true, true, true⟩, some unscaledCap, 100, 100⟩

/-- An RGB layer of the whole screen, scaled up from the given size. -/
def screenLayer (size : Int32) : AndroidLayer :=
  ⟨⟨false, some ⟨.rgba8888, size, size, true, false, false, false⟩, 0, false, ⟨0, 0, size, size⟩,
    ⟨0, 0, 100, 100⟩⟩, .framebuffer⟩

/-- A layer that is scaled between two that are not: the first one is lost. -/
theorem prepare_scaled_between :
    ∃ s shows, unscaledEnv.prepare false [screenLayer 100, screenLayer 50, screenLayer 100] =
        some (s, shows) ∧
      ¬NoLayerLost [screenLayer 100, screenLayer 50, screenLayer 100] s shows := by
  obtain ⟨s, shows, hprepare, hiff⟩ := prepare_noLayerLost_iff unscaledEnv unscaledCap rfl false
    [screenLayer 100, screenLayer 50, screenLayer 100]
  have hloses : ¬unscaledEnv.KeepsLayers unscaledCap false
      [screenLayer 100, screenLayer 50, screenLayer 100] := by decide
  exact ⟨s, shows, hprepare, fun h => hloses (hiff.mp h)⟩

end SprdHal.Hwc
