import SprdHal.Hwc.Kept

/-!
# The loops of `revisitGeometry` (`SprdHWLayerList.cpp`)

The loop over the video layers gives all of them back or none. The loop over the OSD layers gives
back what the GSP cannot blend, and the more it gives back the more it has to: one layer for
SurfaceFlinger is enough for the rest to follow. Without a video layer this ends in one of three
ways, all of them back (`osdLoop_resets`), none, or the first ones left and others back
(`osdLoop_keeps`).
-/

namespace SprdHal.Hwc

open SprdHWLayerList HwcEnv

variable {env : HwcEnv} {p : Bool} {ls : List AndroidLayer} {kept : Nat → Bool}
  {s : SprdHWLayerList} {i : Nat} {l : AndroidLayer}

namespace Revisit

variable {cap : GspCapability} {count layerCount : Nat}

/-- The rule for the loop over the video layers: `Q` holds with the layers that are left. -/
theorem videoLoop_rule {Q : List Nat → Revisit → Prop}
    (hentry : ∀ i rest v, Q (i :: rest) v →
      (v.list.mVideoLayerList[count - (rest.length + 1)]?).join = some i)
    (hstep : ∀ i rest v, Q (i :: rest) v → Q rest (v.visitVideo cap count i)) :
    ∀ rest v, Q rest v → ∃ v', videoLoop cap count rest.length v = some v' ∧ Q [] v' := by
  intro rest
  induction rest with
  | nil => exact fun v h => ⟨v, rfl, h⟩
  | cons i rest ih =>
    intro v h
    obtain ⟨v', hloop, hQ⟩ := ih _ (hstep i rest v h)
    refine ⟨v', ?_, hQ⟩
    simp only [List.length_cons, videoLoop, hentry i rest v h]
    exact hloop

/-- The same for the OSD layers, none of which is a single one. -/
theorem osdLoop_rule {Q : List Nat → Revisit → Prop}
    (hentry : ∀ i rest v, Q (i :: rest) v →
      (v.list.mOSDLayerList[count - (rest.length + 1)]?).join = some i)
    (hstep : ∀ i rest v, Q (i :: rest) v → Q rest (v.visitOSD cap layerCount i) ∧
      (v.visitOSD cap layerCount i).singleRGBLayerCond = false) :
    ∀ rest v, Q rest v →
      ∃ v', osdLoop cap layerCount count rest.length v = some v' ∧ Q [] v' := by
  intro rest
  induction rest with
  | nil => exact fun v h => ⟨v, rfl, h⟩
  | cons i rest ih =>
    intro v h
    obtain ⟨hnext, hsingle⟩ := hstep i rest v h
    obtain ⟨v', hloop, hQ⟩ := ih _ hnext
    refine ⟨v', ?_, hQ⟩
    simp only [List.length_cons, osdLoop, hentry i rest v h]
    simpa [hsingle] using hloop

end Revisit

namespace HwcEnv

/-- The GSP does not blend the video layers with the rest. -/
def refuses (env : HwcEnv) (cap : GspCapability) (ls : List AndroidLayer) : Bool :=
  ls.countP env.isFB > ls.countP env.takesBoth ||
    (!cap.blendVideoWithOSD && 0 < (env.places .osd ls).length) ||
    cap.maxLayerCntWithVideo.toNat < (env.places .overlay ls).length + (env.places .osd ls).length

end HwcEnv

/-- Where all layers are still there. -/
theorem Kept.fbCount_of_all (h : Kept env p ls (fun _ => true) s) :
    s.mFBLayerCount = (ls.countP env.isFB : Int) - ls.countP env.takesBoth ∧
      s.mOSDLayerCount = (env.places .osd ls).length ∧
      s.mVideoLayerCount = (env.places .overlay ls).length := by
  have hosd : s.mOSDLayerCount = (env.places .osd ls).length := by
    simpa [countOf] using h.count_eq .osd (by simp)
  have hvideo : s.mVideoLayerCount = (env.places .overlay ls).length := by
    simpa [countOf] using h.count_eq .overlay (by simp)
  have hfb := h.fbCount_eq
  exact ⟨by omega, hosd, hvideo⟩

namespace Revisit

variable {cap : GspCapability} {count layerCount : Nat}

/-- More video layers than the GSP takes. -/
theorem videoLoop_exceeds (cap : GspCapability) (h : Kept env p ls (fun _ => true) s)
    (hv : cap.maxVideoLayerCnt.toNat < (env.places .overlay ls).length) :
    ∃ s', videoLoop cap (env.places .overlay ls).length (env.places .overlay ls).length
        ⟨s, none, none, false, false, false⟩ = some ⟨s', none, none, false, false, false⟩ ∧
      Kept env p ls (fun i => decide (i ∉ env.places .overlay ls)) s' := by
  let Q : List Nat → Revisit → Prop := fun rest v => ∃ done s',
    env.places .overlay ls = done ++ rest ∧ v = ⟨s', none, none, false, false, false⟩ ∧
      Kept env p ls (fun i => decide (i ∉ done)) s'
  have hnodup := nodup_places env ls .overlay
  have hunvisited : ∀ {done rest : List Nat} {i : Nat},
      env.places .overlay ls = done ++ i :: rest → i ∉ done := by
    intro done rest i hplaces hi
    rw [hplaces] at hnodup
    exact (List.nodup_append.mp hnodup).2.2 i hi i (by simp) rfl
  have hentry : ∀ i rest v, Q (i :: rest) v →
      (v.list.mVideoLayerList[(env.places .overlay ls).length - (rest.length + 1)]?).join =
        some i := by
    rintro i rest _ ⟨done, s', hplaces, rfl, hkept⟩
    exact hkept.entry (t := .overlay) (by simp) hplaces (by simpa using hunvisited hplaces)
  have hstep : ∀ i rest v, Q (i :: rest) v →
      Q rest (v.visitVideo cap (env.places .overlay ls).length i) := by
    rintro i rest _ ⟨done, s', hplaces, rfl, hkept⟩
    obtain ⟨l, hl, ht⟩ := mem_places.mp (hplaces ▸ List.mem_append_right done List.mem_cons_self)
    have hi : decide (i ∉ done) = true := by simpa using hunvisited hplaces
    refine ⟨done ++ [i], s'.giveBack i, by simpa using hplaces, ?_, ?_⟩
    · have hcheck := (hkept.layer hl (by simp [ht])).1
      have hcount : ((env.places .overlay ls).length : Int) > cap.maxVideoLayerCnt.toNat := by omega
      simp [visitVideo, hcheck.trans hi, hcount]
    · have hnext := hkept.giveBack hl (by simp [ht]) hi
      refine cast (congrArg (fun k => Kept env p ls k (s'.giveBack i)) ?_) hnext
      funext j
      by_cases hj : j = i <;> simp [hj]
  obtain ⟨v', hloop, done, s', hplaces, rfl, hkept⟩ := videoLoop_rule hentry hstep
    (env.places .overlay ls) _ ⟨[], s, rfl, rfl, by simpa using h⟩
  rw [List.append_nil] at hplaces
  exact ⟨s', hloop, hplaces ▸ hkept⟩

theorem refuses_iff (cap : GspCapability) (h : Kept env p ls (fun _ => true) s) :
    (s.mFBLayerCount > 0 ∨ cap.blendVideoWithOSD = false ∧ s.mOSDLayerCount > 0 ∨
      ((env.places .overlay ls).length : Int) + s.mOSDLayerCount > cap.maxLayerCntWithVideo.toNat) ↔
      env.refuses cap ls = true := by
  obtain ⟨hfb, hosd, -⟩ := h.fbCount_of_all
  rw [hfb, hosd]
  simp only [refuses, Bool.or_eq_true, Bool.and_eq_true, Bool.not_eq_true', decide_eq_true_eq]
  constructor
  · rintro (hf | ⟨hb, ho⟩ | hm)
    · exact Or.inl (Or.inl (by omega))
    · exact Or.inl (Or.inr ⟨hb, by omega⟩)
    · exact Or.inr (by omega)
  · rintro ((hf | ⟨hb, ho⟩) | hm)
    · exact Or.inl (by omega)
    · exact Or.inr (Or.inl ⟨hb, by omega⟩)
    · exact Or.inr (Or.inr (by omega))

/-- As many video layers as the GSP takes: the last one decides whether the GSP is to blend. -/
theorem videoLoop_fits (cap : GspCapability) (h : Kept env p ls (fun _ => true) s)
    (hv : (env.places .overlay ls).length ≤ cap.maxVideoLayerCnt.toNat) :
    ∃ s', videoLoop cap (env.places .overlay ls).length (env.places .overlay ls).length
        ⟨s, none, none, false, false, false⟩ =
          some ⟨s', (env.places .overlay ls).getLast?, none,
            (env.places .overlay ls).getLast?.any fun i =>
              !env.refuses cap ls && (s.mLayerList i).sprd.mAccelerator.isGXP, false, false⟩ ∧
      Kept env p ls (fun _ => true) s' := by
  let Q : List Nat → Revisit → Prop := fun rest v => ∃ done s',
    env.places .overlay ls = done ++ rest ∧
      v = ⟨s', done.getLast?, none, done.getLast?.any fun i =>
        !env.refuses cap ls && (s.mLayerList i).sprd.mAccelerator.isGXP, false, false⟩ ∧
      Kept env p ls (fun _ => true) s' ∧ ∀ i ∈ rest, s'.mLayerList i = s.mLayerList i
  have hentry : ∀ i rest v, Q (i :: rest) v →
      (v.list.mVideoLayerList[(env.places .overlay ls).length - (rest.length + 1)]?).join =
        some i := by
    rintro i rest _ ⟨done, s', hplaces, rfl, hkept, -⟩
    exact hkept.entry (t := .overlay) (by simp) hplaces rfl
  have hstep : ∀ i rest v, Q (i :: rest) v →
      Q rest (v.visitVideo cap (env.places .overlay ls).length i) := by
    rintro i rest _ ⟨done, s', hplaces, rfl, hkept, hsame⟩
    obtain ⟨l, hl, ht⟩ := mem_places.mp (hplaces ▸ List.mem_append_right done List.mem_cons_self)
    have hcheck := (hkept.layer hl (by simp [ht])).1
    have hcount : ¬((env.places .overlay ls).length : Int) > cap.maxVideoLayerCnt.toNat := by omega
    have hnodup := nodup_places env ls .overlay
    rw [hplaces] at hnodup
    have hnext : i ∉ rest := (List.nodup_cons.mp (List.nodup_append.mp hnodup).2.1).1
    have hdone : env.places .overlay ls = (done ++ [i]) ++ rest := by simpa using hplaces
    by_cases hrefuses : env.refuses cap ls = true
    · refine ⟨done ++ [i], _, hdone, ?_, hkept.setAccelerator hl ht .overlayComposer, ?_⟩
      · have hcond := (refuses_iff cap hkept).mpr hrefuses
        simp only [visitVideo, hcheck, not_true, if_false, if_neg hcount, if_pos hcond]
        simp [hrefuses, setLayerAccelerator]
      · intro j hj
        simp only [SprdHWLayerList.modify]
        rw [Function.update_of_ne (by rintro rfl; exact hnext hj)]
        exact hsame j (List.mem_cons_of_mem i hj)
    · refine ⟨done ++ [i], s', hdone, ?_, hkept, fun j hj => hsame j (List.mem_cons_of_mem i hj)⟩
      have hcond := mt (refuses_iff cap hkept).mp hrefuses
      simp only [visitVideo, hcheck, not_true, if_false, if_neg hcount, if_neg hcond]
      simp [hrefuses, hsame i List.mem_cons_self]
  obtain ⟨v', hloop, done, s', hplaces, rfl, hkept, -⟩ := videoLoop_rule hentry hstep
    (env.places .overlay ls) _ ⟨[], s, rfl, rfl, h, fun _ _ => rfl⟩
  rw [List.append_nil] at hplaces
  exact ⟨s', hplaces ▸ hloop, hkept⟩

end Revisit

/-- The OSD layers of `done` were visited and those of `rest` were not; the other layers are as in
`start`. -/
structure Visiting (env : HwcEnv) (p : Bool) (ls : List AndroidLayer) (start : Nat → Bool)
    (done rest : List Nat) (kept : Nat → Bool) (s : SprdHWLayerList) : Prop where
  places_eq : env.places .osd ls = done ++ rest
  holds : Kept env p ls kept s
  rest_kept : ∀ i ∈ rest, kept i = true
  same : ∀ i, i ∉ env.places .osd ls → kept i = start i

namespace Visiting

variable {start : Nat → Bool} {done rest : List Nat}

theorem next_notMem (h : Visiting env p ls start done (i :: rest) kept s) :
    i ∉ done ∧ i ∉ rest := by
  have hnodup := nodup_places env ls .osd
  rw [h.places_eq] at hnodup
  have happend := List.nodup_append.mp hnodup
  exact ⟨fun hi => happend.2.2 i hi i List.mem_cons_self rfl, (List.nodup_cons.mp happend.2.1).1⟩

theorem next (h : Visiting env p ls start done (i :: rest) kept s) :
    ∃ l, ls[i]? = some l ∧ env.typeOf l = .osd ∧ kept i = true := by
  obtain ⟨l, hl, ht⟩ := mem_places.mp
    (h.places_eq ▸ List.mem_append_right done List.mem_cons_self : i ∈ env.places .osd ls)
  exact ⟨l, hl, ht, h.rest_kept i List.mem_cons_self⟩

theorem keep (h : Visiting env p ls start done (i :: rest) kept s) :
    Visiting env p ls start (done ++ [i]) rest kept s :=
  ⟨by simp [h.places_eq], h.holds, fun j hj => h.rest_kept j (List.mem_cons_of_mem i hj), h.same⟩

theorem giveBack (h : Visiting env p ls start done (i :: rest) kept s) :
    Visiting env p ls start (done ++ [i]) rest (Function.update kept i false) (s.giveBack i) := by
  obtain ⟨l, hl, ht, hi⟩ := h.next
  refine ⟨by simp [h.places_eq], h.holds.giveBack hl (by simp [ht]) hi, fun j hj => ?_,
    fun j hj => ?_⟩
  · rw [Function.update_of_ne (by rintro rfl; exact h.next_notMem.2 hj)]
    exact h.rest_kept j (List.mem_cons_of_mem i hj)
  · rw [Function.update_of_ne (by rintro rfl; exact hj (mem_places.mpr ⟨l, hl, ht⟩))]
    exact h.same j hj

theorem setAccelerator (h : Visiting env p ls start done rest kept s) {y : Nat} {ly : AndroidLayer}
    (hy : ls[y]? = some ly) (ht : env.typeOf ly = .overlay) (a : Accelerator) :
    Visiting env p ls start done rest kept
      (s.modify y fun l => { l with sprd := l.sprd.setLayerAccelerator a }) :=
  ⟨h.places_eq, h.holds.setAccelerator hy ht a, h.rest_kept, h.same⟩

theorem osdCount_pos (h : Visiting env p ls start done (i :: rest) kept s) :
    0 < s.mOSDLayerCount := by
  obtain ⟨l, hl, ht, hi⟩ := h.next
  have hcount := h.holds.count_eq .osd (by simp)
  simp only [countOf] at hcount
  have hpos : 0 < (env.places .osd ls).countP kept :=
    List.countP_pos_iff.mpr ⟨i, mem_places.mpr ⟨l, hl, ht⟩, hi⟩
  omega

theorem videoCount_eq (h : Visiting env p ls start done rest kept s) :
    s.mVideoLayerCount = (env.places .overlay ls).countP start := by
  have hcount := h.holds.count_eq .overlay (by simp)
  simp only [countOf] at hcount
  rw [hcount]
  congr 1
  apply List.countP_congr
  intro i hi
  obtain ⟨l, hl, ht⟩ := mem_places.mp hi
  rw [h.same i (notMem_places hl (by simp [ht]))]

theorem entry (h : Visiting env p ls start done (i :: rest) kept s) :
    (s.mOSDLayerList[(env.places .osd ls).length - (rest.length + 1)]?).join = some i :=
  h.holds.entry (t := .osd) (by simp) h.places_eq (h.rest_kept i List.mem_cons_self)

end Visiting

namespace HwcEnv

/-- The overlay composer is the accelerator of the layer. -/
def isOVC (env : HwcEnv) (l : AndroidLayer) : Bool :=
  (env.settled l).mAccelerator = .overlayComposer

end HwcEnv

namespace Revisit

variable {cap : GspCapability} {layerCount : Nat} {start : Nat → Bool} {done rest : List Nat}
  {v : Revisit}

/-- An OSD layer without a video layer below. -/
theorem visitOSD_none (h : Visiting env p ls start done (i :: rest) kept v.list)
    (hyuv : v.yuvLayer = none) (hl : ls[i]? = some l) (hsingle : layerCount ≠ 2) :
    v.visitOSD cap layerCount i =
      if v.list.mPrivateFlag ∧ v.list.mVideoLayerCount = 0 then
        { v with list := v.list.giveBack i, rgbLayer := some i }
      else if v.list.mOSDLayerCount > cap.maxLayerCnt.toNat ∨ v.list.mFBLayerCount > 0 ∨
          env.isOVC l then
        { v with list := v.list.giveBack i, rgbLayer := none, accelerateOSDByOVC := env.isOVC l }
      else { v with rgbLayer := some i, accelerateOSDByOVC := env.isOVC l } := by
  obtain ⟨l', hl', ht, hi⟩ := h.next
  obtain rfl : l = l' := Option.some_inj.mp (hl.symm.trans hl')
  have hcheck := (h.holds.layer hl (by simp [ht])).1
  have hsprd := h.holds.osd_eq i l hl ht
  have hpos := h.osdCount_pos
  simp only [visitOSD, hcheck, hi, hsprd, hyuv, isOVC]
  simp [hpos, hsingle]

/-- Without a video layer, the OSD layers all go back: where the overlay composer has the last of
them, where SurfaceFlinger composes another layer, where there are too many, and where the overlay
composer has the first one. -/
theorem osdLoop_resets (h : Visiting env p ls start [] (env.places .osd ls) kept v.list)
    (hyuv : v.yuvLayer = none) (hsingle : v.singleRGBLayerCond = false)
    (hcount : env.places .osd ls ≠ [] → layerCount ≠ 2) (hfb : 0 ≤ v.list.mFBLayerCount)
    (hreset : v.list.mPrivateFlag = true ∧ v.list.mVideoLayerCount = 0 ∨
      0 < v.list.mFBLayerCount ∨ (cap.maxLayerCnt.toNat : Int) < v.list.mOSDLayerCount ∨
      ∀ i ∈ (env.places .osd ls).head?, ∀ l, ls[i]? = some l → env.isOVC l = true) :
    ∃ v' kept', osdLoop cap layerCount (env.places .osd ls).length (env.places .osd ls).length v =
        some v' ∧ v'.yuvLayer = none ∧ v'.singleRGBLayerCond = false ∧
      Visiting env p ls start (env.places .osd ls) [] kept' v'.list ∧
      ∀ i ∈ env.places .osd ls, kept' i = false := by
  let Q : List Nat → Revisit → Prop := fun rest w => ∃ done kept',
    w.yuvLayer = none ∧ w.singleRGBLayerCond = false ∧ 0 ≤ w.list.mFBLayerCount ∧
      Visiting env p ls start done rest kept' w.list ∧ (∀ i ∈ done, kept' i = false) ∧
      (w.list.mPrivateFlag = true ∧ w.list.mVideoLayerCount = 0 ∨ 0 < w.list.mFBLayerCount ∨
        (cap.maxLayerCnt.toNat : Int) < w.list.mOSDLayerCount ∨
        ∀ i ∈ rest.head?, ∀ l, ls[i]? = some l → env.isOVC l = true)
  have hstep : ∀ i rest w, Q (i :: rest) w → Q rest (w.visitOSD cap layerCount i) ∧
      (w.visitOSD cap layerCount i).singleRGBLayerCond = false := by
    rintro i rest w ⟨done, kept', hw, hws, hwfb, hvisit, hback, hcond⟩
    obtain ⟨l, hl, -, -⟩ := hvisit.next
    have hnow : ∀ j ∈ done ++ [i], Function.update kept' i false j = false := by
      intro j hj
      by_cases hji : j = i
      · rw [hji, Function.update_self]
      · rw [Function.update_of_ne hji]
        exact hback j (by simpa [hji] using hj)
    have hmore : 0 ≤ (w.list.giveBack i).mFBLayerCount ∧ 0 < (w.list.giveBack i).mFBLayerCount := by
      simp only [SprdHWLayerList.giveBack]
      omega
    rw [visitOSD_none hvisit hw hl (hcount (by simp [hvisit.places_eq]))]
    by_cases hprivate : w.list.mPrivateFlag = true ∧ w.list.mVideoLayerCount = 0
    · rw [if_pos hprivate]
      exact ⟨⟨done ++ [i], _, hw, hws, hmore.1, hvisit.giveBack, hnow,
        Or.inr (Or.inl hmore.2)⟩, hws⟩
    · have hgo : w.list.mOSDLayerCount > cap.maxLayerCnt.toNat ∨ w.list.mFBLayerCount > 0 ∨
          env.isOVC l = true := by
        rcases hcond with hc | hc | hc | hc
        · exact absurd hc hprivate
        · exact Or.inr (Or.inl hc)
        · exact Or.inl hc
        · exact Or.inr (Or.inr (hc i (by simp) l hl))
      rw [if_neg hprivate, if_pos hgo]
      exact ⟨⟨done ++ [i], _, hw, hws, hmore.1, hvisit.giveBack, hnow,
        Or.inr (Or.inl hmore.2)⟩, hws⟩
  have hentry : ∀ i rest w, Q (i :: rest) w →
      (w.list.mOSDLayerList[(env.places .osd ls).length - (rest.length + 1)]?).join = some i := by
    rintro i rest w ⟨done, kept', -, -, -, hvisit, -, -⟩
    exact hvisit.entry
  obtain ⟨v', hloop, done, kept', hv, hvs, -, hvisit, hback, -⟩ := osdLoop_rule hentry hstep
    (env.places .osd ls) v ⟨[], kept, hyuv, hsingle, hfb, h, by simp, hreset⟩
  have hdone : done = env.places .osd ls := by simpa using hvisit.places_eq.symm
  exact ⟨v', kept', hloop, hv, hvs, hdone ▸ hvisit, hdone ▸ hback⟩

/-- Otherwise the first OSD layer stays, and either all of them do or SurfaceFlinger gets some. -/
theorem osdLoop_keeps (cap : GspCapability)
    (h : Visiting env p ls start [] (env.places .osd ls) kept v.list)
    (hyuv : v.yuvLayer = none) (hsingle : v.singleRGBLayerCond = false)
    (hcount : env.places .osd ls ≠ [] → layerCount ≠ 2) (hfb : v.list.mFBLayerCount = 0)
    (hprivate : ¬(v.list.mPrivateFlag = true ∧ v.list.mVideoLayerCount = 0))
    (hmax : v.list.mOSDLayerCount ≤ cap.maxLayerCnt.toNat)
    (hfirst : ∀ i ∈ (env.places .osd ls).head?, ∀ l, ls[i]? = some l → env.isOVC l = false) :
    ∃ v' kept', osdLoop cap layerCount (env.places .osd ls).length (env.places .osd ls).length v =
        some v' ∧ v'.yuvLayer = none ∧ v'.singleRGBLayerCond = false ∧
      Visiting env p ls start (env.places .osd ls) [] kept' v'.list ∧
      ((∀ i ∈ env.places .osd ls, kept' i = true ∧ ∀ l, ls[i]? = some l → env.isOVC l = false) ∧
          v'.list.mFBLayerCount = 0 ∨
        0 < v'.list.mFBLayerCount ∧ (∃ i ∈ env.places .osd ls, kept' i = true) ∧
          ∃ i ∈ env.places .osd ls, ∃ l, ls[i]? = some l ∧ env.isOVC l = true) := by
  let Q : List Nat → Revisit → Prop := fun rest w => ∃ done kept',
    w.yuvLayer = none ∧ w.singleRGBLayerCond = false ∧
      Visiting env p ls start done rest kept' w.list ∧
      ((∀ i ∈ done, kept' i = true ∧ ∀ l, ls[i]? = some l → env.isOVC l = false) ∧
          w.list.mFBLayerCount = 0 ∧ w.list.mOSDLayerCount ≤ cap.maxLayerCnt.toNat ∨
        0 < w.list.mFBLayerCount ∧ (∃ i ∈ done, kept' i = true) ∧
          ∃ i ∈ done, ∃ l, ls[i]? = some l ∧ env.isOVC l = true)
  have hstep : ∀ i rest w, Q (i :: rest) w → Q rest (w.visitOSD cap layerCount i) ∧
      (w.visitOSD cap layerCount i).singleRGBLayerCond = false := by
    rintro i rest w ⟨done, kept', hw, hws, hvisit, hcond⟩
    obtain ⟨l, hl, -, hi⟩ := hvisit.next
    have hpriv : ¬(w.list.mPrivateFlag = true ∧ w.list.mVideoLayerCount = 0) := by
      rw [hvisit.holds.private_eq, hvisit.videoCount_eq, ← h.holds.private_eq, ← h.videoCount_eq]
      exact hprivate
    have hmore : (w.list.giveBack i).mFBLayerCount = w.list.mFBLayerCount + 1 := rfl
    have hother : ∀ j ∈ done, Function.update kept' i false j = kept' j := fun j hj =>
      Function.update_of_ne (by rintro rfl; exact hvisit.next_notMem.1 hj) _ _
    rw [visitOSD_none hvisit hw hl (hcount (by simp [hvisit.places_eq])), if_neg hpriv]
    rcases hcond with ⟨hall, hzero, hle⟩ | ⟨hpos, ⟨j, hj, hjk⟩, j', hj', l', hl', hovc⟩
    · cases hovc : env.isOVC l with
      | true =>
        -- the first layer is no such layer, and so one before it stays
        have hne : done ≠ [] := by
          rintro rfl
          have := hfirst i (by simp [hvisit.places_eq]) l hl
          simp [hovc] at this
        obtain ⟨j, hj⟩ := List.exists_mem_of_ne_nil done hne
        rw [if_pos (Or.inr (Or.inr rfl))]
        refine ⟨⟨done ++ [i], _, hw, hws, hvisit.giveBack, Or.inr ⟨?_, ⟨j, by simp [hj], ?_⟩, i,
          by simp, l, hl, hovc⟩⟩, hws⟩
        · simp only [hmore]
          omega
        · rw [hother j hj]
          exact (hall j hj).1
      | false =>
        rw [if_neg (by rintro (hc | hc | hc) <;> first | omega | exact absurd hc (by simp))]
        refine ⟨⟨done ++ [i], kept', hw, hws, hvisit.keep, Or.inl ⟨fun j hj => ?_, hzero, hle⟩⟩,
          hws⟩
        rcases List.mem_append.mp hj with hj | hj
        · exact hall j hj
        · obtain rfl := List.mem_singleton.mp hj
          refine ⟨hi, fun l' hl' => ?_⟩
          rw [← Option.some_inj.mp (hl.symm.trans hl'), hovc]
    · rw [if_pos (Or.inr (Or.inl hpos))]
      refine ⟨⟨done ++ [i], _, hw, hws, hvisit.giveBack, Or.inr ⟨?_, ⟨j, by simp [hj], ?_⟩, j',
        by simp [hj'], l', hl', hovc⟩⟩, hws⟩
      · simp only [hmore]
        omega
      · rw [hother j hj, hjk]
  have hentry : ∀ i rest w, Q (i :: rest) w →
      (w.list.mOSDLayerList[(env.places .osd ls).length - (rest.length + 1)]?).join = some i := by
    rintro i rest w ⟨done, kept', -, -, hvisit, -⟩
    exact hvisit.entry
  obtain ⟨v', hloop, done, kept', hv, hvs, hvisit, hcond⟩ := osdLoop_rule hentry hstep
    (env.places .osd ls) v ⟨[], kept, hyuv, hsingle, h, Or.inl ⟨by simp, hfb, hmax⟩⟩
  obtain rfl : done = env.places .osd ls := by simpa using hvisit.places_eq.symm
  refine ⟨v', kept', hloop, hv, hvs, hvisit, ?_⟩
  exact hcond.imp (fun hc => ⟨hc.1, hc.2.1⟩) id

/-- An OSD layer with a video layer in the list: above it and with the GSP for its accelerator, it
changes nothing. -/
theorem visitOSD_some (cap : GspCapability) {y : Nat} {ly : AndroidLayer}
    (hy : ls[y]? = some ly) (hty : env.typeOf ly = .overlay)
    (h : Visiting env p ls start done (i :: rest) kept v.list) (hstart : start y = true)
    (hyuv : v.yuvLayer = some y) (hl : ls[i]? = some l) (hsingle : layerCount ≠ 2) :
    ∃ w kept' rgb b, v.visitOSD cap layerCount i =
        { v with list := w, rgbLayer := rgb, accelerateVideoByGSP := b,
                 accelerateOSDByOVC := env.isOVC l } ∧
      Visiting env p ls start (done ++ [i]) rest kept' w ∧
      (b = true → v.accelerateVideoByGSP = true) ∧
      (v.list.mOSDLayerCount + v.list.mVideoLayerCount ≤ cap.maxLayerCntWithVideo.toNat →
        (b = true ↔ v.accelerateVideoByGSP = true ∧ y < i ∧ env.isOVC l = false) ∧
        (y < i → kept' = kept)) := by
  obtain ⟨l', hl', ht, hi⟩ := h.next
  obtain rfl : l = l' := Option.some_inj.mp (hl.symm.trans hl')
  have hiy : i ≠ y := by
    rintro rfl
    obtain rfl : l = ly := Option.some_inj.mp (hl.symm.trans hy)
    exact absurd (ht.symm.trans hty) (by simp)
  obtain ⟨hcheck, hindex, -⟩ := h.holds.layer hl (by simp [ht])
  obtain ⟨-, hindexy, -⟩ := h.holds.layer hy (by simp [hty])
  have hsprd := h.holds.osd_eq i l hl ht
  have hpos := h.osdCount_pos
  have hvideo : v.list.mVideoLayerCount ≠ 0 := by
    rw [h.videoCount_eq]
    have : 0 < (env.places .overlay ls).countP start :=
      List.countP_pos_iff.mpr ⟨y, mem_places.mpr ⟨ly, hy, hty⟩, hstart⟩
    omega
  have hboth : (v.list.mLayerList y).mLayerIndex < (v.list.mLayerList i).mLayerIndex ↔ y < i := by
    rw [hindex, hindexy]
    omega
  by_cases hyi : y < i
  · by_cases hmax : v.list.mOSDLayerCount + v.list.mVideoLayerCount > cap.maxLayerCntWithVideo.toNat
    · refine ⟨v.list.giveBack i, _, none, v.accelerateVideoByGSP, ?_, h.giveBack, id, fun hle => ?_⟩
      · simp [visitOSD, hcheck, hi, hvideo, hsingle, hyuv, hboth, hyi, hmax, hsprd, isOVC]
      · omega
    · cases hovc : env.isOVC l with
      | true =>
        refine ⟨_, _, some i, false, ?_, h.keep.setAccelerator hy hty .overlayComposer, by simp,
          fun _ => ⟨by simp, fun _ => rfl⟩⟩
        have hl' : (env.settled l).mAccelerator = .overlayComposer := by simpa [isOVC] using hovc
        simp [visitOSD, hcheck, hi, hvideo, hsingle, hyuv, hboth, hyi, hmax, hsprd, hl',
          setLayerAccelerator]
      | false =>
        refine ⟨_, _, some i, v.accelerateVideoByGSP, ?_, h.keep, id,
          fun _ => ⟨by simp [hyi], fun _ => rfl⟩⟩
        have hl' : (env.settled l).mAccelerator ≠ .overlayComposer := by simpa [isOVC] using hovc
        simp [visitOSD, hcheck, hi, hvideo, hsingle, hyuv, hboth, hyi, hmax, hsprd, hl']
  · by_cases hreset : v.list.mOSDLayerCount > cap.maxLayerCnt.toNat ∨ v.list.mFBLayerCount > 0 ∨
        env.isOVC l = true
    · refine ⟨_, _, none, false, ?_, (h.setAccelerator hy hty .overlayComposer).giveBack, by simp,
        fun _ => ⟨by simp [hyi], fun hlt => absurd hlt hyi⟩⟩
      simp only [isOVC, decide_eq_true_eq, gt_iff_lt] at hreset
      simp [visitOSD, hcheck, hi, hvideo, hsingle, hyuv, hboth, hyi, hreset, hpos, hsprd, isOVC,
        setLayerAccelerator]
    · refine ⟨_, _, some i, false, ?_, (h.setAccelerator hy hty .overlayComposer).keep, by simp,
        fun _ => ⟨by simp [hyi], fun hlt => absurd hlt hyi⟩⟩
      simp only [isOVC, decide_eq_true_eq, gt_iff_lt] at hreset
      simp only [not_or, Int.not_lt] at hreset
      simp [visitOSD, hcheck, hi, hvideo, hsingle, hyuv, hboth, hyi, hreset, hpos, hsprd, isOVC,
        setLayerAccelerator]

/-- The OSD layers behind a video layer at `y`: the GSP blends them all, or the video layer goes to
the overlay composer. -/
theorem osdLoop_some (cap : GspCapability) (layerCount : Nat) {y : Nat} {ly : AndroidLayer}
    (hy : ls[y]? = some ly) (hty : env.typeOf ly = .overlay)
    (h : Kept env p ls (fun _ => true) v.list) (hyuv : v.yuvLayer = some y)
    (hsingle : v.singleRGBLayerCond = false)
    (hcount : env.places .osd ls ≠ [] → layerCount ≠ 2)
    (hmax : v.accelerateVideoByGSP = true →
      v.list.mOSDLayerCount + v.list.mVideoLayerCount ≤ cap.maxLayerCntWithVideo.toNat) :
    ∃ v' kept', osdLoop cap layerCount (env.places .osd ls).length (env.places .osd ls).length v =
        some v' ∧ v'.yuvLayer = some y ∧ v'.singleRGBLayerCond = false ∧
      Kept env p ls kept' v'.list ∧
      (v'.accelerateVideoByGSP = true → ∀ i, kept' i = true) ∧
      (v'.accelerateVideoByGSP = true ↔ v.accelerateVideoByGSP = true ∧
        ∀ i ∈ env.places .osd ls, y < i ∧ ∀ l, ls[i]? = some l → env.isOVC l = false) := by
  let start : Nat → Bool := fun _ => true
  let Q : List Nat → Revisit → Prop := fun rest w => ∃ done kept',
    w.yuvLayer = some y ∧ w.singleRGBLayerCond = false ∧
      Visiting env p ls start done rest kept' w.list ∧
      (w.accelerateVideoByGSP = true → kept' = start) ∧
      (w.accelerateVideoByGSP = true ↔ v.accelerateVideoByGSP = true ∧
        ∀ i ∈ done, y < i ∧ ∀ l, ls[i]? = some l → env.isOVC l = false)
  have hstep : ∀ i rest w, Q (i :: rest) w → Q rest (w.visitOSD cap layerCount i) ∧
      (w.visitOSD cap layerCount i).singleRGBLayerCond = false := by
    rintro i rest w ⟨done, kept', hw, hws, hvisit, hall, hiff⟩
    obtain ⟨l, hl, -, hi⟩ := hvisit.next
    obtain ⟨list, kept'', rgb, b, hnext, hvisit', hb, hle⟩ :=
      visitOSD_some cap hy hty hvisit rfl hw hl (hcount (by simp [hvisit.places_eq]))
    rw [hnext]
    -- as long as the GSP is to blend, no layer went back
    have hblend : w.accelerateVideoByGSP = true →
        (b = true ↔ w.accelerateVideoByGSP = true ∧ y < i ∧ env.isOVC l = false) ∧
          (y < i → kept'' = kept') := by
      intro haccel
      apply hle
      have hkept : Kept env p ls start w.list := by
        rw [← hall haccel]
        exact hvisit.holds
      have hbound := hmax (hiff.mp haccel).1
      have hv := h.fbCount_of_all
      have hw := hkept.fbCount_of_all
      rw [hw.2.1, hw.2.2, ← hv.2.1, ← hv.2.2]
      exact hbound
    refine ⟨⟨done ++ [i], kept'', hw, hws, hvisit', fun hbt => ?_, ?_⟩, hws⟩
    · obtain ⟨hbiff, hsame⟩ := hblend (hb hbt)
      rw [hsame (hbiff.mp hbt).2.1, hall (hb hbt)]
    · constructor
      · intro hbt
        obtain ⟨hbiff, -⟩ := hblend (hb hbt)
        obtain ⟨haccel, hdone⟩ := hiff.mp (hb hbt)
        refine ⟨haccel, fun j hj => ?_⟩
        rcases List.mem_append.mp hj with hj | hj
        · exact hdone j hj
        · obtain rfl := List.mem_singleton.mp hj
          refine ⟨(hbiff.mp hbt).2.1, fun l' hl' => ?_⟩
          rw [← Option.some_inj.mp (hl.symm.trans hl')]
          exact (hbiff.mp hbt).2.2
      · rintro ⟨haccel, hdone⟩
        have hw' := hiff.mpr ⟨haccel, fun j hj => hdone j (List.mem_append_left _ hj)⟩
        have hi' := hdone i (by simp)
        exact (hblend hw').1.mpr ⟨hw', hi'.1, hi'.2 l hl⟩
  have hentry : ∀ i rest w, Q (i :: rest) w →
      (w.list.mOSDLayerList[(env.places .osd ls).length - (rest.length + 1)]?).join = some i := by
    rintro i rest w ⟨done, kept', -, -, hvisit, -⟩
    exact hvisit.entry
  obtain ⟨v', hloop, done, kept', hv, hvs, hvisit, hall, hiff⟩ := osdLoop_rule hentry hstep
    (env.places .osd ls) v
    ⟨[], start, hyuv, hsingle, ⟨rfl, h, fun _ _ => rfl, fun _ _ => rfl⟩, fun _ => rfl, by simp⟩
  obtain rfl : done = env.places .osd ls := by simpa using hvisit.places_eq.symm
  exact ⟨v', kept', hloop, hv, hvs, hvisit.holds, fun ht => by simp [hall ht, start], hiff⟩

end Revisit

end SprdHal.Hwc
