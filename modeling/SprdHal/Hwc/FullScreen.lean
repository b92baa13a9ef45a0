import Mathlib.Data.List.FinRange
import Mathlib.Data.List.Induction
import SprdHal.Hwc.Layer
import SprdHal.Lib.Rects
import SprdHal.Lib.Reorder

/-!
# Two layers for the whole screen (`SprdUtil.cpp`)

The GSP blends the layers from the bottom of the list to its top, two in a step. `full_screen_check`
tells whether the first two of them leave nothing of the screen out, so that it takes a single step
to blend them. It looks at sizes, areas and corners. If neither of the two is as large as the
screen, a layer that overlaps no other layer is moved to the second place first.

For layers inside the screen both are right (`full_screen_check_sound`): the first two layers cover
the screen, and layers that overlap stay in their order.
-/

namespace SprdHal.Hwc

/-- `FrameBufferInfo` -/
structure FrameBufferInfo where
  fbWidth : Int32
  fbHeight : Int32
  deriving DecidableEq

/-- `struct sprdPoint` -/
structure SprdPoint where
  x : UInt32
  y : UInt32
  deriving DecidableEq

/-! ## Tests of the first two layers -/

/-- `RegionEqualCheck`, which does not look at the origin. -/
def regionEqualCheck (layer : SprdHWLayer) (dstRegion : SprdRect) : Bool :=
  layer.fbRect.w = dstRegion.w ∧ layer.fbRect.h = dstRegion.h

/-- `compositeAreaCheck` -/
def compositeAreaCheck (layerList : List SprdHWLayer) (dstRegion : SprdRect) : Bool :=
  (layerList.take 2).foldl (fun sumArea l => sumArea + l.fbRect.w * l.fbRect.h) 0 ≥
    dstRegion.w * dstRegion.h

/-- `gen_points_from_rect` -/
def genPointsFromRect (r : SprdRect) : List SprdPoint :=
  [⟨r.x, r.y⟩, ⟨r.x + r.w, r.y⟩, ⟨r.x + r.w, r.y + r.h⟩, ⟨r.x, r.y + r.h⟩]

/-- `compositePointCheck` -/
def compositePointCheck (layerList : List SprdHWLayer) (dstRegion : SprdRect) : Bool :=
  let srcPoints := (layerList.take 2).flatMap fun l => genPointsFromRect l.fbRect
  (genPointsFromRect dstRegion).countP (· ∈ srcPoints) = 4

/-! ## The independent layer -/

/-- One of the rectangles ends before the other begins. -/
def separated (other candidate : SprdRect) : Bool :=
  other.x + other.w ≤ candidate.x ∨ other.y + other.h ≤ candidate.y ∨
    other.x ≥ candidate.x + candidate.w ∨ other.y ≥ candidate.y + candidate.h

/-- `findAnIndependentLayer`; the first layer is no candidate, and -1 is `none`. -/
def findAnIndependentLayer (layerList : List SprdHWLayer) : Option (Fin layerList.length) :=
  (List.finRange layerList.length).find? fun j => j.val ≠ 0 ∧
    (List.finRange layerList.length).countP
      (fun i => i ≠ j ∧ separated layerList[i].fbRect layerList[j].fbRect) = layerList.length - 1

/-- The loop that makes room in the second place of the list, and stores `tempLayer` there. -/
def moveToSecond (tempLayer : SprdHWLayer) : List SprdHWLayer → Nat → List SprdHWLayer
  | layerList, i + 2 =>
    moveToSecond tempLayer (layerList.set (i + 2) (layerList.getD (i + 1) tempLayer)) (i + 1)
  | layerList, i => layerList.set i tempLayer

/-- The part of `full_screen_check` that moves the independent layer. -/
def adjustIndependentLayer (layerList : List SprdHWLayer) : List SprdHWLayer :=
  if layerList.length > 2 then
    match findAnIndependentLayer layerList with
    | some i => moveToSecond layerList[i] layerList i
    | none => layerList
  else layerList

/-- `full_screen_check` of a list of at least two layers: what it returns, and the list after it.
The pointers are not NULL. -/
def fullScreenCheck (layerList : List SprdHWLayer) (fbInfo : FrameBufferInfo) :
    Int × List SprdHWLayer :=
  let dstRegion : SprdRect := ⟨0, 0, fbInfo.fbWidth.toUInt32, fbInfo.fbHeight.toUInt32⟩
  if (layerList.take 2).any (regionEqualCheck · dstRegion) then (1, layerList)
  else
    let layerList := adjustIndependentLayer layerList
    if compositeAreaCheck layerList dstRegion ∧ compositePointCheck layerList dstRegion then
      (1, layerList)
    else (0, layerList)

/-! ## Rectangles -/

/-- The pixels that a rectangle is for. -/
def SprdRect.toRect (r : SprdRect) : Rect := ⟨r.x.toNat, r.y.toNat, r.w.toNat, r.h.toNat⟩

def SprdPoint.toPair (p : SprdPoint) : Nat × Nat := (p.x.toNat, p.y.toNat)

/-- The width and the height of the screen, as the check has them. -/
def FrameBufferInfo.width (fbInfo : FrameBufferInfo) : Nat := fbInfo.fbWidth.toUInt32.toNat

def FrameBufferInfo.height (fbInfo : FrameBufferInfo) : Nat := fbInfo.fbHeight.toUInt32.toNat

/-- The destination of the layer is inside of the screen. -/
def SprdHWLayer.OnScreen (fbInfo : FrameBufferInfo) (l : SprdHWLayer) : Prop :=
  l.fbRect.toRect.Inside fbInfo.width fbInfo.height

instance (fbInfo : FrameBufferInfo) (l : SprdHWLayer) : Decidable (l.OnScreen fbInfo) :=
  inferInstanceAs (Decidable (Rect.Inside _ _ _))

/-- The destinations of the two layers have a pixel in common. -/
def SprdHWLayer.Overlaps (l m : SprdHWLayer) : Prop := l.fbRect.toRect.Overlaps m.fbRect.toRect

variable {fbInfo : FrameBufferInfo} {l m : SprdHWLayer}

theorem toNat_add_of_le {a b W : UInt32} (h : a.toNat + b.toNat ≤ W.toNat) :
    (a + b).toNat = a.toNat + b.toNat := by
  have := W.toNat_lt
  rw [UInt32.toNat_add, Nat.mod_eq_of_lt (by omega)]

namespace SprdHWLayer.OnScreen

theorem right_eq (h : l.OnScreen fbInfo) :
    (l.fbRect.x + l.fbRect.w).toNat = l.fbRect.x.toNat + l.fbRect.w.toNat :=
  toNat_add_of_le h.1

theorem bottom_eq (h : l.OnScreen fbInfo) :
    (l.fbRect.y + l.fbRect.h).toNat = l.fbRect.y.toNat + l.fbRect.h.toNat :=
  toNat_add_of_le h.2

/-- The points of a rectangle are its corners. -/
theorem points_eq (h : l.OnScreen fbInfo) :
    (genPointsFromRect l.fbRect).map SprdPoint.toPair = l.fbRect.toRect.corners := by
  simp only [genPointsFromRect, List.map_cons, List.map_nil, SprdPoint.toPair, h.right_eq,
    h.bottom_eq, Rect.corners, SprdRect.toRect]

/-- Layers inside the screen that the test tells apart. -/
theorem not_overlaps (hl : l.OnScreen fbInfo) (hm : m.OnScreen fbInfo)
    (h : separated l.fbRect m.fbRect) : ¬l.Overlaps m := by
  apply Rect.not_overlaps
  simpa only [separated, decide_eq_true_eq, UInt32.le_iff_toNat_le, ge_iff_le, hl.right_eq,
    hl.bottom_eq, hm.right_eq, hm.bottom_eq, SprdRect.toRect] using h

/-- A layer inside the screen that has the size of the screen. -/
theorem cover_of_equal (hl : l.OnScreen fbInfo)
    (h : regionEqualCheck l ⟨0, 0, fbInfo.fbWidth.toUInt32, fbInfo.fbHeight.toUInt32⟩) (r : Rect) :
    Rect.Cover fbInfo.width fbInfo.height l.fbRect.toRect r := by
  simp only [regionEqualCheck, decide_eq_true_eq] at h
  obtain ⟨hw, hh⟩ := h
  obtain ⟨hx, hy⟩ := hl
  have hw' : l.fbRect.toRect.w = fbInfo.width := congrArg UInt32.toNat hw
  have hh' : l.fbRect.toRect.h = fbInfo.height := congrArg UInt32.toNat hh
  exact Rect.cover_of_whole r (by omega) (by omega) (by omega) (by omega)

end SprdHWLayer.OnScreen

/-! ## The first two layers cover the screen -/

section checks

variable {rest : List SprdHWLayer}

/-- The sum of the two areas may wrap around, which makes it smaller. -/
theorem area_of_check (harea : fbInfo.width * fbInfo.height < 2 ^ 32)
    (h : compositeAreaCheck (l :: m :: rest)
      ⟨0, 0, fbInfo.fbWidth.toUInt32, fbInfo.fbHeight.toUInt32⟩) :
    fbInfo.width * fbInfo.height ≤
      l.fbRect.toRect.w * l.fbRect.toRect.h + m.fbRect.toRect.w * m.fbRect.toRect.h := by
  simp only [compositeAreaCheck, List.take_succ_cons, List.take_zero, List.foldl_cons,
    List.foldl_nil, decide_eq_true_eq, ge_iff_le, UInt32.le_iff_toNat_le, UInt32.toNat_add,
    UInt32.toNat_mul, UInt32.toNat_zero] at h
  have hscreen : fbInfo.fbWidth.toUInt32.toNat * fbInfo.fbHeight.toUInt32.toNat % 2 ^ 32 =
      fbInfo.width * fbInfo.height := Nat.mod_eq_of_lt harea
  rw [hscreen] at h
  have hl := Nat.mod_le (l.fbRect.w.toNat * l.fbRect.h.toNat) (2 ^ 32)
  have hm := Nat.mod_le (m.fbRect.w.toNat * m.fbRect.h.toNat) (2 ^ 32)
  simp only [SprdRect.toRect]
  omega

theorem corners_of_check (hl : l.OnScreen fbInfo) (hm : m.OnScreen fbInfo)
    (h : compositePointCheck (l :: m :: rest)
      ⟨0, 0, fbInfo.fbWidth.toUInt32, fbInfo.fbHeight.toUInt32⟩) :
    ∀ c ∈ Rect.corners ⟨0, 0, fbInfo.width, fbInfo.height⟩,
      c ∈ l.fbRect.toRect.corners ∨ c ∈ m.fbRect.toRect.corners := by
  simp only [compositePointCheck, List.take_succ_cons, List.take_zero, List.flatMap_cons,
    List.flatMap_nil, List.append_nil, decide_eq_true_eq] at h
  -- all four points count
  have hall := List.countP_eq_length.1 (h.trans rfl)
  have hscreen : (genPointsFromRect ⟨0, 0, fbInfo.fbWidth.toUInt32, fbInfo.fbHeight.toUInt32⟩).map
      SprdPoint.toPair = Rect.corners ⟨0, 0, fbInfo.width, fbInfo.height⟩ := by
    simp [genPointsFromRect, SprdPoint.toPair, Rect.corners, FrameBufferInfo.width,
      FrameBufferInfo.height]
  intro c hc
  rw [← hscreen, List.mem_map] at hc
  obtain ⟨p, hp, rfl⟩ := hc
  have hmem := hall p hp
  rw [decide_eq_true_eq, List.mem_append] at hmem
  rw [← hl.points_eq, ← hm.points_eq]
  exact hmem.imp (List.mem_map_of_mem) (List.mem_map_of_mem)

theorem cover_of_checks (harea : fbInfo.width * fbInfo.height < 2 ^ 32) (hl : l.OnScreen fbInfo)
    (hm : m.OnScreen fbInfo)
    (h : compositeAreaCheck (l :: m :: rest)
        ⟨0, 0, fbInfo.fbWidth.toUInt32, fbInfo.fbHeight.toUInt32⟩ ∧
      compositePointCheck (l :: m :: rest)
        ⟨0, 0, fbInfo.fbWidth.toUInt32, fbInfo.fbHeight.toUInt32⟩) :
    Rect.Cover fbInfo.width fbInfo.height l.fbRect.toRect m.fbRect.toRect :=
  Rect.covers_of_corners hl hm (area_of_check harea h.1) (corners_of_check hl hm h.2)

end checks

/-! ## The order of the layers -/

/-- The loop moves the layers behind the first one by one place. -/
theorem moveToSecond_eq (t a : SprdHWLayer) (mid : List SprdHWLayer) : ∀ (x : SprdHWLayer)
    (post : List SprdHWLayer), moveToSecond t (a :: (mid ++ x :: post)) (mid.length + 1) =
      a :: t :: (mid ++ post) := by
  induction mid using List.reverseRec with
  | nil => intro x post; rfl
  | append_singleton mid y ih =>
    intro x post
    rw [List.length_append, List.length_singleton, moveToSecond]
    have hget : (a :: (mid ++ [y] ++ x :: post)).getD (mid.length + 1) t = y := by
      simp [List.getD]
    have hset : (a :: (mid ++ [y] ++ x :: post)).set (mid.length + 2) y =
        a :: (mid ++ y :: (y :: post)) := by
      simp
    rw [hget, hset, ih, List.append_assoc, List.singleton_append]

/-- The layer that is found overlaps none of the others. -/
theorem findAnIndependentLayer_spec {layerList : List SprdHWLayer} {j : Fin layerList.length}
    (hin : ∀ l ∈ layerList, l.OnScreen fbInfo) (h : findAnIndependentLayer layerList = some j) :
    j.val ≠ 0 ∧ ∀ i, i ≠ j → ¬layerList[i].Overlaps layerList[j] := by
  have hj := List.find?_some h
  simp only [decide_eq_true_eq] at hj
  obtain ⟨hj0, hcount⟩ := hj
  refine ⟨hj0, fun i hij hover => ?_⟩
  -- what is not counted is `j` alone
  have hlen := List.length_eq_countP_add_countP (l := List.finRange layerList.length)
    fun i => decide (i ≠ j ∧ separated layerList[i].fbRect layerList[j].fbRect)
  rw [hcount, List.length_finRange, List.countP_eq_length_filter] at hlen
  have hpos := j.isLt
  obtain ⟨k, hk⟩ := List.length_eq_one_iff.1 (Nat.add_left_cancel (hlen.symm.trans
    (Nat.sub_add_cancel (Nat.one_le_of_lt hpos)).symm))
  have hmem : ∀ i, ¬(i ≠ j ∧ separated layerList[i].fbRect layerList[j].fbRect) → i = k := by
    intro i hi
    rw [← List.mem_singleton, ← hk, List.mem_filter]
    exact ⟨List.mem_finRange i, by simpa only [decide_eq_true_eq] using hi⟩
  refine hij ((hmem i fun hi => ?_).trans (hmem j fun hi => hi.1 rfl).symm)
  exact (hin _ (List.getElem_mem _)).not_overlaps (hin _ (List.getElem_mem _)) hi.2 hover

/-- Moving it to the second place. -/
theorem moveToSecond_keepsOrder {layerList : List SprdHWLayer} {j : Fin layerList.length}
    (hj : j.val ≠ 0) (h : ∀ i, i ≠ j → ¬layerList[i].Overlaps layerList[j]) :
    KeepsOrder SprdHWLayer.Overlaps layerList (moveToSecond layerList[j] layerList j) := by
  obtain ⟨j, hjlt⟩ := j
  obtain ⟨k, rfl⟩ : ∃ k, j = k + 1 := Nat.exists_eq_succ_of_ne_zero hj
  obtain ⟨a, tail, rfl⟩ := List.exists_cons_of_length_pos (Nat.zero_lt_of_lt hjlt)
  have hk : k < tail.length := Nat.lt_of_succ_lt_succ hjlt
  have hsplit : tail = tail.take k ++ tail[k] :: tail.drop (k + 1) := by
    rw [← List.drop_eq_getElem_cons hk, List.take_append_drop]
  have hlen : (tail.take k).length = k := by rw [List.length_take, Nat.min_eq_left hk.le]
  have hmove := moveToSecond_eq tail[k] a (tail.take k) tail[k] (tail.drop (k + 1))
  have hkeep : KeepsOrder SprdHWLayer.Overlaps (tail.take k ++ tail[k] :: tail.drop (k + 1))
      (tail[k] :: (tail.take k ++ tail.drop (k + 1))) := by
    refine KeepsOrder.toFront _ _ fun m hm => ?_
    obtain ⟨i, hi, rfl⟩ := List.mem_take_iff_getElem.1 hm
    have hne : (⟨i + 1, by simp; omega⟩ : Fin (a :: tail).length) ≠ ⟨k + 1, hjlt⟩ := by
      simp only [ne_eq, Fin.mk.injEq]
      omega
    exact h _ hne
  rw [hlen, ← hsplit] at hmove
  rw [← hsplit] at hkeep
  show KeepsOrder _ _ (moveToSecond tail[k] (a :: tail) (k + 1))
  rw [hmove]
  exact hkeep.cons a

theorem adjustIndependentLayer_keepsOrder {layerList : List SprdHWLayer}
    (hin : ∀ l ∈ layerList, l.OnScreen fbInfo) :
    KeepsOrder SprdHWLayer.Overlaps layerList (adjustIndependentLayer layerList) := by
  unfold adjustIndependentLayer
  split
  · split
    · rename_i i hi
      obtain ⟨hpos, hindependent⟩ := findAnIndependentLayer_spec hin hi
      exact moveToSecond_keepsOrder hpos hindependent
    · exact .refl _
  · exact .refl _

/-! ## The check -/

/-- One of the first two layers has the size of the screen. -/
theorem cover_of_any {l0 l1 : SprdHWLayer} {rest : List SprdHWLayer} (h0 : l0.OnScreen fbInfo)
    (h1 : l1.OnScreen fbInfo)
    (h : ((l0 :: l1 :: rest).take 2).any
      (regionEqualCheck · ⟨0, 0, fbInfo.fbWidth.toUInt32, fbInfo.fbHeight.toUInt32⟩)) :
    Rect.Cover fbInfo.width fbInfo.height l0.fbRect.toRect l1.fbRect.toRect := by
  simp only [List.take_succ_cons, List.take_zero, List.any_cons, List.any_nil, Bool.or_false,
    Bool.or_eq_true] at h
  rcases h with h | h
  · exact h0.cover_of_equal h _
  · exact (h1.cover_of_equal h _).symm

/-- If `full_screen_check` returns 1, the first two layers of the list after the call cover the
screen; and layers that overlap keep their order. -/
theorem full_screen_check_sound (layerList : List SprdHWLayer) (fbInfo : FrameBufferInfo)
    (hcnt : 2 ≤ layerList.length) (hin : ∀ l ∈ layerList, l.OnScreen fbInfo)
    (harea : fbInfo.width * fbInfo.height < 2 ^ 32) :
    ((fullScreenCheck layerList fbInfo).1 = 1 →
      ∃ l0 l1, (fullScreenCheck layerList fbInfo).2[0]? = some l0 ∧
        (fullScreenCheck layerList fbInfo).2[1]? = some l1 ∧
        Rect.Cover fbInfo.width fbInfo.height l0.fbRect.toRect l1.fbRect.toRect) ∧
    KeepsOrder SprdHWLayer.Overlaps layerList (fullScreenCheck layerList fbInfo).2 := by
  have hkeep := adjustIndependentLayer_keepsOrder hin
  unfold fullScreenCheck
  simp only
  split
  · rename_i hany
    refine ⟨fun _ => ?_, .refl _⟩
    match layerList, hcnt with
    | l0 :: l1 :: rest, _ =>
      exact ⟨l0, l1, rfl, rfl, cover_of_any (hin l0 (by simp)) (hin l1 (by simp)) hany⟩
  · have hin' : ∀ l ∈ adjustIndependentLayer layerList, l.OnScreen fbInfo :=
      fun l hl => hin l (hkeep.mem hl)
    have hcnt' : 2 ≤ (adjustIndependentLayer layerList).length := hkeep.length_eq ▸ hcnt
    generalize adjustIndependentLayer layerList = adjusted at hkeep hin' hcnt' ⊢
    split
    · rename_i hchecks
      refine ⟨fun _ => ?_, hkeep⟩
      match adjusted, hcnt' with
      | l0 :: l1 :: rest, _ =>
        exact ⟨l0, l1, rfl, rfl,
          cover_of_checks harea (hin' l0 (by simp)) (hin' l1 (by simp)) hchecks⟩
    · exact ⟨fun h => absurd h Int.zero_ne_one, hkeep⟩

/-- A layer with the given destination. -/
def layerAt (r : SprdRect) : SprdHWLayer :=
  { SprdHWLayer.new ⟨false, none, 0, true, ⟨0, 0, 0, 0⟩, ⟨0, 0, 0, 0⟩⟩ with fbRect := r }

/-- The halves of a screen, with an icon on the upper one. -/
def halves : List SprdHWLayer := [layerAt ⟨0, 0, 4, 2⟩, layerAt ⟨1, 0, 2, 1⟩, layerAt ⟨0, 2, 4, 2⟩]

/-- The lower half is moved below the icon. -/
theorem full_screen_check_halves :
    fullScreenCheck halves ⟨4, 4⟩ =
      (1, [layerAt ⟨0, 0, 4, 2⟩, layerAt ⟨0, 2, 4, 2⟩, layerAt ⟨1, 0, 2, 1⟩]) ∧
    (∃ l0 l1, (fullScreenCheck halves ⟨4, 4⟩).2[0]? = some l0 ∧
      (fullScreenCheck halves ⟨4, 4⟩).2[1]? = some l1 ∧
      Rect.Cover 4 4 l0.fbRect.toRect l1.fbRect.toRect) ∧
    KeepsOrder SprdHWLayer.Overlaps halves (fullScreenCheck halves ⟨4, 4⟩).2 := by
  have hsound := full_screen_check_sound halves ⟨4, 4⟩ (by decide) (by decide +kernel) (by decide)
  exact ⟨by decide +kernel, hsound.1 (by decide +kernel), hsound.2⟩

end SprdHal.Hwc
