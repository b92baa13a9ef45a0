import SprdHal.Camera.ParseRect

/-!
# Focus and metering areas (`SprdCameraParameters.cpp`)

`chekFocusAreas` accepts a list of areas in coordinates from -1000 to 1000, and `getFocusAreas`
scales it to a rectangle of the sensor's image, with origin, width and height instead of the corners.
The metering areas go the same way.

`getAreas_inside_iff` says exactly which accepted areas come out inside the rectangle.
-/

namespace SprdHal.Camera

open SprdHal.Lib

/-! ## The code -/

/-- `SprdCameraParameters::Rect` -/
structure PreviewRect where
  x : Int32
  y : Int32
  width : Int32
  height : Int32

/-- `KEY_FOCUS_AREAS` and `KEY_METERING_AREAS` -/
inductive AreaKey where
  | focusAreas | meteringAreas

/-- The first loop of `coordinate_convert`, over the points. -/
def scalePoints (r : PreviewRect) : List Int32 → List Int32
  | x1 :: y1 :: rest =>
    (1000 + x1) * r.width / 2000 :: (1000 + y1) * r.height / 2000 :: scalePoints r rest
  | rest => rest

/-- The second loop, over the rectangles. -/
def moveRects (r : PreviewRect) : List Int32 → List Int32
  | left :: top :: right :: bottom :: rest =>
    (left + r.x) :: (top + r.y) :: (right + r.x) :: (bottom + r.y) :: moveRects r rest
  | rest => rest

/-- `coordinate_convert`: what it returns and the array. -/
def coordinateConvert (r : PreviewRect) (rectArr : List Int32) : Int32 × List Int32 :=
  (0, moveRects r (scalePoints r rectArr))

/-- `coordinate_struct_convert` -/
def coordinateStructConvert : List Int32 → List Int32
  | left :: top :: right :: bottom :: rest =>
    left :: top :: ((right - left + 3) >>> 2) <<< 2 :: ((bottom - top + 3) >>> 2) <<< 2 ::
      coordinateStructConvert rest
  | rest => rest

/-- The loop over the numbers: each is copied, and the list is dropped if the one behind it is
negative. `beyond` is what is behind the last one in `focus_area`. -/
def copyAreas (beyond : Int32) : List Int32 → List Int32 × Bool
  | [] => ([], true)
  | v :: rest =>
    if rest.headD beyond < 0 then ([v], false)
    else let (copied, kept) := copyAreas beyond rest; (v :: copied, kept)

/-- `getFocusAreas` and `getMeteringAreas`: `area` and `*count`. The array is cleared at first;
`behind` is what is in memory behind it. -/
def getAreas (params : AreaKey → Option CString) (key : AreaKey) (r : PreviewRect) (behind : Int32) :
    Except ParseFault (List Int32 × Nat) := do
  let parsed ← parseRect (4 * kFocusZoneMax) 0 (params key) true
  if 0 < parsed.count then
    let (ret, rectArr) := coordinateConvert r parsed.rect
    if ret ≠ 0 then return ([], 0)
    let rectArr := coordinateStructConvert rectArr
    let (area, kept) :=
      copyAreas (if rectArr.length < 4 * kFocusZoneMax then 0 else behind) rectArr
    return (area, if kept then parsed.count else 0)
  else return ([], parsed.count)

/-- The areas that are refused. -/
def refused (left top right bottom weight : Int32) : Bool :=
  left ≠ 0 ∧ right ≠ 0 ∧ top ≠ 0 ∧ bottom ≠ 0 ∧
    (left ≥ right ∨ top ≥ bottom ∨ left < -1000 ∨ top < -1000 ∨ right > 1000 ∨ bottom > 1000 ∨
      weight < 1 ∨ weight > 1000)

def anyRefused : List Int32 → Bool
  | left :: top :: right :: bottom :: weight :: rest =>
    refused left top right bottom weight || anyRefused rest
  | _ => false

/-- `chekFocusAreas` and `chekMeteringAreas`: 0 if the areas are accepted. -/
def chekAreas (params : AreaKey → Option CString) (key : AreaKey) (maxNum : Int32) :
    Except ParseFault Int32 := do
  let parsed ← parseRect (4 * kFocusZoneMax) 0 (params key) false
  if 0 < parsed.count then
    if maxNum.toInt < parsed.count then return 1
    return if anyRefused parsed.rect then 1 else 0
  else return 0

/-! ## The areas of a text -/

/-- The numbers of a group as they are read. -/
structure RawArea where
  left : Int32
  top : Int32
  right : Int32
  bottom : Int32
  weight : Int32
deriving DecidableEq

def RawArea.four (a : RawArea) : List Int32 := [a.left, a.top, a.right, a.bottom]

def RawArea.five (a : RawArea) : List Int32 := [a.left, a.top, a.right, a.bottom, a.weight]

section Parsing

variable {cap cap' n left : Nat} {s s' t t' : RectParse} {b b' group a : List Char}

/-- The same buffers and the same count. -/
structure SameScratch (s s' : RectParse) : Prop where
  k : s.k = s'.k
  m : s.m = s'.m
  cnt : s.cnt = s'.cnt

/-- The coordinates that are read do not depend on what has been stored. -/
theorem parseFields_sameScratch (hlen : b.length < scratchSize) (hs : SameScratch s s')
    (hcap : s'.rect.length + n ≤ cap') (h : parseFields cap n s b = .ok (t, b')) :
    ∃ vs t', vs.length = n ∧ parseFields cap' n s' b = .ok (t', b') ∧ SameScratch t t' ∧
      t.rect = s.rect ++ vs ∧ t'.rect = s'.rect ++ vs := by
  induction n generalizing s s' b with
  | zero =>
    cases h
    exact ⟨[], s', rfl, rfl, hs, (List.append_nil _).symm, (List.append_nil _).symm⟩
  | succ n ih =>
    obtain ⟨front, rest, rfl, hfront, -, hrest⟩ := (parseFields_succ_eq_ok hlen).mp h
    obtain ⟨v, hv⟩ : ∃ v, v = Int32.ofInt (strtolAuto (cText (copyOver s.m front))) := ⟨_, rfl⟩
    rw [← hv] at hrest
    have hlen' := hlen
    rw [List.length_append, List.length_cons] at hlen'
    have hnext : SameScratch { s with m := clearFront 20 (copyOver s.m front), rect := s.rect ++ [v] }
        { s' with m := clearFront 20 (copyOver s.m front), rect := s'.rect ++ [v] } :=
      ⟨hs.k, rfl, hs.cnt⟩
    obtain ⟨vs, t', hvs, hread, hsame, hrect, hrect'⟩ := ih (by omega) hnext
      (by rw [List.length_append, List.length_singleton]; omega) hrest
    refine ⟨v :: vs, t', congrArg (· + 1) hvs, ?_, hsame, ?_, ?_⟩
    · refine (parseFields_succ_eq_ok hlen).mpr ⟨front, rest, rfl, hfront, by omega, ?_⟩
      rw [← hs.m, ← hv]
      exact hread
    · rw [hrect, List.append_assoc]
      rfl
    · rw [hrect', List.append_assoc]
      rfl

/-- A group that is read with its weight is read without it as well. -/
theorem parseGroup_sameScratch (hk : group.length < scratchSize →
      (cText (copyOver s.k group)).length < scratchSize) (hs : SameScratch s s')
    (hcap : s'.rect.length + 4 ≤ cap') (h : parseGroup cap false s group = .ok t) :
    ∃ (area : RawArea) (t' : RectParse), parseGroup cap' true s' group = .ok t' ∧ SameScratch t t' ∧
      t.rect = s.rect ++ area.five ∧ t'.rect = s'.rect ++ area.four := by
  obtain ⟨hlen, ⟨r, b⟩, u, hread, hweight, rfl⟩ := parseGroup_eq_ok.mp h
  have hstart : SameScratch { s with k := copyOver s.k group } { s' with k := copyOver s'.k group } :=
    ⟨congrArg (copyOver · group) hs.k, hs.m, hs.cnt⟩
  obtain ⟨vs, r', hvs, hread', hsame, hrect, hrect'⟩ :=
    parseFields_sameScratch (hk hlen) hstart hcap hread
  rw [hs.k] at hread'
  obtain ⟨left, top, right, bottom, rfl⟩ := List.length_eq_four.mp hvs
  have hu : u = { r with rect := r.rect ++ [Int32.ofInt (strtolAuto b)] } := by
    unfold RectParse.storeWeight RectParse.store at hweight
    rw [if_neg Bool.false_ne_true] at hweight
    split at hweight
    · exact (Except.ok.inj hweight).symm
    · cases hweight
  subst hu
  refine ⟨⟨left, top, right, bottom, Int32.ofInt (strtolAuto b)⟩, r'.nextCnt,
    parseGroup_eq_ok.mpr ⟨hlen, (r', b), r', hread', rfl, rfl⟩,
    ⟨congrArg (clearFront 10) hsame.k, congrArg (clearFront 20) hsame.m,
      congrArg (· + 1) hsame.cnt⟩, ?_, hrect'⟩
  show r.rect ++ _ = _
  rw [hrect, List.append_assoc]
  rfl

/-- A text that is read with the weights is read without them as well. -/
theorem parseLoop_sameScratch {earlier : List (List Char)} (hafter : s.After earlier)
    (hnul : nul ∉ a) (hs : SameScratch s s') (hcap : s'.rect.length + 4 * left ≤ cap')
    (h : parseLoop cap false left s a = .ok t) :
    ∃ (areas : List RawArea) (t' : RectParse), parseLoop cap' true left s' a = .ok t' ∧
      SameScratch t t' ∧ t.cnt = s.cnt + areas.length ∧
      t.rect = s.rect ++ areas.flatMap RawArea.five ∧
      t'.rect = s'.rect ++ areas.flatMap RawArea.four := by
  induction left generalizing s s' a earlier with
  | zero =>
    cases h
    exact ⟨[], s', rfl, hs, rfl, (List.append_nil _).symm, (List.append_nil _).symm⟩
  | succ left ih =>
    unfold parseLoop at h ⊢
    cases hnext : nextGroup a with
    | none =>
      rw [hnext] at h
      cases h
      exact ⟨[], s', rfl, hs, rfl, (List.append_nil _).symm, (List.append_nil _).symm⟩
    | some next =>
      obtain ⟨group, rest⟩ := next
      rw [hnext] at h
      obtain ⟨hgroup, hrest⟩ := nextGroup_nul hnul hnext
      obtain ⟨u, hu, hloop⟩ := bind_eq_ok.mp h
      obtain ⟨area, u', hu', hsame, hrect, hrect'⟩ :=
        @parseGroup_sameScratch cap cap' s s' u group (hafter.short hgroup) hs (by omega) hu
      have hcnt := (parseGroup_frame (hafter.short hgroup (parseGroup_eq_ok.mp hu).1) hu).2.1
      have hlen : u'.rect.length = s'.rect.length + 4 := by
        rw [hrect', List.length_append]
        rfl
      obtain ⟨areas, t', ht', hsame', hcnt', hall, hall'⟩ :=
        ih (hafter.next hgroup hu) hrest hsame (by omega) hloop
      refine ⟨area :: areas, t', bind_eq_ok.mpr ⟨u', hu', ht'⟩, hsame', ?_, ?_, ?_⟩
      · rw [hcnt', hcnt, List.length_cons]
        omega
      · rw [hall, hrect, List.append_assoc]
        rfl
      · rw [hall', hrect', List.append_assoc]
        rfl

end Parsing

/-- A text whose areas are read with their weights into an array of the callers. -/
def Reads (str : Option CString) (areas : List RawArea) : Prop :=
  parseRect (4 * kFocusZoneMax) 0 str false =
    .ok ⟨areas.flatMap RawArea.five, areas.length, areas.length⟩

theorem five_injective : Function.Injective RawArea.five := by
  rintro ⟨l, t, r, b, w⟩ ⟨l', t', r', b', w'⟩ heq
  cases heq
  rfl

/-- Rows of one length can be told apart when they stand behind one another. -/
theorem flatMap_inj {α β : Type} {f : α → List β} {n : Nat} (hlen : ∀ a, (f a).length = n + 1)
    (hf : Function.Injective f) {as bs : List α} (h : as.flatMap f = bs.flatMap f) : as = bs := by
  induction as generalizing bs with
  | nil =>
    cases bs with
    | nil => rfl
    | cons b bs =>
      have hrow := List.append_eq_nil_iff.mp h.symm
      have hb := hlen b
      rw [hrow.1] at hb
      cases hb
  | cons a as ih =>
    cases bs with
    | nil =>
      have hrow := List.append_eq_nil_iff.mp h
      have ha := hlen a
      rw [hrow.1] at ha
      cases ha
    | cons b bs =>
      obtain ⟨hfirst, hrest⟩ := List.append_inj h ((hlen a).trans (hlen b).symm)
      rw [hf hfirst, ih hrest]

/-- The same areas are read without their weights. -/
theorem Reads.without_weights {str : Option CString} {areas : List RawArea} (h : Reads str areas) :
    parseRect (4 * kFocusZoneMax) 0 str true =
      .ok ⟨areas.flatMap RawArea.four, areas.length, areas.length⟩ := by
  cases str with
  | none =>
    have hcount : areas.length = 0 := (congrArg ParsedRects.count (Except.ok.inj h)).symm
    obtain rfl := List.length_eq_zero_iff.mp hcount
    rfl
  | some str =>
    obtain ⟨t, hloop, ht⟩ := bind_eq_ok.mp h
    obtain ⟨areas', t', hloop', hsame, hcnt, hrect, hrect'⟩ := @parseLoop_sameScratch
      (4 * kFocusZoneMax) (4 * kFocusZoneMax) kFocusZoneMax .init .init t str.val []
      RectParse.after_init str.property ⟨rfl, rfl, rfl⟩ (by decide) hloop
    have hareas : areas' = areas :=
      @flatMap_inj _ _ _ 4 (fun _ => rfl) five_injective _ _
        (hrect.symm.trans (congrArg ParsedRects.rect (Except.ok.inj ht)))
    subst hareas
    refine bind_eq_ok.mpr ⟨t', hloop', ?_⟩
    have hcount : t'.cnt = areas'.length := by
      rw [← hsame.cnt, hcnt]
      exact Nat.zero_add _
    rw [hrect', hcount]
    rfl

/-! ## Where the areas come to lie -/

/-- `x`, `y`, `width` and `height` of an area on the image. -/
structure PlacedArea where
  x : Int32
  y : Int32
  width : Int32
  height : Int32

def PlacedArea.toList (p : PlacedArea) : List Int32 := [p.x, p.y, p.width, p.height]

/-- A coordinate on the image. -/
def onImage (origin size c : Int32) : Int32 := (1000 + c) * size / 2000 + origin

/-- The distance of two coordinates, rounded up. -/
def extent (lo hi : Int32) : Int32 := ((hi - lo + 3) >>> 2) <<< 2

/-- What becomes of an area. -/
def RawArea.placed (r : PreviewRect) (a : RawArea) : PlacedArea where
  x := onImage r.x r.width a.left
  y := onImage r.y r.height a.top
  width := extent (onImage r.x r.width a.left) (onImage r.x r.width a.right)
  height := extent (onImage r.y r.height a.top) (onImage r.y r.height a.bottom)

section Placing

variable {r : PreviewRect} {areas : List RawArea}

theorem convert_four (r : PreviewRect) (areas : List RawArea) :
    coordinateStructConvert (coordinateConvert r (areas.flatMap RawArea.four)).2 =
      (areas.map (RawArea.placed r)).flatMap PlacedArea.toList := by
  induction areas with
  | nil => rfl
  | cons a areas ih =>
    have hrest : coordinateStructConvert (coordinateConvert r ((a :: areas).flatMap RawArea.four)).2 =
        (a.placed r).toList ++
          coordinateStructConvert (coordinateConvert r (areas.flatMap RawArea.four)).2 := rfl
    rw [hrest, ih, List.map_cons, List.flatMap_cons]

/-- All numbers but the first are looked at. -/
theorem copyAreas_zero (l : List Int32) :
    ((copyAreas 0 l).2 = true ↔ ∀ v ∈ l.tail, ¬v < 0) ∧
      ((copyAreas 0 l).2 = true → (copyAreas 0 l).1 = l) := by
  induction l with
  | nil => exact ⟨iff_of_true rfl nofun, fun _ => rfl⟩
  | cons v l ih =>
    unfold copyAreas
    split
    · next hneg =>
      refine ⟨iff_of_false Bool.false_ne_true fun hall => ?_, fun h => absurd h Bool.false_ne_true⟩
      cases l with
      | nil => exact absurd hneg (by decide)
      | cons w l => exact hall w List.mem_cons_self hneg
    · next hpos =>
      obtain ⟨hkept, hcopied⟩ := ih
      refine ⟨hkept.trans ?_, fun h => congrArg (v :: ·) (hcopied h)⟩
      cases l with
      | nil => exact iff_of_true nofun nofun
      | cons w l =>
        simp only [List.tail_cons, List.forall_mem_cons]
        exact (and_iff_right hpos).symm

end Placing

/-! ## One axis -/

/-- An interval of the image: within the preview, of a length in multiples of 4. -/
def InsideAxis (origin size x w : Int32) : Prop :=
  0 ≤ w.toInt ∧ 4 ∣ w.toInt ∧ origin.toInt ≤ x.toInt ∧
    x.toInt + w.toInt ≤ origin.toInt + size.toInt

instance (origin size x w : Int32) : Decidable (InsideAxis origin size x w) :=
  inferInstanceAs (Decidable (_ ∧ _))

/-- A coordinate from -1000 to 1000 on an axis of the given size, in 32 bits. -/
def scaled (size c : Int) : Int := (((1000 + c) * size).bmod (2 ^ 32)).tdiv 2000

/-- The interval does not begin before the axis or far behind its own end, and ends as far in front of
the end of the axis as its beginning is in front of a multiple of 4. -/
def FitsAxis (origin size lo hi : Int) : Prop :=
  0 ≤ scaled size lo ∧ scaled size lo + origin < 2 ^ 31 ∧ scaled size lo ≤ scaled size hi + 3 ∧
    scaled size hi + (-scaled size lo) % 4 ≤ size

instance (origin size lo hi : Int) : Decidable (FitsAxis origin size lo hi) :=
  inferInstanceAs (Decidable (_ ∧ _))

section Axis

variable {origin size lo hi : Int32}

theorem toInt_shift_four (v : Int32) : ((v >>> 2) <<< 2).toInt = v.toInt / 4 * 4 := by
  have hbits : ((v >>> 2) <<< 2).toInt = ((v.toBitVec.sshiftRight 2) <<< 2).toInt := rfl
  have hright : (v.toBitVec.sshiftRight 2).toInt = v.toInt / 4 := by
    rw [BitVec.toInt_sshiftRight, Int.shiftRight_eq_div_pow]
    rfl
  have hmul : ((v.toBitVec.sshiftRight 2).toNat * 4 : Int).bmod (2 ^ 32) =
      (v.toInt / 4 * 4).bmod (2 ^ 32) := by
    rw [← hright, BitVec.toInt_eq_toNat_bmod, Int.bmod_mul_bmod]
  have hlo := v.le_toInt
  have hhi := v.toInt_lt
  rw [hbits, BitVec.toInt_shiftLeft, Nat.shiftLeft_eq, Int.natCast_mul]
  refine hmul.trans (Int.bmod_eq_of_le ?_ ?_) <;> omega

/-- In 32 bits the scaled coordinates stay small. -/
theorem scaled_bounds (size c : Int) : -1073742 < scaled size c ∧ scaled size c < 1073742 := by
  have hlo := @Int.le_bmod ((1000 + c) * size) (2 ^ 32) (by decide)
  have hhi := @Int.bmod_lt ((1000 + c) * size) (2 ^ 32) (by decide)
  unfold scaled
  generalize ((1000 + c) * size).bmod (2 ^ 32) = v at hlo hhi
  rcases Int.le_total 0 v with hv | hv
  · rw [Int.tdiv_eq_ediv_of_nonneg hv]
    omega
  · have hneg : v.tdiv 2000 = -((-v) / 2000) := by
      rw [← Int.tdiv_eq_ediv_of_nonneg (by omega), Int.neg_tdiv, Int.neg_neg]
    rw [hneg]
    omega

theorem toInt_onImage (origin size c : Int32) :
    (onImage origin size c).toInt = (scaled size.toInt c.toInt + origin.toInt).bmod (2 ^ 32) := by
  have hthousand : (1000 : Int32).toInt = 1000 := rfl
  have htwo : (2000 : Int32).toInt = 2000 := rfl
  rw [onImage, Int32.toInt_add, Int32.toInt_div_of_ne_right _ _ (by decide), Int32.toInt_mul,
    Int32.toInt_add, Int.bmod_mul_bmod, hthousand, htwo]
  rfl

/-- The origin does not matter for the length. -/
theorem toInt_extent (origin size lo hi : Int32) :
    (extent (onImage origin size lo) (onImage origin size hi)).toInt =
      (scaled size.toInt hi.toInt - scaled size.toInt lo.toInt + 3) / 4 * 4 := by
  have hlo := scaled_bounds size.toInt lo.toInt
  have hhi := scaled_bounds size.toInt hi.toInt
  have hthree : (3 : Int32).toInt = 3 := rfl
  have hlen : (onImage origin size hi - onImage origin size lo + 3).toInt =
      scaled size.toInt hi.toInt - scaled size.toInt lo.toInt + 3 := by
    rw [Int32.toInt_add, Int32.toInt_sub, toInt_onImage, toInt_onImage, Int.bmod_sub_bmod,
      Int.sub_bmod_bmod, Int.bmod_add_bmod, hthree, Int.add_sub_add_right]
    exact Int.bmod_eq_of_le (by omega) (by omega)
  rw [extent, toInt_shift_four, hlen]

theorem insideAxis_iff (horigin : 0 ≤ origin.toInt) (hsize : 4 ∣ size.toInt) :
    InsideAxis origin size (onImage origin size lo)
        (extent (onImage origin size lo) (onImage origin size hi)) ↔
      FitsAxis origin.toInt size.toInt lo.toInt hi.toInt := by
  have hlo := scaled_bounds size.toInt lo.toInt
  have hhi := scaled_bounds size.toInt hi.toInt
  have horigin' := origin.toInt_lt
  unfold InsideAxis FitsAxis
  rw [toInt_extent, toInt_onImage]
  generalize scaled size.toInt lo.toInt = a at hlo
  generalize scaled size.toInt hi.toInt = b at hhi
  -- `a + origin` wraps around at most once, and then lies in front of the preview
  rcases Int.lt_or_le (a + origin.toInt) (2 ^ 31) with hsmall | hbig
  · rw [Int.bmod_eq_of_le (by omega) (by omega)]
    omega
  · have hwrap : (a + origin.toInt).bmod (2 ^ 32) = a + origin.toInt - 2 ^ 32 := by
      rw [← Int.sub_bmod_right]
      exact Int.bmod_eq_of_le (by omega) (by omega)
    rw [hwrap]
    omega

/-- Nothing wraps around for coordinates from -1000 to 1000. -/
theorem scaled_eq {size c : Int} (hsize : 0 ≤ size) (hsmall : size < 2 ^ 20) (hc : -1000 ≤ c)
    (hc' : c ≤ 1000) : scaled size c = (1000 + c) * size / 2000 ∧ 0 ≤ scaled size c := by
  have hnonneg : 0 ≤ (1000 + c) * size := Int.mul_nonneg (by omega) hsize
  have hle : (1000 + c) * size ≤ 2000 * size := Int.mul_le_mul_of_nonneg_right (by omega) hsize
  have hscaled : scaled size c = (1000 + c) * size / 2000 := by
    rw [scaled, Int.bmod_eq_of_le (by omega) (by omega), Int.tdiv_eq_ediv_of_nonneg hnonneg]
  exact ⟨hscaled, by omega⟩

/-- Of an interval that has been checked, only the rounding can stick out. -/
theorem fitsAxis_iff {origin size lo hi : Int} (hsize : 0 ≤ size) (hsmall : size < 2 ^ 20)
    (hend : origin + size < 2 ^ 31) (hlo : -1000 ≤ lo) (hlt : lo < hi) (hhi : hi ≤ 1000) :
    FitsAxis origin size lo hi ↔
      (1000 + hi) * size / 2000 + (-((1000 + lo) * size / 2000)) % 4 ≤ size := by
  obtain ⟨hfirst, hnonneg⟩ := scaled_eq hsize hsmall hlo (by omega)
  obtain ⟨hlast, -⟩ := scaled_eq hsize hsmall (by omega) hhi
  have hmono : (1000 + lo) * size ≤ (1000 + hi) * size :=
    Int.mul_le_mul_of_nonneg_right (by omega) hsize
  have hle : (1000 + hi) * size ≤ 2000 * size := Int.mul_le_mul_of_nonneg_right (by omega) hsize
  unfold FitsAxis
  rw [hlast, hfirst]
  rw [hfirst] at hnonneg
  omega

end Axis

/-! ## All areas -/

/-- A rectangle of the sensor's image, of a size in multiples of 4. -/
structure PreviewRect.Valid (r : PreviewRect) : Prop where
  x : 0 ≤ r.x.toInt
  y : 0 ≤ r.y.toInt
  width : 0 < r.width.toInt ∧ r.width.toInt < 2 ^ 20 ∧ 4 ∣ r.width.toInt
  height : 0 < r.height.toInt ∧ r.height.toInt < 2 ^ 20 ∧ 4 ∣ r.height.toInt

/-- The areas of a parameter, four at most, when they are accepted. -/
structure Accepted (params : AreaKey → Option CString) (key : AreaKey) (maxNum : Int32)
    (areas : List RawArea) : Prop where
  reads : Reads (params key) areas
  atMost : areas.length ≤ 4
  room : areas.length ≤ maxNum.toInt
  chek : chekAreas params key maxNum = .ok 0

/-- The area is within the preview. -/
def PlacedArea.Inside (r : PreviewRect) (p : PlacedArea) : Prop :=
  InsideAxis r.x r.width p.x p.width ∧ InsideAxis r.y r.height p.y p.height

/-- So many areas are returned, and all of them are within the preview. -/
def AllInside (r : PreviewRect) (n : Nat) (result : Except ParseFault (List Int32 × Nat)) : Prop :=
  ∃ placed : List PlacedArea, placed.length = n ∧
    result = .ok (placed.flatMap PlacedArea.toList, n) ∧ ∀ p ∈ placed, p.Inside r

/-- Both axes of an area fit. -/
def RawArea.Fits (r : PreviewRect) (a : RawArea) : Prop :=
  FitsAxis r.x.toInt r.width.toInt a.left.toInt a.right.toInt ∧
    FitsAxis r.y.toInt r.height.toInt a.top.toInt a.bottom.toInt

instance (r : PreviewRect) (a : RawArea) : Decidable (a.Fits r) :=
  inferInstanceAs (Decidable (_ ∧ _))

section Areas

variable {params : AreaKey → Option CString} {key : AreaKey} {maxNum behind : Int32}
  {r : PreviewRect} {areas : List RawArea} {a : RawArea}

theorem anyRefused_five (areas : List RawArea) : anyRefused (areas.flatMap RawArea.five) =
    areas.any fun a => refused a.left a.top a.right a.bottom a.weight := by
  induction areas with
  | nil => rfl
  | cons a areas ih =>
    rw [List.any_cons, ← ih]
    rfl

/-- Areas that are accepted have been checked, unless one of their coordinates is 0. -/
theorem Accepted.checked (h : Accepted params key maxNum areas) (ha : a ∈ areas)
    (hzero : 0 ∉ a.four) : (-1000 ≤ a.left.toInt ∧ a.left.toInt < a.right.toInt ∧ a.right.toInt ≤ 1000) ∧
      -1000 ≤ a.top.toInt ∧ a.top.toInt < a.bottom.toInt ∧ a.bottom.toInt ≤ 1000 := by
  have hpos : 0 < areas.length := List.length_pos_of_mem ha
  have hroom := h.room
  have hchek : chekAreas params key maxNum =
      .ok (if anyRefused (areas.flatMap RawArea.five) then 1 else 0) := by
    refine bind_eq_ok.mpr ⟨_, h.reads, ?_⟩
    rw [if_pos hpos, if_neg (by dsimp only; omega)]
    rfl
  have hrefused : refused a.left a.top a.right a.bottom a.weight = false := by
    have hnone := hchek.symm.trans h.chek
    rw [anyRefused_five] at hnone
    by_contra hbad
    rw [if_pos (List.any_eq_true.mpr ⟨a, ha, eq_true_of_ne_false hbad⟩)] at hnone
    cases hnone
  simp only [RawArea.four, List.mem_cons, List.not_mem_nil, or_false, not_or] at hzero
  obtain ⟨hleft, htop, hright, hbottom⟩ := hzero
  have hlow : (-1000 : Int32).toInt = -1000 := rfl
  have hhigh : (1000 : Int32).toInt = 1000 := rfl
  have hok := not_and.mp (of_decide_eq_false hrefused) (Ne.symm hleft)
  simp only [Ne.symm hright, Ne.symm htop, Ne.symm hbottom, ne_eq, not_false_eq_true, true_and, not_or,
    ge_iff_le, gt_iff_lt, Int32.le_iff_toInt_le, Int32.lt_iff_toInt_lt, hlow, hhigh] at hok
  omega

/-- Of an accepted area without a 0, the left and the top edge are to be as close to a multiple of 4 as
the right and the bottom edge are to the end of the preview. -/
theorem Accepted.fits_iff (h : Accepted params key maxNum areas) (ha : a ∈ areas) (hzero : 0 ∉ a.four)
    (hr : r.Valid) (hx : r.x.toInt + r.width.toInt < 2 ^ 31)
    (hy : r.y.toInt + r.height.toInt < 2 ^ 31) :
    a.Fits r ↔
      (1000 + a.right.toInt) * r.width.toInt / 2000 +
          (-((1000 + a.left.toInt) * r.width.toInt / 2000)) % 4 ≤ r.width.toInt ∧
        (1000 + a.bottom.toInt) * r.height.toInt / 2000 +
          (-((1000 + a.top.toInt) * r.height.toInt / 2000)) % 4 ≤ r.height.toInt := by
  obtain ⟨⟨hleft, hltr, hright⟩, htop, httb, hbottom⟩ := h.checked ha hzero
  obtain ⟨hwidth, hwide, -⟩ := hr.width
  obtain ⟨hheight, hhigh, -⟩ := hr.height
  exact and_congr (fitsAxis_iff (Int.le_of_lt hwidth) hwide hx hleft hltr hright)
    (fitsAxis_iff (Int.le_of_lt hheight) hhigh hy htop httb hbottom)

theorem length_flatMap_toList (placed : List PlacedArea) :
    (placed.flatMap PlacedArea.toList).length = 4 * placed.length := by
  have hfour : (fun p : PlacedArea => p.toList.length) = fun _ => 4 := rfl
  rw [List.length_flatMap, hfour, List.map_const', List.sum_replicate_nat, Nat.mul_comm]

theorem toList_injective : Function.Injective PlacedArea.toList := by
  rintro ⟨x, y, w, h⟩ ⟨x', y', w', h'⟩ heq
  cases heq
  rfl

/-- No number of an area within the preview is negative. -/
theorem not_lt_of_inside (hr : r.Valid) {placed : List PlacedArea} (hall : ∀ p ∈ placed, p.Inside r)
    {v : Int32} (hv : v ∈ placed.flatMap PlacedArea.toList) : ¬v < 0 := by
  obtain ⟨p, hp, hmem⟩ := List.mem_flatMap.mp hv
  obtain ⟨⟨hwidth, -, hleft, -⟩, hheight, -, htop, -⟩ := hall p hp
  have hx := hr.x
  have hy := hr.y
  have hzero : (0 : Int32).toInt = 0 := rfl
  rw [Int32.lt_iff_toInt_lt, hzero]
  simp only [PlacedArea.toList, List.mem_cons, List.not_mem_nil, or_false] at hmem
  rcases hmem with rfl | rfl | rfl | rfl <;> omega

/-- What is returned. -/
theorem getAreas_eq (hread : Reads (params key) areas) (hlen : areas.length ≤ 4) :
    getAreas params key r behind =
      .ok ((copyAreas 0 ((areas.map (RawArea.placed r)).flatMap PlacedArea.toList)).1,
        if (copyAreas 0 ((areas.map (RawArea.placed r)).flatMap PlacedArea.toList)).2
        then areas.length else 0) := by
  refine bind_eq_ok.mpr ⟨_, hread.without_weights, ?_⟩
  cases areas with
  | nil => rfl
  | cons a areas =>
    have hconvert := convert_four r (a :: areas)
    have hcount : ((((a :: areas).map (RawArea.placed r)).flatMap PlacedArea.toList)).length <
        4 * kFocusZoneMax := by
      rw [length_flatMap_toList, List.length_map]
      exact Nat.mul_lt_mul_of_pos_left (Nat.lt_succ_of_le hlen) (by decide)
    refine (if_pos (Nat.succ_pos _)).trans ?_
    dsimp only [coordinateConvert] at hconvert ⊢
    rw [hconvert, if_pos hcount]
    exact if_neg fun hret => hret rfl

/-- **Accepted areas lie on the image** exactly if both axes of all of them fit: all are returned, with
sizes in multiples of 4, and within the preview. -/
theorem getAreas_inside_iff (h : Accepted params key maxNum areas) (hr : r.Valid) :
    AllInside r areas.length (getAreas params key r behind) ↔ ∀ a ∈ areas, a.Fits r := by
  have hinside : ∀ a : RawArea, (a.placed r).Inside r ↔ a.Fits r := fun a =>
    and_congr (insideAxis_iff hr.x hr.width.2.2) (insideAxis_iff hr.y hr.height.2.2)
  obtain ⟨hkept, hcopied⟩ := copyAreas_zero ((areas.map (RawArea.placed r)).flatMap PlacedArea.toList)
  rw [getAreas_eq h.reads h.atMost]
  constructor
  · rintro ⟨placed, hlen, hresult, hall⟩ a ha
    obtain ⟨harea, hcount⟩ := Prod.mk.inj (Except.ok.inj hresult)
    have hpos : areas.length ≠ 0 := Nat.ne_of_gt (List.length_pos_of_mem ha)
    split at hcount
    · next hkept =>
      rw [hcopied hkept] at harea
      rw [← @flatMap_inj _ _ _ 3 (fun _ => rfl) toList_injective _ _ harea] at hall
      exact (hinside a).mp (hall _ (List.mem_map_of_mem ha))
    · exact absurd hcount.symm hpos
  · intro hfits
    have hall : ∀ p ∈ areas.map (RawArea.placed r), p.Inside r :=
      List.forall_mem_map.mpr fun a ha => (hinside a).mpr (hfits a ha)
    have hnonneg := hkept.mpr fun v hv => not_lt_of_inside hr hall (List.mem_of_mem_tail hv)
    exact ⟨areas.map (RawArea.placed r), List.length_map _, by rw [hcopied hnonneg, if_pos hnonneg], hall⟩

end Areas

/-- A camera with this text for both of the parameters. -/
def areaParams (text : CString) : AreaKey → Option CString := fun _ => some text

/-- The whole image of 640 by 480 pixels. -/
def vgaRect : PreviewRect := ⟨0, 0, 640, 480⟩

theorem vgaRect_valid : vgaRect.Valid := by
  constructor <;> decide

/-- An area in the middle. -/
def middleArea : RawArea := ⟨-500, -500, 500, 500, 1⟩

def middleText : CString := ⟨"(-500,-500,500,500,1)".toList, by decide +kernel⟩

theorem accepted_middleArea :
    Accepted (areaParams middleText) .focusAreas 1 [middleArea] where
  reads := by unfold Reads; decide +kernel
  atMost := by decide
  room := by decide
  chek := by decide +kernel

theorem getAreas_inside_iff_middleArea :
    AllInside vgaRect 1 (getAreas (areaParams middleText) .focusAreas vgaRect 0) :=
  (getAreas_inside_iff accepted_middleArea vgaRect_valid).mpr (by decide)

/-- An area up to the corner of the image, whose left edge is at 3. -/
def cornerArea : RawArea := ⟨-990, -990, 1000, 1000, 1⟩

def cornerText : CString := ⟨"(-990,-990,1000,1000,1)".toList, by decide +kernel⟩

/-- The width from 3 to 640 is rounded up to 640. -/
theorem not_allInside_cornerArea :
    Accepted (areaParams cornerText) .focusAreas 1 [cornerArea] ∧ vgaRect.Valid ∧
      ¬AllInside vgaRect 1 (getAreas (areaParams cornerText) .focusAreas vgaRect 0) := by
  refine ⟨⟨by unfold Reads; decide +kernel, by decide, by decide, by decide +kernel⟩, vgaRect_valid, ?_⟩
  rintro ⟨placed, hlen, hresult, hall⟩
  obtain ⟨p, rfl⟩ := List.length_eq_one_iff.mp hlen
  have hplaced : getAreas (areaParams cornerText) .focusAreas vgaRect 0 = .ok ([3, 2, 640, 480], 1) := by
    decide +kernel
  have hp : p.toList ++ [] = [3, 2, 640, 480] :=
    congrArg Prod.fst (Except.ok.inj (hresult.symm.trans hplaced))
  obtain ⟨x, y, w, h⟩ := p
  cases hp
  have hinside := (hall _ List.mem_cons_self).1
  revert hinside
  decide

/-- Corners with a 0 are not checked: this area ends in front of its beginning, and none is left. -/
example : (getAreas (areaParams ⟨"(0,0,-500,-500,1)".toList, by decide +kernel⟩) .focusAreas vgaRect 0 =
      .ok ([320, 240], 0)) ∧
    chekAreas (areaParams ⟨"(0,0,-500,-500,1)".toList, by decide +kernel⟩) .focusAreas 1 = .ok 0 := by
  decide +kernel

end SprdHal.Camera
