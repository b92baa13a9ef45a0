import SprdHal.Camera.ParseRect

/-!
# Reading back a list of areas (`SprdCameraParameters.cpp`)

A list of areas is written as `(left,top,right,bottom,weight)` with a comma between two of them.
`parse_rect` reads it back, except that a weight goes on with the digit that a longer group may have
left behind it in `k`: only the first ten characters are cleared between two groups.
-/

namespace SprdHal.Camera

open SprdHal.Lib

/-- An area as the parameter describes it. -/
structure Area where
  left : Int
  top : Int
  right : Int
  bottom : Int
  weight : Int
  coordinates : ∀ c ∈ [left, top, right, bottom], -1000 ≤ c ∧ c ≤ 1000
  weights : 1 ≤ weight ∧ weight ≤ 1000

namespace Area

def coords (a : Area) : List Int := [a.left, a.top, a.right, a.bottom]

/-- What stands between the parentheses. -/
def text (a : Area) : List Char := (a.coords.flatMap fun c => intText c ++ [',']) ++ intText a.weight

/-- The numbers that are to be stored for it. -/
def numbers (excludeWeight : Bool) (a : Area) : List Int32 :=
  (a.coords ++ if excludeWeight then [] else [a.weight]).map Int32.ofInt

end Area

/-- The areas of a list, with `sep` in front and commas in between. -/
def areasText (sep : List Char) : List Area → List Char
  | [] => []
  | a :: areas => sep ++ '(' :: (a.text ++ ')' :: areasText [','] areas)

/-! ## The characters -/

section Characters

variable {i : Int} {c : Char}

theorem notMem_intText (hc : isDigitIn 10 c = false) (hminus : c ≠ '-') : c ∉ intText i := by
  have hdigits : c ∉ Nat.toDigits 10 i.natAbs := fun hmem => by
    rw [isDigitIn_toDigits (by decide) (by decide) _ c hmem] at hc
    cases hc
  unfold intText
  split
  · exact fun hmem => (List.mem_cons.mp hmem).elim hminus hdigits
  · exact hdigits

theorem length_intText_le (h : i.natAbs ≤ 1000) : (intText i).length ≤ 5 := by
  have hdigits : (Nat.toDigits 10 i.natAbs).length ≤ 4 :=
    (Nat.length_toDigits_le_iff (by decide) (by decide)).mpr (by omega)
  unfold intText
  split
  · exact Nat.succ_le_succ hdigits
  · exact Nat.le_succ_of_le hdigits

theorem notMem_text {a : Area} (hc : isDigitIn 10 c = false) (hminus : c ≠ '-') (hcomma : c ≠ ',') :
    c ∉ a.text := by
  simp only [Area.text, List.mem_append, List.mem_flatMap, List.mem_singleton, not_or, not_exists,
    not_and]
  exact ⟨fun _ _ => ⟨notMem_intText hc hminus, hcomma⟩, notMem_intText hc hminus⟩

theorem notMem_areasText {sep : List Char} (hsep : nul ∉ sep) (areas : List Area) :
    nul ∉ areasText sep areas := by
  induction areas generalizing sep with
  | nil => exact List.not_mem_nil
  | cons a areas ih =>
    have htext : nul ∉ a.text := notMem_text (by decide) (by decide) (by decide)
    simp only [areasText, List.mem_append, List.mem_cons, not_or]
    exact ⟨hsep, by decide, htext, by decide, ih (by decide)⟩

end Characters

/-- A list of areas as the parameter has it. -/
def areasString (areas : List Area) : CString :=
  ⟨areasText [] areas, notMem_areasText List.not_mem_nil areas⟩

/-- The length of a group: it fits into `k`. -/
theorem Area.length_text (a : Area) : a.text.length < scratchSize := by
  have hlen : ∀ c ∈ a.coords, (intText c).length ≤ 5 := fun c hc =>
    length_intText_le (by have := a.coordinates c hc; omega)
  have hweight : (intText a.weight).length ≤ 5 := length_intText_le (by have := a.weights; omega)
  simp only [coords, List.forall_mem_cons] at hlen
  simp only [text, coords, List.flatMap_cons, List.flatMap_nil, List.length_append,
    List.length_singleton, List.length_nil, scratchSize]
  omega

/-! ## A group -/

/-- `m` before a coordinate. -/
def Cleared (m : List Char) : Prop := ∃ old, m = clearFront 20 old

theorem cleared_init : Cleared RectParse.init.m := ⟨List.replicate scratchSize nul, rfl⟩

/-- A short text is alone in `m`. -/
theorem Cleared.text {m text : List Char} (hm : Cleared m) (hlen : text.length < 20)
    (hnul : nul ∉ text) : cText (copyOver m text) = text := by
  obtain ⟨old, rfl⟩ := hm
  have hfirst : ((clearFront 20 old).drop text.length).head? = some nul := by
    rw [List.head?_drop, clearFront, List.getElem?_append_left (by rw [List.length_replicate]; exact hlen),
      List.getElem?_replicate, if_pos hlen]
  rw [cText_copyOver hnul]
  obtain ⟨rest, hrest⟩ := List.head?_eq_some_iff.mp hfirst
  rw [hrest, cText, List.takeWhile_cons, if_neg (by simp), List.append_nil]

section Fields

variable {cap : Nat} {excl : Bool} {s : RectParse} {rest : List Char}

/-- Coordinates are read one by one. -/
theorem parseFields_flatMap {cs : List Int} (hcs : ∀ c ∈ cs, -1000 ≤ c ∧ c ≤ 1000)
    (hm : Cleared s.m) (hcap : s.rect.length + cs.length ≤ cap) :
    ∃ m, Cleared m ∧ parseFields cap cs.length s ((cs.flatMap fun c => intText c ++ [',']) ++ rest) =
      .ok ({ s with m := m, rect := s.rect ++ cs.map Int32.ofInt }, rest) := by
  induction cs generalizing s with
  | nil => exact ⟨s.m, hm, by simp [parseFields]⟩
  | cons c cs ih =>
    obtain ⟨hc, hcs⟩ := List.forall_mem_cons.mp hcs
    have hlen := @length_intText_le c (by omega)
    have hnul : nul ∉ intText c := notMem_intText (by decide) (by decide)
    have hcomma : ',' ∉ intText c := notMem_intText (by decide) (by decide)
    have htext := hm.text (by omega) hnul
    have hread := strtolAuto_intText (i := c) (by omega)
    rw [List.length_cons] at hcap
    have hfirst := @parseField_append cap s (intText c)
      ((cs.flatMap fun c => intText c ++ [',']) ++ rest) hcomma (by unfold scratchSize; omega) (by omega)
    rw [htext, hread] at hfirst
    obtain ⟨m, hm', hrest⟩ := @ih { s with
      m := clearFront 20 (copyOver s.m (intText c)),
      rect := s.rect ++ [Int32.ofInt c] } hcs ⟨_, rfl⟩ (by
        rw [List.length_append, List.length_singleton]; omega)
    refine ⟨m, hm', ?_⟩
    have hsplit : ((c :: cs).flatMap fun c => intText c ++ [',']) ++ rest =
        intText c ++ ',' :: ((cs.flatMap fun c => intText c ++ [',']) ++ rest) := by
      simp only [List.flatMap_cons, List.append_assoc, List.cons_append, List.nil_append]
    rw [hsplit, List.length_cons, parseFields, hfirst]
    refine hrest.trans ?_
    rw [List.append_assoc, List.map_cons, List.singleton_append]

/-- The weight as it is read: with what is left behind it. -/
def readWeight (earlier : List (List Char)) (a : Area) : Int :=
  strtolAuto (intText a.weight ++ staleText scratchSize 10 earlier a.text.length)

/-- The numbers that are stored for an area. -/
def readNumbers (excludeWeight : Bool) (earlier : List (List Char)) (a : Area) : List Int32 :=
  (a.coords ++ if excludeWeight then [] else [readWeight earlier a]).map Int32.ofInt

theorem length_readNumbers (earlier : List (List Char)) (a : Area) :
    (readNumbers excl earlier a).length = groupWidth excl := by
  cases excl <;> rfl

/-- **One area.** The coordinates are read as they are, and the weight with what is left behind it. -/
theorem parseGroup_text {earlier : List (List Char)} {a : Area} (hs : s.After earlier)
    (hm : Cleared s.m) (hcap : s.rect.length + groupWidth excl ≤ cap) :
    ∃ t, parseGroup cap excl s a.text = .ok t ∧ t.After (a.text :: earlier) ∧ Cleared t.m ∧
      t.rect = s.rect ++ readNumbers excl earlier a ∧ t.cnt = s.cnt + 1 := by
  have hnul : nul ∉ a.text := notMem_text (by decide) (by decide) (by decide)
  have hscratch := hs.text a.length_text hnul
  have hfour : 4 ≤ groupWidth excl := by cases excl <;> decide
  obtain ⟨m, hm', hfields⟩ := @parseFields_flatMap cap { s with k := copyOver s.k a.text }
    (intText a.weight ++ staleText scratchSize 10 earlier a.text.length) a.coords a.coordinates hm
    (Nat.le_trans (Nat.add_le_add_left hfour _) hcap)
  rw [← List.append_assoc] at hfields
  obtain ⟨u, hu, hrect, hcnt⟩ : ∃ u, RectParse.storeWeight cap excl { s with
        k := copyOver s.k a.text, m := m, rect := s.rect ++ a.coords.map Int32.ofInt }
        (intText a.weight ++ staleText scratchSize 10 earlier a.text.length) = .ok u ∧
      u.rect = s.rect ++ readNumbers excl earlier a ∧ u.cnt = s.cnt := by
    cases excl with
    | true => exact ⟨_, rfl, by rw [readNumbers, if_pos rfl, List.append_nil], rfl⟩
    | false =>
      refine ⟨_, (if_neg Bool.false_ne_true).trans (if_pos ?_), ?_, rfl⟩
      · rw [List.length_append, List.length_map]
        exact hcap
      · rw [readNumbers, if_neg Bool.false_ne_true, List.map_append, ← List.append_assoc]
        rfl
  have hgroup : parseGroup cap excl s a.text = .ok u.nextCnt :=
    parseGroup_eq_ok.mpr ⟨a.length_text, _, u, by rw [hscratch]; exact hfields, hu, rfl⟩
  exact ⟨_, hgroup, hs.next hnul hgroup, ⟨u.m, rfl⟩, hrect, congrArg (· + 1) hcnt⟩

end Fields

/-! ## A list -/

/-- The numbers that are stored for a list of areas. -/
def readAll (excludeWeight : Bool) : List (List Char) → List Area → List Int32
  | _, [] => []
  | earlier, a :: areas =>
    readNumbers excludeWeight earlier a ++ readAll excludeWeight (a.text :: earlier) areas

section List

variable {cap left : Nat} {excl : Bool} {s : RectParse} {sep : List Char}
  {earlier : List (List Char)}

theorem nextGroup_areasText (hsep : '(' ∉ sep) (a : Area) (areas : List Area) :
    nextGroup (areasText sep (a :: areas)) = some (a.text, areasText [','] areas) := by
  have hclose : ')' ∉ a.text := notMem_text (by decide) (by decide) (by decide)
  rw [nextGroup, areasText, cutAt_append hsep, Option.bind_some]
  exact cutAt_append hclose _

/-- The loop over a list of areas. -/
theorem parseLoop_areasText (hs : s.After earlier) (hm : Cleared s.m) (hsep : '(' ∉ sep)
    (areas : List Area) (hleft : areas.length ≤ left)
    (hcap : s.rect.length + groupWidth excl * areas.length ≤ cap) :
    ∃ t, parseLoop cap excl left s (areasText sep areas) = .ok t ∧
      t.rect = s.rect ++ readAll excl earlier areas ∧ t.cnt = s.cnt + areas.length := by
  induction areas generalizing left s sep earlier with
  | nil =>
    refine ⟨s, ?_, (List.append_nil _).symm, rfl⟩
    cases left <;> rfl
  | cons a areas ih =>
    obtain ⟨left, rfl⟩ := Nat.exists_eq_add_of_lt (Nat.lt_of_lt_of_le (Nat.succ_pos _) hleft)
    rw [List.length_cons, Nat.mul_succ] at hcap
    obtain ⟨t, hgroup, ht, hm', hrect, hcnt⟩ := @parseGroup_text cap excl s earlier a hs hm (by omega)
    have hlen : t.rect.length = s.rect.length + groupWidth excl := by
      rw [hrect, List.length_append, length_readNumbers]
    obtain ⟨u, hloop, hrect', hcnt'⟩ := @ih (0 + left) t [','] _ ht hm' (by decide)
      (by rw [List.length_cons] at hleft; omega) (by omega)
    refine ⟨u, ?_, ?_, ?_⟩
    · rw [parseLoop, nextGroup_areasText hsep]
      exact bind_eq_ok.mpr ⟨t, hgroup, hloop⟩
    · rw [hrect', hrect, List.append_assoc, readAll]
    · rw [hcnt', hcnt, List.length_cons]
      omega

end List

/-- No digit is left behind a weight: the latest longer group in front of a group of ten or more
characters has something else than a digit where that one ends. -/
def NoDigitLeft : List (List Char) → List Area → Prop
  | _, [] => True
  | earlier, a :: areas =>
    (10 ≤ a.text.length → ∀ c ∈ behind earlier a.text.length, isDigitIn 10 c = false) ∧
      NoDigitLeft (a.text :: earlier) areas

theorem ofInt_inj {i j : Int} (hi : clampLong i = i) (hj : clampLong j = j) :
    Int32.ofInt i = Int32.ofInt j ↔ i = j := by
  refine ⟨fun h => ?_, congrArg _⟩
  unfold clampLong at hi hj
  have hint := congrArg Int32.toInt h
  rwa [Int32.toInt_ofInt_of_le (by omega) (by omega), Int32.toInt_ofInt_of_le (by omega) (by omega)]
    at hint

/-- A weight is read as it is exactly if no digit is left behind it. -/
theorem readNumbers_eq_iff (earlier : List (List Char)) (a : Area) :
    readNumbers false earlier a = a.numbers false ↔
      (10 ≤ a.text.length → ∀ c ∈ behind earlier a.text.length, isDigitIn 10 c = false) := by
  obtain ⟨hpos, hle⟩ := a.weights
  have hweight : intText a.weight = Nat.toDigits 10 a.weight.natAbs := if_neg (by omega)
  have habs : (a.weight.natAbs : Int) = a.weight := by omega
  have hread := @strtolAuto_append_iff a.weight.natAbs (by omega) (by omega)
    (staleText scratchSize 10 earlier a.text.length)
  rw [habs, ← hweight, head?_staleText a.length_text] at hread
  have hnumbers : readNumbers false earlier a = a.numbers false ↔
      Int32.ofInt (readWeight earlier a) = Int32.ofInt a.weight := by
    simp only [readNumbers, Area.numbers, if_neg Bool.false_ne_true, List.map_append,
      List.append_cancel_left_eq, List.map_cons, List.map_nil, List.cons.injEq, and_true]
  have hclamp : clampLong (readWeight earlier a) = readWeight earlier a := by
    unfold readWeight strtolAuto clampLong
    omega
  rw [hnumbers, ofInt_inj hclamp (clampLong_of_abs (by omega)), readWeight, hread]
  by_cases hten : 10 ≤ a.text.length
  · rw [if_neg (by omega)]
    exact ⟨fun h _ => h, fun h => h hten⟩
  · rw [if_pos (by omega)]
    exact iff_of_true nofun fun h => absurd h hten

theorem readAll_eq_iff (earlier : List (List Char)) (areas : List Area) :
    readAll false earlier areas = areas.flatMap (Area.numbers false) ↔ NoDigitLeft earlier areas := by
  induction areas generalizing earlier with
  | nil => exact iff_of_true rfl trivial
  | cons a areas ih =>
    rw [readAll, List.flatMap_cons, NoDigitLeft, ← readNumbers_eq_iff, ← ih]
    exact ⟨fun h => List.append_inj h rfl, fun ⟨h, h'⟩ => by rw [h, h']⟩

theorem readAll_true (earlier : List (List Char)) (areas : List Area) :
    readAll true earlier areas = areas.flatMap (Area.numbers true) := by
  induction areas generalizing earlier with
  | nil => rfl
  | cons a areas ih =>
    rw [readAll, ih]
    rfl

/-- What is to be read of a list. -/
def expectedRects (excludeWeight : Bool) (areas : List Area) : ParsedRects :=
  ⟨areas.flatMap (Area.numbers excludeWeight), areas.length, areas.length⟩

theorem parseRect_areasString (excl : Bool) (areas : List Area) (hlen : areas.length ≤ kFocusZoneMax)
    {cap : Nat} (hcap : 5 * areas.length ≤ cap) (count : Nat) :
    parseRect cap count (some (areasString areas)) excl =
      .ok ⟨readAll excl [] areas, areas.length, areas.length⟩ := by
  have hwidth : groupWidth excl ≤ 5 := by cases excl <;> decide
  have hroom := Nat.mul_le_mul_right areas.length hwidth
  have hinit : RectParse.init.rect.length = 0 := rfl
  obtain ⟨t, ht, hrect, hcnt⟩ := @parseLoop_areasText cap kFocusZoneMax excl .init [] []
    RectParse.after_init cleared_init List.not_mem_nil areas hlen (by omega)
  have hparse : parseRect cap count (some (areasString areas)) excl = .ok ⟨t.rect, t.cnt, t.cnt⟩ :=
    bind_eq_ok.mpr ⟨t, ht, rfl⟩
  have hcount : t.cnt = areas.length := hcnt.trans (Nat.zero_add _)
  rw [hparse, hrect, hcount]
  rfl

/-- **Lists of areas are read back** exactly if no weight has a digit left behind it: without the
weights always, and with them if no digit follows them in `k`. -/
theorem parseRect_areas_iff (areas : List Area) (hlen : areas.length ≤ kFocusZoneMax) {cap : Nat}
    (hcap : 5 * areas.length ≤ cap) (count : Nat) :
    (∀ excludeWeight, parseRect cap count (some (areasString areas)) excludeWeight =
      .ok (expectedRects excludeWeight areas)) ↔ NoDigitLeft [] areas := by
  have hread := fun excl => parseRect_areasString excl areas hlen hcap count
  rw [← readAll_eq_iff]
  constructor
  · intro h
    have hboth := (hread false).symm.trans (h false)
    exact congrArg ParsedRects.rect (Except.ok.inj hboth)
  · intro h excl
    rw [hread]
    cases excl with
    | true => rw [readAll_true]; rfl
    | false => rw [h]; rfl

/-- Two areas, the first with the weight 1000 and the second with the weight 1. -/
def heavyAndLight : List Area :=
  [⟨100, 100, 200, 200, 1000, by decide, by decide⟩, ⟨100, 100, 200, 200, 1, by decide, by decide⟩]

theorem parseRect_areas_iff_heavyAndLight :
    (∀ excludeWeight, parseRect 10 0 (some (areasString heavyAndLight)) excludeWeight =
      .ok (expectedRects excludeWeight heavyAndLight)) ↔ NoDigitLeft [] heavyAndLight :=
  parseRect_areas_iff heavyAndLight (by decide) (by decide) 0

/-- The weight of the second area is read as 1000. -/
theorem not_parsed_heavyAndLight : parseRect 10 0 (some (areasString heavyAndLight)) false ≠
    .ok (expectedRects false heavyAndLight) := by
  intro h
  have hrect := congrArg (Option.map ParsedRects.rect ∘ Except.toOption) h
  revert hrect
  decide +kernel

end SprdHal.Camera
