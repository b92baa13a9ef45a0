import SprdHal.Lib.Decimal
import SprdHal.Lib.Scratch

/-!
# Texts of areas (`SprdCameraParameters.cpp`)

`parse_rect` reads groups like `(100,100,200,200,1)` through two scratch buffers of 40 characters. It
looks for the separators of a group without asking whether there are any, and copies as many
characters as there are in front of them.

`parseRect_ok_iff` says from the text alone when it stays within its memory.
-/

namespace SprdHal.Camera

open SprdHal.Lib

/-- `kFocusZoneMax`, and `kMeteringAreasMax` as well. -/
def kFocusZoneMax : Nat := 5

/-- The size of `k` and of `m`. -/
def scratchSize : Nat := 40

/-- What goes wrong: more characters are copied to `k` or `m` than they have room for and an end, a
pointer that `strchr` has not found is used, or a number is stored behind the array. -/
inductive ParseFault where
  | copy (chars : Nat) | nullResult | overrun
deriving DecidableEq

/-- The local variables of `parse_rect`; `rect` is what has been stored so far. -/
structure RectParse where
  k : List Char
  m : List Char
  rect : List Int32
  cnt : Nat

def RectParse.init : RectParse :=
  ⟨List.replicate scratchSize nul, List.replicate scratchSize nul, [], 0⟩

/-- `strncpy` to `k` or `m`. -/
def copyTo (buf text : List Char) : Except ParseFault (List Char) :=
  if text.length < scratchSize then .ok (copyOver buf text) else .error (.copy text.length)

/-- `*rect_arr++`, in an array of `cap` elements. -/
def RectParse.store (cap : Nat) (s : RectParse) (v : Int) : Except ParseFault RectParse :=
  if s.rect.length < cap then .ok { s with rect := s.rect ++ [Int32.ofInt v] } else .error .overrun

/-- One of the four coordinates, from `b` up to the next comma. -/
def parseField (cap : Nat) (s : RectParse) (b : List Char) :
    Except ParseFault (RectParse × List Char) :=
  match cutAt ',' b with
  | none => .error .nullResult
  | some (field, b) => do
    let m ← copyTo s.m field
    let s ← { s with m }.store cap (strtolAuto (cText m))
    return ({ s with m := clearFront 20 s.m }, b)

/-- So many coordinates. -/
def parseFields (cap : Nat) : Nat → RectParse → List Char → Except ParseFault (RectParse × List Char)
  | 0, s, b => .ok (s, b)
  | n + 1, s, b => do
    let (s, b) ← parseField cap s b
    parseFields cap n s b

/-- The weight is the last number of a group. -/
def RectParse.storeWeight (cap : Nat) (excludeWeight : Bool) (s : RectParse) (b : List Char) :
    Except ParseFault RectParse :=
  if excludeWeight then .ok s else s.store cap (strtolAuto b)

/-- The buffers are cleared for the next group. -/
def RectParse.nextCnt (s : RectParse) : RectParse :=
  { s with m := clearFront 20 s.m, k := clearFront 10 s.k, cnt := s.cnt + 1 }

/-- What stands between a pair of parentheses: left, top, right, bottom and the weight. -/
def parseGroup (cap : Nat) (excludeWeight : Bool) (s : RectParse) (group : List Char) :
    Except ParseFault RectParse := do
  let k ← copyTo s.k group
  let r ← parseFields cap 4 { s with k } (cText k)
  let s ← r.1.storeWeight cap excludeWeight r.2
  return s.nextCnt

/-- The next group of a text, and the text behind it. -/
def nextGroup (a : List Char) : Option (List Char × List Char) :=
  (cutAt '(' a).bind fun (_, a) => cutAt ')' a

/-- The loop, with the groups that are left until `cnt` is `kFocusZoneMax`. -/
def parseLoop (cap : Nat) (excludeWeight : Bool) :
    Nat → RectParse → List Char → Except ParseFault RectParse
  | 0, s, _ => .ok s
  | left + 1, s, a =>
    match nextGroup a with
    | none => .ok s
    | some (group, a) => do
      let s ← parseGroup cap excludeWeight s group
      parseLoop cap excludeWeight left s a

/-- What is in the array, `*count` and the value returned. -/
structure ParsedRects where
  rect : List Int32
  count : Nat
  ret : Nat
deriving DecidableEq

/-- `parse_rect`. Without a text `*count` stays what it is. -/
def parseRect (cap : Nat) (count : Nat) (str : Option CString) (excludeWeight : Bool) :
    Except ParseFault ParsedRects :=
  match str with
  | none => .ok ⟨[], count, 0⟩
  | some str => do
    let s ← parseLoop cap excludeWeight kFocusZoneMax .init str.val
    return ⟨s.rect, s.cnt, s.cnt⟩

/-! ## One group -/

/-- The numbers stored for a group. -/
def groupWidth (excludeWeight : Bool) : Nat := if excludeWeight then 4 else 5

/-- A computation that ends well, in two steps. -/
theorem bind_eq_ok {ε α β : Type} {x : Except ε α} {f : α → Except ε β} {b : β} :
    x >>= f = .ok b ↔ ∃ a, x = .ok a ∧ f a = .ok b := by
  cases x with
  | error e => exact iff_of_false (fun h => by cases h) fun ⟨_, h, _⟩ => by cases h
  | ok a => exact ⟨fun h => ⟨a, rfl, h⟩, fun ⟨a', ha, h⟩ => by cases ha; exact h⟩

section Group

variable {cap n : Nat} {excl : Bool} {s s' : RectParse} {b b' group : List Char}

/-- A coordinate is read if there is a comma behind it and room for it. -/
theorem parseField_append {front rest : List Char} (hcomma : ',' ∉ front)
    (hlen : front.length < scratchSize) (hcap : s.rect.length < cap) :
    parseField cap s (front ++ ',' :: rest) = .ok ({ s with
      m := clearFront 20 (copyOver s.m front),
      rect := s.rect ++ [Int32.ofInt (strtolAuto (cText (copyOver s.m front)))] }, rest) := by
  have hcopy : copyTo s.m front = .ok (copyOver s.m front) := if_pos hlen
  have hstore : ∀ v, RectParse.store cap { s with m := copyOver s.m front } v =
      .ok { s with m := copyOver s.m front, rect := s.rect ++ [Int32.ofInt v] } :=
    fun _ => if_pos hcap
  unfold parseField
  rw [cutAt_append hcomma]
  simp only [hcopy, hstore, bind, Except.bind, pure, Except.pure]

theorem parseField_isOk (hlen : b.length < scratchSize) (h : ∃ r, parseField cap s b = .ok r) :
    ',' ∈ b ∧ s.rect.length < cap := by
  obtain ⟨r, hr⟩ := h
  have hcomma : ',' ∈ b := by
    by_contra hc
    unfold parseField at hr
    rw [cutAt_eq_none.mpr hc] at hr
    cases hr
  refine ⟨hcomma, ?_⟩
  obtain ⟨front, rest, hcut, rfl, -⟩ := cutAt_of_mem hcomma
  have hcopy : copyTo s.m front = .ok (copyOver s.m front) := if_pos (by
    rw [List.length_append] at hlen
    omega)
  by_contra hcap
  have hstore : ∀ v, RectParse.store cap { s with m := copyOver s.m front } v = .error .overrun :=
    fun _ => if_neg hcap
  unfold parseField at hr
  rw [hcut] at hr
  simp only [hcopy, hstore, bind, Except.bind] at hr
  cases hr

/-- The next coordinate, if it is read. -/
theorem parseFields_succ_eq_ok {r : RectParse × List Char} (hlen : b.length < scratchSize) :
    parseFields cap (n + 1) s b = .ok r ↔ ∃ front rest, b = front ++ ',' :: rest ∧ ',' ∉ front ∧
      s.rect.length < cap ∧ parseFields cap n { s with
        m := clearFront 20 (copyOver s.m front),
        rect := s.rect ++ [Int32.ofInt (strtolAuto (cText (copyOver s.m front)))] } rest = .ok r := by
  rw [parseFields, bind_eq_ok]
  constructor
  · rintro ⟨t, ht, hrest⟩
    obtain ⟨hcomma, hroom⟩ := parseField_isOk hlen ⟨t, ht⟩
    obtain ⟨front, rest, -, rfl, hfront⟩ := cutAt_of_mem hcomma
    rw [List.length_append] at hlen
    rw [parseField_append hfront (by omega) hroom] at ht
    cases ht
    exact ⟨front, rest, rfl, hfront, hroom, hrest⟩
  · rintro ⟨front, rest, rfl, hfront, hroom, hrest⟩
    rw [List.length_append] at hlen
    exact ⟨_, parseField_append hfront (by omega) hroom, hrest⟩

/-- The coordinates are read if there are as many commas, and room for them. -/
theorem parseFields_isOk_iff (hlen : b.length < scratchSize) (hcap : s.rect.length ≤ cap) :
    (∃ r, parseFields cap n s b = .ok r) ↔ n ≤ b.count ',' ∧ s.rect.length + n ≤ cap := by
  induction n generalizing s b with
  | zero => exact iff_of_true ⟨_, rfl⟩ ⟨Nat.zero_le _, hcap⟩
  | succ n ih =>
    simp only [parseFields_succ_eq_ok hlen]
    constructor
    · rintro ⟨r, front, rest, rfl, hfront, hroom, hrest⟩
      rw [List.length_append, List.length_cons] at hlen
      have hnext := (ih (by omega) (by rw [List.length_append]; exact hroom)).mp ⟨r, hrest⟩
      rw [List.length_append, List.length_singleton] at hnext
      rw [List.count_append, List.count_eq_zero_of_not_mem hfront, List.count_cons_self]
      omega
    · rintro ⟨hcount, hroom⟩
      obtain ⟨front, rest, -, rfl, hfront⟩ := cutAt_of_mem
        (List.count_pos_iff.mp (Nat.lt_of_lt_of_le (Nat.succ_pos n) hcount))
      rw [List.length_append, List.length_cons] at hlen
      rw [List.count_append, List.count_eq_zero_of_not_mem hfront, List.count_cons_self] at hcount
      have hnext := @ih { s with
        m := clearFront 20 (copyOver s.m front),
        rect := s.rect ++ [Int32.ofInt (strtolAuto (cText (copyOver s.m front)))] } rest (by omega)
      rw [List.length_append, List.length_singleton] at hnext
      obtain ⟨r, hr⟩ := (hnext (by omega)).mpr ⟨by omega, by omega⟩
      exact ⟨r, front, rest, rfl, hfront, by omega, hr⟩

/-- What the coordinates leave alone. -/
theorem parseFields_frame (hlen : b.length < scratchSize) (h : parseFields cap n s b = .ok (s', b')) :
    s'.k = s.k ∧ s'.cnt = s.cnt ∧ s'.rect.length = s.rect.length + n := by
  induction n generalizing s b with
  | zero =>
    cases h
    exact ⟨rfl, rfl, rfl⟩
  | succ n ih =>
    obtain ⟨front, rest, rfl, -, -, hrest⟩ := (parseFields_succ_eq_ok hlen).mp h
    rw [List.length_append, List.length_cons] at hlen
    obtain ⟨hk, hcnt, hrect⟩ := ih (by omega) hrest
    refine ⟨hk, hcnt, hrect.trans ?_⟩
    rw [List.length_append, List.length_singleton]
    omega

theorem storeWeight_isOk_iff (hcap : s.rect.length ≤ cap) : (∃ t, s.storeWeight cap excl b = .ok t) ↔
    s.rect.length + (groupWidth excl - 4) ≤ cap := by
  cases excl with
  | true => exact iff_of_true ⟨s, rfl⟩ hcap
  | false =>
    unfold RectParse.storeWeight RectParse.store
    rw [if_neg Bool.false_ne_true]
    split
    · next hlt => exact iff_of_true ⟨_, rfl⟩ hlt
    · next hge => exact iff_of_false (fun ⟨_, h⟩ => by cases h) hge

theorem storeWeight_frame (h : s.storeWeight cap excl b = .ok s') :
    s'.k = s.k ∧ s'.cnt = s.cnt ∧ s'.rect.length = s.rect.length + (groupWidth excl - 4) := by
  cases excl with
  | true =>
    cases h
    exact ⟨rfl, rfl, rfl⟩
  | false =>
    unfold RectParse.storeWeight RectParse.store at h
    rw [if_neg Bool.false_ne_true] at h
    split at h
    · cases h
      exact ⟨rfl, rfl, List.length_append⟩
    · cases h

/-- A group, step by step. -/
theorem parseGroup_eq_ok : parseGroup cap excl s group = .ok s' ↔ group.length < scratchSize ∧
    ∃ r u, parseFields cap 4 { s with k := copyOver s.k group } (cText (copyOver s.k group)) = .ok r ∧
      r.1.storeWeight cap excl r.2 = .ok u ∧ s' = u.nextCnt := by
  simp only [parseGroup, bind_eq_ok]
  constructor
  · rintro ⟨k, hcopy, r, hread, u, hweight, hlast⟩
    unfold copyTo at hcopy
    split at hcopy
    · next hlen =>
      cases hcopy
      exact ⟨hlen, r, u, hread, hweight, (Except.ok.inj hlast).symm⟩
    · cases hcopy
  · rintro ⟨hlen, r, u, hread, hweight, rfl⟩
    exact ⟨_, if_pos hlen, r, hread, u, hweight, rfl⟩

/-- A group is read if it is short enough, the text in `k` has four commas, and there is room for the
numbers. -/
theorem parseGroup_isOk_iff (hk : group.length < scratchSize →
      (cText (copyOver s.k group)).length < scratchSize) (hcap : s.rect.length ≤ cap) :
    (∃ t, parseGroup cap excl s group = .ok t) ↔
      group.length < scratchSize ∧ 4 ≤ (cText (copyOver s.k group)).count ',' ∧
        s.rect.length + groupWidth excl ≤ cap := by
  have hwidth : groupWidth excl = 4 + (groupWidth excl - 4) := by cases excl <;> rfl
  have hfields := fun hlen =>
    @parseFields_isOk_iff cap 4 { s with k := copyOver s.k group } _ (hk hlen) hcap
  have hframe := fun hlen t b =>
    @parseFields_frame cap 4 { s with k := copyOver s.k group } t _ b (hk hlen)
  simp only [parseGroup_eq_ok]
  constructor
  · rintro ⟨t, hlen, ⟨t', b⟩, u, hread, hweight, -⟩
    obtain ⟨hcount, hroom⟩ := (hfields hlen).mp ⟨_, hread⟩
    obtain ⟨-, -, hrect⟩ := hframe hlen t' b hread
    have hlast := (storeWeight_isOk_iff (hrect ▸ hroom)).mp ⟨u, hweight⟩
    dsimp only at hrect hlast
    exact ⟨hlen, hcount, by omega⟩
  · rintro ⟨hlen, hcount, hroom⟩
    obtain ⟨⟨t, b⟩, hread⟩ := (hfields hlen).mpr ⟨hcount, by dsimp only; omega⟩
    obtain ⟨-, -, hrect⟩ := hframe hlen t b hread
    dsimp only at hrect
    obtain ⟨u, hweight⟩ := (@storeWeight_isOk_iff cap excl t b (by omega)).mpr (by omega)
    exact ⟨_, hlen, (t, b), u, hread, hweight, rfl⟩

/-- What a group leaves behind. -/
theorem parseGroup_frame (hk : (cText (copyOver s.k group)).length < scratchSize)
    (h : parseGroup cap excl s group = .ok s') : s'.k = clearFront 10 (copyOver s.k group) ∧
      s'.cnt = s.cnt + 1 ∧ s'.rect.length = s.rect.length + groupWidth excl := by
  have hwidth : groupWidth excl = 4 + (groupWidth excl - 4) := by cases excl <;> rfl
  obtain ⟨-, ⟨t, b⟩, u, hread, hweight, rfl⟩ := parseGroup_eq_ok.mp h
  obtain ⟨hkt, hcnt, hrect⟩ := parseFields_frame hk hread
  obtain ⟨hku, hcntu, hrectu⟩ := storeWeight_frame hweight
  dsimp only [RectParse.nextCnt] at *
  exact ⟨by rw [hku, hkt], by rw [hcntu, hcnt], by omega⟩

end Group

/-! ## The groups of a text -/

/-- The first groups of a text, `left` of them at most. -/
def groupsOf : Nat → List Char → List (List Char)
  | 0, _ => []
  | left + 1, a =>
    match nextGroup a with
    | none => []
    | some (group, a) => group :: groupsOf left a

/-- The text of `k` while a group is read: the group, and what longer groups before it have left
behind it. -/
def scratchText (earlier : List (List Char)) (group : List Char) : List Char :=
  group ++ staleText scratchSize 10 earlier group.length

/-- Every group has at most 39 characters, and at least four commas with what is left behind it. -/
def GroupsFit : List (List Char) → List (List Char) → Prop
  | _, [] => True
  | earlier, group :: groups =>
    group.length < scratchSize ∧ 4 ≤ (scratchText earlier group).count ',' ∧
      GroupsFit (group :: earlier) groups

section Groups

variable {cap left : Nat} {excl : Bool} {s s' : RectParse} {a group rest : List Char}
  {earlier : List (List Char)}

theorem nextGroup_nul (hnul : nul ∉ a) (h : nextGroup a = some (group, rest)) :
    nul ∉ group ∧ nul ∉ rest := by
  obtain ⟨⟨front, inner⟩, hopen, hclose⟩ := Option.bind_eq_some_iff.mp h
  obtain ⟨rfl, -⟩ := cutAt_eq_some hopen
  obtain ⟨rfl, -⟩ := cutAt_eq_some hclose
  simp only [List.mem_append, List.mem_cons, not_or] at hnul
  exact ⟨hnul.2.2.1, hnul.2.2.2.2⟩

/-- The state before a group: the groups before it have gone through `k`. -/
structure RectParse.After (s : RectParse) (earlier : List (List Char)) : Prop where
  k : s.k = reused scratchSize 10 earlier
  fit : Fit scratchSize earlier

theorem RectParse.after_init : RectParse.init.After [] := ⟨rfl, nofun⟩

theorem RectParse.After.text (h : s.After earlier) (hlen : group.length < scratchSize)
    (hnul : nul ∉ group) : cText (copyOver s.k group) = scratchText earlier group := by
  rw [h.k]
  exact cText_reused (by decide) h.fit (Nat.le_of_lt hlen) hnul

theorem RectParse.After.short (h : s.After earlier) (hnul : nul ∉ group)
    (hlen : group.length < scratchSize) : (cText (copyOver s.k group)).length < scratchSize := by
  rw [h.text hlen hnul, scratchText, List.length_append]
  exact length_staleText_lt h.fit hlen 10

theorem RectParse.After.next (h : s.After earlier) (hnul : nul ∉ group)
    (hgroup : parseGroup cap excl s group = .ok s') : s'.After (group :: earlier) := by
  obtain ⟨hlen, -⟩ := parseGroup_eq_ok.mp hgroup
  obtain ⟨hk, -, -⟩ := parseGroup_frame (h.short hnul hlen) hgroup
  exact ⟨by rw [hk, h.k]; rfl, h.fit.cons hlen hnul⟩

/-- **The loop.** It comes to its end if every group is read, and the array has room for the numbers
of all of them. -/
theorem parseLoop_isOk_iff (hs : s.After earlier) (hnul : nul ∉ a) (hcap : s.rect.length ≤ cap) :
    (∃ t, parseLoop cap excl left s a = .ok t) ↔ GroupsFit earlier (groupsOf left a) ∧
      s.rect.length + groupWidth excl * (groupsOf left a).length ≤ cap := by
  induction left generalizing s a earlier with
  | zero => exact iff_of_true ⟨_, rfl⟩ ⟨trivial, hcap⟩
  | succ left ih =>
    unfold parseLoop groupsOf
    cases hnext : nextGroup a with
    | none => exact iff_of_true ⟨_, rfl⟩ ⟨trivial, hcap⟩
    | some next =>
      obtain ⟨group, rest⟩ := next
      obtain ⟨hgroup, hrest⟩ := nextGroup_nul hnul hnext
      have hstep := @parseGroup_isOk_iff cap excl s group (hs.short hgroup) hcap
      simp only [bind_eq_ok]
      rw [GroupsFit, List.length_cons, Nat.mul_succ]
      constructor
      · rintro ⟨t, u, hu, ht⟩
        obtain ⟨hlen, hcount, hroom⟩ := hstep.mp ⟨u, hu⟩
        obtain ⟨-, -, hrect⟩ := parseGroup_frame (hs.short hgroup hlen) hu
        obtain ⟨hfit, hall⟩ := (ih (hs.next hgroup hu) hrest (by omega)).mp ⟨t, ht⟩
        rw [hs.text hlen hgroup] at hcount
        exact ⟨⟨hlen, hcount, hfit⟩, by omega⟩
      · rintro ⟨⟨hlen, hcount, hfit⟩, hroom⟩
        obtain ⟨u, hu⟩ := hstep.mpr ⟨hlen, by rw [hs.text hlen hgroup]; exact hcount, by omega⟩
        obtain ⟨-, -, hrect⟩ := parseGroup_frame (hs.short hgroup hlen) hu
        obtain ⟨t, ht⟩ := (ih (hs.next hgroup hu) hrest (by omega)).mpr ⟨hfit, by omega⟩
        exact ⟨t, u, hu, ht⟩

end Groups

/-- In one of the callers' arrays of `4 * kFocusZoneMax` elements, both with the weights and without
them, the text is read to its end and nothing goes wrong. -/
def ParsesSafely (str : CString) : Prop :=
  ∀ excludeWeight, ∃ parsed, parseRect (4 * kFocusZoneMax) 0 (some str) excludeWeight = .ok parsed

/-- **Texts that do no harm.** A text is read safely exactly if every group of the first five has at
most 39 characters and, with what is left behind it in `k`, four commas, and there are no more than
four groups. -/
theorem parsesSafely_iff (str : CString) : ParsesSafely str ↔
    GroupsFit [] (groupsOf kFocusZoneMax str.val) ∧ (groupsOf kFocusZoneMax str.val).length ≤ 4 := by
  have hread : ∀ excl, (∃ parsed, parseRect (4 * kFocusZoneMax) 0 (some str) excl = .ok parsed) ↔
      GroupsFit [] (groupsOf kFocusZoneMax str.val) ∧
        0 + groupWidth excl * (groupsOf kFocusZoneMax str.val).length ≤ 20 := by
    intro excl
    have hloop := @parseLoop_isOk_iff (4 * kFocusZoneMax) kFocusZoneMax excl .init str.val []
      RectParse.after_init str.property (Nat.zero_le _)
    refine Iff.trans ?_ hloop
    unfold parseRect
    simp only [bind_eq_ok]
    exact ⟨fun ⟨_, t, ht, _⟩ => ⟨t, ht⟩, fun ⟨t, ht⟩ => ⟨_, t, ht, rfl⟩⟩
  constructor
  · intro hsafe
    obtain ⟨hfit, hroom⟩ := (hread false).mp (hsafe false)
    have hwidth : groupWidth false = 5 := rfl
    rw [hwidth] at hroom
    exact ⟨hfit, by omega⟩
  · rintro ⟨hfit, hfour⟩ excl
    have hwidth : groupWidth excl ≤ 5 := by cases excl <;> decide
    have hmul := Nat.mul_le_mul hwidth hfour
    exact (hread excl).mpr ⟨hfit, by omega⟩

/-- Five areas, which are one too many for the array if their weights are stored. -/
def fiveAreas : CString :=
  ⟨"(1,1,2,2,1),(1,1,2,2,1),(1,1,2,2,1),(1,1,2,2,1),(1,1,2,2,1)".toList, by decide +kernel⟩

theorem not_parsesSafely_fiveAreas : ¬ParsesSafely fiveAreas := by
  intro h
  obtain ⟨parsed, hparsed⟩ := h false
  have hnone : (parseRect (4 * kFocusZoneMax) 0 (some fiveAreas) false).toOption.isSome = false := by
    decide +kernel
  rw [hparsed] at hnone
  cases hnone

end SprdHal.Camera
