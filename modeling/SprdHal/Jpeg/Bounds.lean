import SprdHal.Jpeg.Bounded

/-!
# The header parser inside its tables

Four things in the segments take the handlers outside of a table, and every frame header and every
quantisation table takes memory that is not given back. `parse_in_bounds_iff` says that there is
nothing else.
-/

namespace SprdHal.Jpeg

/-! ## Frame headers -/

section Frame

variable {s : Parser}

theorem frameComponents_eq_some {rest : List UInt8} {n : Nat} (h : frameComponents rest = some n) :
    ∃ l1 l0 h1 h0 w1 w0 num r, rest = l1 :: l0 :: 8 :: h1 :: h0 :: w1 :: w0 :: num :: r ∧
      l1.toNat * 256 + l0.toNat = num.toNat * 3 + 8 ∧ num.toNat = n := by
  unfold frameComponents at h
  split at h
  · split at h
    · next hgood =>
      obtain ⟨rfl, hlen⟩ := hgood
      exact ⟨_, _, _, _, _, _, _, _, rfl, hlen, Option.some.inj h⟩
    · cases h
  · cases h

theorem frameComponents_cons {l1 l0 precision h1 h0 w1 w0 num : UInt8} {r : List UInt8}
    (hp : precision = 8) (hlen : l1.toNat * 256 + l0.toNat = num.toNat * 3 + 8) :
    frameComponents (l1 :: l0 :: precision :: h1 :: h0 :: w1 :: w0 :: num :: r) =
      some num.toNat := if_pos ⟨hp, hlen⟩

/-- While the components are set up: `ci` of them have been. -/
def Frame (num ci : Nat) (m : Bool) (s : Parser) : Prop :=
  s.decoder.codec.compInfo.length = ci ∧ s.decoder.codec.numComponents = num ∧
    s.decoder.codec.quantTbl.length = 3 ∧ s.huffTblMalloced = m

theorem bounded_getSOFComponents {num ci : Nat} {m : Bool} (hci : ci ≤ num) (h : Frame num ci m s) :
    Bounded s (Checked.getSOFComponents num ci s) True 0 (fun _ s' => Frame num num m s') := by
  induction hn : num - ci generalizing ci s with
  | zero =>
    have hge : ¬ ci < num := by omega
    rw [Checked.getSOFComponents, if_neg hge]
    obtain rfl : ci = num := by omega
    exact bounded_some trivial h
  | succ n ih =>
    have hlt : ci < num := by omega
    rw [Checked.getSOFComponents, if_pos hlt]
    refine bounded_getChar.then fun id s₁ h₁ => ?_
    refine (bounded_index hlt).then fun _ s₂ h₂ => ?_
    subst h₂
    split
    · exact bounded_none trivial
    next hid =>
    refine bounded_getChar.then fun ratio s₃ h₃ => ?_
    refine bounded_getChar.then fun quant s₄ h₄ => ?_
    split
    · exact bounded_none trivial
    have hindex : id.toNat - 1 < 3 := by omega
    refine (bounded_index hindex).then fun _ s₅ h₅ => ?_
    subst h₅
    refine (bounded_update _).then fun _ s₆ h₆ => ih (by omega) ?_ (by omega)
    subst h₆
    obtain ⟨hlen, hnum, hquant, hm⟩ := h
    have hcodec := h₄.codec.trans (h₃.codec.trans h₁.codec)
    refine ⟨?_, ?_, ?_, h₄.huffTblMalloced.trans (h₃.huffTblMalloced.trans
      (h₁.huffTblMalloced.trans hm))⟩
    · simp [Codec.addComponent, hcodec, hlen]
    · simp [Codec.addComponent, hcodec, hnum]
    · simp [Codec.addComponent, hcodec, hquant]

theorem bounded_setMcuInfo {num : Nat} {m : Bool} (hpos : 0 < num) (h : Frame num num m s) :
    Bounded s (Checked.setMcuInfo s) True 0
      (fun _ s' => s'.decoder.codec.Wf ∧ s'.huffTblMalloced = m) := by
  obtain ⟨hlen, hnum, hquant, hm⟩ := h
  have hset : ∀ info, Bounded s
      (Checked.update (fun codec => { codec with inputMcuInfo := info }) s) True 0
      (fun _ s' => s'.decoder.codec.Wf ∧ s'.huffTblMalloced = m) := fun info =>
    (bounded_update _).imp Iff.rfl rfl fun _ s' h => by
      subst h
      exact ⟨⟨hlen.trans hnum.symm, hquant⟩, hm⟩
  unfold Checked.setMcuInfo
  rw [Checked.bind_quiet rfl]
  refine (bounded_index (by omega)).then fun _ s₁ h₁ => ?_
  subst h₁
  split
  · exact hset _
  next hone =>
  cases mcuInfoOf (sampleRatio s₁.decoder.codec.compInfo 0) with
  | none => exact bounded_none trivial
  | some info =>
    refine (bounded_index (by omega)).then fun _ s₂ h₂ => ?_
    subst h₂
    split
    · exact bounded_none trivial
    have hthird : ∀ a ∈ (if 2 < s₂.decoder.codec.numComponents then
        [Access.index .compInfo 2 s₂.decoder.codec.numComponents] else []), a.Inside := by
      split
      · next h => exact List.forall_mem_singleton.mpr h
      · exact nofun
    refine (bounded_accesses hthird).then fun _ s₃ h₃ => ?_
    subst h₃
    split
    · exact bounded_none trivial
    · exact hset _

/-- **`GetSOF`.** -/
theorem bounded_getSOF (isProgressive : Bool) (hwf : s.decoder.codec.Wf) :
    Bounded s (Checked.getSOF isProgressive s) (frameComponents s.decoder.rest ≠ some 0)
      ((frameComponents s.decoder.rest).getD 0 * 16)
      (fun _ s' => s'.decoder.codec.Wf ∧ s'.huffTblMalloced = s.huffTblMalloced) := by
  cases hframe : frameComponents s.decoder.rest with
  | none =>
    suffices Bounded s (Checked.getSOF isProgressive s) True 0
        (fun _ s' => s'.decoder.codec.Wf ∧ s'.huffTblMalloced = s.huffTblMalloced) from
      this.imp (by simp) (by simp) fun _ _ h => h
    refine bounded_getShortWord.then fun length s₁ h₁ => ?_
    split
    · exact bounded_none trivial
    refine bounded_getChar.then fun precision s₂ h₂ => ?_
    split
    · exact bounded_none trivial
    next hprecision =>
    refine bounded_getShortWord.then fun height s₃ h₃ => ?_
    refine bounded_getShortWord.then fun width s₄ h₄ => ?_
    refine bounded_getChar.then fun num s₅ h₅ => ?_
    split
    · exact bounded_none trivial
    next hlen =>
    obtain ⟨l1, l0, rfl, h₁⟩ := h₁
    obtain ⟨h1, h0, -, h₃⟩ := h₃
    obtain ⟨w1, w0, -, h₄⟩ := h₄
    have hrest := ((((h₁.trans h₂).trans h₃).trans h₄).trans h₅).rest
    rw [hrest] at hframe
    exact absurd (hframe.symm.trans (frameComponents_cons (not_not.mp hprecision) (not_not.mp hlen)))
      nofun
  | some n =>
    obtain ⟨l1, l0, h1, h0, w1, w0, num, r, hrest, hlen, hnum⟩ := frameComponents_eq_some hframe
    unfold Checked.getSOF
    rw [Checked.bind_quiet (getShortWord_run hrest), if_neg (by omega),
      Checked.bind_quiet (getChar_run rfl), if_neg (by simp),
      Checked.bind_quiet (getShortWord_run rfl), Checked.bind_quiet (getShortWord_run rfl),
      Checked.bind_quiet (getChar_run rfl), if_neg (by simpa using hlen)]
    rcases Nat.eq_zero_or_pos n with rfl | hpos
    · refine bounded_bad (by simp) (a := .alloc 0 s.used s.total) ?_ (by simp [Access.Inside])
      rw [hnum]
      exact List.mem_cons_self
    · have hsize : (num.toNat * Checked.sizeofComponentInfo + 3) / 4 * 4 = n * 16 := by
        rw [hnum, Checked.sizeofComponentInfo]
        omega
      have halloc := bounded_alloc (s := s.behind r)
        (show 0 < num.toNat * Checked.sizeofComponentInfo by
          rw [hnum, Checked.sizeofComponentInfo]; omega)
      rw [hsize] at halloc
      have hgood : True ↔ some n ≠ some 0 := iff_of_true trivial (by simp; omega)
      refine ((halloc.imp hgood rfl fun _ _ h => h).then fun _ s₁ h₁ => ?_).of_behind
      refine (bounded_update _).then fun _ s₂ h₂ => ?_
      have hstart : Frame num.toNat 0 s.huffTblMalloced s₂ := by
        subst h₂ h₁
        exact ⟨rfl, rfl, hwf.quantTbl, rfl⟩
      exact (bounded_getSOFComponents (Nat.zero_le _) hstart).then fun _ s₃ h₃ =>
        bounded_setMcuInfo (hnum ▸ hpos) h₃

end Frame

/-! ## Scan headers -/

section Scan

variable {s : Parser}

theorem le_scanComponents (n i : Nat) (rest : List UInt8) : i ≤ scanComponents n i rest := by
  fun_induction scanComponents n i rest with
  | case1 i cc c rest hlt ih => exact Nat.le_of_succ_le ih
  | case2 | case3 => exact Nat.le_refl _

theorem scanHeader_cons {l1 l0 n : UInt8} {rest : List UInt8}
    (h : l1.toNat * 256 + l0.toNat = n.toNat * 2 + 6) :
    scanHeader (l1 :: l0 :: n :: rest) = scanComponents n.toNat 0 rest := if_pos h

theorem scanHeader_eq_zero {rest : List UInt8}
    (h : ∀ l1 l0 n r, rest = l1 :: l0 :: n :: r → l1.toNat * 256 + l0.toNat ≠ n.toNat * 2 + 6) :
    scanHeader rest = 0 := by
  unfold scanHeader
  split
  · exact if_neg (h _ _ _ _ rfl)
  · rfl

/-- The components that are looked at are there. -/
theorem bounded_findComponent (cc : UInt8) (n ci : Nat)
    (h : ci + n ≤ s.decoder.codec.compInfo.length) :
    Bounded s (Checked.findComponent cc n ci s) True 0 (fun _ s' => s' = s) := by
  induction n generalizing ci with
  | zero => exact bounded_some trivial rfl
  | succ n ih =>
    unfold Checked.findComponent
    rw [Checked.bind_quiet rfl]
    refine (bounded_index (by omega)).then fun _ s₁ h₁ => ?_
    subst h₁
    split
    · exact bounded_some trivial rfl
    · exact ih (ci + 1) (by omega)

theorem bounded_getSOSComponents {n i : Nat} (hi : i ≤ 3) (hwf : s.decoder.codec.Wf) :
    Bounded s (Checked.getSOSComponents n i s) (scanComponents n i s.decoder.rest ≤ 3) 0
      (fun _ s' => s'.decoder.codec.Wf ∧ s'.huffTblMalloced = s.huffTblMalloced) := by
  induction hn : n - i generalizing i s with
  | zero =>
    have hge : ¬ i < n := by omega
    rw [Checked.getSOSComponents, if_neg hge]
    refine bounded_some ?_ ⟨hwf, rfl⟩
    unfold scanComponents
    split
    · rw [if_neg (fun h => hge h.1)]
      exact hi
    · exact hi
  | succ k ih =>
    have hlt : i < n := by omega
    rw [Checked.getSOSComponents, if_pos hlt]
    by_cases hplace : ∃ cc c r, s.decoder.rest = cc :: c :: r ∧ cc.toNat = i + 1
    · obtain ⟨cc, c, r, hrest, hcc⟩ := hplace
      rw [hrest, scanComponents, if_pos ⟨hlt, hcc⟩, Checked.bind_quiet (getChar_run hrest),
        Checked.bind_quiet (getChar_run rfl), if_neg (not_not.mpr hcc)]
      refine Bounded.of_behind (r := r) ?_
      rcases Nat.eq_or_lt_of_le hi with rfl | hi
      · have hle : 4 ≤ scanComponents n (3 + 1) r := le_scanComponents n 4 r
        exact bounded_bad (by omega) (a := .index .tblMap 3 3) (List.mem_append_left _ (by simp))
          (by simp [Access.Inside])
      · obtain ⟨l, found, hfind⟩ := findComponent_runs (s := s.behind r) cc
          s.decoder.codec.numComponents 0
        have hcomp := bounded_findComponent (s := s.behind r) cc s.decoder.codec.numComponents 0
          (by rw [Nat.zero_add]; exact Nat.le_of_eq hwf.compInfo.symm)
        have hmap : ∀ a ∈ (if found then [Access.index .compIdMap i 3] else []), a.Inside := by
          split
          · exact List.forall_mem_singleton.mpr hi
          · exact List.forall_mem_nil _
        refine Bounded.past rfl (bounded_index hi) fun _ => ?_
        rw [Checked.bind_quiet rfl]
        refine hcomp.past hfind fun _ => Bounded.past rfl (bounded_accesses hmap) fun _ =>
          Bounded.past rfl (bounded_update _) fun _ => ?_
        exact ih hi ⟨hwf.compInfo, hwf.quantTbl⟩ (by omega)
    · have hcond : scanComponents n i s.decoder.rest ≤ 3 := by
        unfold scanComponents
        split
        · next cc c r hrest => rwa [if_neg fun h => hplace ⟨cc, c, r, hrest, h.2⟩]
        · exact hi
      suffices Bounded s _ True 0 _ from this.imp (iff_of_true trivial hcond) rfl fun _ _ h => h
      refine bounded_getChar.then fun cc s₁ h₁ => ?_
      refine bounded_getChar.then fun c s₂ h₂ => ?_
      rw [if_pos fun hcc => hplace ⟨cc, c, _, (h₁.trans h₂).rest, hcc⟩]
      exact bounded_none trivial

/-- **`GetSOS`.** -/
theorem bounded_getSOS (hwf : s.decoder.codec.Wf) :
    Bounded s (Checked.getSOS s) (scanHeader s.decoder.rest ≤ 3) 0
      (fun _ s' => s'.decoder.codec.Wf ∧ s'.huffTblMalloced = s.huffTblMalloced) := by
  by_cases hhead : ∃ l1 l0 n r, s.decoder.rest = l1 :: l0 :: n :: r ∧
      l1.toNat * 256 + l0.toNat = n.toNat * 2 + 6
  · obtain ⟨l1, l0, n, r, hrest, hlen⟩ := hhead
    rw [hrest, scanHeader_cons hlen]
    unfold Checked.getSOS
    rw [Checked.bind_quiet (getShortWord_run hrest), if_neg (by omega),
      Checked.bind_quiet (getChar_run rfl), if_neg (by omega)]
    refine Bounded.of_behind (r := r) (Bounded.past rfl (bounded_update _) fun _ => ?_)
    refine Bounded.then (bounded_getSOSComponents (Nat.zero_le 3) ⟨hwf.compInfo, hwf.quantTbl⟩)
      fun _ s₁ h₁ => ?_
    refine bounded_getChar.then fun ss s₂ h₂ => ?_
    refine bounded_getChar.then fun se s₃ h₃ => ?_
    refine bounded_getChar.then fun c s₄ h₄ => (bounded_update _).imp Iff.rfl rfl fun _ s' h => ?_
    subst h
    have hread := (h₂.trans h₃).trans h₄
    rw [← hread.codec] at h₁
    exact ⟨⟨h₁.1.compInfo, h₁.1.quantTbl⟩, hread.huffTblMalloced.trans h₁.2⟩
  · have hzero : scanHeader s.decoder.rest = 0 := scanHeader_eq_zero fun l1 l0 n r hrest hlen =>
      hhead ⟨l1, l0, n, r, hrest, hlen⟩
    rw [hzero]
    suffices Bounded s _ True 0 _ from
      this.imp (iff_of_true trivial (Nat.zero_le 3)) rfl fun _ _ h => h
    refine bounded_getShortWord.then fun length s₁ h₁ => ?_
    split
    · exact bounded_none trivial
    refine bounded_getChar.then fun n s₂ h₂ => ?_
    split
    · exact bounded_none trivial
    obtain ⟨l1, l0, rfl, h₁⟩ := h₁
    exact absurd ⟨l1, l0, n, _, (h₁.trans h₂).rest, by omega⟩ hhead

end Scan

/-! ## Huffman tables -/

section Huff

variable {s : Parser} {uses : Nat → List Access} {n i : Nat}

theorem readChars_some {rest : List UInt8} (hr : s.decoder.rest = rest) (h : n ≤ rest.length) :
    Checked.readEach Checked.getChar uses n i s =
      ((List.range' i n).flatMap uses, some (rest.take n, s.behind (rest.drop n))) := by
  induction n generalizing i s rest with
  | zero =>
    subst hr
    rfl
  | succ n ih =>
    cases rest with
    | nil => exact absurd h (Nat.not_succ_le_zero n)
    | cons c r =>
      have hnext := ih (i := i + 1) (rest_behind s r) (Nat.le_of_succ_le_succ h)
      unfold Checked.readEach
      rw [Checked.bind_quiet (getChar_run hr), Checked.bind_run rfl, Checked.bind_run hnext,
        List.range'_succ, List.flatMap_cons, List.take_succ_cons, List.drop_succ_cons]
      exact congrArg₂ Prod.mk (congrArg _ (List.append_nil _)) rfl

theorem readChars_none {rest : List UInt8} (hr : s.decoder.rest = rest) (h : rest.length < n) :
    Checked.readEach Checked.getChar uses n i s =
      ((List.range' i rest.length).flatMap uses, none) := by
  induction n generalizing i s rest with
  | zero => exact absurd h (Nat.not_lt_zero _)
  | succ n ih =>
    unfold Checked.readEach
    cases rest with
    | nil =>
      rw [Checked.bind_stop (getChar_none hr)]
      rfl
    | cons c r =>
      have hnext := ih (i := i + 1) (rest_behind s r) (Nat.lt_of_succ_lt_succ h)
      rw [Checked.bind_quiet (getChar_run hr), Checked.bind_run rfl, Checked.bind_stop hnext,
        List.length_cons, List.range'_succ, List.flatMap_cons]

theorem bounded_readChars {C : Prop} {rest : List UInt8} (hr : s.decoder.rest = rest)
    (hC : (∀ k ∈ List.range' i (min n rest.length), ∀ a ∈ uses k, a.Inside) ↔ C) :
    Bounded s (Checked.readEach Checked.getChar uses n i s) C 0
      (fun cs s' => s.Read cs s' ∧ cs.length = n ∧ n ≤ rest.length) := by
  have hall (l : List Nat) : (∀ a ∈ l.flatMap uses, a.Inside) ↔ ∀ k ∈ l, ∀ a ∈ uses k, a.Inside :=
    List.forall_mem_flatMap
  rcases Nat.lt_or_ge rest.length n with hshort | hlen
  · rw [readChars_none hr hshort]
    rw [Nat.min_eq_right (Nat.le_of_lt hshort)] at hC
    exact ⟨fun hle => ((hall _).trans hC).trans (and_iff_left hle).symm, fun _ => nofun⟩
  · rw [readChars_some hr hlen]
    rw [Nat.min_eq_left hlen] at hC
    refine ⟨fun hle => ((hall _).trans hC).trans (and_iff_left hle).symm, fun _ cs s' h => ?_⟩
    cases h
    have hread : s.decoder.rest = rest.take n ++ rest.drop n := by rw [List.take_append_drop, hr]
    exact ⟨rfl, rfl, ⟨hread, rfl, rfl⟩, List.length_take_of_le hlen, hlen⟩

/-- The parser after the memory of one DC and one AC table has been taken. -/
def Parser.allocated (s : Parser) : Parser :=
  { s with used := s.used + 20 + 260 + 20 + 260 }

theorem allocHuffTbl_run : ∃ l, Checked.allocHuffTbl s = (l, some ((), s.allocated)) := ⟨_, rfl⟩

theorem bounded_allocHuffTbl :
    Bounded s (Checked.allocHuffTbl s) True (20 + (260 + (20 + 260)))
      (fun _ s' => s' = s.allocated) := by
  have h (s : Parser) {size : Nat} (hpos : 0 < size) := bounded_alloc (s := s) hpos
  exact (Bounded.seq rfl (h _ (by decide)) fun _ => Bounded.seq rfl (h _ (by decide)) fun _ =>
    Bounded.seq rfl (h _ (by decide)) fun _ => h _ (by decide)).imp (by simp) rfl fun _ _ h => h

theorem bounded_allocHuffTbls' (s : Parser) :
    Bounded s
      ((do
        Checked.allocHuffTbl
        Checked.allocHuffTbl
        Checked.allocHuffTbl
        Checked.allocHuffTbl : Checked Unit) s)
      (True ∧ True ∧ True ∧ True) (560 + (560 + (560 + 560)))
      (fun _ s' => s' = s.allocated.allocated.allocated.allocated) := by
  obtain ⟨l, hl⟩ := allocHuffTbl_run (s := s)
  obtain ⟨l', hl'⟩ := allocHuffTbl_run (s := s.allocated)
  obtain ⟨l'', hl''⟩ := allocHuffTbl_run (s := s.allocated.allocated)
  exact bounded_allocHuffTbl.seq hl fun _ => bounded_allocHuffTbl.seq hl' fun _ =>
    bounded_allocHuffTbl.seq hl'' fun _ => bounded_allocHuffTbl

theorem bounded_allocHuffTbls :
    Bounded s (Checked.allocHuffTbls s) True
      (if s.huffTblMalloced then 0 else 4 * (20 + 260 + 20 + 260))
      (fun _ s' => s'.decoder = s.decoder ∧ s'.huffTblMalloced = true) := by
  unfold Checked.allocHuffTbls
  by_cases hm : s.huffTblMalloced = true
  · rw [if_pos hm, if_pos hm]
    exact bounded_some trivial ⟨rfl, hm⟩
  · rw [if_neg hm, if_neg hm]
    have h := bounded_allocHuffTbls' { s with huffTblMalloced := true }
    refine ⟨fun hle => (h.inside hle).trans (by simp), fun _ a s' hrun => ?_⟩
    obtain ⟨hused, htotal, rfl⟩ := h.after (by simp) a s' hrun
    exact ⟨rfl, rfl, rfl, rfl⟩

/-- The class and number of a table, without the invalid bits. -/
theorem huffIndex_lt (c : UInt8) :
    (if (c.toNat &&& 0x13) &&& 0x10 ≠ 0 then (c.toNat &&& 0x13) - 0x10 else c.toNat &&& 0x13) < 4 := by
  have hall : ∀ k : Fin 256,
      (if (k.val &&& 0x13) &&& 0x10 ≠ 0 then (k.val &&& 0x13) - 0x10 else k.val &&& 0x13) < 4 := by
    decide +kernel
  exact hall ⟨c.toNat, c.toNat_lt⟩

/-- The symbols of a table. -/
def huffCount (r : List UInt8) : Nat := ((r.take 16).map UInt8.toNat).sum

theorem huffTables_nil (length : Nat) : huffTables length [] = [] := by
  rw [huffTables]
  split
  · rfl
  · rfl

theorem huffTables_cons {length : Nat} (h : 0 < length) (c : UInt8) (r : List UInt8) :
    huffTables length (c :: r) =
      if r.length < 16 ∨ 256 < huffCount r then []
      else
        (c.toNat &&& 0x13, min (huffCount r) (r.length - 16)) ::
          if r.length - 16 < huffCount r ∨ length < 1 + 16 + huffCount r then []
          else huffTables (length - (1 + 16 + huffCount r)) (r.drop (16 + huffCount r)) := by
  rw [huffTables, dif_pos h]
  rfl

variable {c : UInt8} {r : List UInt8}

theorem bits_inside (m : Nat) : ∀ k ∈ List.range' 1 (min 16 m), ∀ a ∈ [Access.index .bits k 17,
    Access.index .defaultBits k 17], a.Inside := by
  intro k hk
  have hlt : k < 17 := by
    have := (List.mem_range'_1.mp hk).2
    omega
  exact List.forall_mem_cons.mpr ⟨hlt, List.forall_mem_singleton.mpr hlt⟩

/-- The symbols are inside their table, but not inside the default table if there are too many. -/
theorem symbols_inside (index : Nat) (hn : n ≤ 256) :
    (∀ k ∈ List.range' 0 n, ∀ a ∈ [Access.index .huffval k 257,
      Access.index .defaultHuffval k (Checked.defaultSymbols index)], a.Inside) ↔
      n ≤ Checked.defaultSymbols index := by
  constructor
  · intro h
    rcases Nat.eq_zero_or_pos n with rfl | hpos
    · exact Nat.zero_le _
    · have hlast := h (n - 1) (List.mem_range'_1.mpr (by omega)) _ (List.mem_cons_of_mem _
        List.mem_cons_self)
      have hlt : n - 1 < Checked.defaultSymbols index := hlast
      omega
  · intro h k hk
    have hlt : k < n := by
      have := (List.mem_range'_1.mp hk).2
      omega
    have hval : k < 257 := by omega
    have hdefault : k < Checked.defaultSymbols index := by omega
    exact List.forall_mem_cons.mpr ⟨hval, List.forall_mem_singleton.mpr hdefault⟩

theorem getOneHuffTbl_run (hrest : s.decoder.rest = c :: r) (hcount : huffCount r ≤ 256)
    (hlen : 16 + huffCount r ≤ r.length) :
    ∃ l, Checked.getOneHuffTbl s = (l, some ((c.toNat &&& 0x13, r.take 16,
      (r.drop 16).take (huffCount r)), s.behind (r.drop (16 + huffCount r)))) := by
  unfold Checked.getOneHuffTbl
  have hsymbols : huffCount r ≤ (r.drop 16).length := by
    rw [List.length_drop]
    omega
  rw [Checked.bind_quiet (getChar_run hrest), Checked.bind_run rfl,
    Checked.bind_run (readChars_some (rest_behind s r) (by omega)),
    show ((r.take 16).map UInt8.toNat).sum = huffCount r from rfl,
    if_neg (Nat.not_lt.mpr hcount),
    Checked.bind_run (readChars_some (rest_behind _ (r.drop 16)) hsymbols),
    List.drop_drop]
  exact ⟨_, rfl⟩

theorem bounded_getOneHuffTbl (hrest : s.decoder.rest = c :: r) :
    Bounded s (Checked.getOneHuffTbl s)
      (16 ≤ r.length → huffCount r ≤ 256 →
        min (huffCount r) (r.length - 16) ≤ Checked.defaultSymbols (c.toNat &&& 0x13)) 0
      (fun t s' => t.2.2.length = huffCount r ∧ 16 + huffCount r ≤ r.length ∧
        huffCount r ≤ 256 ∧ s'.decoder.codec = s.decoder.codec ∧
        s'.huffTblMalloced = s.huffTblMalloced) := by
  have hbits : (Access.index .bits 0 17).Inside := Nat.zero_lt_succ 16
  have haccess : ∀ a ∈ [Access.index .huffTbl (if (c.toNat &&& 0x13) &&& 0x10 ≠ 0 then
      (c.toNat &&& 0x13) - 0x10 else c.toNat &&& 0x13) 4, Access.index .bits 0 17], a.Inside :=
    List.forall_mem_cons.mpr ⟨huffIndex_lt c, List.forall_mem_singleton.mpr hbits⟩
  unfold Checked.getOneHuffTbl
  rw [Checked.bind_quiet (getChar_run hrest)]
  refine Bounded.of_behind (r := r) (Bounded.past rfl (bounded_accesses haccess) fun _ => ?_)
  have hread := bounded_readChars (rest_behind s r) (iff_of_true (bits_inside r.length) trivial)
  by_cases hlen : 16 ≤ r.length
  · refine hread.past (readChars_some (rest_behind s r) hlen) fun _ => ?_
    rw [show ((r.take 16).map UInt8.toNat).sum = huffCount r from rfl]
    by_cases hcount : 256 < huffCount r
    · rw [if_pos hcount]
      exact bounded_none fun _ hle => absurd hcount (Nat.not_lt.mpr hle)
    · rw [if_neg hcount]
      have hcount := Nat.not_lt.mp hcount
      have hmin : min (huffCount r) (r.drop 16).length ≤ 256 :=
        Nat.le_trans (Nat.min_le_left _ _) hcount
      have hsymbols := bounded_readChars (rest_behind (s.behind r) (r.drop 16))
        (symbols_inside (c.toNat &&& 0x13) hmin)
      have hcond : min (huffCount r) (r.drop 16).length ≤ Checked.defaultSymbols (c.toNat &&& 0x13) ↔
          (16 ≤ r.length → huffCount r ≤ 256 → min (huffCount r) (r.length - 16) ≤
            Checked.defaultSymbols (c.toNat &&& 0x13)) := by
        rw [List.length_drop]
        exact ⟨fun h _ _ => h, fun h => h hlen hcount⟩
      refine Bounded.imp ?_ hcond rfl fun _ _ h => h
      refine hsymbols.then fun huffval s₁ h₁ => bounded_some trivial ?_
      obtain ⟨hread, hval, hle⟩ := h₁
      rw [List.length_drop] at hle
      exact ⟨hval, by omega, hcount, hread.codec, hread.huffTblMalloced⟩
  · exact (hread.then fun bits s₁ h₁ => absurd h₁.2.2 hlen).imp
      (iff_of_true trivial fun h => absurd h hlen) rfl fun _ _ h => h

theorem Codec.Wf.setHuffTbl {codec : Codec} (h : codec.Wf) (index : Nat) (bits huffval : List UInt8) :
    (codec.setHuffTbl index bits huffval).Wf := by
  unfold Codec.setHuffTbl
  simp only
  split
  · exact ⟨h.compInfo, h.quantTbl⟩
  · exact ⟨h.compInfo, h.quantTbl⟩

theorem bounded_getHuffTblLoop (length : Nat) (hwf : s.decoder.codec.Wf) :
    Bounded s (Checked.getHuffTblLoop length s)
      (∀ t ∈ huffTables length s.decoder.rest, t.2 ≤ Checked.defaultSymbols t.1) 0
      (fun _ s' => s'.decoder.codec.Wf ∧ s'.huffTblMalloced = s.huffTblMalloced) := by
  induction length using Nat.strong_induction_on generalizing s with
  | _ length ih =>
    by_cases hpos : 0 < length
    · rw [Checked.getHuffTblLoop, if_pos hpos]
      cases hrest : s.decoder.rest with
      | nil =>
        have hone : Checked.getOneHuffTbl s = ([], none) := Checked.bind_stop (getChar_none hrest)
        rw [huffTables_nil, Checked.bind_stop hone]
        exact bounded_none (List.forall_mem_nil _)
      | cons c r =>
        rw [huffTables_cons hpos]
        have hone := bounded_getOneHuffTbl hrest
        by_cases hbad : r.length < 16 ∨ 256 < huffCount r
        · rw [if_pos hbad]
          refine (hone.then fun t s₁ h₁ => ?_).imp ?_ rfl fun _ _ h => h
          · omega
          · exact iff_of_true (fun h16 h256 => by omega) (List.forall_mem_nil _)
        rw [if_neg hbad]
        obtain ⟨h16, h256⟩ := not_or.mp hbad
        have hcond : (16 ≤ r.length → huffCount r ≤ 256 → min (huffCount r) (r.length - 16) ≤
            Checked.defaultSymbols (c.toNat &&& 0x13)) ↔ min (huffCount r) (r.length - 16) ≤
            Checked.defaultSymbols (c.toNat &&& 0x13) :=
          ⟨fun h => h (Nat.not_lt.mp h16) (Nat.not_lt.mp h256), fun h _ _ => h⟩
        have hone := hone.imp hcond rfl fun _ _ h => h
        by_cases hcut : r.length - 16 < huffCount r ∨ length < 1 + 16 + huffCount r
        · rw [if_pos hcut, List.forall_mem_singleton]
          refine hone.then fun t s₁ h₁ => ?_
          simp only
          rw [h₁.1, if_pos (by omega)]
          exact bounded_none trivial
        · rw [if_neg hcut, List.forall_mem_cons]
          obtain ⟨l, hrun⟩ := getOneHuffTbl_run hrest (by omega) (by omega)
          refine (hone.seq hrun fun h₁ => ?_).imp Iff.rfl (Nat.zero_add 0) fun _ _ h => h
          simp only
          rw [h₁.1, if_neg (by omega)]
          exact Bounded.past rfl (bounded_update _) fun _ => ih _ (by omega) (hwf.setHuffTbl _ _ _)
    · rw [Checked.getHuffTblLoop, if_neg hpos, huffTables.eq_def, dif_neg hpos]
      exact bounded_some (List.forall_mem_nil _) ⟨hwf, rfl⟩

theorem lengthField_cons (a b : UInt8) (r : List UInt8) :
    lengthField (a :: b :: r) = a.toNat * 256 + b.toNat := rfl

theorem huffSegment_short {rest : List UInt8} (h : rest.length < 2) : huffSegment rest = [] := by
  have hdrop : rest.drop 2 = [] := List.drop_eq_nil_of_le (Nat.le_of_lt h)
  rw [huffSegment, hdrop, huffTables_nil]

/-- **`GetHuffTbl`.** -/
theorem bounded_getHuffTbl (hwf : s.decoder.codec.Wf) :
    Bounded s (Checked.getHuffTbl s)
      (∀ t ∈ huffSegment s.decoder.rest, t.2 ≤ Checked.defaultSymbols t.1)
      (if s.huffTblMalloced then 0 else 4 * (20 + 260 + 20 + 260))
      (fun _ s' => s'.decoder.codec.Wf ∧ s'.huffTblMalloced = true) := by
  obtain ⟨l, s₁, hrun, hsame⟩ := allocHuffTbls_runs (s := s)
  refine (bounded_allocHuffTbls.seq hrun fun h₁ => ?_).imp (Iff.of_eq (true_and _))
    (Nat.add_zero _) fun _ _ h => h
  rw [← hsame] at hwf ⊢
  rw [← h₁.2]
  rcases two_or_short s₁.decoder.rest with hshort | ⟨a, b, r, hrest⟩
  · rw [Checked.bind_stop (getShortWord_none hshort), huffSegment_short hshort]
    exact bounded_none nofun
  · rw [Checked.bind_quiet (getShortWord_run hrest), hrest, huffSegment, lengthField_cons]
    refine Bounded.of_behind (r := r) ?_
    by_cases hlen : a.toNat * 256 + b.toNat < 2
    · rw [if_pos hlen, Nat.sub_eq_zero_of_le (Nat.le_of_lt hlen), huffTables.eq_def,
        dif_neg (Nat.lt_irrefl 0)]
      exact bounded_none nofun
    · rw [if_neg hlen]
      have hwf' : (s₁.behind r).decoder.codec.Wf := hwf
      exact bounded_getHuffTblLoop _ hwf'

end Huff

/-! ## Quantisation tables -/

section Quant

variable {s : Parser} {n i : Nat} {r : List UInt8}

theorem quantUses_inside : ∀ k ∈ List.range' 0 64, ∀ a ∈ Checked.quantUses k, a.Inside := by
  have hall : ∀ k : Fin 64, zigzagOrder.getD k.val 0 < 64 := by decide
  intro k hk
  have hlt : k < 64 := by
    have := (List.mem_range'_1.mp hk).2
    omega
  exact List.forall_mem_singleton.mpr (hall ⟨k, hlt⟩)

theorem readWords_some {uses : Nat → List Access} (hr : s.decoder.rest = r) (h : 2 * n ≤ r.length) :
    ∃ l ws, Checked.readEach Checked.getShortWord uses n i s =
      (l, some (ws, s.behind (r.drop (2 * n)))) := by
  induction n generalizing i s r with
  | zero =>
    subst hr
    exact ⟨_, _, rfl⟩
  | succ n ih =>
    rcases two_or_short r with hshort | ⟨a, b, r, rfl⟩
    · omega
    · rw [List.length_cons, List.length_cons] at h
      obtain ⟨l, ws, hnext⟩ := ih (i := i + 1) (rest_behind s r) (by omega)
      unfold Checked.readEach
      rw [Checked.bind_quiet (getShortWord_run hr), Checked.bind_run rfl, Checked.bind_run hnext,
        Nat.mul_succ]
      exact ⟨_, _, rfl⟩

theorem bounded_readWords {uses : Nat → List Access}
    (hu : ∀ k ∈ List.range' i n, ∀ a ∈ uses k, a.Inside) :
    Bounded s (Checked.readEach Checked.getShortWord uses n i s) True 0
      (fun _ s' => ∃ bytes, s.Read bytes s' ∧ bytes.length = 2 * n) := by
  induction n generalizing i s with
  | zero => exact bounded_some trivial ⟨[], ⟨rfl, rfl, rfl⟩, rfl⟩
  | succ n ih =>
    rw [List.range'_succ, List.forall_mem_cons] at hu
    unfold Checked.readEach
    refine bounded_getShortWord.then fun w s₁ h₁ => ?_
    refine (bounded_accesses hu.1).then fun _ s₂ h₂ => ?_
    subst h₂
    refine (ih hu.2).then fun ws s₃ h₃ => bounded_some trivial ?_
    obtain ⟨a, b, -, h₁⟩ := h₁
    obtain ⟨bytes, h₃, hlen⟩ := h₃
    refine ⟨_, h₁.trans h₃, ?_⟩
    rw [List.length_append, hlen, Nat.mul_succ, Nat.add_comm]
    rfl

/-- The bytes of a table. -/
def quantSize (prec : Nat) : Nat := if prec = 0 then 64 else 128

theorem getQuantValues_run (prec : Nat) (hr : s.decoder.rest = r) (h : quantSize prec ≤ r.length) :
    ∃ l values, Checked.getQuantValues prec s =
      (l, some (values, s.behind (r.drop (quantSize prec)))) := by
  unfold Checked.getQuantValues
  unfold quantSize at h ⊢
  by_cases hprec : prec = 0
  · rw [if_pos hprec] at h
    rw [if_pos hprec, if_pos hprec]
    exact ⟨_, _, readChars_some hr h⟩
  · rw [if_neg hprec] at h
    obtain ⟨l, ws, hrun⟩ := @readWords_some s 64 0 r Checked.quantUses hr h
    rw [if_neg hprec, if_neg hprec, Checked.bind_run hrun]
    exact ⟨_, _, rfl⟩

theorem bounded_getQuantValues (prec : Nat) :
    Bounded s (Checked.getQuantValues prec s) True 0
      (fun _ s' => ∃ bytes, s.Read bytes s' ∧ bytes.length = quantSize prec) := by
  unfold Checked.getQuantValues quantSize
  split
  · refine (bounded_readChars rfl (iff_of_true (fun k hk => ?_) trivial)).imp Iff.rfl rfl
      fun bytes s' h => ⟨bytes, h.1, h.2.1⟩
    refine quantUses_inside k (List.mem_range'_1.mpr ⟨Nat.zero_le k, ?_⟩)
    have := (List.mem_range'_1.mp hk).2
    omega
  · refine (bounded_readWords quantUses_inside).then fun ws s₁ h₁ => ?_
    exact bounded_some trivial h₁

theorem quantTables_nil {length : Nat} (h : 0 < length) : quantTables length [] = ([], false) := by
  rw [quantTables.eq_def, dif_pos h]

theorem quantTables_zero (rest : List UInt8) : quantTables 0 rest = ([], true) := by
  rw [quantTables.eq_def, dif_neg (Nat.lt_irrefl 0)]

theorem quantTables_cons {length : Nat} (h : 0 < length) (c : UInt8) (r : List UInt8) :
    quantTables length (c :: r) =
      if 2 < c.toNat % 16 then ([], false)
      else if r.length < quantSize (c.toNat / 16) ∨ length < 64 + 1 + 64 * (c.toNat / 16) then
        ([c.toNat % 16], false)
      else
        (c.toNat % 16 :: (quantTables (length - (64 + 1 + 64 * (c.toNat / 16)))
            (r.drop (quantSize (c.toNat / 16)))).1,
          (quantTables (length - (64 + 1 + 64 * (c.toNat / 16)))
            (r.drop (quantSize (c.toNat / 16)))).2) := by
  rw [quantTables.eq_def, dif_pos h]
  rfl

theorem hasQuantTbl_set {codec : Codec} (h : codec.quantTbl.length = 3) {n k : Nat} (hn : n < 3)
    (t : List UInt8) :
    ({ codec with quantTbl := codec.quantTbl.set n (some t) } : Codec).hasQuantTbl k ↔
      k = n ∨ codec.hasQuantTbl k := by
  unfold Codec.hasQuantTbl
  by_cases hk : k = n
  · subst hk
    simp [List.getElem?_set_self (h ▸ hn)]
  · simp [List.getElem?_set_ne (Ne.symm hk), hk]

theorem Codec.Wf.setQuantTbl {codec : Codec} (h : codec.Wf) (n : Nat) (t : Option (List UInt8)) :
    ({ codec with quantTbl := codec.quantTbl.set n t } : Codec).Wf :=
  ⟨h.compInfo, List.length_set.trans h.quantTbl⟩

/-- What the loop of `GetQuantTbl` leaves: `tables` are the tables it has read. -/
structure QuantPost (s : Parser) (twoChroma : Bool) (tables : List Nat × Bool) (two : Bool)
    (s' : Parser) : Prop where
  done : tables.2 = true
  two : two = true ↔ twoChroma = true ∨ 2 ∈ tables.1
  has : ∀ k, s'.decoder.codec.hasQuantTbl k ↔ k ∈ tables.1 ∨ s.decoder.codec.hasQuantTbl k
  wf : s'.decoder.codec.Wf
  huffTblMalloced : s'.huffTblMalloced = s.huffTblMalloced

/-- The parser with the memory of a quantisation table taken. -/
def Parser.quantAllocated (s : Parser) : Parser := { s with used := s.used + 64 }

theorem bounded_quantAlloc {α : Type} {f : Unit → Checked α} {k : Nat} {Q : α → Parser → Prop}
    (h : Bounded s.quantAllocated (f () s.quantAllocated) True (k * 64) Q) :
    Bounded s ((Checked.alloc 64 >>= f) s) True ((k + 1) * 64) Q :=
  ((bounded_alloc (by decide)).seq rfl fun _ => h).imp (Iff.of_eq (true_and True))
    (by omega) fun _ _ h => h

theorem bounded_getQuantTblLoop (length : Nat) (twoChroma : Bool) (hwf : s.decoder.codec.Wf) :
    Bounded s (Checked.getQuantTblLoop length twoChroma s) True
      ((quantTables length s.decoder.rest).1.length * 64)
      (QuantPost s twoChroma (quantTables length s.decoder.rest)) := by
  induction length using Nat.strong_induction_on generalizing s twoChroma with
  | _ length ih =>
    rcases Nat.eq_zero_or_pos length with rfl | hpos
    · rw [Checked.getQuantTblLoop, if_neg (Nat.lt_irrefl 0), quantTables_zero]
      exact bounded_some trivial ⟨rfl, by simp, fun k => by simp, hwf, rfl⟩
    rw [Checked.getQuantTblLoop, if_pos hpos]
    cases hrest : s.decoder.rest with
    | nil =>
      rw [Checked.bind_stop (getChar_none hrest), quantTables_nil hpos]
      exact bounded_none trivial
    | cons c r =>
      rw [Checked.bind_quiet (getChar_run hrest), quantTables_cons hpos]
      refine Bounded.of_behind (r := r) ?_
      by_cases hn : 2 < c.toNat % 16
      · simp only [if_pos hn]
        exact bounded_none trivial
      simp only [if_neg hn]
      have hindex : c.toNat % 16 < 3 := by omega
      refine Bounded.past rfl (bounded_index hindex) fun _ => ?_
      by_cases hcut : r.length < quantSize (c.toNat / 16) ∨ length < 64 + 1 + 64 * (c.toNat / 16)
      · rw [if_pos hcut]
        refine bounded_quantAlloc (k := 0) ?_
        refine (bounded_getQuantValues _).then fun values s₁ h₁ => ?_
        obtain ⟨bytes, h₁, hlen⟩ := h₁
        have hsum := congrArg List.length h₁.rest
        rw [List.length_append] at hsum
        have hshort : length < 64 + 1 + 64 * (c.toNat / 16) := by
          refine hcut.resolve_left fun hshort => ?_
          have hr : (s.behind r).quantAllocated.decoder.rest.length = r.length := rfl
          omega
        rw [if_pos hshort]
        exact bounded_none trivial
      · rw [if_neg hcut]
        obtain ⟨hlen, hlength⟩ := not_or.mp hcut
        obtain ⟨l, values, hrun⟩ := getQuantValues_run (s := (s.behind r).quantAllocated) (r := r)
          (c.toNat / 16) rfl (Nat.not_lt.mp hlen)
        refine bounded_quantAlloc ?_
        refine (bounded_getQuantValues _).past hrun fun _ => ?_
        rw [if_neg hlength]
        refine Bounded.past rfl (bounded_update _) fun _ => ?_
        refine (ih _ (by omega) _ (hwf.setQuantTbl _ _)).imp Iff.rfl rfl fun two s' h => ?_
        refine ⟨h.done, h.two.trans ?_, fun k => (h.has k).trans ?_, h.wf, h.huffTblMalloced⟩
        · simp only [Bool.or_eq_true, decide_eq_true_eq, List.mem_cons, or_assoc]
          refine or_congr_right (or_congr_left ?_)
          omega
        · refine (or_congr_right (hasQuantTbl_set hwf.quantTbl hindex _)).trans ?_
          rw [List.mem_cons]
          exact or_left_comm.trans or_assoc.symm

theorem isSome_bind {α β : Type} {m : Checked α} {f : α → Checked β} {l : List Access} {a : α}
    {s' : Parser} (hrun : m s = (l, some (a, s'))) (h : (f a s').2.isSome = true) :
    ((m >>= f) s).2.isSome = true := by
  rw [Checked.bind_run hrun]
  exact h

/-- The loop comes to its end if the segment has all of its tables. -/
theorem getQuantTblLoop_run (length : Nat) (twoChroma : Bool)
    (h : (quantTables length s.decoder.rest).2 = true) :
    (Checked.getQuantTblLoop length twoChroma s).2.isSome = true := by
  induction length using Nat.strong_induction_on generalizing s twoChroma with
  | _ length ih =>
    rcases Nat.eq_zero_or_pos length with rfl | hpos
    · rw [Checked.getQuantTblLoop, if_neg (Nat.lt_irrefl 0)]
      rfl
    cases hrest : s.decoder.rest with
    | nil =>
      rw [hrest, quantTables_nil hpos] at h
      cases h
    | cons c r =>
      rw [hrest, quantTables_cons hpos] at h
      split at h
      · cases h
      next hn =>
      split at h
      · cases h
      next hcut =>
      obtain ⟨hlen, hlength⟩ := not_or.mp hcut
      obtain ⟨l, values, hrun⟩ := getQuantValues_run (s := (s.behind r).quantAllocated) (r := r)
        (c.toNat / 16) rfl (Nat.not_lt.mp hlen)
      rw [Checked.getQuantTblLoop, if_pos hpos]
      refine isSome_bind (getChar_run hrest) ?_
      rw [if_neg hn]
      refine isSome_bind rfl (isSome_bind rfl (isSome_bind hrun ?_))
      rw [if_neg hlength]
      exact isSome_bind rfl (ih _ (by omega) _ h)

/-- The comparison of the chroma tables follows both pointers. -/
theorem compareQuant_inside {u v : Option (Option (List UInt8))} :
    (∀ a ∈ Checked.compareQuant u v 64 0, a.Inside) ↔
      u.join.isSome = true ∧ v.join.isSome = true := by
  constructor
  · intro h
    have hu : 0 < Checked.quantBound u := h (.index .quantEntry 0 _) List.mem_cons_self
    have hv : 0 < Checked.quantBound v :=
      h (.index .quantEntry 0 _) (List.mem_cons_of_mem _ List.mem_cons_self)
    unfold Checked.quantBound at hu hv
    constructor
    · by_contra hn
      rw [if_neg hn] at hu
      exact absurd hu (Nat.lt_irrefl 0)
    · by_contra hn
      rw [if_neg hn] at hv
      exact absurd hv (Nat.lt_irrefl 0)
  · rintro ⟨hu, hv⟩
    have hall : ∀ n j, j + n ≤ 64 → ∀ a ∈ Checked.compareQuant u v n j, a.Inside := by
      intro n
      induction n with
      | zero => exact fun _ _ => nofun
      | succ n ih =>
        intro j hj
        unfold Checked.compareQuant
        have hju : (Access.index .quantEntry j (Checked.quantBound u)).Inside := by
          show j < Checked.quantBound u
          rw [Checked.quantBound, if_pos hu]
          omega
        have hjv : (Access.index .quantEntry j (Checked.quantBound v)).Inside := by
          show j < Checked.quantBound v
          rw [Checked.quantBound, if_pos hv]
          omega
        refine List.forall_mem_cons.mpr ⟨hju, List.forall_mem_cons.mpr ⟨hjv, ?_⟩⟩
        split
        · exact ih (j + 1) (by omega)
        · exact nofun
    exact hall 64 0 (Nat.le_refl 64)

theorem quantSegment_short {rest : List UInt8} (h : rest.length < 2) :
    quantSegment rest = ([], false) := by
  match rest with
  | [] | [_] => rfl
  | _ :: _ :: r =>
    rw [List.length_cons, List.length_cons] at h
    omega

/-- **`GetQuantTbl`.** -/
theorem bounded_getQuantTbl (hwf : s.decoder.codec.Wf) :
    Bounded s (Checked.getQuantTbl s)
      ((quantSegment s.decoder.rest).2 = true → 2 ∈ (quantSegment s.decoder.rest).1 →
        1 ∈ (quantSegment s.decoder.rest).1 ∨ s.decoder.codec.hasQuantTbl 1)
      ((quantSegment s.decoder.rest).1.length * 64)
      (fun _ s' => s'.decoder.codec.Wf ∧ s'.huffTblMalloced = s.huffTblMalloced) := by
  unfold Checked.getQuantTbl
  rcases two_or_short s.decoder.rest with hshort | ⟨a, b, r, hrest⟩
  · rw [Checked.bind_stop (getShortWord_none hshort), quantSegment_short hshort]
    exact bounded_none nofun
  rw [Checked.bind_quiet (getShortWord_run hrest), hrest, quantSegment, lengthField_cons]
  refine Bounded.of_behind (r := r) ?_
  by_cases hlen : a.toNat * 256 + b.toNat < 2
  · rw [if_pos hlen, if_pos hlen]
    exact bounded_none nofun
  rw [if_neg hlen, if_neg hlen]
  have hwf' : (s.behind r).decoder.codec.Wf := hwf
  have hloop := bounded_getQuantTblLoop (a.toNat * 256 + b.toNat - 2) false hwf'
  simp only [List.drop_succ_cons, List.drop_zero]
  cases hdone : (quantTables (a.toNat * 256 + b.toNat - 2) r).2 with
  | false =>
    refine (hloop.then fun two s₁ h₁ => ?_).imp (by simp) rfl fun _ _ h => h
    exact absurd (hdone.symm.trans h₁.done) nofun
  | true =>
    have hrun := getQuantTblLoop_run (s := s.behind r) _ false hdone
    obtain ⟨⟨two, s₁⟩, hsome⟩ := Option.isSome_iff_exists.mp hrun
    refine (hloop.seq (Prod.ext rfl hsome) fun h₁ => ?_).imp (Iff.of_eq (true_and _))
      (Nat.add_zero _) fun _ _ h => h
    rw [Checked.bind_quiet rfl]
    have hgoal : (∀ a ∈ (if two then Checked.compareQuant s₁.decoder.codec.quantTbl[1]?
        s₁.decoder.codec.quantTbl[2]? 64 0 else []), a.Inside) ↔
        (true = true → 2 ∈ (quantTables (a.toNat * 256 + b.toNat - 2) r).1 →
          1 ∈ (quantTables (a.toNat * 256 + b.toNat - 2) r).1 ∨ s.decoder.codec.hasQuantTbl 1) := by
      cases two with
      | false =>
        have hnone : 2 ∉ (quantTables (a.toNat * 256 + b.toNat - 2) r).1 := fun hmem =>
          Bool.false_ne_true (h₁.two.mpr (.inr hmem))
        exact iff_of_true nofun fun _ hmem => absurd hmem hnone
      | true =>
        have hmem : 2 ∈ (quantTables (a.toNat * 256 + b.toNat - 2) r).1 :=
          (h₁.two.mp rfl).resolve_left Bool.false_ne_true
        have hv : s₁.decoder.codec.hasQuantTbl 2 := (h₁.has 2).mpr (.inl hmem)
        refine compareQuant_inside.trans ((and_iff_left hv).trans ((h₁.has 1).trans ?_))
        exact ⟨fun h _ _ => h, fun h => h rfl hmem⟩
    refine Bounded.then (bounded_accesses_iff hgoal) fun _ s₂ h₂ => ?_
    subst h₂
    split
    · exact bounded_none trivial
    · exact bounded_some trivial ⟨h₁.wf, h₁.huffTblMalloced⟩

end Quant

/-! ## The header -/

section Header

variable {s : Parser}

theorem getChar_codec {d d' : Decoder} {c : UInt8} (h : d.getChar = some (c, d')) :
    d'.codec = d.codec := by
  unfold Decoder.getChar at h
  split at h
  · cases h
  · obtain ⟨-, rfl⟩ := Prod.mk.inj (Option.some.inj h)
    rfl

theorem getChars_codec {d d' : Decoder} {n : Nat} {cs : List UInt8}
    (h : d.getChars n = some (cs, d')) : d'.codec = d.codec := by
  induction n generalizing d cs with
  | zero =>
    cases h
    rfl
  | succ n ih =>
    obtain ⟨⟨c, d₁⟩, hc, h⟩ := Option.bind_eq_some_iff.mp h
    obtain ⟨⟨cs', d₂⟩, hcs, h⟩ := Option.bind_eq_some_iff.mp h
    cases h
    exact (ih hcs).trans (getChar_codec hc)

theorem getShortWord_codec {d d' : Decoder} {w : Nat} (h : d.getShortWord = some (w, d')) :
    d'.codec = d.codec := by
  obtain ⟨⟨a, d₁⟩, ha, h⟩ := Option.bind_eq_some_iff.mp h
  obtain ⟨⟨b, d₂⟩, hb, h⟩ := Option.bind_eq_some_iff.mp h
  cases h
  exact (getChar_codec hb).trans (getChar_codec ha)

theorem skipVariable_codec {d d' : Decoder} (h : skipVariable d = some d') : d'.codec = d.codec := by
  obtain ⟨⟨length, d₁⟩, hlen, h⟩ := Option.bind_eq_some_iff.mp h
  simp only at h
  split at h
  · cases h
  obtain ⟨⟨cs, d₂⟩, hcs, h⟩ := Option.bind_eq_some_iff.mp h
  cases h
  exact (getChars_codec hcs).trans (getShortWord_codec hlen)

theorem getAPP0_codec {d d' : Decoder} (h : getAPP0 d = some d') : d'.codec = d.codec := by
  obtain ⟨⟨length, d₁⟩, hlen, h⟩ := Option.bind_eq_some_iff.mp h
  simp only at h
  split at h
  · cases h
  split at h
  · obtain ⟨⟨cs, d₂⟩, hcs, h⟩ := Option.bind_eq_some_iff.mp h
    obtain ⟨⟨cs', d₃⟩, hcs', h⟩ := Option.bind_eq_some_iff.mp h
    cases h
    exact (getChars_codec hcs').trans ((getChars_codec hcs).trans (getShortWord_codec hlen))
  · cases h
    exact getShortWord_codec hlen

theorem wf_getDRI {d d' : Decoder} (h : getDRI d = some d') (hwf : d.codec.Wf) : d'.codec.Wf := by
  obtain ⟨⟨length, d₁⟩, hlen, h⟩ := Option.bind_eq_some_iff.mp h
  simp only at h
  split at h
  · cases h
  obtain ⟨⟨w, d₂⟩, hw, h⟩ := Option.bind_eq_some_iff.mp h
  cases h
  rw [← getShortWord_codec hlen, ← getShortWord_codec hw] at hwf
  exact ⟨hwf.compInfo, hwf.quantTbl⟩

/-- The handlers without tables. -/
theorem bounded_liftUnit {m : Decoder → Option Decoder} (hwf : s.decoder.codec.Wf)
    (hm : ∀ d d', m d = some d' → d.codec.Wf → d'.codec.Wf) :
    Bounded s (Checked.liftUnit m s) True 0
      (fun _ s' => s'.decoder.codec.Wf ∧ s'.huffTblMalloced = s.huffTblMalloced) := by
  refine (bounded_lift _).imp Iff.rfl rfl fun _ s' h => ?_
  obtain ⟨hrun, hm'⟩ := h
  obtain ⟨d, hd, heq⟩ := Option.map_eq_some_iff.mp hrun
  cases heq
  exact ⟨hm _ _ hd hwf, hm'⟩

/-- **A handler.** -/
theorem bounded_handle (h : Handler) (hwf : s.decoder.codec.Wf) :
    Bounded s (Checked.handle h s) (h.Harmless s.decoder)
      (h.demand s.huffTblMalloced s.decoder.rest)
      (fun _ s' => s'.decoder.codec.Wf ∧
        s'.huffTblMalloced = (s.huffTblMalloced || decide (h = .dht))) := by
  cases h with
  | sof isProgressive =>
    exact (bounded_getSOF isProgressive hwf).imp Iff.rfl rfl fun _ s' h => ⟨h.1, by simp [h.2]⟩
  | sos => exact (bounded_getSOS hwf).imp Iff.rfl rfl fun _ s' h => ⟨h.1, by simp [h.2]⟩
  | dht => exact (bounded_getHuffTbl hwf).imp Iff.rfl rfl fun _ s' h => ⟨h.1, by simp [h.2]⟩
  | dqt => exact (bounded_getQuantTbl hwf).imp Iff.rfl rfl fun _ s' h => ⟨h.1, by simp [h.2]⟩
  | skip =>
    exact (bounded_liftUnit hwf fun d d' h hwf => (skipVariable_codec h).symm ▸ hwf).imp Iff.rfl rfl
      fun _ s' h => ⟨h.1, by simp [h.2]⟩
  | app0 =>
    exact (bounded_liftUnit hwf fun d d' h hwf => (getAPP0_codec h).symm ▸ hwf).imp Iff.rfl rfl
      fun _ s' h => ⟨h.1, by simp [h.2]⟩
  | dri =>
    exact (bounded_liftUnit hwf fun d d' h hwf => wf_getDRI h hwf).imp Iff.rfl rfl
      fun _ s' h => ⟨h.1, by simp [h.2]⟩

/-- `ParseHead` behind SOI. -/
def parseSegments : Checked Unit := do
  let c ← Checked.processTables
  if c = markerSOS then Checked.getSOS else Checked.fail

theorem Decoder.getNextMarker_codec {d d' : Decoder} {c : UInt8}
    (h : d.getNextMarker = some (c, d')) : d'.codec = d.codec := by
  unfold Decoder.getNextMarker at h
  split at h
  · cases h
  · obtain ⟨-, rfl⟩ := Prod.mk.inj (Option.some.inj h)
    rfl

/-- A part that goes on as from another state. -/
theorem bind_continues {α β : Type} {m : Checked α} {f : α → Checked β} {s s' : Parser}
    {l : List Access} (h : m s = (l ++ (m s').1, (m s').2)) :
    (m >>= f) s = (l ++ ((m >>= f) s').1, ((m >>= f) s').2) := by
  cases hrun : m s' with
  | mk l' x =>
    rw [hrun] at h
    cases x with
    | none => rw [Checked.bind_stop h, Checked.bind_stop hrun]
    | some x =>
      obtain ⟨a, s''⟩ := x
      rw [Checked.bind_run h, Checked.bind_run hrun, List.append_assoc]

/-- **The segments**, one after the other. -/
theorem bounded_parseSegments (s : Parser) (hwf : s.decoder.codec.Wf) :
    Bounded s (parseSegments s)
      (∀ seg ∈ segmentsFrom s.decoder, seg.1.Harmless seg.2)
      (memory s.huffTblMalloced (segmentsFrom s.decoder)) (fun _ _ => True) := by
  induction hn : s.decoder.rest.length using Nat.strong_induction_on generalizing s with
  | _ n ih =>
    have hproc := Checked.processTables.eq_1 s
    rw [segmentsFrom]
    cases hmark : s.decoder.getNextMarker with
    | none =>
      have hrun : Checked.processTables s = ([], none) := by rw [hproc, hmark]
      unfold parseSegments
      rw [Checked.bind_stop hrun]
      exact bounded_none (List.forall_mem_nil _)
    | some m =>
      obtain ⟨c, d⟩ := m
      have hwfd : d.codec.Wf := (Decoder.getNextMarker_codec hmark).symm ▸ hwf
      simp only
      cases hact : actionOf c with
      | stop =>
        have hrun : Checked.processTables s = ([], some (c, { s with decoder := d })) := by
          rw [hproc, hmark]
          simp only [hact]
        unfold parseSegments
        rw [Checked.bind_quiet hrun]
        by_cases hsos : c = markerSOS
        · simp only [if_pos hsos]
          rw [List.forall_mem_singleton]
          exact Bounded.of_decoder (d := d)
            ((bounded_getSOS hwfd).imp Iff.rfl rfl fun _ _ _ => trivial)
        · simp only [if_neg hsos]
          exact bounded_none (List.forall_mem_nil _)
      | error =>
        have hrun : Checked.processTables s = ([], none) := by
          rw [hproc, hmark]
          simp only [hact]
        unfold parseSegments
        rw [Checked.bind_stop hrun]
        exact bounded_none (List.forall_mem_nil _)
      | handle h =>
        simp only
        have hhandle := bounded_handle (s := { s with decoder := d }) h hwfd
        have herase := erases_handle (s := { s with decoder := d }) h
        have hlast : Bounded s ((Checked.handle h { s with decoder := d }).1, none)
            (∀ seg ∈ [(h, d)], seg.1.Harmless seg.2) (memory s.huffTblMalloced [(h, d)])
            (fun (_ : Unit) _ => True) := by
          rw [List.forall_mem_singleton]
          exact ⟨hhandle.inside, fun _ _ _ h => absurd h.symm (Option.some_ne_none _)⟩
        cases hrun : Checked.handle h { s with decoder := d } with
        | mk l x =>
          rw [hrun] at hlast herase
          cases x with
          | none =>
            have hfail : h.run d = none := herase.symm
            have hproc' : Checked.processTables s = (l, none) := by
              rw [hproc, hmark]
              simp only [hact, hrun]
            rw [hfail]
            unfold parseSegments
            rw [Checked.bind_stop hproc']
            exact hlast
          | some x =>
            obtain ⟨⟨⟩, s'⟩ := x
            have hok : h.run d = some s'.decoder := herase.symm
            rw [hok]
            simp only
            by_cases hlt : s'.decoder.rest.length < s.decoder.rest.length
            · rw [if_pos hlt, List.forall_mem_cons]
              have hproc' : Checked.processTables s =
                  (l ++ (Checked.processTables s').1, (Checked.processTables s').2) := by
                rw [hproc, hmark]
                simp only [hact, hrun, if_pos hlt]
              have hparse : parseSegments s =
                  (Checked.handle h >>= fun _ => parseSegments) { s with decoder := d } := by
                rw [Checked.bind_run hrun]
                exact bind_continues hproc'
              rw [hparse]
              refine Bounded.of_decoder (d := d) (hhandle.seq hrun fun h₁ => ?_)
              rw [← h₁.2]
              exact ih _ (by omega) s' h₁.1 rfl
            · rw [if_neg hlt]
              have hproc' : Checked.processTables s = (l, none) := by
                rw [hproc, hmark]
                simp only [hact, hrun, if_neg hlt]
              unfold parseSegments
              rw [Checked.bind_stop hproc']
              exact hlast

theorem wf_init : Codec.init.Wf := ⟨rfl, rfl⟩

theorem findSOI_codec (d : Decoder) : ∀ d', findSOI d = some d' → d'.codec = d.codec := by
  fun_induction findSOI d with
  | case1 | case2 | case5 => exact fun _ => nofun
  | case3 d d₁ hmark =>
    intro d' h
    cases h
    exact Decoder.getNextMarker_codec hmark
  | case4 d c d₁ hmark _ _ hlt ih =>
    exact fun d' h => (ih d' h).trans (Decoder.getNextMarker_codec hmark)

/-- **`ParseHead`.** -/
theorem bounded_parseHead (hwf : s.decoder.codec.Wf) :
    Bounded s (Checked.parseHead s)
      (∀ seg ∈ segments s.decoder, seg.1.Harmless seg.2)
      (memory s.huffTblMalloced (segments s.decoder)) (fun _ _ => True) := by
  have hparse : Checked.parseHead = Checked.liftUnit findSOI >>= fun _ => parseSegments := rfl
  rw [hparse, segments]
  cases hsoi : findSOI s.decoder with
  | none =>
    have hrun : Checked.liftUnit findSOI s = ([], none) := by
      simp [Checked.liftUnit, Checked.lift, hsoi]
    rw [Checked.bind_stop hrun]
    exact bounded_none (List.forall_mem_nil _)
  | some d =>
    have hrun : Checked.liftUnit findSOI s = ([], some ((), { s with decoder := d })) := by
      simp [Checked.liftUnit, Checked.lift, hsoi]
    rw [Checked.bind_quiet hrun]
    have hwfd : d.codec.Wf := (findSOI_codec _ _ hsoi).symm ▸ hwf
    exact Bounded.of_decoder (d := d) (bounded_parseSegments { s with decoder := d } hwfd)

end Header

/-- The parser uses no index outside of a table, follows no pointer that has not been set, and takes
no more memory than there is. -/
def InBounds (stream : List UInt8) (mem : ExtraMem) : Prop :=
  ∀ a ∈ (Checked.parseHead (Parser.start stream mem)).1, a.Inside

/-- **Bounds of the header parser.** Every round reads a marker and no handler goes back, so the parser
comes to an end; the parser with the notes is the parser; and it stays in bounds if and only if every
segment that it handles is harmless and the memory is enough for all of them. -/
theorem parse_in_bounds_iff (stream : List UInt8) (mem : ExtraMem) :
    (∀ (d d' : Decoder) c, d.getNextMarker = some (c, d') → d'.rest.length < d.rest.length) ∧
    (∀ (h : Handler) (d d' : Decoder), h.run d = some d' → d'.rest.length ≤ d.rest.length) ∧
    Erases (fun _ d => d) (Checked.parseHead (Parser.start stream mem))
      (parseHead ⟨stream, Codec.init⟩) ∧
    (InBounds stream mem ↔
      (∀ seg ∈ segments ⟨stream, Codec.init⟩, seg.1.Harmless seg.2) ∧
        mem.used + memory false (segments ⟨stream, Codec.init⟩) ≤ mem.total) := by
  refine ⟨fun d d' c => Decoder.getNextMarker_shrinks, fun h d d' hok => ?_,
    checked_parseHead (Parser.start stream mem),
    (bounded_parseHead (s := Parser.start stream mem) wf_init).inside mem.le⟩
  obtain ⟨n, htook⟩ := h.took hok
  have := htook.length
  omega

/-- A scan of four components, with enough memory. -/
theorem not_inBounds_four : ¬InBounds
    [0xFF, 0xD8, 0xFF, 0xDA, 0, 14, 4, 1, 0, 2, 0, 3, 0, 4, 0, 0, 63, 0] ⟨65536, 0, by decide⟩ := by
  intro h
  have hinside := ((bounded_parseHead (s := Parser.start _ ⟨65536, 0, by decide⟩) wf_init).inside
    (by decide)).mp h
  have hseg : segments ⟨[0xFF, 0xD8, 0xFF, 0xDA, 0, 14, 4, 1, 0, 2, 0, 3, 0, 4, 0, 0, 63, 0],
      Codec.init⟩ = [(.sos, ⟨[0, 14, 4, 1, 0, 2, 0, 3, 0, 4, 0, 0, 63, 0], Codec.init⟩)] := by
    simp [segments, findSOI, segmentsFrom, Decoder.getNextMarker, nextMarker, actionOf, markerEOI,
      markerSOI, markerSOS]
  have hharmless := hinside.1 (.sos, _) (hseg ▸ List.mem_singleton_self _)
  exact absurd hharmless (by unfold Handler.Harmless; decide)

end SprdHal.Jpeg
