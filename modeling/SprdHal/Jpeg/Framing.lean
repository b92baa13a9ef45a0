import SprdHal.Jpeg.Parse

/-!
# Framing of the segments

A handler that succeeds should have read as many bytes as the length at the start of its segment
says. `GetAPP0` does not skip a segment that is too short for JFIF, and `GetQuantTbl` reads two bytes
for each entry of a table with a precision that is not 0, but counts one more for each step of the
precision. `handler_framed` says that these are the only exceptions.
-/

namespace SprdHal.Jpeg

/-- The length at the start of a segment. -/
def lengthField : List UInt8 → Nat
  | a :: b :: _ => a.toNat * 256 + b.toNat
  | _ => 0

namespace Decoder

variable {s s' : Decoder} {n m : Nat}

theorem Took.unique (h : s.Took n s') (h' : s.Took m s') : n = m := by
  have := h.length
  have := h'.length
  omega

theorem getChar_some {c : UInt8} (h : s.getChar = some (c, s')) :
    s.Took 1 s' ∧ s.rest = c :: s'.rest := by
  unfold getChar at h
  split at h
  · cases h
  · rename_i hrest
    cases h
    simp [Took, hrest]

theorem bind_getChar {α : Type} {f : UInt8 × Decoder → Option α} {x : α}
    (h : (s.getChar >>= f) = some x) :
    ∃ c s₁, s.Took 1 s₁ ∧ s.rest = c :: s₁.rest ∧ f (c, s₁) = some x := by
  obtain ⟨⟨c, s₁⟩, hc, hx⟩ := Option.bind_eq_some_iff.mp h
  obtain ⟨tc, hrest⟩ := getChar_some hc
  exact ⟨c, s₁, tc, hrest, hx⟩

theorem bind_getShortWord {α : Type} {f : Nat × Decoder → Option α} {x : α}
    (h : (s.getShortWord >>= f) = some x) :
    ∃ s₁, s.Took 2 s₁ ∧ f (lengthField s.rest, s₁) = some x := by
  unfold getShortWord at h
  simp only [bind_assoc] at h
  obtain ⟨a, s₁, ta, ra, h⟩ := bind_getChar h
  obtain ⟨b, s₂, tb, rb, h⟩ := bind_getChar h
  refine ⟨s₂, ta.trans tb, ?_⟩
  rw [ra, rb]
  exact h

theorem getChars_some {cs : List UInt8} (h : s.getChars n = some (cs, s')) :
    s.Took n s' ∧ cs.length = n := by
  induction n generalizing s cs with
  | zero =>
    cases h
    exact ⟨.refl _, rfl⟩
  | succ n ih =>
    obtain ⟨c, s₁, tc, -, h⟩ := bind_getChar h
    obtain ⟨⟨cs, s₂⟩, hcs, h⟩ := Option.bind_eq_some_iff.mp h
    cases h
    obtain ⟨ht, hlen⟩ := ih hcs
    refine ⟨?_, by rw [List.length_cons, hlen]⟩
    rw [Nat.add_comm n 1]
    exact tc.trans ht

theorem bind_getChars {α : Type} {f : List UInt8 × Decoder → Option α} {x : α}
    (h : (s.getChars n >>= f) = some x) :
    ∃ cs s₁, s.Took n s₁ ∧ cs.length = n ∧ f (cs, s₁) = some x := by
  obtain ⟨⟨cs, s₁⟩, hcs, hx⟩ := Option.bind_eq_some_iff.mp h
  obtain ⟨ht, hlen⟩ := getChars_some hcs
  exact ⟨cs, s₁, ht, hlen, hx⟩

theorem getShortWords_some {ws : List Nat} (h : s.getShortWords n = some (ws, s')) :
    s.Took (2 * n) s' := by
  induction n generalizing s ws with
  | zero =>
    cases h
    exact .refl _
  | succ n ih =>
    obtain ⟨s₁, tw, h⟩ := bind_getShortWord h
    obtain ⟨⟨ws, s₂⟩, hws, h⟩ := Option.bind_eq_some_iff.mp h
    cases h
    rw [Nat.mul_succ, Nat.add_comm]
    exact tw.trans (ih hws)

end Decoder

open Decoder

variable {s s' : Decoder}

/-! ## Handlers that count right -/

theorem getSOFComponents_took {num ci : Nat} (h : getSOFComponents num ci s = some s') :
    s.Took (3 * (num - ci)) s' := by
  fun_induction getSOFComponents num ci s with
  | case1 ci s hlt ih =>
    obtain ⟨id, s₁, tid, -, h⟩ := bind_getChar h
    simp only at h
    split at h
    · cases h
    obtain ⟨ratio, s₂, tratio, -, h⟩ := bind_getChar h
    obtain ⟨quant, s₃, tquant, -, h⟩ := bind_getChar h
    simp only at h
    split at h
    · cases h
    have hnum : 3 * (num - ci) = 1 + 1 + 1 + 3 * (num - (ci + 1)) := by omega
    rw [hnum]
    exact ((tid.trans tratio).trans tquant).trans (ih id ratio quant s₃ h)
  | case2 ci s hge =>
    cases h
    rw [Nat.sub_eq_zero_of_le (Nat.not_lt.mp hge)]
    exact .refl _

theorem setMcuInfo_rest (h : setMcuInfo s = some s') : s'.rest = s.rest := by
  unfold setMcuInfo at h
  simp only at h
  split at h
  · cases h
    rfl
  · split at h
    · cases h
    split at h
    · cases h
    split at h
    · cases h
    cases h
    rfl

theorem getSOF_took {progressive : Bool} (h : getSOF progressive s = some s') :
    s.Took (lengthField s.rest) s' := by
  unfold getSOF at h
  obtain ⟨s₁, tlen, h⟩ := bind_getShortWord h
  simp only at h
  split at h
  · cases h
  obtain ⟨precision, s₂, tprec, -, h⟩ := bind_getChar h
  simp only at h
  split at h
  · cases h
  obtain ⟨s₃, theight, h⟩ := bind_getShortWord h
  obtain ⟨s₄, twidth, h⟩ := bind_getShortWord h
  obtain ⟨num, s₅, tnum, -, h⟩ := bind_getChar h
  simp only at h
  split at h
  · cases h
  rename_i hcount
  obtain ⟨s₆, hcomp, hmcu⟩ := Option.bind_eq_some_iff.mp h
  have ht := (((tlen.trans tprec).trans theight).trans twidth).trans tnum
  have htcomp : s₅.Took (3 * (num.toNat - 0)) s' :=
    (getSOFComponents_took hcomp).congr (setMcuInfo_rest hmcu)
  have hsum : lengthField s.rest = 2 + 1 + 2 + 2 + 1 + 3 * (num.toNat - 0) := by omega
  rw [hsum]
  exact ht.trans htcomp

theorem getSOSComponents_took {n i : Nat} (h : getSOSComponents n i s = some s') :
    s.Took (2 * (n - i)) s' := by
  fun_induction getSOSComponents n i s with
  | case1 i s hlt ih =>
    obtain ⟨cc, s₁, tcc, -, h⟩ := bind_getChar h
    obtain ⟨c, s₂, tc, -, h⟩ := bind_getChar h
    simp only at h
    split at h
    · cases h
    rename_i hcc
    have hnum : 2 * (n - i) = 1 + 1 + 2 * (n - (i + 1)) := by omega
    rw [hnum]
    exact (tcc.trans tc).trans (ih cc c s₂ hcc h)
  | case2 i s hge =>
    cases h
    rw [Nat.sub_eq_zero_of_le (Nat.not_lt.mp hge)]
    exact .refl _

theorem getSOS_took (h : getSOS s = some s') : s.Took (lengthField s.rest) s' := by
  unfold getSOS at h
  obtain ⟨s₁, tlen, h⟩ := bind_getShortWord h
  simp only at h
  split at h
  · cases h
  obtain ⟨n, s₂, tn, -, h⟩ := bind_getChar h
  simp only at h
  split at h
  · cases h
  obtain ⟨s₃, hcomp, h⟩ := Option.bind_eq_some_iff.mp h
  obtain ⟨ss, s₄, tss, -, h⟩ := bind_getChar h
  obtain ⟨se, s₅, tse, -, h⟩ := bind_getChar h
  obtain ⟨c, s₆, tc, -, h⟩ := bind_getChar h
  cases h
  have tcomp := getSOSComponents_took hcomp
  have hsum : lengthField s.rest = 2 + 1 + 2 * (n.toNat - 0) + 1 + 1 + 1 := by omega
  rw [hsum]
  exact ((((tlen.trans tn).trans tcomp).trans tss).trans tse).trans tc

theorem skipVariable_took (h : skipVariable s = some s') : s.Took (lengthField s.rest) s' := by
  unfold skipVariable at h
  obtain ⟨s₁, tlen, h⟩ := bind_getShortWord h
  simp only at h
  split at h
  · cases h
  rename_i hge
  obtain ⟨cs, s₂, tcs, -, h⟩ := bind_getChars h
  cases h
  have ht := tlen.trans tcs
  rwa [Nat.add_sub_cancel' (Nat.not_lt.mp hge)] at ht

theorem getDRI_took (h : getDRI s = some s') : s.Took (lengthField s.rest) s' := by
  unfold getDRI at h
  obtain ⟨s₁, tlen, h⟩ := bind_getShortWord h
  simp only at h
  split at h
  · cases h
  rename_i heq
  obtain ⟨s₂, tint, h⟩ := bind_getShortWord h
  cases h
  rw [not_not.mp heq]
  exact tlen.trans tint

theorem getOneHuffTbl_took {index : Nat} {bits huffval : List UInt8}
    (h : getOneHuffTbl s = some ((index, bits, huffval), s')) :
    s.Took (1 + 16 + huffval.length) s' := by
  unfold getOneHuffTbl at h
  obtain ⟨c, s₁, tc, -, h⟩ := bind_getChar h
  obtain ⟨bits', s₂, tbits, -, h⟩ := bind_getChars h
  simp only at h
  split at h
  · cases h
  obtain ⟨vals, s₃, tvals, hlen, h⟩ := bind_getChars h
  cases h
  rw [hlen]
  exact (tc.trans tbits).trans tvals

theorem getHuffTblLoop_took {length : Nat} (h : getHuffTblLoop length s = some s') :
    s.Took length s' := by
  fun_induction getHuffTblLoop length s with
  | case1 => cases h
  | case2 => cases h
  | case3 length s hpos index bits huffval s₁ hone hge ih =>
    have ht := (getOneHuffTbl_took hone).trans (ih h)
    rwa [Nat.add_sub_cancel' (Nat.not_lt.mp hge)] at ht
  | case4 length s hzero =>
    cases h
    obtain rfl : length = 0 := by omega
    exact .refl _

theorem getHuffTbl_took (h : getHuffTbl s = some s') : s.Took (lengthField s.rest) s' := by
  unfold getHuffTbl at h
  obtain ⟨s₁, tlen, h⟩ := bind_getShortWord h
  simp only at h
  split at h
  · cases h
  rename_i hge
  have ht := tlen.trans (getHuffTblLoop_took h)
  rwa [Nat.add_sub_cancel' (Nat.not_lt.mp hge)] at ht

/-! ## Handlers that do not -/

/-- **`GetAPP0`** reads only the length of a segment that is shorter than JFIF. -/
theorem getAPP0_took (h : getAPP0 s = some s') :
    ∃ n, s.Took n s' ∧ (n = lengthField s.rest ↔ ¬(2 < lengthField s.rest ∧
      lengthField s.rest < 2 + jfifLen)) := by
  unfold getAPP0 at h
  obtain ⟨s₁, tlen, h⟩ := bind_getShortWord h
  simp only at h
  split at h
  · cases h
  rename_i hge
  split at h
  · rename_i hlong
    obtain ⟨cs, s₂, tcs, -, h⟩ := bind_getChars h
    obtain ⟨ds, s₃, tds, -, h⟩ := bind_getChars h
    cases h
    refine ⟨_, (tlen.trans tcs).trans tds, ?_⟩
    omega
  · cases h
    refine ⟨2, tlen, ?_⟩
    omega

/-- No table in the rest of a DQT segment has a precision above 1. -/
def precisionsOk (length : Nat) (body : List UInt8) : Bool :=
  if _ : 0 < length then
    match body with
    | [] => true
    | c :: body =>
      let prec := c.toNat / 16
      decide (prec ≤ 1) &&
        precisionsOk (length - (64 + 1 + 64 * prec)) (body.drop (64 * (1 + prec)))
  else true
termination_by length

theorem getQuantValues_took {prec : Nat} {values : List UInt8}
    (h : getQuantValues prec s = some (values, s')) : s.Took (64 * (1 + min 1 prec)) s' := by
  unfold getQuantValues at h
  split at h
  · rename_i hzero
    rw [hzero]
    exact (getChars_some h).1
  · rename_i hpos
    obtain ⟨⟨ws, s₁⟩, hws, h⟩ := Option.bind_eq_some_iff.mp h
    cases h
    rw [Nat.min_eq_left (Nat.one_le_iff_ne_zero.mpr hpos)]
    exact getShortWords_some hws

/-- The loop reads at most the length, and exactly the length if the precisions allow it. -/
theorem getQuantTblLoop_took {length : Nat} {two two' : Bool}
    (h : getQuantTblLoop length two s = some (two', s')) :
    ∃ n, s.Took n s' ∧ n ≤ length ∧ (n = length ↔ precisionsOk length s.rest = true) := by
  fun_induction getQuantTblLoop length two s with
  | case1 | case2 | case3 | case4 => cases h
  | case5 length two s hpos c s₁ hc prec n hn values s₂ hvalues hge ih =>
    obtain ⟨m, tm, hle, hiff⟩ := ih h
    obtain ⟨tc, hrest⟩ := getChar_some hc
    have tv := getQuantValues_took hvalues
    have hbody : s₂.rest = s₁.rest.drop (64 * (1 + min 1 prec)) := tv.2
    refine ⟨_, (tc.trans tv).trans tm, by omega, ?_⟩
    rw [hrest, precisionsOk, dif_pos hpos, Bool.and_eq_true, decide_eq_true_iff]
    by_cases hprec : prec ≤ 1
    · have hmin : min 1 prec = prec := by omega
      rw [hbody, hmin] at hiff
      constructor
      · intro heq
        exact ⟨hprec, hiff.mp (by omega)⟩
      · rintro ⟨-, hok⟩
        have := hiff.mpr hok
        omega
    · -- the loop has counted more than it has read
      constructor
      · omega
      · exact fun hok => absurd hok.1 hprec
  | case6 length two s hzero =>
    cases h
    refine ⟨0, .refl _, Nat.zero_le _, ?_⟩
    unfold precisionsOk
    rw [dif_neg hzero]
    exact ⟨fun _ => rfl, fun _ => by omega⟩

/-- **`GetQuantTbl`** -/
theorem getQuantTbl_took (h : getQuantTbl s = some s') :
    ∃ n, s.Took n s' ∧ (n = lengthField s.rest ↔
      precisionsOk (lengthField s.rest - 2) (s.rest.drop 2) = true) := by
  unfold getQuantTbl at h
  obtain ⟨s₁, tlen, h⟩ := bind_getShortWord h
  simp only at h
  split at h
  · cases h
  rename_i hge
  obtain ⟨⟨two, s₂⟩, hloop, h⟩ := Option.bind_eq_some_iff.mp h
  simp only at h
  split at h
  · cases h
  cases h
  obtain ⟨n, tn, -, hiff⟩ := getQuantTblLoop_took hloop
  refine ⟨_, tlen.trans tn, ?_⟩
  rw [← tlen.2, ← hiff]
  omega

/-! ## All handlers -/

/-- A handler never goes back. -/
theorem Handler.took (h : Handler) (hok : h.run s = some s') : ∃ n, s.Took n s' := by
  cases h with
  | sof progressive => exact ⟨_, getSOF_took hok⟩
  | sos => exact ⟨_, getSOS_took hok⟩
  | skip => exact ⟨_, skipVariable_took hok⟩
  | dri => exact ⟨_, getDRI_took hok⟩
  | dht => exact ⟨_, getHuffTbl_took hok⟩
  | app0 =>
    obtain ⟨n, tn, -⟩ := getAPP0_took hok
    exact ⟨n, tn⟩
  | dqt =>
    obtain ⟨n, tn, -⟩ := getQuantTbl_took hok
    exact ⟨n, tn⟩

/-- The segments that are read as far as their length says: an APP0 segment is empty or long enough
for JFIF, and the tables of a DQT segment have a precision of at most 1. -/
def Handler.Framed : Handler → List UInt8 → Prop
  | .app0, bytes => ¬(2 < lengthField bytes ∧ lengthField bytes < 2 + jfifLen)
  | .dqt, bytes => precisionsOk (lengthField bytes - 2) (bytes.drop 2) = true
  | _, _ => True

/-- **Framing**: a handler that succeeds has read exactly as many bytes as the length of the segment
says, so that the next marker is searched right behind it, if and only if the segment is of those
above. -/
theorem handler_framed (h : Handler) (s s' : Decoder) (hok : h.run s = some s') :
    s.Took (lengthField s.rest) s' ↔ h.Framed s.rest := by
  cases h with
  | sof progressive => exact iff_of_true (getSOF_took hok) trivial
  | sos => exact iff_of_true (getSOS_took hok) trivial
  | skip => exact iff_of_true (skipVariable_took hok) trivial
  | dri => exact iff_of_true (getDRI_took hok) trivial
  | dht => exact iff_of_true (getHuffTbl_took hok) trivial
  | app0 =>
    obtain ⟨n, tn, hiff⟩ := getAPP0_took hok
    exact Iff.trans ⟨fun ht => tn.unique ht, fun hn => hn ▸ tn⟩ hiff
  | dqt =>
    obtain ⟨n, tn, hiff⟩ := getQuantTbl_took hok
    exact Iff.trans ⟨fun ht => tn.unique ht, fun hn => hn ▸ tn⟩ hiff

/-- A segment whose body looks like a marker. -/
theorem skipped_framed :
    Took ⟨[0, 4, 0xFF, 0xDA, 0xFF, 0xD9], Codec.init⟩ 4 ⟨[0xFF, 0xD9], Codec.init⟩ := by
  refine (handler_framed .skip ⟨[0, 4, 0xFF, 0xDA, 0xFF, 0xD9], Codec.init⟩
    ⟨[0xFF, 0xD9], Codec.init⟩ ?_).mpr trivial
  simp [Handler.run, skipVariable, getShortWord, getChar, getChars]

/-- A short APP0 segment: the end of image inside it is the next marker. -/
theorem short_app0_unframed :
    ∃ s' : Decoder, Handler.app0.run ⟨[0, 4, 0xFF, 0xD9, 0xFF, 0xDB], Codec.init⟩ = some s' ∧
      ¬Took ⟨[0, 4, 0xFF, 0xD9, 0xFF, 0xDB], Codec.init⟩ 4 s' ∧
      s'.getNextMarker = some (markerEOI, ⟨[0xFF, 0xDB], Codec.init⟩) := by
  refine ⟨⟨[0xFF, 0xD9, 0xFF, 0xDB], Codec.init⟩, ?_, fun ht => ?_, ?_⟩
  · simp [Handler.run, getAPP0, getShortWord, getChar, jfifLen]
  · have := ht.length
    simp at this
  · simp [getNextMarker, nextMarker, markerEOI]

end SprdHal.Jpeg
