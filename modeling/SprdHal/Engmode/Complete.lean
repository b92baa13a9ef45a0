import SprdHal.Engmode.Forward

/-!
# Complete frames

`get_user_diag_buf` delivers a frame when it has put the closing flag into `ext_data_buf`. What lies
behind the frame was cleared, in every state that the receiver reaches (`delivered`), so that it is
known what `eng_diag_parse` makes of the frame when it unescapes it in place: `unescaped`. The closing
flag is a special byte as well. It is replaced by the byte behind it, masked, or it is taken for the
mask of an escape before it.
-/

namespace SprdHal.Engmode

open SprdHal.Lib

/-! ## What the decoder leaves -/

/-- The bytes that `eng_diag_decode7d7e` makes of its input when the byte behind it is `z`. -/
def unescaped (z : UInt8) : List UInt8 → List UInt8
  | [] => []
  | [b] => if isSpecial b then [z ^^^ 0x20] else [b]
  | b :: c :: w =>
    if isSpecial b then (c ^^^ 0x20) :: unescaped z w else b :: unescaped z (c :: w)

theorem length_unescaped_le (z : UInt8) (w : List UInt8) : (unescaped z w).length ≤ w.length := by
  fun_induction unescaped z w with
  | case1 => exact Nat.le_refl _
  | case2 => exact Nat.le_refl _
  | case3 => exact Nat.le_refl _
  | case4 b c w hb ih => simp only [List.length_cons]; omega
  | case5 b c w hb ih => simp only [List.length_cons] at ih ⊢; omega

/-- The bytes in the body of a frame, unescaped as the decoder does it. -/
def bodyContent : List UInt8 → List UInt8
  | [] => []
  | [b] => if isSpecial b then [] else [b]
  | b :: c :: w => if isSpecial b then (c ^^^ 0x20) :: bodyContent w else b :: bodyContent (c :: w)

/-- The body ends with an escape that has no mask but the closing flag. -/
def takesFlag : List UInt8 → Bool
  | [] => false
  | [b] => isSpecial b
  | b :: c :: w => if isSpecial b then takesFlag w else takesFlag (c :: w)

/-- A body with its closing flag. -/
theorem unescaped_concat (z : UInt8) (body : List UInt8) :
    unescaped z (body ++ [0x7e]) =
      bodyContent body ++ [if takesFlag body then 0x5e else z ^^^ 0x20] := by
  fun_induction bodyContent body with
  | case1 => rfl
  | case2 b hb =>
    rw [List.singleton_append, unescaped, if_pos hb, takesFlag, if_pos hb]
    rfl
  | case3 b hb =>
    rw [List.singleton_append, unescaped, if_neg hb, takesFlag, if_neg hb]
    rfl
  | case4 b c w hb ih =>
    rw [List.cons_append, List.cons_append, unescaped, if_pos hb, ih, takesFlag, if_pos hb]
    rfl
  | case5 b c w hb ih =>
    rw [List.cons_append, List.cons_append, unescaped, if_neg hb, ← List.cons_append, ih, takesFlag,
      if_neg hb]
    rfl

theorem length_bodyContent (body : List UInt8) :
    body.length ≤ 2 * (bodyContent body).length + 1 := by
  fun_induction bodyContent body with
  | case1 => exact Nat.zero_le _
  | case2 => exact Nat.le_refl _
  | case3 => simp only [List.length_singleton]; omega
  | case4 b c w hb ih => simp only [List.length_cons]; omega
  | case5 b c w hb ih => simp only [List.length_cons] at ih ⊢; omega

/-- For the body of a frame that `translate_packet` may have built, this is what was sent. -/
theorem bodyContent_of_unstuff {body content : List UInt8} (hflag : 0x7e ∉ body)
    (h : diagEscape.unstuff body = some content) : bodyContent body = content ∧ ¬ takesFlag body := by
  have hspecial : ∀ {b : UInt8}, b ≠ 0x7e → (isSpecial b = true ↔ b = diagEscape.esc) := by
    intro b hb
    rw [isSpecial_iff]
    exact ⟨fun h => h.resolve_right hb, Or.inl⟩
  fun_induction bodyContent body generalizing content with
  | case1 => cases h; exact ⟨rfl, by decide⟩
  | case2 b hb =>
    rw [List.mem_singleton] at hflag
    rw [Escape.unstuff, if_pos ((hspecial (Ne.symm hflag)).mp hb)] at h
    cases h
  | case3 b hb =>
    rw [List.mem_singleton] at hflag
    rw [Escape.unstuff, if_neg fun he => hb ((hspecial (Ne.symm hflag)).mpr he)] at h
    cases h
    exact ⟨rfl, hb⟩
  | case4 b c w hb ih =>
    rw [List.mem_cons, not_or, List.mem_cons, not_or] at hflag
    rw [Escape.unstuff, if_pos ((hspecial (Ne.symm hflag.1)).mp hb)] at h
    obtain ⟨r, hr, rfl⟩ := Option.map_eq_some_iff.mp h
    obtain ⟨hcontent, htakes⟩ := ih hflag.2.2 hr
    rw [hcontent, takesFlag, if_pos hb]
    exact ⟨rfl, htakes⟩
  | case5 b c w hb ih =>
    rw [List.mem_cons, not_or] at hflag
    rw [Escape.unstuff, if_neg fun he => hb ((hspecial (Ne.symm hflag.1)).mpr he)] at h
    obtain ⟨r, hr, rfl⟩ := Option.map_eq_some_iff.mp h
    obtain ⟨hcontent, htakes⟩ := ih hflag.2 hr
    rw [hcontent, takesFlag, if_neg hb]
    exact ⟨rfl, htakes⟩

/-- The shift at an escaped byte; the byte behind the input is there twice afterwards. -/
theorem memcpyDown_cons (pre : List UInt8) (m : UInt8) (tail : List UInt8) (z : UInt8)
    (rest : List UInt8) :
    memcpyDown (pre ++ m :: (tail ++ z :: rest)) pre.length (pre.length + 1) (tail.length + 1) =
      pre ++ (tail ++ z :: z :: rest) := by
  have hdrop : (pre ++ m :: (tail ++ z :: rest)).drop (pre.length + 1) = tail ++ z :: rest := by
    rw [← List.drop_drop, List.drop_left, List.drop_one, List.tail_cons]
  have htake : (tail ++ z :: rest).take (tail.length + 1) = tail ++ [z] := by
    rw [List.take_append, List.take_of_length_le (by omega), Nat.add_sub_cancel_left,
      List.take_succ_cons, List.take_zero]
  have hle : (tail ++ [z]).length ≤ (m :: (tail ++ z :: rest)).length := by
    simp only [List.length_append, List.length_cons, List.length_nil]
    omega
  have hrest : (m :: (tail ++ z :: rest)).drop (tail ++ [z]).length = z :: rest := by
    rw [List.length_append, List.length_singleton, List.drop_succ_cons, List.drop_left]
  rw [memcpyDown, hdrop, htake, patch_length_append pre hle, hrest, List.append_assoc]
  rfl

/-- **The decoder in place**: the bytes it shortens the input by are filled with the byte behind
it. -/
theorem decode7d7eLoop_unescaped (z : UInt8) (q w rest : List UInt8) :
    decode7d7eLoop (q ++ (w ++ z :: rest)) (q.length + w.length) q.length =
      q ++ (unescaped z w ++ (List.replicate (w.length - (unescaped z w).length) z ++ z :: rest)) := by
  fun_induction unescaped z w generalizing q rest with
  | case1 => exact decode7d7eLoop_done (Nat.le_refl _)
  | case2 b hb =>
    rw [List.cons_append, decode7d7eLoop_special (by simp) hb, decode7d7eLoop_done (by simp)]
    simp [memcpyDown]
  | case3 b hb =>
    have hb' : isSpecial b = false := Bool.not_eq_true _ ▸ hb
    rw [List.cons_append, decode7d7eLoop_plain (by simp) hb', decode7d7eLoop_done (by simp)]
    simp
  | case4 b c w hb ih =>
    have hle := length_unescaped_le z w
    have hmove := memcpyDown_cons (q ++ [c ^^^ 0x20]) c w z rest
    have hdone := ih (q ++ [c ^^^ 0x20]) (z :: rest)
    have hcount : q.length + (w.length + 1 + 1) - (q.length + 1) = w.length + 1 := by omega
    have hlen : q.length + (w.length + 1 + 1) - 1 = q.length + 1 + w.length := by omega
    have hfill : w.length + 1 + 1 - ((unescaped z w).length + 1) =
        w.length - (unescaped z w).length + 1 := by omega
    simp only [List.append_assoc, List.cons_append, List.nil_append, List.length_append,
      List.length_cons, List.length_nil, Nat.zero_add] at hmove hdone ⊢
    rw [decode7d7eLoop_special (by omega) hb, hcount, hlen, List.getD_cons_zero, hmove, hdone, hfill,
      List.replicate_succ', List.append_assoc]
    rfl
  | case5 b c w hb ih =>
    have hb' : isSpecial b = false := Bool.not_eq_true _ ▸ hb
    have hdone := ih (q ++ [b]) rest
    have hlen : q.length + (w.length + 1 + 1) = q.length + 1 + (w.length + 1) := by omega
    simp only [List.append_assoc, List.cons_append, List.nil_append, List.length_append,
      List.length_cons, List.length_nil, Nat.zero_add] at hdone ⊢
    rw [decode7d7eLoop_plain (by omega) hb', hlen, hdone, Nat.add_sub_add_right]

theorem memcpyDown_getElem? (buf : List UInt8) {dst src n k : Nat} (h : dst + n ≤ k) :
    (memcpyDown buf dst src n)[k]? = buf[k]? := by
  refine getElem?_patch_of_out _ _ _ (Or.inr ?_)
  rw [List.length_take]
  omega

/-- Behind its input the decoder writes nothing. -/
theorem decode7d7eLoop_getElem? (buf : List UInt8) (len i : Nat) {k : Nat} (hk : len ≤ k) :
    (decode7d7eLoop buf len i)[k]? = buf[k]? := by
  fun_induction decode7d7eLoop buf len i with
  | case1 buf len i hlt hs tmp buf₁ buf₂ ih =>
    rw [ih (by omega)]
    simp only [buf₂, buf₁]
    rw [memcpyDown_getElem? _ (by omega), List.getElem?_set_ne (by omega)]
  | case2 buf len i hlt hs ih => exact ih hk
  | case3 => rfl

/-! ## What the tokeniser leaves

Flags stay where they are, and zeros stay zeros. -/

theorem findByte_spec {c : UInt8} {text : List UInt8} {k : Nat} (h : findByte c text = some k) :
    text[k]? = some c := by
  induction text generalizing k with
  | nil => cases h
  | cons b text ih =>
    rw [findByte] at h
    split at h
    · rename_i hb
      cases h
      rw [List.getElem?_cons_zero, hb]
    · split at h
      · cases h
      · obtain ⟨j, hj, rfl⟩ := Option.map_eq_some_iff.mp h
        rw [List.getElem?_cons_succ]
        exact ih hj

theorem strsep_getElem? (c : UInt8) (text : List UInt8) (cur k : Nat) :
    (strsep c text cur).1[k]? = text[k]? ∨
      text[k]? = some c ∧ (strsep c text cur).1[k]? = some 0 := by
  unfold strsep
  split
  · rename_i j hj
    have hat := findByte_spec hj
    rw [List.getElem?_drop] at hat
    by_cases hk : cur + j = k
    · subst hk
      obtain ⟨hlt, -⟩ := List.getElem?_eq_some_iff.mp hat
      exact Or.inr ⟨hat, List.getElem?_set_self hlt⟩
    · exact Or.inl (List.getElem?_set_ne hk)
  · exact Or.inl rfl

/-- A byte of the text stays, or it was a separator and is 0 now. -/
theorem Tokenised.getElem? {text t : List UInt8} (h : Tokenised text t) (k : Nat) :
    t[k]? = text[k]? ∨ (text[k]? = some 0x2c ∨ text[k]? = some 0x22) ∧ t[k]? = some 0 := by
  induction h with
  | refl => exact Or.inl rfl
  | @next t cur out _ ih =>
    cases cur with
    | none => exact ih
    | some p =>
      have hstep : (atTokNextint t (some p) out).text[k]? = t[k]? ∨
          (t[k]? = some 0x2c ∨ t[k]? = some 0x22) ∧
            (atTokNextint t (some p) out).text[k]? = some 0 := by
        simp only [atTokNextint, nextTok]
        split
        · exact (strsep_getElem? _ _ _ k).imp_right fun h => ⟨Or.inr h.1, h.2⟩
        · exact (strsep_getElem? _ _ _ k).imp_right fun h => ⟨Or.inl h.1, h.2⟩
      rcases hstep with hsame | ⟨hsep, hzero⟩
      · rwa [hsame]
      · rcases ih with hsame | ⟨hsep', -⟩
        · rw [hsame] at hsep
          exact Or.inr ⟨hsep, hzero⟩
        · exact Or.inr ⟨hsep', hzero⟩

/-- The buffer after `eng_diag_parse` is the decoded one up to separators that were overwritten. -/
theorem engDiagParse_getElem? (env : DiagEnv) (buf : List UInt8) (len k : Nat) :
    let dec := buf.take 1 ++ engDiagDecode7d7e (buf.drop 1) (len - 1)
    (engDiagParse env buf len).2[k]? = dec[k]? ∨
      diagText ≤ k ∧ (dec[k]? = some 0x2c ∨ dec[k]? = some 0x22) ∧
        (engDiagParse env buf len).2[k]? = some 0 := by
  have hcases := engDiagParse_cases env buf len
  simp only at hcases ⊢
  generalize buf.take 1 ++ engDiagDecode7d7e (buf.drop 1) (len - 1) = dec at hcases
  rcases hcases with h | ⟨t, -, -, htok, h⟩
  · exact Or.inl (by rw [h])
  · by_cases hlong : diagText ≤ dec.length
    · have hhead : (dec.take diagText).length = diagText := by rw [List.length_take]; omega
      by_cases hk : k < diagText
      · refine Or.inl ?_
        rw [h, List.getElem?_append_left (by omega), List.getElem?_take_of_lt hk]
      · have hpos : diagText + (k - diagText) = k := by omega
        have hbyte := htok.getElem? (k - diagText)
        rw [List.getElem?_drop, hpos] at hbyte
        rw [h, List.getElem?_append_right (by omega), hhead]
        exact hbyte.imp_right fun hsep => ⟨by omega, hsep⟩
    · have hnil : dec.drop diagText = [] := List.drop_eq_nil_of_le (by omega)
      have ht : t = [] := by
        have := htok.length_eq
        rw [hnil] at this
        exact List.length_eq_zero_iff.mp this
      refine Or.inl ?_
      rw [h, ht, List.append_nil, List.take_of_length_le (by omega)]

/-! ## Frames that are delivered -/

/-- The first byte of what is collected is a flag. -/
def ExtBuf.Begun (e : ExtBuf) : Prop := 0 < e.len → e.data[0]? = some 0x7e

/-- What holds of `ext_data_buf` between two reads. -/
structure ExtBuf.Kept (e : ExtBuf) : Prop where
  begun : e.Begun
  cleared : e.Cleared

theorem kept_initUserDiagBuf : initUserDiagBuf.Kept :=
  ⟨fun h => absurd h (Nat.lt_irrefl 0), cleared_initUserDiagBuf⟩

theorem ExtBuf.Begun.put {e : ExtBuf} (he : e.Begun) {b : UInt8} (hb : e.len = 0 → b = 0x7e)
    (h : e.len < dataExtDiagSize) : (e.put b h).Begun := by
  intro _
  by_cases hlen : e.len = 0
  · have hlt : 0 < e.data.length := by rw [e.length_data]; decide
    show (e.data.set e.len b)[0]? = some 0x7e
    rw [hlen, List.getElem?_set_self hlt, hb hlen]
  · show (e.data.set e.len b)[0]? = some 0x7e
    rw [List.getElem?_set_ne hlen]
    exact he (by omega)

theorem begun_getUserDiagBuf {e : ExtBuf} (he : e.Begun) (log : List UInt8) :
    (getUserDiagBuf e log).1.Begun := by
  induction log generalizing e with
  | nil => exact he
  | cons b log ih =>
    unfold getUserDiagBuf
    split
    · rename_i h
      exact ih (he.put (fun _ => h.1) _)
    · split
      · rename_i h
        have hput := he.put (b := b) (fun h0 => absurd h0 (Nat.ne_of_gt h.1)) h.2
        split
        · exact hput
        · exact ih hput
      · exact ih he

theorem ExtBuf.Kept.collect {e : ExtBuf} (h : e.Kept) (log : List UInt8) :
    (getUserDiagBuf e log).1.Kept :=
  ⟨begun_getUserDiagBuf h.begun log, cleared_getUserDiagBuf h.cleared log⟩

/-- Parsing a frame that is not complete leaves what lies behind it cleared. -/
theorem ExtBuf.Kept.parse {e : ExtBuf} (h : e.Kept) (env : DiagEnv) : (e.parse env).2.Kept := by
  have hbyte := engDiagParse_getElem? env e.data e.len
  have hlong : 1 ≤ e.data.length := by rw [e.length_data]; decide
  have htake : (e.data.take 1).length = 1 := by rw [List.length_take]; omega
  simp only at hbyte
  refine ⟨fun hlen => ?_, fun k hk => ?_⟩
  · -- the flag is in front of what is decoded
    have hfirst : (e.data.take 1 ++ engDiagDecode7d7e (e.data.drop 1) (e.len - 1))[0]? =
        some 0x7e := by
      rw [List.getElem?_append_left (by omega), List.getElem?_take_of_lt Nat.one_pos]
      exact h.begun hlen
    rcases hbyte 0 with hsame | ⟨htext, -⟩
    · exact hsame.trans hfirst
    · exact absurd htext (by decide)
  · have hbehind : (e.data.take 1 ++ engDiagDecode7d7e (e.data.drop 1) (e.len - 1)).getD k 0 = 0 := by
      have hk' : e.len ≤ k := hk
      have hk0 := h.cleared k hk'
      rw [List.getD_eq_getElem?_getD] at hk0 ⊢
      by_cases hpos : k = 0
      · rwa [hpos, List.getElem?_append_left (by omega), List.getElem?_take_of_lt Nat.one_pos,
          ← hpos]
      · have hidx : 1 + (k - 1) = k := by omega
        rwa [List.getElem?_append_right (by omega), htake, engDiagDecode7d7e,
          decode7d7eLoop_getElem? _ _ _ (show e.len - 1 ≤ k - 1 by omega), List.getElem?_drop, hidx]
    rw [List.getD_eq_getElem?_getD] at hbehind ⊢
    rcases hbyte k with hsame | ⟨-, -, hzero⟩
    · exact (congrArg (Option.getD · 0) hsame).trans hbehind
    · exact congrArg (Option.getD · 0) hzero

/-- **`ext_data_buf` in every state that is reached.** -/
theorem reachable_kept (its : List Iteration) : (vdiag.run .init its).1.extBuf.Kept := by
  refine vdiag.run_invariant (P := fun s => s.extBuf.Kept) (fun s it hs => ?_) its _
    kept_initUserDiagBuf
  show (vdiagStep s it).1.extBuf.Kept
  cases hread : it.read.logData with
  | none =>
    rw [vdiagStep_none hread]
    exact hs
  | some log =>
    rw [vdiagStep_state hread]
    have hcases := handles s it.env log
    generalize handle s it.env log = h at hcases ⊢
    cases hcases with
    | toCP => exact hs
    | found => exact kept_initUserDiagBuf
    | idle _ he => exact he ▸ hs.collect log
    | more _ he => exact he ▸ hs.collect log
    | keep _ he => exact ExtBuf.Kept.parse (he ▸ hs.collect log) it.env
    | handOver => exact kept_initUserDiagBuf

/-- `ext_data_buf` when it holds a complete frame. -/
structure CompleteFrame where
  buf : ExtBuf
  body : List UInt8
  frame_eq : buf.frame = 0x7e :: (body ++ [0x7e])
  cleared : buf.Cleared

/-- **What `get_user_diag_buf` delivers is a complete frame**, whatever was received before. -/
theorem delivered (its : List Iteration) (log : List UInt8)
    (h : (getUserDiagBuf (vdiag.run .init its).1.extBuf log).2 = true) :
    ∃ f : CompleteFrame, f.buf = (getUserDiagBuf (vdiag.run .init its).1.extBuf log).1 := by
  have hkept := (reachable_kept its).collect log
  have hgather := getUserDiagBuf_gather (vdiag.run .init its).1.extBuf log
  generalize (vdiag.run .init its).1.extBuf = e₀ at *
  generalize (getUserDiagBuf e₀ log).1 = e at *
  rw [h] at hgather
  cases hopen : opened e₀.frame log with
  | none =>
    rw [gather_eq_nil hopen] at hgather
    cases congrArg Prod.snd hgather
  | some r =>
    obtain ⟨f₀, rest⟩ := r
    rw [gather_eq_goOn hopen] at hgather
    unfold goOn at hgather
    simp only at hgather
    split at hgather
    · have hframe := congrArg Prod.fst hgather
      simp only at hframe
      obtain ⟨b, f₁, rfl⟩ : ∃ b f₁, f₀ = b :: f₁ := by
        rcases (opened_suffix hopen).2 with ⟨-, rfl⟩ | ⟨hne, rfl, -⟩
        · exact ⟨_, _, rfl⟩
        · exact List.exists_cons_of_ne_nil hne
      have hpos : 0 < e.len := by
        rw [← e.length_frame, hframe]
        simp
      have hfirst : e.frame[0]? = some 0x7e := by
        rw [ExtBuf.frame, List.getElem?_take_of_lt hpos]
        exact hkept.begun hpos
      rw [hframe] at hfirst
      cases hfirst
      exact ⟨⟨e, _, hframe, hkept.cleared⟩, rfl⟩
    · cases congrArg Prod.snd hgather

/-- A frame that is received at once is delivered as it is. -/
theorem delivered_first {body : List UInt8} (hflag : 0x7e ∉ body)
    (hroom : 1 + body.length < dataExtDiagSize) :
    ∃ f : CompleteFrame, f.body = body ∧
      getUserDiagBuf initUserDiagBuf (0x7e :: (body ++ [0x7e])) = (f.buf, true) := by
  have hopen : opened [] (0x7e :: (body ++ [0x7e])) = some ([0x7e], body ++ [0x7e]) := rfl
  have hgather : gather initUserDiagBuf.frame (0x7e :: (body ++ [0x7e])) =
      ([0x7e] ++ body ++ [0x7e], true) :=
    (gather_eq_goOn hopen).trans (goOn_closed (f := [0x7e]) hflag hroom [])
  obtain ⟨hframe, hfound, -⟩ := getUserDiagBuf_of_gather hgather
  obtain ⟨f, hf⟩ := delivered [] _ hfound
  have hbuf : f.buf = (getUserDiagBuf initUserDiagBuf (0x7e :: (body ++ [0x7e]))).1 := hf
  have hbody := f.frame_eq
  rw [hbuf, hframe] at hbody
  exact ⟨f, (List.append_cancel_right (List.cons.inj hbody).2).symm, Prod.ext hbuf.symm hfound⟩

namespace CompleteFrame

variable (f : CompleteFrame) (behind : UInt8) (more : List UInt8)

/-- The memory from `ext_data_buf` on; `behind` is the byte that follows the array. -/
def mem : List UInt8 := f.buf.data ++ behind :: more

/-- The byte behind the frame. -/
def next : UInt8 := if f.buf.len < dataExtDiagSize then 0 else behind

/-- The frame behind its opening flag, after `eng_diag_parse` unescaped it: what was sent, and what
has become of the closing flag. -/
def plain : List UInt8 :=
  bodyContent f.body ++ [if takesFlag f.body then 0x5e else f.next behind ^^^ 0x20]

theorem plain_eq : f.plain behind = unescaped (f.next behind) (f.body ++ [0x7e]) :=
  (unescaped_concat _ _).symm

theorem len_eq : f.buf.len = f.body.length + 2 := by
  rw [← f.buf.length_frame, f.frame_eq]
  simp

theorem length_plain_lt : (f.plain behind).length < f.buf.len := by
  have hle := length_unescaped_le (f.next behind) (f.body ++ [0x7e])
  rw [List.length_append, List.length_singleton] at hle
  rw [plain_eq, f.len_eq]
  omega

theorem mem_eq :
    ∃ rest, f.mem behind more = 0x7e :: ((f.body ++ [0x7e]) ++ f.next behind :: rest) := by
  have hcut := List.take_append_drop f.buf.len f.buf.data
  have hframe : f.buf.data.take f.buf.len = 0x7e :: (f.body ++ [0x7e]) := f.frame_eq
  rw [hframe] at hcut
  rw [mem, ← hcut, next]
  by_cases hlt : f.buf.len < dataExtDiagSize
  · have hlt' : f.buf.len < f.buf.data.length := by rw [f.buf.length_data]; exact hlt
    have hzero := f.cleared f.buf.len (Nat.le_refl _)
    rw [List.getD_eq_getElem?_getD, List.getElem?_eq_getElem hlt', Option.getD_some] at hzero
    rw [List.drop_eq_getElem_cons hlt', hzero, if_pos hlt]
    exact ⟨f.buf.data.drop (f.buf.len + 1) ++ behind :: more, by simp⟩
  · rw [if_neg hlt, List.drop_eq_nil_of_le (by rw [f.buf.length_data]; omega)]
    exact ⟨more, by simp⟩

/-- The memory after `eng_diag_parse` has unescaped the frame. -/
def unescape : List UInt8 :=
  (f.mem behind more).take 1 ++ engDiagDecode7d7e ((f.mem behind more).drop 1) (f.buf.len - 1)

/-- **A complete frame after it was unescaped**: where it got shorter, and behind it, lies the byte
that followed it. -/
theorem unescape_eq :
    ∃ rest, f.unescape behind more =
      0x7e :: (f.plain behind ++
        (List.replicate (f.buf.len - 1 - (f.plain behind).length) (f.next behind) ++ rest)) := by
  obtain ⟨rest, hmem⟩ := f.mem_eq behind more
  have hlen : f.buf.len - 1 = ([] : List UInt8).length + (f.body ++ [0x7e]).length := by
    rw [f.len_eq]
    simp
  have hdec := decode7d7eLoop_unescaped (f.next behind) [] (f.body ++ [0x7e]) rest
  rw [← hlen, List.nil_append, List.nil_append, List.length_nil] at hdec
  rw [unescape, hmem, engDiagDecode7d7e, List.drop_one, List.tail_cons, hdec]
  refine ⟨f.next behind :: rest, ?_⟩
  rw [hlen, List.length_nil, Nat.zero_add, plain_eq]
  rfl

theorem length_plain : (f.plain behind).length = (bodyContent f.body).length + 1 := by
  rw [plain, List.length_append, List.length_singleton]

theorem unescape_content {k : Nat} (hk : k < (bodyContent f.body).length) :
    (f.unescape behind more)[k + 1]? = (bodyContent f.body)[k]? := by
  obtain ⟨rest, h⟩ := f.unescape_eq behind more
  rw [h, List.getElem?_cons_succ, List.getElem?_append_left (by rw [length_plain]; omega), plain,
    List.getElem?_append_left hk]

/-- What has become of the closing flag. -/
theorem unescape_flag :
    (f.unescape behind more)[(bodyContent f.body).length + 1]? =
      some (if takesFlag f.body then 0x5e else f.next behind ^^^ 0x20) := by
  obtain ⟨rest, h⟩ := f.unescape_eq behind more
  rw [h, List.getElem?_cons_succ, List.getElem?_append_left (by rw [length_plain]; omega), plain,
    List.getElem?_concat_length]

/-- Behind a frame that does not fill the buffer there are zeros. -/
theorem unescape_behind (hlen : f.buf.len < dataExtDiagSize) {k : Nat}
    (hk : (bodyContent f.body).length + 1 < k) (hlt : k < dataExtDiagSize) :
    (f.unescape behind more)[k]? = some 0 := by
  by_cases hin : k < f.buf.len
  · obtain ⟨rest, h⟩ := f.unescape_eq behind more
    have hplain := f.length_plain behind
    obtain ⟨j, rfl⟩ : ∃ j, k = j + 1 := ⟨k - 1, by omega⟩
    rw [h, List.getElem?_cons_succ, List.getElem?_append_right (by omega),
      List.getElem?_append_left (by rw [List.length_replicate]; omega), List.getElem?_replicate,
      if_pos (by omega), next, if_pos hlen]
  · have hdata : k < f.buf.data.length := by rw [f.buf.length_data]; exact hlt
    have htake : ((f.mem behind more).take 1).length = 1 := by
      rw [List.length_take, mem, List.length_append, List.length_cons]
      omega
    have hpos : 0 < f.buf.len := by rw [f.len_eq]; omega
    have hidx : 1 + (k - 1) = k := by omega
    have hzero := f.cleared k (by omega)
    rw [List.getD_eq_getElem?_getD, List.getElem?_eq_getElem hdata, Option.getD_some] at hzero
    rw [unescape, List.getElem?_append_right (by omega), htake, engDiagDecode7d7e,
      decode7d7eLoop_getElem? _ _ _ (by omega), List.getElem?_drop, hidx, mem,
      List.getElem?_append_left hdata, List.getElem?_eq_getElem hdata, hzero]

/-- The memory after `eng_diag_parse`, in which separators may have been overwritten. -/
theorem parse_getElem? (env : DiagEnv) (k : Nat) :
    (engDiagParse env (f.mem behind more) f.buf.len).2[k]? = (f.unescape behind more)[k]? ∨
      diagText ≤ k ∧
        ((f.unescape behind more)[k]? = some 0x2c ∨ (f.unescape behind more)[k]? = some 0x22) ∧
        (engDiagParse env (f.mem behind more) f.buf.len).2[k]? = some 0 :=
  engDiagParse_getElem? env (f.mem behind more) f.buf.len k

end CompleteFrame

end SprdHal.Engmode
