import SprdHal.Secril.Client

/-!
# Tokens of the secril client

While every response carries at most one outstanding token, the pool and the history say the same:
a bit is set exactly if one record carries its token. `IsValidToken` however accepts every union of
outstanding tokens. Such a response clears several bits of the pool and no record, as no record
carries the union.
-/

namespace SprdHal.Secril

open SprdHal.Lib

variable {H : Type}

/-! ## Bits and searches -/

section Bits

variable {pool : Word} {i j : Nat}

theorem getLsbD_bit (hi : i < 32) : (bit i).getLsbD j = decide (i = j) := by
  simp [bit, BitVec.getLsbD_twoPow, hi]

theorem and_bit : pool &&& bit i = if pool.getLsbD i then bit i else 0 :=
  BitVec.and_twoPow pool i

theorem bit_ne_zero (hi : i < 32) : bit i ≠ 0 := by
  intro h
  have hbit : (bit i).getLsbD i = true := by rw [getLsbD_bit hi]; simp
  rw [h] at hbit
  simp at hbit

theorem bit_inj (hi : i < 32) (h : bit i = bit j) : i = j := by
  have hbit : (bit j).getLsbD i = true := by rw [← h, getLsbD_bit hi]; simp
  have hj : j < 32 := by
    by_contra hj
    simp [bit, BitVec.getLsbD_twoPow, hj] at hbit
  rw [getLsbD_bit hj] at hbit
  exact (of_decide_eq_true hbit).symm

theorem getLsbD_or_bit (hi : i < 32) :
    (pool ||| bit i).getLsbD j = (pool.getLsbD j || decide (i = j)) := by
  rw [BitVec.getLsbD_or, getLsbD_bit hi]

theorem getLsbD_freeToken_bit (hi : i < 32) (hj : j < 32) :
    (freeToken pool (bit i)).getLsbD j = (pool.getLsbD j && decide (i ≠ j)) := by
  rw [freeToken, BitVec.getLsbD_and, BitVec.getLsbD_not, getLsbD_bit hi]
  simp [hj]

/-- A token that was not in the pool comes and goes without a trace. -/
theorem freeToken_or_bit (hi : i < 32) (h : pool.getLsbD i = false) :
    freeToken (pool ||| bit i) (bit i) = pool := by
  apply BitVec.eq_of_getLsbD_eq
  intro k hk
  rw [getLsbD_freeToken_bit hi hk, getLsbD_or_bit hi]
  by_cases hik : i = k
  · subst hik; simp [h]
  · simp [hik]

end Bits

theorem find?_eq_of_unique {α : Type} {l : List α} {p : α → Bool} {a : α} (hm : a ∈ l)
    (hp : p a = true) (hu : ∀ b ∈ l, p b = true → b = a) : l.find? p = some a := by
  cases hf : l.find? p with
  | none => exact absurd hp (by simpa using List.find?_eq_none.mp hf a hm)
  | some b => rw [hu b (List.mem_of_find?_eq_some hf) (List.find?_some hf)]

theorem findToken_some {history : Slot → ReqHistory} {token : Word} {k : Slot}
    (h : findToken history token = some k) : (history k).token = token := by
  simpa using List.find?_some h

/-- The token that is allocated was free. -/
theorem allocateToken_cases (pool : Word) :
    (allocateToken pool).2 = 0 ∨
      ∃ i : Fin 32, pool.getLsbD i = false ∧ allocateToken pool = (pool ||| bit i, bit i) := by
  unfold allocateToken
  split
  · exact Or.inl rfl
  · cases hf : (List.finRange 32).find? fun i : Fin 32 => pool &&& bit i = 0 with
    | none => exact Or.inl rfl
    | some i =>
      have hi : pool &&& bit i = 0 := by simpa using List.find?_some hf
      rw [and_bit] at hi
      refine Or.inr ⟨i, ?_, rfl⟩
      by_contra hb
      rw [if_pos (by simpa using hb)] at hi
      exact bit_ne_zero i.isLt hi

/-! ## Agreement of pool and history -/

/-- `t` is the token of one outstanding request. -/
def Outstanding (s : RilClientPrv H) (t : Word) : Prop :=
  ∃ i : Fin 32, s.tokenPool.getLsbD i = true ∧ t = bit i

/-- A bit is set iff exactly one record carries its token, and no record carries anything else. -/
structure TokensAgree (s : RilClientPrv H) : Prop where
  bit_iff : ∀ i : Fin 32, s.tokenPool.getLsbD i = true ↔ ∃! k, (s.history k).token = bit i
  only : ∀ k, (s.history k).token ≠ 0 → Outstanding s (s.history k).token

/-- The token of a response, if it can be read. -/
def tokenOf (p : List UInt8) : Option Word := (readInt32 p).map Prod.fst

/-- The error code of a response, if it can be read. -/
def errOf (p : List UInt8) : Option Word :=
  (readInt32 p).bind fun r => (readInt32 r.2).map Prod.fst

def Event.isHandler : Event H → Bool
  | .handler _ _ _ => true
  | _ => false

/-- Exactly the token `t` becomes free. -/
structure Frees (s s' : RilClientPrv H) (t : Word) : Prop where
  pool : ∀ i : Fin 32, s'.tokenPool.getLsbD i = (s.tokenPool.getLsbD i && decide (bit i ≠ t))
  records : ∀ k, s'.history k = if (s.history k).token = t then ⟨0, 0⟩ else s.history k

/-- What a response may do: with an outstanding token it frees that token, with any other, or
without one, it changes nothing and calls no handler. -/
def ResponseOk (s : RilClientPrv H) (p : List UInt8) : Prop :=
  (∀ t, tokenOf p = some t → Outstanding s t → Frees s (s.processSolicited p).2.1 t) ∧
  ((∀ t, tokenOf p = some t → ¬Outstanding s t) →
    (s.processSolicited p).2.1.tokenPool = s.tokenPool ∧
    (s.processSolicited p).2.1.history = s.history ∧
    ∀ e ∈ (s.processSolicited p).2.2, e.isHandler = false)

/-- What every call has to keep to. -/
def CallOk (s : RilClientPrv H) (op : Op H) : Prop :=
  TokensAgree ((client H).step s op).1 ∧ ∀ p, op = .processSolicited p → ResponseOk s p

/-- No response carries a union of several outstanding tokens. -/
def SingleToken (s : RilClientPrv H) : Op H → Prop
  | .processSolicited p =>
    match tokenOf p with
    | some t => isValidToken s.tokenPool t = true → ∃ i : Fin 32, t = bit i
    | none => True
  | _ => True

namespace TokensAgree

variable {s s' : RilClientPrv H}

theorem congr (h : TokensAgree s) (hp : s'.tokenPool = s.tokenPool)
    (hh : ∀ k, (s'.history k).token = (s.history k).token) : TokensAgree s' := by
  refine ⟨fun i => ?_, fun k hk => ?_⟩
  · simp only [hp, hh]
    exact h.bit_iff i
  · rw [hh] at hk ⊢
    obtain ⟨i, hi, he⟩ := h.only k hk
    exact ⟨i, by rw [hp]; exact hi, he⟩

/-- Records with the same token are the same. -/
theorem unique (h : TokensAgree s) {i : Fin 32} {k k' : Slot} (hk : (s.history k).token = bit i)
    (hk' : (s.history k').token = bit i) : k = k' := by
  have hne : (s.history k).token ≠ 0 := by rw [hk]; exact bit_ne_zero i.isLt
  obtain ⟨j, hj, he⟩ := h.only k hne
  have hij : i = j := Fin.ext (bit_inj i.isLt (hk.symm.trans he))
  subst hij
  exact ((h.bit_iff i).mp hj).unique hk hk'

theorem empty (hp : s.tokenPool = 0) (hh : ∀ k, s.history k = ⟨0, 0⟩) : TokensAgree s := by
  refine ⟨fun i => ?_, fun k hk => absurd (by rw [hh]) hk⟩
  rw [hp]
  constructor
  · intro h
    simp at h
  · rintro ⟨k, hk, -⟩
    rw [hh] at hk
    exact absurd hk.symm (bit_ne_zero i.isLt)

/-- A new token with its record. -/
theorem record (h : TokensAgree s) {i : Fin 32} (hi : s.tokenPool.getLsbD i = false) {k : Slot}
    (hk : (s.history k).token = 0) (id : Word) :
    TokensAgree { s with
      tokenPool := s.tokenPool ||| bit i
      history := Function.update s.history k ⟨bit i, id⟩ } := by
  have hfree : ∀ k', (s.history k').token ≠ bit i := by
    intro k' hk'
    obtain ⟨j, hj, he⟩ := h.only k' (by rw [hk']; exact bit_ne_zero i.isLt)
    have hij : i = j := Fin.ext (bit_inj i.isLt (hk'.symm.trans he))
    subst hij
    rw [hi] at hj
    exact absurd hj (by simp)
  refine ⟨fun j => ?_, fun k' hk' => ?_⟩
  · by_cases hij : i = j
    · subst hij
      have hset : (s.tokenPool ||| bit i).getLsbD i = true := by
        rw [getLsbD_or_bit i.isLt]; simp
      refine ⟨fun _ => ⟨k, by simp, ?_⟩, fun _ => hset⟩
      intro k' hk'
      by_contra hne
      simp only [Function.update_of_ne hne] at hk'
      exact hfree k' hk'
    · have hval : (i : Nat) ≠ j := fun h => hij (Fin.ext h)
      have hpool : (s.tokenPool ||| bit i).getLsbD j = s.tokenPool.getLsbD j := by
        rw [getLsbD_or_bit i.isLt]; simp [hval]
      have hsame : ∀ k', (Function.update s.history k ⟨bit i, id⟩ k').token = bit j ↔
          (s.history k').token = bit j := by
        intro k'
        by_cases hkk : k' = k
        · subst hkk
          simp only [Function.update_self, hk]
          exact ⟨fun he => absurd (bit_inj i.isLt he) hval,
            fun he => absurd he.symm (bit_ne_zero j.isLt)⟩
        · rw [Function.update_of_ne hkk]
      simp only [hpool, hsame]
      exact h.bit_iff j
  · by_cases hkk : k' = k
    · subst hkk
      refine ⟨i, ?_, by simp⟩
      simp only [getLsbD_or_bit i.isLt, decide_true, Bool.or_true]
    · simp only [Function.update_of_ne hkk] at hk' ⊢
      obtain ⟨j, hj, he⟩ := h.only k' hk'
      exact ⟨j, by simp only [getLsbD_or_bit i.isLt, hj, Bool.true_or], he⟩

/-- `release` of an outstanding token. -/
theorem release_frees (h : TokensAgree s) {t : Word} (ht : Outstanding s t) :
    Frees s (s.release t) t := by
  obtain ⟨i, hi, rfl⟩ := ht
  obtain ⟨k, hk, hu⟩ := (h.bit_iff i).mp hi
  have hfind : findToken s.history (bit i) = some k :=
    find?_eq_of_unique (List.mem_finRange k) (by simpa using hk)
      fun k' _ hk' => hu k' (by simpa using hk')
  refine ⟨fun j => ?_, fun k' => ?_⟩
  · show (freeToken s.tokenPool (bit i)).getLsbD j = _
    rw [getLsbD_freeToken_bit i.isLt j.isLt]
    congr 1
    refine decide_eq_decide.mpr (not_congr ⟨fun he => by rw [he], fun he => ?_⟩)
    exact (bit_inj j.isLt he).symm
  · show clearReqHistory s.history (bit i) k' = _
    simp only [clearReqHistory, hfind]
    by_cases hkk : k' = k
    · subst hkk
      rw [Function.update_self, if_pos hk]
    · rw [Function.update_of_ne hkk, if_neg fun he => hkk (hu k' he)]

end TokensAgree

/-- Freeing one token keeps the agreement. -/
theorem Frees.tokensAgree {s s' : RilClientPrv H} {t : Word} (hf : Frees s s' t)
    (h : TokensAgree s) (ht : Outstanding s t) : TokensAgree s' := by
  obtain ⟨i, hi, rfl⟩ := ht
  refine ⟨fun j => ?_, fun k hk => ?_⟩
  · by_cases hij : i = j
    · subst hij
      have hclear : s'.tokenPool.getLsbD i = false := by rw [hf.pool]; simp
      rw [hclear]
      refine ⟨fun h => by simp at h, ?_⟩
      rintro ⟨k, hk, -⟩
      simp only [hf.records] at hk
      split at hk
      · exact absurd hk.symm (bit_ne_zero i.isLt)
      · exact absurd hk ‹_›
    · have hne : bit j ≠ bit i := fun he => hij (Fin.ext (bit_inj j.isLt he).symm)
      have hpool : s'.tokenPool.getLsbD j = s.tokenPool.getLsbD j := by
        rw [hf.pool]; simp [hne]
      have hsame : ∀ k, (s'.history k).token = bit j ↔ (s.history k).token = bit j := by
        intro k
        rw [hf.records]
        split
        · rename_i hk
          exact ⟨fun he => absurd he.symm (bit_ne_zero j.isLt),
            fun he => absurd (he.symm.trans hk) hne⟩
        · exact Iff.rfl
      simp only [hpool, hsame]
      exact h.bit_iff j
  · rw [hf.records] at hk ⊢
    split at hk
    · exact absurd rfl hk
    · rename_i hk'
      rw [if_neg hk']
      obtain ⟨j, hj, he⟩ := h.only k hk
      exact ⟨j, by rw [hf.pool, hj]; simpa using fun hji => hk' (he.trans hji), he⟩

/-! ## The calls -/

section Calls

variable {s : RilClientPrv H}

/-- What a request does: it fails and leaves the tokens of all records, or it takes a free token. -/
theorem sendOemRequestHookRaw_cases (h : TokensAgree s) (reqId : Word) (w : Writes) :
    ((s.sendOemRequestHookRaw reqId w).1 ≠ .success ∧ (s.sendOemRequestHookRaw reqId w).2.2 = [] ∧
      ∃ history, (s.sendOemRequestHookRaw reqId w).2.1 = { s with history } ∧
        ∀ k, history k = s.history k ∨ (s.history k).token = 0 ∧ (history k).token = 0) ∨
    ∃ (i : Fin 32) (k : Slot), s.tokenPool.getLsbD i = false ∧ (s.history k).token = 0 ∧
      s.sendOemRequestHookRaw reqId w =
        (.success,
          { s with
            tokenPool := s.tokenPool ||| bit i
            history := Function.update s.history k ⟨bit i, reqId⟩ },
          [.sent (bit i) reqId]) := by
  unfold RilClientPrv.sendOemRequestHookRaw
  rcases allocateToken_cases s.tokenPool with h0 | ⟨i, hi, ha⟩
  · left
    simp only [h0, if_true]
    exact ⟨(nomatch ·), trivial, s.history, rfl, fun k => Or.inl rfl⟩
  · simp only [ha, if_neg (bit_ne_zero i.isLt)]
    have hfree : ∀ k, (s.history k).token ≠ bit i := by
      intro k hk
      obtain ⟨j, hj, he⟩ := h.only k (by rw [hk]; exact bit_ne_zero i.isLt)
      have hij : i = j := Fin.ext (bit_inj i.isLt (hk.symm.trans he))
      rw [hij, hj] at hi
      exact absurd hi (by simp)
    cases hf : findToken s.history 0 with
    | none =>
      left
      have hclear : clearReqHistory s.history (bit i) = s.history := by
        unfold clearReqHistory
        cases hk : findToken s.history (bit i) with
        | none => rfl
        | some k => exact absurd (findToken_some hk) (hfree k)
      simp only [recordReqHistory, hf, Option.map_none, RilClientPrv.release,
        freeToken_or_bit i.isLt hi, hclear]
      exact ⟨(nomatch ·), trivial, s.history, rfl, fun k => Or.inl rfl⟩
    | some k =>
      have hk0 := findToken_some hf
      simp only [recordReqHistory, hf, Option.map_some]
      split
      · exact Or.inr ⟨i, k, hi, hk0, rfl⟩
      · left
        -- the record just made is the only one with the token
        have hfind : findToken (Function.update s.history k ⟨bit i, reqId⟩) (bit i) = some k := by
          refine find?_eq_of_unique (List.mem_finRange k) (by simp) fun k' _ hk' => ?_
          by_contra hne
          rw [Function.update_of_ne hne] at hk'
          exact hfree k' (by simpa using hk')
        simp only [RilClientPrv.release, freeToken_or_bit i.isLt hi, clearReqHistory, hfind,
          Function.update_idem]
        refine ⟨(nomatch ·), trivial, _, rfl, fun k' => ?_⟩
        by_cases hne : k' = k
        · subst hne
          exact Or.inr ⟨hk0, by simp⟩
        · exact Or.inl (Function.update_of_ne hne _ _)

theorem TokensAgree.send (h : TokensAgree s) (reqId : Word) (w : Writes) :
    TokensAgree (s.sendOemRequestHookRaw reqId w).2.1 := by
  rcases sendOemRequestHookRaw_cases h reqId w with ⟨-, -, history, he, hh⟩ | ⟨i, k, hi, hk, he⟩
  · rw [he]
    refine h.congr rfl fun k => ?_
    rcases hh k with hk | ⟨hk, hk'⟩
    · exact congrArg ReqHistory.token hk
    · exact hk'.trans hk.symm
  · rw [he]
    exact h.record hi hk reqId

@[simp] theorem register_tokenPool (s : RilClientPrv H) (id : Word) (h : Option H) :
    (s.register id h).tokenPool = s.tokenPool := rfl

@[simp] theorem register_history (s : RilClientPrv H) (id : Word) (h : Option H) :
    (s.register id h).history = s.history := rfl

theorem TokensAgree.register (h : TokensAgree s) (id : Word) (f : Option H) :
    TokensAgree (s.register id f) := h.congr rfl fun _ => rfl

theorem isValidToken_bit (pool : Word) (i : Fin 32) :
    isValidToken pool (bit i) = pool.getLsbD i := by
  unfold isValidToken
  rw [and_bit]
  cases hb : pool.getLsbD i with
  | true => simpa using bit_ne_zero i.isLt
  | false => simpa using fun _ => (bit_ne_zero i.isLt).symm

/-- Without a valid token nothing happens. -/
theorem processSolicited_invalid {p : List UInt8}
    (h : ∀ t, tokenOf p = some t → isValidToken s.tokenPool t = false) :
    (s.processSolicited p).2 = (s, []) := by
  unfold RilClientPrv.processSolicited
  cases hp : readInt32 p with
  | none => rfl
  | some r =>
    have hv := h r.1 (by simp [tokenOf, hp])
    simp [hv]

/-- With a valid token that token is released in the end. Before that an error is reported, or the
handler of the request is called and perhaps unregistered, or the request has no handler. -/
theorem processSolicited_cases {p : List UInt8} {t : Word} (hp : tokenOf p = some t)
    (hv : isValidToken s.tokenPool t = true) :
    (errOf p ≠ some 0 ∧ (s.processSolicited p).2.1 = s.release t ∧
      ∀ e ∈ (s.processSolicited p).2.2, ∃ c, e = .error c) ∨
    (errOf p = some 0 ∧ ∃ id h data len, findReqHandler s t = some (id, some h) ∧
      (s.processSolicited p).2 =
        ((if s.bDelHandler then { s.register id none with bDelHandler := false } else s).release t,
          [.handler h data len])) ∨
    (errOf p = some 0 ∧ (∀ id h, findReqHandler s t ≠ some (id, some h)) ∧
      (s.processSolicited p).2 = (s.release t, [])) := by
  obtain ⟨⟨t', p'⟩, hr, rfl⟩ := Option.map_eq_some_iff.mp hp
  unfold RilClientPrv.processSolicited errOf
  simp only [hr, hv, not_true_eq_false, if_false, Option.bind_some]
  cases readInt32 p' with
  | none =>
    left
    exact ⟨(nomatch ·), rfl, fun e he => absurd he List.not_mem_nil⟩
  | some r =>
    rcases r with ⟨err, p''⟩
    dsimp only
    split
    · rename_i herr
      left
      refine ⟨fun he => herr (Option.some.inj he), rfl, fun e he => ?_⟩
      dsimp only at he
      split at he
      · exact ⟨err, List.mem_singleton.mp he⟩
      · exact absurd he List.not_mem_nil
    · rename_i herr
      have herr : err = 0 := not_not.mp herr
      right
      cases hf : findReqHandler s t' with
      | none => exact Or.inr ⟨congrArg some herr, fun _ _ h => (nomatch h), rfl⟩
      | some f =>
        rcases f with ⟨id, _ | f⟩
        · exact Or.inr ⟨congrArg some herr, fun _ _ h => (nomatch h), rfl⟩
        · exact Or.inl ⟨congrArg some herr, id, f, _, _, rfl, rfl⟩

theorem processSolicited_release {p : List UInt8} {t : Word} (hp : tokenOf p = some t)
    (hv : isValidToken s.tokenPool t = true) :
    (s.processSolicited p).2.1.tokenPool = (s.release t).tokenPool ∧
      (s.processSolicited p).2.1.history = (s.release t).history := by
  rcases processSolicited_cases hp hv with ⟨-, he, -⟩ | ⟨-, id, h, d, l, -, he⟩ | ⟨-, -, he⟩
  · rw [he]
    exact ⟨rfl, rfl⟩
  · rw [he]
    cases s.bDelHandler <;> exact ⟨rfl, rfl⟩
  · rw [he]
    exact ⟨rfl, rfl⟩

/-- A response that meets the condition. -/
theorem TokensAgree.response (h : TokensAgree s) {p : List UInt8}
    (hs : SingleToken s (.processSolicited p)) :
    TokensAgree (s.processSolicited p).2.1 ∧ ResponseOk s p := by
  by_cases hv : ∃ t, tokenOf p = some t ∧ isValidToken s.tokenPool t = true
  · obtain ⟨t, hp, hv⟩ := hv
    obtain ⟨i, rfl⟩ : ∃ i : Fin 32, t = bit i := by
      simp only [SingleToken, hp] at hs
      exact hs hv
    have hout : Outstanding s (bit i) := ⟨i, by rw [isValidToken_bit] at hv; exact hv, rfl⟩
    obtain ⟨hpool, hhist⟩ := processSolicited_release hp hv
    have hfree := h.release_frees hout
    have hfrees : Frees s (s.processSolicited p).2.1 (bit i) :=
      ⟨fun j => by rw [hpool]; exact hfree.pool j, fun k => by rw [hhist]; exact hfree.records k⟩
    refine ⟨hfrees.tokensAgree h hout, fun t ht _ => ?_, fun hno => absurd hout (hno _ hp)⟩
    rw [hp] at ht
    cases ht
    exact hfrees
  · have hinv : ∀ t, tokenOf p = some t → isValidToken s.tokenPool t = false := by
      intro t ht
      by_contra hne
      exact hv ⟨t, ht, by simpa using hne⟩
    have hsame := processSolicited_invalid (s := s) hinv
    unfold ResponseOk
    rw [hsame]
    refine ⟨h, fun t ht hout => ?_, fun _ => ⟨rfl, rfl, fun e he => absurd he (by simp)⟩⟩
    obtain ⟨i, hi, rfl⟩ := hout
    have hbad := hinv _ ht
    rw [isValidToken_bit, hi] at hbad
    exact absurd hbad (by simp)

/-- Every call that meets the condition keeps the agreement. -/
theorem TokensAgree.step (h : TokensAgree s) {op : Op H} (hs : SingleToken s op) : CallOk s op := by
  cases op with
  | register id f => exact ⟨h.register id f, fun _ he => nomatch he⟩
  | invoke id w => exact ⟨h.send id w, fun _ he => nomatch he⟩
  | command id w =>
    refine ⟨?_, fun _ he => nomatch he⟩
    have hsend := (h.register id none).send id w
    show TokensAgree (s.command id w).2.1
    unfold RilClientPrv.command
    dsimp only
    split
    · exact hsend.register id none
    · exact hsend
  | getMute f w =>
    refine ⟨?_, fun _ he => nomatch he⟩
    have hflag : TokensAgree { s with bDelHandler := true } := h.congr rfl fun _ => rfl
    have hsend := (hflag.register reqGetCallMute f).send reqGetCallMute w
    show TokensAgree (s.getMute f w).2.1
    unfold RilClientPrv.getMute
    dsimp only
    split
    · exact hsend.register reqGetCallMute none
    · exact hsend
  | processSolicited p =>
    obtain ⟨hagree, hresp⟩ := h.response hs
    refine ⟨hagree, fun p' he => ?_⟩
    cases he
    exact hresp

end Calls

/-- In every run in which no response carries a union of several outstanding tokens, the pool and
the history agree after each call. -/
theorem tokens_agree_run (s : RilClientPrv H) (hp : s.tokenPool = 0)
    (hh : ∀ k, s.history k = ⟨0, 0⟩) (ops : List (Op H)) (op : Op H)
    (hadm : (client H).Admits SingleToken s (ops ++ [op])) :
    CallOk ((client H).run s ops).1 op := by
  have hagree := TokensAgree.empty hp hh
  clear hp hh
  induction ops generalizing s with
  | nil => exact hagree.step hadm.1
  | cons o ops ih => exact ih _ hadm.2 (hagree.step hadm.1).1

theorem tokens_agree_run_two_requests :
    CallOk ((client Unit).run (.openClient false) [.invoke 59 ⟨true, true⟩, .invoke 59 ⟨true, true⟩]).1
      (.processSolicited [2, 0, 0, 0]) :=
  tokens_agree_run _ rfl (fun _ => rfl) _ _ ⟨trivial, trivial, fun _ => ⟨1, rfl⟩, trivial⟩

/-- Two requests are outstanding, with the tokens 1 and 2, and the server sends a 3: the pool is
empty then, and both records are still there. -/
theorem union_of_tokens_not_ok :
    ¬CallOk ((client Unit).run (.openClient false) [.invoke 59 ⟨true, true⟩, .invoke 59 ⟨true, true⟩]).1
      (.processSolicited [3, 0, 0, 0]) := by
  rintro ⟨hagree, -⟩
  obtain ⟨i, hi, -⟩ := hagree.only 0 (by decide)
  revert hi
  revert i
  decide

end SprdHal.Secril
