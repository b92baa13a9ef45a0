import SprdHal.Secril.Tokens

/-!
# Dispatch of the responses

A successful response calls the handler that is registered for the request its token was sent with,
and no other one. Which handler is removed afterwards is another matter: `GetMute` sets a flag of
the client, and the next response that calls a handler clears it and removes that handler, whichever
request it belongs to. While the flag is set only responses to `GetMute` may therefore call a
handler.
-/

namespace SprdHal.Secril

open SprdHal.Lib

variable {H : Type}

/-- The handler registered for an id. -/
def registered (hs : HandlerSlot → ReqRespHandler H) (id : Word) : Option H :=
  (findHandler hs id).bind fun j => (hs j).handler

/-- The request id that a token was last sent with. -/
def sentId (t : Word) (log : List (Event H)) : Option Word :=
  (log.filterMap fun
    | .sent t' id => if t' = t then some id else none
    | _ => none).getLast?

def Event.handler? : Event H → Option H
  | .handler h _ _ => some h
  | _ => none

/-- The calls after which a handler for `id` may be gone. -/
def Unregisters (s : RilClientPrv H) (log : List (Event H)) (id : Word) : Op H → Prop
  | .register i none => i = id
  | .register _ (some _) => False
  | .invoke _ _ => False
  -- the command unregisters before it sends
  | .command i _ => i = id
  | .getMute none _ => id = reqGetCallMute
  | .getMute (some f) w => id = reqGetCallMute ∧ (s.getMute (some f) w).1 ≠ .success
  | .processSolicited p =>
    id = reqGetCallMute ∧ errOf p = some 0 ∧
      (tokenOf p).bind (sentId · log) = some reqGetCallMute

/-- What every call has to keep to, after the events in `log`. -/
structure DispatchOk (s : RilClientPrv H) (log : List (Event H)) (op : Op H) : Prop where
  calls : ∀ p t, op = .processSolicited p → tokenOf p = some t → errOf p = some 0 →
    ((client H).step s op).2.filterMap Event.handler? =
      ((sentId t log).bind (registered s.reqHandlers)).toList
  kept : ∀ id h, id ≠ 0 → registered s.reqHandlers id = some h →
    registered ((client H).step s op).1.reqHandlers id = none → Unregisters s log id op

/-- The calls the client is meant for: ids are not zero, only `GetMute` uses its own, and the
server answers outstanding requests. -/
def InScope (s : RilClientPrv H) : Op H → Prop
  | .register id _ => id ≠ 0
  | .invoke id _ => id ≠ 0 ∧ id ≠ reqGetCallMute
  | .command id _ => id ≠ 0 ∧ id ≠ reqGetCallMute
  | .getMute _ _ => True
  | .processSolicited p => ∃ t, tokenOf p = some t ∧ Outstanding s t

/-- While a handler is to be deleted, only responses to `GetMute` call one. -/
def DeletesOwn (s : RilClientPrv H) : Op H → Prop
  | .processSolicited p => s.bDelHandler = true → ∀ t id h, tokenOf p = some t →
    errOf p = some 0 → findReqHandler s t = some (id, some h) → id = reqGetCallMute
  | _ => True

/-! ## Handlers -/

section Handlers

variable {hs hs' : HandlerSlot → ReqRespHandler H} {id id' : Word}

theorem registered_congr
    (h : ∀ j, ((hs' j).id = id ↔ (hs j).id = id) ∧
      ((hs j).id = id → (hs' j).handler = (hs j).handler)) :
    registered hs' id = registered hs id := by
  have hfind : findHandler hs' id = findHandler hs id := by
    unfold findHandler
    congr 1
    funext j
    exact decide_eq_decide.mpr (h j).1
  unfold registered
  rw [hfind]
  cases hj : findHandler hs id with
  | none => rfl
  | some j => exact (h j).2 (by simpa using List.find?_some hj)

/-- A slot that changes without having the id before or after. -/
theorem registered_update_of_ne {j : HandlerSlot} {r : ReqRespHandler H} (hj : (hs j).id ≠ id)
    (hr : r.id ≠ id) : registered (Function.update hs j r) id = registered hs id := by
  apply registered_congr
  intro j'
  by_cases he : j' = j
  · subst he
    simp [hj, hr]
  · simp [Function.update_of_ne he]

theorem matchSlot_some {j : HandlerSlot} (h : matchSlot hs id = some j) : (hs j).id = id := by
  simpa using List.find?_some h

theorem firstEmptySlot_some {j : HandlerSlot} (h : firstEmptySlot hs = some j) : (hs j).id = 0 := by
  simpa using List.find?_some h

/-- Other ids keep their handlers. -/
theorem registered_register_of_ne (f : Option H) (hne : id' ≠ id) (h0 : id' ≠ 0) :
    registered (registerRequestCompleteHandler hs id f).2 id' = registered hs id' := by
  unfold registerRequestCompleteHandler
  cases f with
  | none =>
    dsimp only
    split
    · rename_i j hj
      exact registered_update_of_ne (by rw [matchSlot_some hj]; exact hne.symm) h0.symm
    · rfl
  | some f =>
    dsimp only
    split
    · rename_i j _ hj
      have hid := matchSlot_some hj
      exact registered_update_of_ne (by rw [hid]; exact hne.symm) (by rw [hid]; exact hne.symm)
    · rename_i j _ hj
      exact registered_update_of_ne (by rw [firstEmptySlot_some hj]; exact h0.symm) hne.symm
    · rfl

/-- A handler that is replaced is not gone. -/
theorem registered_register_some (f : H) {h : H} (hreg : registered hs id = some h) :
    registered (registerRequestCompleteHandler hs id (some f)).2 id ≠ none := by
  obtain ⟨j, hj, hh⟩ := Option.bind_eq_some_iff.mp hreg
  have hid : (hs j).id = id := by simpa using List.find?_some hj
  have hmatch : matchSlot hs id ≠ none := by
    intro hnone
    exact absurd hid (by simpa using List.find?_eq_none.mp hnone j (by simp))
  obtain ⟨m, hm⟩ := Option.ne_none_iff_exists'.mp hmatch
  have hfind : findHandler (Function.update hs m ⟨(hs m).id, some f⟩) id = findHandler hs id := by
    unfold findHandler
    congr 1
    funext j'
    by_cases he : j' = m
    · subst he; simp
    · simp [Function.update_of_ne he]
  simp only [registerRequestCompleteHandler, hm, registered, hfind, hj, Option.bind_some]
  by_cases he : j = m
  · subst he; simp
  · simp [Function.update_of_ne he, hh]

end Handlers

/-! ## Records of the requests sent -/

/-- Each record with a token carries the id the token was sent with. -/
def Recorded (s : RilClientPrv H) (log : List (Event H)) : Prop :=
  ∀ k, (s.history k).token ≠ 0 → sentId (s.history k).token log = some (s.history k).id

section Records

variable {s s' : RilClientPrv H} {log : List (Event H)}

theorem sentId_append (t : Word) {es : List (Event H)} (h : ∀ e ∈ es, ∀ t id, e ≠ .sent t id) :
    sentId t (log ++ es) = sentId t log := by
  have hnil : (es.filterMap fun
      | .sent t' id => if t' = t then some id else none
      | _ => none) = [] := by
    rw [List.filterMap_eq_nil_iff]
    intro e he
    cases e with
    | sent t' id => exact absurd rfl (h _ he t' id)
    | handler h d l => rfl
    | error e => rfl
  rw [sentId, List.filterMap_append, hnil, List.append_nil]
  rfl

theorem sentId_sent (t t' id : Word) :
    sentId t (log ++ [.sent t' id]) = if t' = t then some id else sentId t log := by
  rw [sentId, List.filterMap_append]
  split
  · rename_i h
    simp [h]
  · rename_i h
    simp [h, sentId]

theorem Recorded.nil (hh : ∀ k, s.history k = ⟨0, 0⟩) : Recorded s [] := by
  intro k hk
  rw [hh] at hk
  exact absurd rfl hk

theorem Recorded.congr (h : Recorded s log) (hh : s'.history = s.history) : Recorded s' log := by
  unfold Recorded
  rw [hh]
  exact h

/-- A request, whether it is sent or not. -/
theorem Recorded.send (h : Recorded s log) (hagree : TokensAgree s) (id : Word) (w : Writes) :
    Recorded (s.sendOemRequestHookRaw id w).2.1 (log ++ (s.sendOemRequestHookRaw id w).2.2) := by
  rcases sendOemRequestHookRaw_cases hagree id w with
    ⟨-, hes, history, he, hh⟩ | ⟨i, k, hi, hk0, he⟩
  · rw [hes, he, List.append_nil]
    intro k hk
    rcases hh k with hsame | ⟨-, h0⟩
    · rw [show ({ s with history } : RilClientPrv H).history k = s.history k from hsame] at hk ⊢
      exact h k hk
    · exact absurd h0 hk
  · rw [he]
    intro k' hk'
    dsimp only at hk' ⊢
    by_cases hkk : k' = k
    · subst hkk
      rw [Function.update_self, sentId_sent, if_pos rfl]
    · rw [Function.update_of_ne hkk] at hk' ⊢
      rw [sentId_sent, if_neg, h k' hk']
      -- the token was free, so no other record carries it
      intro hbit
      obtain ⟨j, hj, hjt⟩ := hagree.only k' hk'
      have hij : i = j := Fin.ext (bit_inj i.isLt (hbit.trans hjt))
      rw [hij, hj] at hi
      exact absurd hi (by simp)

/-- The events of a response are not requests. -/
theorem processSolicited_events {p : List UInt8} {t : Word} (hp : tokenOf p = some t)
    (hv : isValidToken s.tokenPool t = true) :
    ∀ e ∈ (s.processSolicited p).2.2, ∀ t id, e ≠ .sent t id := by
  rintro e he t' id' rfl
  rcases processSolicited_cases hp hv with ⟨-, -, herr⟩ | ⟨-, id, h, d, l, -, hr⟩ | ⟨-, -, hr⟩
  · obtain ⟨c, hc⟩ := herr _ he
    exact nomatch hc
  · rw [hr] at he
    exact nomatch List.mem_singleton.mp he
  · rw [hr] at he
    exact absurd he List.not_mem_nil

theorem Recorded.frees (h : Recorded s log) {t : Word} (hf : Frees s s' t) : Recorded s' log := by
  intro k hk
  rw [hf.records] at hk ⊢
  split at hk
  · exact absurd rfl hk
  · rename_i hne
    rw [if_neg hne]
    exact h k hk

end Records

/-! ## The calls -/

section Calls

variable {s : RilClientPrv H} {log : List (Event H)}

theorem InScope.singleToken {op : Op H} (h : InScope s op) : SingleToken s op := by
  cases op with
  | processSolicited p =>
    obtain ⟨t, hp, i, -, ht⟩ := h
    simp only [SingleToken, hp]
    exact fun _ => ⟨i, ht⟩
  | _ => trivial

theorem Outstanding.isValidToken {t : Word} (h : Outstanding s t) :
    isValidToken s.tokenPool t = true := by
  obtain ⟨i, hi, rfl⟩ := h
  rw [isValidToken_bit]
  exact hi

theorem Recorded.command (h : Recorded s log) (hagree : TokensAgree s) (id : Word) (w : Writes) :
    Recorded (s.command id w).2.1 (log ++ (s.command id w).2.2) := by
  have hsend := Recorded.send (s := s.register id none) (h.congr rfl)
    (hagree.register id none) id w
  unfold RilClientPrv.command
  dsimp only
  split
  · exact hsend.congr rfl
  · exact hsend

theorem Recorded.getMute (h : Recorded s log) (hagree : TokensAgree s) (f : Option H) (w : Writes) :
    Recorded (s.getMute f w).2.1 (log ++ (s.getMute f w).2.2) := by
  have hflag : TokensAgree { s with bDelHandler := true } := hagree.congr rfl fun _ => rfl
  have hsend := Recorded.send (s := RilClientPrv.register { s with bDelHandler := true }
    reqGetCallMute f) (h.congr rfl) (hflag.register reqGetCallMute f) reqGetCallMute w
  unfold RilClientPrv.getMute
  dsimp only
  split
  · exact hsend.congr rfl
  · exact hsend

theorem Recorded.step (h : Recorded s log) (hagree : TokensAgree s) {op : Op H}
    (hs : InScope s op) :
    Recorded ((client H).step s op).1 (log ++ ((client H).step s op).2) := by
  cases op with
  | register id f =>
    show Recorded (s.register id f) (log ++ [])
    rw [List.append_nil]
    exact h.congr rfl
  | invoke id w => exact h.send hagree id w
  | command id w => exact h.command hagree id w
  | getMute f w => exact h.getMute hagree f w
  | processSolicited p =>
    obtain ⟨t, hp, hout⟩ := hs
    have hfrees := (hagree.response (InScope.singleToken ⟨t, hp, hout⟩)).2.1 t hp hout
    intro k hk
    show sentId _ (log ++ (s.processSolicited p).2.2) = _
    rw [sentId_append _ (processSolicited_events hp hout.isValidToken)]
    exact h.frees hfrees k hk

theorem findSome?_eq_of_unique {α β : Type} {f : α → Option β} {a : α} :
    ∀ {l : List α}, a ∈ l → (∀ b ∈ l, b ≠ a → f b = none) → l.findSome? f = f a := by
  intro l
  induction l with
  | nil => intro hm _; exact absurd hm List.not_mem_nil
  | cons x l ih =>
    intro hm hu
    have htail : ∀ b ∈ l, b ≠ a → f b = none := fun b hb => hu b (List.mem_cons_of_mem x hb)
    rw [List.findSome?_cons]
    by_cases hx : x = a
    · subst hx
      cases hf : f x with
      | some b => rfl
      | none =>
        rw [List.findSome?_eq_none_iff]
        intro b hb
        by_cases hbx : b = x
        · rw [hbx, hf]
        · exact htail b hb hbx
    · rw [hu x List.mem_cons_self hx]
      rcases List.mem_cons.mp hm with rfl | hm
      · exact absurd rfl hx
      · exact ih hm htail

/-- The handler of an outstanding token is the one registered for its record. -/
theorem findReqHandler_eq (hagree : TokensAgree s) {i : Fin 32} {k : Slot}
    (hk : (s.history k).token = bit i) :
    findReqHandler s (bit i) = (findHandler s.reqHandlers (s.history k).id).map fun j =>
      ((s.reqHandlers j).id, (s.reqHandlers j).handler) := by
  unfold findReqHandler
  rw [findSome?_eq_of_unique (List.mem_finRange k), if_pos hk]
  intro k' _ hne
  rw [if_neg fun hk' => hne (hagree.unique hk' hk)]

/-- What a response to an outstanding request calls. -/
theorem findReqHandler_sent (hagree : TokensAgree s) (hrec : Recorded s log) {t : Word}
    (hout : Outstanding s t) :
    ∃ id, sentId t log = some id ∧
      (∀ h, registered s.reqHandlers id = some h → findReqHandler s t = some (id, some h)) ∧
      ∀ id' h, findReqHandler s t = some (id', some h) →
        id' = id ∧ registered s.reqHandlers id = some h := by
  obtain ⟨i, hi, rfl⟩ := hout
  obtain ⟨k, hk, -⟩ := (hagree.bit_iff i).mp hi
  have hsent := hrec k (by rw [hk]; exact bit_ne_zero i.isLt)
  rw [hk] at hsent
  refine ⟨(s.history k).id, hsent, ?_⟩
  rw [findReqHandler_eq hagree hk]
  unfold registered
  cases hj : findHandler s.reqHandlers (s.history k).id with
  | none => exact ⟨fun h he => (nomatch he), fun id' h he => (nomatch he)⟩
  | some j =>
    have hid : (s.reqHandlers j).id = (s.history k).id := by simpa using List.find?_some hj
    simp only [Option.bind_some, Option.map_some, hid]
    refine ⟨fun h he => by rw [he], fun id' h he => ?_⟩
    have he := Option.some.inj he
    exact ⟨(congrArg Prod.fst he).symm, congrArg Prod.snd he⟩

/-- A successful response calls the handler of its request. -/
theorem processSolicited_calls (hagree : TokensAgree s) (hrec : Recorded s log) {p : List UInt8}
    {t : Word} (hp : tokenOf p = some t) (hout : Outstanding s t) (herr : errOf p = some 0) :
    (s.processSolicited p).2.2.filterMap Event.handler? =
      ((sentId t log).bind (registered s.reqHandlers)).toList := by
  obtain ⟨id, hsent, hcall, hback⟩ := findReqHandler_sent hagree hrec hout
  rw [hsent, Option.bind_some]
  rcases processSolicited_cases hp hout.isValidToken with
    ⟨hne, -⟩ | ⟨-, id', h, d, l, hf, hr⟩ | ⟨-, hno, hr⟩
  · exact absurd herr hne
  · rw [hr, (hback id' h hf).2]
    rfl
  · rw [hr]
    cases hreg : registered s.reqHandlers id with
    | none => rfl
    | some h => exact absurd (hcall h hreg) (hno id h)

/-- The handler a response removes is that of `GetMute`. -/
theorem processSolicited_kept (hagree : TokensAgree s) (hrec : Recorded s log) {p : List UInt8}
    {t : Word} (hp : tokenOf p = some t) (hout : Outstanding s t)
    (hdel : DeletesOwn s (.processSolicited p)) {id : Word} {h : H} (h0 : id ≠ 0)
    (hreg : registered s.reqHandlers id = some h)
    (hgone : registered (s.processSolicited p).2.1.reqHandlers id = none) :
    Unregisters s log id (.processSolicited p) := by
  obtain ⟨sid, hsent, -, hback⟩ := findReqHandler_sent hagree hrec hout
  rcases processSolicited_cases hp hout.isValidToken with
    ⟨-, hr, -⟩ | ⟨herr, id', f, d, l, hf, hr⟩ | ⟨-, -, hr⟩
  · rw [hr] at hgone
    exact absurd (hreg.symm.trans hgone) (by simp)
  · rw [hr] at hgone
    cases hflag : s.bDelHandler with
    | false =>
      simp only [hflag] at hgone
      exact absurd (hreg.symm.trans hgone) (by simp)
    | true =>
      have hmute : id' = reqGetCallMute := hdel hflag t id' f hp herr hf
      simp only [hflag, if_true] at hgone
      have hid : id = id' := by
        by_contra hne
        have hsame : registered (s.register id' none).reqHandlers id = registered s.reqHandlers id :=
          registered_register_of_ne none hne h0
        exact absurd (hreg.symm.trans (hsame.symm.trans hgone)) (by simp)
      refine ⟨hid.trans hmute, herr, ?_⟩
      rw [hp, Option.bind_some, hsent, ← (hback id' f hf).1, hmute]
  · rw [hr] at hgone
    exact absurd (hreg.symm.trans hgone) (by simp)

theorem sendOemRequestHookRaw_reqHandlers (hagree : TokensAgree s) (id : Word) (w : Writes) :
    (s.sendOemRequestHookRaw id w).2.1.reqHandlers = s.reqHandlers := by
  rcases sendOemRequestHookRaw_cases hagree id w with ⟨-, -, history, he, -⟩ | ⟨i, k, -, -, he⟩
  · rw [he]
  · rw [he]

/-- A command touches the handler of its own id only. -/
theorem command_kept (hagree : TokensAgree s) {i id : Word} {w : Writes} (hne : id ≠ i)
    (h0 : id ≠ 0) :
    registered (s.command i w).2.1.reqHandlers id = registered s.reqHandlers id := by
  have hfirst : registered (s.register i none).reqHandlers id = registered s.reqHandlers id :=
    registered_register_of_ne none hne h0
  have hsend := sendOemRequestHookRaw_reqHandlers (hagree.register i none) i w
  unfold RilClientPrv.command
  dsimp only
  split
  · refine (registered_register_of_ne none hne h0).trans ?_
    rw [hsend, hfirst]
  · rw [hsend, hfirst]

/-- `GetMute` registers its handler, and removes it only if it cannot send. -/
theorem getMute_kept (hagree : TokensAgree s) (f : Option H) (w : Writes) {id : Word} {h : H}
    (h0 : id ≠ 0) (hreg : registered s.reqHandlers id = some h)
    (hgone : registered (s.getMute f w).2.1.reqHandlers id = none) :
    Unregisters s log id (.getMute f w) := by
  have hflag : TokensAgree { s with bDelHandler := true } := hagree.congr rfl fun _ => rfl
  have hsend := sendOemRequestHookRaw_reqHandlers (hflag.register reqGetCallMute f)
    reqGetCallMute w
  have hid : id = reqGetCallMute := by
    by_contra hne
    refine absurd (hreg.symm.trans (Eq.trans ?_ hgone)) (by simp)
    have hfirst : registered (s.register reqGetCallMute f).reqHandlers id =
        registered s.reqHandlers id := registered_register_of_ne f hne h0
    unfold RilClientPrv.getMute
    dsimp only
    split
    · refine Eq.symm ((registered_register_of_ne none hne h0).trans ?_)
      rw [hsend]
      exact hfirst
    · rw [hsend]
      exact hfirst.symm
  cases f with
  | none => exact hid
  | some f =>
    refine ⟨hid, fun hok => ?_⟩
    have hstays := registered_register_some f hreg
    unfold RilClientPrv.getMute at hok hgone
    dsimp only at hok hgone
    split at hok
    · exact absurd hok ‹_›
    · rename_i hsucc
      rw [if_neg hsucc, hsend] at hgone
      rw [hid] at hgone hstays
      exact hstays hgone

/-- Every call that is in scope and meets the condition. -/
theorem dispatchOk_step (hagree : TokensAgree s) (hrec : Recorded s log) {op : Op H}
    (hs : InScope s op) (hdel : DeletesOwn s op) : DispatchOk s log op := by
  constructor
  · rintro p t rfl hp herr
    obtain ⟨t', hp', hout⟩ := hs
    rw [hp] at hp'
    cases hp'
    exact processSolicited_calls hagree hrec hp hout herr
  · intro id h h0 hreg hgone
    have hne : ∀ {hs'}, registered hs' id = registered s.reqHandlers id →
        registered hs' id ≠ none := by
      intro hs' hsame hnone
      exact absurd (hreg.symm.trans (hsame.symm.trans hnone)) (by simp)
    cases op with
    | register i f =>
      have hid : id = i := by
        by_contra hid
        exact hne (registered_register_of_ne f hid h0) hgone
      subst hid
      cases f with
      | none => rfl
      | some f => exact absurd hgone (registered_register_some f hreg)
    | invoke i w =>
      refine absurd hgone (hne ?_)
      exact congrArg (registered · id) (sendOemRequestHookRaw_reqHandlers hagree i w)
    | command i w =>
      by_contra hid
      exact hne (command_kept hagree (fun he => hid he.symm) h0) hgone
    | getMute f w => exact getMute_kept hagree f w h0 hreg hgone
    | processSolicited p =>
      obtain ⟨t, hp, hout⟩ := hs
      exact processSolicited_kept hagree hrec hp hout hdel h0 hreg hgone

end Calls

/-- In every run of a new client in which no other response calls a handler while the one of
`GetMute` is to be deleted, each call dispatches as it should. -/
theorem dispatch_run (errCb : Bool) (ops : List (Op H)) (op : Op H)
    (hadm : (client H).Admits (fun s op => InScope s op ∧ DeletesOwn s op) (.openClient errCb)
      (ops ++ [op])) :
    DispatchOk ((client H).run (.openClient errCb) ops).1 ((client H).run (.openClient errCb) ops).2
      op := by
  have hinit : TokensAgree (H := H) (.openClient errCb) := .empty rfl fun _ => rfl
  have hrec : Recorded (H := H) (.openClient errCb) [] := .nil fun _ => rfl
  rw [← List.nil_append ((client H).run _ ops).2]
  generalize RilClientPrv.openClient errCb = s at hadm hinit hrec ⊢
  generalize ([] : List (Event H)) = log at hrec ⊢
  induction ops generalizing s log with
  | nil =>
    rw [Machine.run_nil, List.append_nil]
    exact dispatchOk_step hinit hrec hadm.1.1 hadm.1.2
  | cons o ops ih =>
    obtain ⟨⟨hs, -⟩, hrest⟩ := hadm
    rw [Machine.run_cons, ← List.append_assoc]
    exact ih _ hrest (hinit.step hs.singleToken).1 _ (hrec.step hinit hs)

/-- A request and a `GetMute` are outstanding, and the answer to `GetMute` comes first. -/
theorem dispatch_run_getMute_first :
    DispatchOk
      ((client Nat).run (.openClient false) [.register 59 (some 0), .invoke 59 ⟨true, true⟩,
        .getMute (some 1) ⟨true, true⟩]).1
      ((client Nat).run (.openClient false) [.register 59 (some 0), .invoke 59 ⟨true, true⟩,
        .getMute (some 1) ⟨true, true⟩]).2
      (.processSolicited [2, 0, 0, 0, 0, 0, 0, 0]) := by
  have h59 : (59 : Word) ≠ 0 := by decide
  refine dispatch_run false _ _ ⟨⟨h59, trivial⟩, ⟨⟨h59, by decide⟩, trivial⟩,
    ⟨trivial, trivial⟩, ⟨⟨bit 1, rfl, 1, by decide, rfl⟩, ?_⟩, trivial⟩
  intro _ t id h ht _ hf
  cases ht
  have heq : findReqHandler (((client Nat).run (.openClient false) [.register 59 (some 0),
      .invoke 59 ⟨true, true⟩, .getMute (some 1) ⟨true, true⟩]).1) (bit 1) = some (106, some 1) := by
    decide
  have := heq.symm.trans hf
  cases this
  rfl

/-- The answer to the other request comes first: its handler is called, and it is unregistered
together with the wish to delete the handler of `GetMute`. -/
theorem getMute_deletes_other_handler :
    ¬DispatchOk
      ((client Nat).run (.openClient false) [.register 59 (some 0), .invoke 59 ⟨true, true⟩,
        .getMute (some 1) ⟨true, true⟩]).1
      ((client Nat).run (.openClient false) [.register 59 (some 0), .invoke 59 ⟨true, true⟩,
        .getMute (some 1) ⟨true, true⟩]).2
      (.processSolicited [1, 0, 0, 0, 0, 0, 0, 0]) := by
  intro h
  obtain ⟨hid, -⟩ := h.kept 59 0 (by decide) (by decide) (by decide)
  exact absurd hid (by decide)

end SprdHal.Secril
