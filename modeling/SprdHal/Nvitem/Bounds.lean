import SprdHal.Nvitem.Scan

/-!
# Which memory a request touches

A body token names its sectors, and nothing in `nvitem_sync.c` or `nvitem_buf.c` compares them with
the size of the partition or of the dirty table. `markWrites` lists the statements of
`_markDirtyInfo` with the words they change and the amounts they shift by, and `EventSafe` says when
a call of the analyser stays inside the buffers. `bodies` reads the body tokens off a payload by the
format alone, so that `BodiesFit` speaks about the bytes that arrive and the state before them.

The data of a token arrives over many packets. What carries the bound to the last of them is
`DataOk`: the data outstanding ends inside the image.
-/

namespace SprdHal.Nvitem

open SprdHal.Lib

/-! ## The statements of `_markDirtyInfo` -/

/-- A statement `_DIRTY_TABLE[word] |= value`, with the amounts by which the mask is shifted. -/
structure MarkWrite where
  word : Nat
  shifts : List Nat
  value : UInt32
  deriving DecidableEq

/-- The statements the loop of `_markDirtyInfo` executes. -/
def markWrites (bytes bits scts : Nat) : List MarkWrite :=
  if bits < 32 ∧ 32 - bits < scts then
    ⟨bytes, [bits], shl 0xFFFFFFFF bits⟩ :: markWrites (bytes + 1) 0 (scts - (32 - bits))
  else [⟨bytes, [32 - scts, bits], shl (shr 0xFFFFFFFF (32 - scts)) bits⟩]
termination_by scts
decreasing_by omega

/-- The loop executes these statements. -/
theorem markLoop_eq (d : DirtyTable) (bytes bits scts : Nat) :
    markLoop d bytes bits scts =
      (markWrites bytes bits scts).foldl (fun d w => d.orWord w.word w.value) d := by
  fun_induction markLoop d bytes bits scts with
  | case1 d bytes bits scts h ih => rw [markWrites, if_pos h, List.foldl_cons, ih]
  | case2 d bytes bits scts h => rw [markWrites, if_neg h, List.foldl_cons, List.foldl_nil]

/-- The statement shifts by less than the width of a word and stays inside the table. -/
def MarkWrite.Safe (w : MarkWrite) : Prop :=
  w.word < ramnvDirtytableMaxsize ∧ ∀ n ∈ w.shifts, n < 32

/-- The statements are safe when the sectors, at least one, have bits in the table. -/
theorem markWrites_safe_iff (bytes bits scts : Nat) : bits < 32 →
    ((∀ w ∈ markWrites bytes bits scts, w.Safe) ↔
      1 ≤ scts ∧ 32 * bytes + bits + scts ≤ 32 * ramnvDirtytableMaxsize) := by
  unfold ramnvDirtytableMaxsize
  fun_induction markWrites bytes bits scts with
  | case1 bytes bits scts h ih =>
    intro hb
    rw [List.forall_mem_cons, ih (by omega)]
    simp only [MarkWrite.Safe, ramnvDirtytableMaxsize, List.forall_mem_singleton]
    omega
  | case2 bytes bits scts h =>
    intro hb
    simp only [MarkWrite.Safe, ramnvDirtytableMaxsize, List.forall_mem_cons, List.not_mem_nil,
      false_implies, implies_true, and_true]
    omega

/-! ## Safe calls -/

/-- The call stays inside the buffers: `_markDirtyInfo` and the data announced by an accepted body
token inside the partition and its dirty table, without a wrap of the byte offsets, and the bytes
of `writeData`, if there are any, inside the image. -/
def EventSafe (c : RamNvCtl) : Event → Prop
  | .body id _ start num =>
    ∃ p, c.part[id.toNat]? = some p ∧ 1 ≤ num.toNat ∧ start.toNat + num.toNat ≤ p.sctNum ∧
      start.toNat * ramnvSectSize + num.toNat * ramnvSectSize < 4294967296 ∧
      ∀ w ∈ markWrites (start.toNat / 32) (start.toNat % 32) num.toNat, w.Safe
  | .writeData id start bytes =>
    bytes ≠ [] → ∃ p, c.part[id.toNat]? = some p ∧
      start.toNat + bytes.length ≤ p.imageSize.toNat
  | _ => True

/-- A body token with the index of the partition its request is for. -/
structure BodyToken where
  id : UInt32
  start : UInt32
  num : UInt32
  deriving DecidableEq

/-- At least one sector, inside the partition and inside the dirty table. -/
def BodyToken.Fits (c : RamNvCtl) (t : BodyToken) : Prop :=
  ∃ p, c.part[t.id.toNat]? = some p ∧ 1 ≤ t.num.toNat ∧ t.start.toNat + t.num.toNat ≤ p.sctNum ∧
    t.start.toNat + t.num.toNat ≤ 32 * ramnvDirtytableMaxsize

theorem eventSafe_body_iff (c : RamNvCtl) (t : BodyToken) (r : UInt32) :
    EventSafe c (.body t.id r t.start t.num) ↔ t.Fits c := by
  have hmark := markWrites_safe_iff (t.start.toNat / 32) (t.start.toNat % 32) t.num.toNat
    (Nat.mod_lt _ (by decide))
  have hcut : 32 * (t.start.toNat / 32) + t.start.toNat % 32 = t.start.toNat :=
    Nat.div_add_mod _ _
  rw [hcut] at hmark
  unfold EventSafe BodyToken.Fits
  simp only [hmark]
  refine exists_congr fun p => and_congr_right fun _ => ?_
  unfold ramnvDirtytableMaxsize ramnvSectSize
  omega

/-- The partition at an index, after an operation that keeps the layout. -/
theorem part_congr {c c' : RamNvCtl} (h : c'.layout = c.layout) {k : Nat} {p : Part}
    (hp : c.part[k]? = some p) : ∃ p', c'.part[k]? = some p' ∧ p'.imageSize = p.imageSize := by
  have hk : c'.layout[k]? = some (p.partId, p.imageSize) := by
    rw [h, RamNvCtl.layout, List.getElem?_map, hp, Option.map_some]
  rw [RamNvCtl.layout, List.getElem?_map] at hk
  obtain ⟨p', hp', he⟩ := Option.map_eq_some_iff.mp hk
  exact ⟨p', hp', congrArg Prod.snd he⟩

theorem EventSafe.congr {c c' : RamNvCtl} (h : c'.layout = c.layout) {e : Event}
    (he : EventSafe c e) : EventSafe c' e := by
  cases e with
  | body id r start num =>
    obtain ⟨p, hp, h1, h2, h3, h4⟩ := he
    obtain ⟨p', hp', hsize⟩ := part_congr h hp
    refine ⟨p', hp', h1, ?_, h3, h4⟩
    rwa [Part.sctNum, hsize]
  | writeData id start bytes =>
    intro hne
    obtain ⟨p, hp, hin⟩ := he hne
    obtain ⟨p', hp', hsize⟩ := part_congr h hp
    exact ⟨p', hp', by rwa [hsize]⟩
  | token | head | tail | backupData | restoreData | sendPacktRsp => trivial

theorem BodyToken.Fits.congr {c c' : RamNvCtl} (h : c'.layout = c.layout) {t : BodyToken}
    (ht : t.Fits c) : t.Fits c' :=
  (eventSafe_body_iff c' t 0).mp (EventSafe.congr h ((eventSafe_body_iff c t 0).mpr ht))

/-! ## The body tokens of a payload -/

section Bodies

variable (ctlId : UInt32 → UInt32)

/-- The body tokens of a payload, read from a cursor in a request for the partition `id`. -/
def bodies (id : UInt32) (c : Cursor) (buf : List UInt8) : List BodyToken :=
  if buf = [] then []
  else
    match c with
    | .head =>
      if buf.length < 20 then []
      else if reqPacketType buf = syncReqHead ∧ ctlId (reqPartId buf) ≠ 0xFFFFFFFF then
        bodies (ctlId (reqPartId buf)) (.body (reqReqIdx buf)) (buf.drop 20)
      else []
    | .body frame =>
      if buf.length < 20 then []
      else if reqPacketType buf = syncReqBody ∧ reqReqIdx buf = frame + 1 then
        ⟨id, reqStart buf, reqNum buf⟩ ::
          bodies id (.data (frame + 1) (reqNum buf * UInt32.ofNat ramnvSectSize).toNat)
            (buf.drop 20)
      else []
    | .data frame len =>
      if buf.length < len then [] else bodies id (.body frame) (buf.drop len)
termination_by 2 * buf.length + (match c with | .data .. => 1 | _ => 0)
decreasing_by all_goals simp only [List.length_drop]; omega

theorem bodies_nil (id : UInt32) (c : Cursor) : bodies ctlId id c [] = [] := by
  rw [bodies.eq_def, if_pos rfl]

variable {buf tok : List UInt8}

theorem bodies_short {id : UInt32} {c : Cursor} (hc : ∀ f n, c ≠ .data f n) (hne : buf ≠ [])
    (hl : buf.length < 20) : bodies ctlId id c buf = [] := by
  cases c with
  | head => rw [bodies, if_neg hne]; exact if_pos hl
  | body f => rw [bodies, if_neg hne]; exact if_pos hl
  | data f n => exact absurd rfl (hc f n)

theorem bodies_part {id f : UInt32} {n : Nat} (hne : buf ≠ []) (hl : buf.length < n) :
    bodies ctlId id (.data f n) buf = [] := by
  rw [bodies, if_neg hne]
  exact if_pos hl

theorem bodies_data {id f : UInt32} {n : Nat} {d rest : List UInt8} (hne : d ++ rest ≠ [])
    (hl : d.length = n) :
    bodies ctlId id (.data f n) (d ++ rest) = bodies ctlId id (.body f) rest := by
  rw [bodies.eq_def ctlId id (.data f n), if_neg hne]
  simp only [List.length_append, List.drop_left' hl]
  exact if_neg (by omega)

theorem reqStart_append (ht : tok.length = 20) (rest : List UInt8) :
    reqStart (tok ++ rest) = reqStart tok := leWord_append _ (by omega)

theorem bodies_head (ht : tok.length = 20) (id : UInt32) (rest : List UInt8) :
    bodies ctlId id .head (tok ++ rest) =
      if reqPacketType tok = syncReqHead ∧ ctlId (reqPartId tok) ≠ 0xFFFFFFFF then
        bodies ctlId (ctlId (reqPartId tok)) (.body (reqReqIdx tok)) rest
      else [] := by
  obtain ⟨h1, h2, h3, -⟩ := req_append ht rest
  have hne : tok ++ rest ≠ [] := fun h => by simp [(List.append_eq_nil_iff.mp h).1] at ht
  rw [bodies.eq_def ctlId id .head, if_neg hne]
  simp only [h1, h2, h3, List.length_append, ht, List.drop_left' ht]
  exact if_neg (by omega)

theorem bodies_body (ht : tok.length = 20) (id f : UInt32) (rest : List UInt8) :
    bodies ctlId id (.body f) (tok ++ rest) =
      if BodyOk f tok then
        ⟨id, reqStart tok, reqNum tok⟩ ::
          bodies ctlId id (.data (f + 1) (reqNum tok * UInt32.ofNat ramnvSectSize).toNat) rest
      else [] := by
  obtain ⟨h1, h2, -, h4⟩ := req_append ht rest
  have hne : tok ++ rest ≠ [] := fun h => by simp [(List.append_eq_nil_iff.mp h).1] at ht
  rw [bodies.eq_def ctlId id (.body f), if_neg hne]
  simp only [h1, h2, h4, reqStart_append ht, List.length_append, ht, List.drop_left' ht]
  exact if_neg (by omega)

end Bodies

/-- The body tokens the analyser accepted. -/
def acceptedBodies : List Event → List BodyToken
  | [] => []
  | .body id _ start num :: ev => ⟨id, start, num⟩ :: acceptedBodies ev
  | _ :: ev => acceptedBodies ev

theorem mem_acceptedBodies {ev : List Event} {t : BodyToken} :
    t ∈ acceptedBodies ev ↔ ∃ r, Event.body t.id r t.start t.num ∈ ev := by
  fun_induction acceptedBodies ev with
  | case1 => simp
  | case2 id r start num ev ih =>
    obtain ⟨tid, tstart, tnum⟩ := t
    simp only [List.mem_cons, ih, Event.body.injEq, BodyToken.mk.injEq, exists_or]
    refine or_congr_left ⟨?_, ?_⟩
    · rintro ⟨rfl, rfl, rfl⟩
      exact ⟨r, rfl, rfl, rfl, rfl⟩
    · rintro ⟨_, rfl, -, rfl, rfl⟩
      exact ⟨rfl, rfl, rfl⟩
  | case3 e ev hne ih =>
    rw [ih]
    refine exists_congr fun r => ⟨List.mem_cons_of_mem _, fun h => ?_⟩
    rcases List.mem_cons.mp h with h | h
    · exact absurd h.symm (hne _ _ _ _)
    · exact h

/-- **The analyser accepts the body tokens the reader finds.** -/
theorem Parses.acceptedBodies_eq {env : SaveEnv} {hd : PacketHead} {s s' : Analyzer}
    {buf : List UInt8} {ev : List Event} (h : Parses env hd s buf s' ev) :
    acceptedBodies ev = bodies (getCtlId s.ctl) s.sync.id s.cursor buf := by
  induction h with
  | nil => rw [bodies_nil]; rfl
  | short hp hne hl => rw [bodies_short _ (cursor_ne_data hp) hne hl]; rfl
  | @badHead s tok rest hp ht hbad =>
    have hc : s.cursor = .head := by simp only [Analyzer.cursor, hp]
    rw [hc, bodies_head _ ht]
    exact (if_neg hbad).symm
  | @head s tok rest s' ev hp ht hok _ ih =>
    have hc : s.cursor = .head := by simp only [Analyzer.cursor, hp]
    rw [hc, bodies_head _ ht]
    exact ih.trans (if_pos hok).symm
  | @badBody s tok rest hp ht hnb hnt =>
    have hc : s.cursor = .body s.sync.syncReqFrame := by simp only [Analyzer.cursor, hp]
    rw [hc, bodies_body _ ht, if_neg hnb]
    rfl
  | @body s tok rest s' ev hp ht hok _ ih =>
    have hc : s.cursor = .body s.sync.syncReqFrame := by simp only [Analyzer.cursor, hp]
    have hids := getCtlId_congr
      (markDirtyInfo_same s.ctl s.sync.id (reqStart tok) (reqNum tok)).layout_eq
    rw [hc, bodies_body _ ht, if_pos hok, ← hids]
    exact congrArg (List.cons _) ih
  | @tail s tok rest hp ht hok =>
    have hc : s.cursor = .body s.sync.syncReqFrame := by simp only [Analyzer.cursor, hp]
    have hnb : ¬ BodyOk s.sync.syncReqFrame tok := fun h =>
      absurd (h.1.symm.trans hok.1) (by decide)
    rw [hc, bodies_body _ ht, if_neg hnb]
    rfl
  | @data s d rest s' ev hp hlen hne _ ih =>
    have hc : s.cursor = .data s.sync.syncReqFrame s.sync.len.toNat := by
      simp only [Analyzer.cursor, hp]
    have hids := getCtlId_congr (layout_writeData s.ctl s.sync.id s.sync.start d)
    rw [hc, bodies_data _ hne hlen, ← hids]
    exact ih
  | @part s d hp hne hl =>
    have hc : s.cursor = .data s.sync.syncReqFrame s.sync.len.toNat := by
      simp only [Analyzer.cursor, hp]
    rw [hc, bodies_part _ hne hl]
    rfl

/-! ## One payload -/

/-- The data outstanding ends inside the image of its partition. -/
def Analyzer.DataOk (s : Analyzer) : Prop :=
  s.sync.syncState = .data → ∃ p, s.ctl.part[s.sync.id.toNat]? = some p ∧
    s.sync.start.toNat + s.sync.len.toNat ≤ p.imageSize.toNat

section Payload

variable {s : Analyzer}

theorem Analyzer.DataOk.of_head (h : s.sync.syncState = .head) : s.DataOk := fun hp => by
  rw [h] at hp
  cases hp

theorem Analyzer.DataOk.of_body (h : s.sync.syncState = .body) : s.DataOk := fun hp => by
  rw [h] at hp
  cases hp

/-- A body token that fits announces data that ends inside the image. -/
theorem Analyzer.dataOk_afterBody {tok : List UInt8}
    (h : BodyToken.Fits s.ctl ⟨s.sync.id, reqStart tok, reqNum tok⟩) : (s.afterBody tok).DataOk := by
  intro _
  obtain ⟨p, hp, -, hsct, htable⟩ := h
  obtain ⟨p', hp', hsize⟩ :=
    part_congr (markDirtyInfo_same s.ctl s.sync.id (reqStart tok) (reqNum tok)).layout_eq hp
  refine ⟨p', hp', ?_⟩
  have himage := Nat.div_mul_le_self p.imageSize.toNat ramnvSectSize
  simp only [Part.sctNum, ramnvSectSize, ramnvDirtytableMaxsize] at hsct htable himage
  simp only [Analyzer.afterBody, UInt32.toNat_mul, hsize, ramnvSectSize]
  show _ * 512 % 4294967296 + _ * 512 % 4294967296 ≤ _
  omega

/-- Data that is no longer than what is outstanding is written inside the image. -/
theorem Analyzer.DataOk.writeData_safe {d : List UInt8} (h : s.DataOk)
    (hp : s.sync.syncState = .data) (hl : d.length ≤ s.sync.len.toNat) :
    EventSafe s.ctl (.writeData s.sync.id s.sync.start d) := by
  intro _
  obtain ⟨p, hpart, hin⟩ := h hp
  exact ⟨p, hpart, by omega⟩

theorem Analyzer.DataOk.afterPart {d : List UInt8} (h : s.DataOk) (hp : s.sync.syncState = .data)
    (hl : d.length < s.sync.len.toNat) : (s.afterPart d).DataOk := by
  intro _
  obtain ⟨p, hpart, hin⟩ := h hp
  obtain ⟨p', hpart', hsize⟩ := part_congr (layout_writeData s.ctl s.sync.id s.sync.start d) hpart
  refine ⟨p', hpart', ?_⟩
  obtain ⟨hd, hlen⟩ := ofNat_length_toNat (Nat.le_of_lt hl)
  have hlt := p.imageSize.toNat_lt
  simp only [Analyzer.afterPart, hsize, hlen, UInt32.toNat_add, hd]
  omega

/-- **One payload**: when the body tokens accepted on the way fit, every call is safe and the data
still outstanding ends inside the image. -/
theorem Parses.safe {env : SaveEnv} {hd : PacketHead} {s' : Analyzer} {buf : List UInt8}
    {ev : List Event} (h : Parses env hd s buf s' ev) : s.DataOk →
    (∀ t ∈ acceptedBodies ev, t.Fits s.ctl) → (∀ e ∈ ev, EventSafe s.ctl e) ∧ s'.DataOk := by
  induction h with
  | nil => exact fun hok _ => ⟨fun e he => absurd he List.not_mem_nil, hok⟩
  | short hp =>
    intro _ _
    exact ⟨List.forall_mem_singleton.mpr trivial, fun h => absurd h hp⟩
  | badHead =>
    intro _ _
    refine ⟨?_, .of_head rfl⟩
    simp only [List.forall_mem_cons, rspEvent, EventSafe, List.not_mem_nil, false_implies,
      implies_true, and_self]
  | head _ _ _ _ ih =>
    intro _ hfit
    obtain ⟨hev, hdata⟩ := ih (.of_body rfl) hfit
    exact ⟨List.forall_mem_cons.mpr ⟨trivial, List.forall_mem_cons.mpr ⟨trivial, hev⟩⟩, hdata⟩
  | badBody =>
    intro _ _
    refine ⟨?_, .of_head rfl⟩
    simp only [List.forall_mem_cons, rspEvent, EventSafe, List.not_mem_nil, false_implies,
      implies_true, and_self]
  | @body s tok rest s' ev _ _ _ _ ih =>
    intro _ hfit
    have hkeep := (markDirtyInfo_same s.ctl s.sync.id (reqStart tok) (reqNum tok)).layout_eq
    obtain ⟨hnow, hlater⟩ := List.forall_mem_cons.mp hfit
    obtain ⟨hev, hdata⟩ := ih (Analyzer.dataOk_afterBody hnow) fun t ht => (hlater t ht).congr hkeep
    refine ⟨List.forall_mem_cons.mpr ⟨trivial, List.forall_mem_cons.mpr ⟨?_, fun e he => ?_⟩⟩, hdata⟩
    · exact (eventSafe_body_iff _ _ _).mpr hnow
    · exact (hev e he).congr hkeep.symm
  | tail =>
    intro _ _
    refine ⟨?_, .of_head rfl⟩
    simp only [List.forall_mem_cons, rspEvent, EventSafe, List.not_mem_nil, false_implies,
      implies_true, and_self]
  | @data s d rest s' ev hp hlen _ _ ih =>
    intro hok hfit
    have hkeep := layout_writeData s.ctl s.sync.id s.sync.start d
    obtain ⟨hev, hdata⟩ := ih (.of_body rfl) fun t ht => (hfit t ht).congr hkeep
    refine ⟨List.forall_mem_cons.mpr ⟨?_, fun e he => (hev e he).congr hkeep.symm⟩, hdata⟩
    exact hok.writeData_safe hp (Nat.le_of_eq hlen)
  | part hp _ hl =>
    intro hok _
    refine ⟨List.forall_mem_cons.mpr ⟨hok.writeData_safe hp (Nat.le_of_lt hl), ?_⟩,
      hok.afterPart hp hl⟩
    exact List.forall_mem_singleton.mpr trivial

end Payload

/-! ## Whole runs -/

/-- The body tokens in a packet: a packet that starts a group is read from the head token on, one
that continues a group where the open request stands. -/
def packetBodies (s : Nvitemd) (i : Input) : List BodyToken :=
  match (getPacket s.pkt i.read).1 with
  | .start => bodies (getCtlId s.an.ctl) 0xFFFFFFFF .head i.read.payload
  | .cont =>
    if s.an.sync.syncBusy then bodies (getCtlId s.an.ctl) s.an.sync.id s.an.cursor i.read.payload
    else []
  | .skip | .fail => []

/-- Every body token in the packet fits. -/
def BodiesFit (s : Nvitemd) (i : Input) : Prop := ∀ t ∈ packetBodies s i, t.Fits s.an.ctl

theorem Analyzer.safe_abortEvents (s : Analyzer) (c : RamNvCtl) :
    ∀ e ∈ s.abortEvents, EventSafe c e := by
  unfold Analyzer.abortEvents
  split
  · exact fun e he => absurd he List.not_mem_nil
  · exact List.forall_mem_singleton.mpr trivial

theorem acceptedBodies_abort (s : Analyzer) (ev : List Event) :
    acceptedBodies (s.abortEvents ++ ev) = acceptedBodies ev := by
  unfold Analyzer.abortEvents
  split <;> rfl

/-- The body tokens accepted while a packet is processed are those in the packet. -/
theorem PacketStep.acceptedBodies_eq {s s' : Nvitemd} {i : Input} {ev : List Event}
    (h : PacketStep s i s' ev) : acceptedBodies ev = packetBodies s i := by
  unfold packetBodies
  cases h with
  | fail hres =>
    rw [hres, ← List.append_nil s.an.abortEvents, acceptedBodies_abort]
    rfl
  | skip hres => rw [hres]; rfl
  | start hres hp =>
    rw [hres, acceptedBodies_abort, hp.acceptedBodies_eq]
    have hids : getCtlId s.an.abort.busy.ctl = getCtlId s.an.ctl :=
      getCtlId_congr s.an.layout_abort
    rw [hids]
    rfl
  | noHead hres hb => rw [hres, hb]; rfl
  | cont hres hb hp =>
    rw [hres, hb, hp.acceptedBodies_eq]
    rfl

/-- **One packet**: every call is safe when the body tokens in the packet fit. -/
theorem PacketStep.safe {s s' : Nvitemd} {i : Input} {ev : List Event} (h : PacketStep s i s' ev)
    (hok : s.an.DataOk) (hfit : BodiesFit s i) :
    (∀ e ∈ ev, EventSafe s.an.ctl e) ∧ s'.an.DataOk := by
  have hacc := h.acceptedBodies_eq
  cases h with
  | fail => exact ⟨s.an.safe_abortEvents _, .of_head rfl⟩
  | skip => exact ⟨fun e he => absurd he List.not_mem_nil, hok⟩
  | start hres hp =>
    rw [acceptedBodies_abort] at hacc
    have hkeep : s.an.abort.busy.ctl.layout = s.an.ctl.layout := s.an.layout_abort
    obtain ⟨hev, hdata⟩ := hp.safe (.of_head rfl) fun t ht => (hfit t (hacc ▸ ht)).congr hkeep
    refine ⟨fun e he => ?_, hdata⟩
    rcases List.mem_append.mp he with he | he
    · exact s.an.safe_abortEvents _ e he
    · exact (hev e he).congr hkeep.symm
  | noHead => exact ⟨List.forall_mem_singleton.mpr trivial, hok⟩
  | cont hres hb hp => exact hp.safe hok fun t ht => hfit t (hacc ▸ ht)

/-- **The analyser stays inside its buffers exactly in the runs whose body tokens all fit.** Every
call that is made in such a run is safe, whatever the packets that carry the data, and a token that
does not fit leads to a call that is not. -/
theorem calls_safe_iff (config : List PartSource) (ins : List Input) :
    (∀ e ∈ (nvitemd.run (nvitemdInit config) ins).2, EventSafe (initBuf config) e) ↔
      nvitemd.Admits BodiesFit (nvitemdInit config) ins := by
  refine nvitemd.outputs_safe_iff
    (P := fun s => s.an.Wf ∧ s.an.DataOk ∧ s.an.ctl.layout = (initBuf config).layout)
    (fun s i => ?_) (fun s i => ?_) ins _ ⟨Analyzer.wf_init _ _, .of_head rfl, rfl⟩
  · rintro ⟨hw, hok, hkeep⟩
    have hp := packetStep hw i
    constructor
    · intro hsafe t ht
      rw [← hp.acceptedBodies_eq] at ht
      obtain ⟨r, hr⟩ := mem_acceptedBodies.mp ht
      exact ((eventSafe_body_iff _ t r).mp (hsafe _ hr)).congr hkeep
    · intro hfit e he
      exact ((hp.safe hok hfit).1 e he).congr hkeep.symm
  · rintro ⟨hw, hok, hkeep⟩ hfit
    have hp := packetStep hw i
    exact ⟨hp.wf hw, (hp.safe hok hfit).2, hp.layout.trans hkeep⟩

/-- A request for one sector past the only one of the partition. -/
theorem not_calls_safe_past_end :
    let i : Input := ⟨packetOf 5 0 (syncReq 0 9 1 512 512 ++ syncReq 1 10 1 1 1 ++
      List.replicate 512 7), plainEnv⟩
    ¬ ∀ e ∈ (nvitemd.run (nvitemdInit [zeroPart]) [i]).2, EventSafe (initBuf [zeroPart]) e := by
  intro i hsafe
  have hbody : Event.body 0 10 1 1 ∈ (nvitemd.run (nvitemdInit [zeroPart]) [i]).2 := by
    decide +kernel
  obtain ⟨p, hp, -, hsct, -⟩ := hsafe _ hbody
  have hpart : (initBuf [zeroPart]).part[(0 : UInt32).toNat]? = some zeroPart.open := by
    decide +kernel
  rw [hpart] at hp
  cases hp
  exact absurd hsct (by decide)

end SprdHal.Nvitem
