import SprdHal.Nvitem.Scan

/-!
# Cutting a request into packets

A request arrives in packets of at most 1024 bytes, cut anywhere. As long as no packet ends inside
a token that the analyser gets to, it does not matter where the cuts are: the result is that of the
uncut byte string (`run_unsplit`). Data may be cut anywhere. A cut inside a token is not made good:
`__getToken` returns before it stores the part that has arrived, and the part is gone with its
packet. So for every request there are cuttings that leave the analyser in different states.
-/

namespace SprdHal.Nvitem

open SprdHal.Lib

/-! ## Requests -/

/-- A body token and its data. -/
structure BodyReq where
  token : List UInt8
  data : List UInt8

structure Request where
  head : List UInt8
  bodies : List BodyReq
  tail : List UInt8

/-- The bytes of the items after the head token. -/
def itemBytes (bs : List BodyReq) (tail : List UInt8) : List UInt8 :=
  (bs.map fun b => b.token ++ b.data).flatten ++ tail

def Request.bytes (r : Request) : List UInt8 := r.head ++ itemBytes r.bodies r.tail

/-- The extent of a body token lies inside the partition at an index, if there is one. -/
def BodyReq.Fits (c : RamNvCtl) (id : UInt32) (b : BodyReq) : Prop :=
  ∀ n, c.copySize id.toNat = some n →
    ramnvSectSize * ((reqStart b.token).toNat + (reqNum b.token).toNat) ≤ n

/-- The items after the head token: body tokens with as many bytes as they announce, in range, and
a tail token. -/
structure Items (c : RamNvCtl) (id : UInt32) (bs : List BodyReq) (tail : List UInt8) : Prop where
  token_size : ∀ b ∈ bs, b.token.length = 20
  token_type : ∀ b ∈ bs, reqPacketType b.token = syncReqBody
  data_size : ∀ b ∈ bs, b.data.length = ramnvSectSize * (reqNum b.token).toNat
  fits : ∀ b ∈ bs, b.Fits c id
  tail_size : tail.length = 20
  tail_type : reqPacketType tail = syncReqTail

structure Request.Wf (c : RamNvCtl) (r : Request) : Prop where
  head_size : r.head.length = 20
  head_type : reqPacketType r.head = syncReqHead
  items : Items c (getCtlId c (reqPartId r.head)) r.bodies r.tail

theorem Items.congr {c c' : RamNvCtl} {id : UInt32} {bs : List BodyReq} {tail : List UInt8}
    (h : Items c id bs tail) (hl : c'.layout = c.layout) : Items c' id bs tail :=
  { h with fits := fun b hb n hn => h.fits b hb n (by rwa [copySize_congr hl] at hn) }

theorem Items.cons {c : RamNvCtl} {id : UInt32} {b : BodyReq} {bs : List BodyReq}
    {tail : List UInt8} (h : Items c id (b :: bs) tail) : Items c id bs tail where
  token_size b hb := h.token_size b (List.mem_cons_of_mem _ hb)
  token_type b hb := h.token_type b (List.mem_cons_of_mem _ hb)
  data_size b hb := h.data_size b (List.mem_cons_of_mem _ hb)
  fits b hb := h.fits b (List.mem_cons_of_mem _ hb)
  tail_size := h.tail_size
  tail_type := h.tail_type

theorem itemBytes_cons (b : BodyReq) (bs : List BodyReq) (tail : List UInt8) :
    itemBytes (b :: bs) tail = b.token ++ (b.data ++ itemBytes bs tail) := by
  simp [itemBytes]

/-! ## What is still to come -/

/-- The bytes continue the request the analyser is in. -/
def Remaining (s : Analyzer) (bytes : List UInt8) : Prop :=
  match s.sync.syncState with
  | .head => ∃ r : Request, r.Wf s.ctl ∧ bytes = r.bytes
  | .body => (∃ n, s.ctl.copySize s.sync.id.toNat = some n) ∧
      ∃ bs tail, Items s.ctl s.sync.id bs tail ∧ bytes = itemBytes bs tail
  | .data => (∃ n, s.ctl.copySize s.sync.id.toNat = some n) ∧
      ∃ d bs tail, d.length = s.sync.len.toNat ∧
        s.sync.start.toNat + s.sync.len.toNat < 4294967296 ∧
        Items s.ctl s.sync.id bs tail ∧ bytes = d ++ itemBytes bs tail

section Remaining

variable {s : Analyzer} {tok d rest : List UInt8}

/-- The byte count of a body token that fits does not wrap. -/
theorem BodyReq.Fits.no_wrap {c : RamNvCtl} {id : UInt32} {b : BodyReq} {n : Nat}
    (h : b.Fits c id) (hn : c.copySize id.toNat = some n) :
    (reqStart b.token * UInt32.ofNat ramnvSectSize).toNat =
        ramnvSectSize * (reqStart b.token).toNat ∧
      (reqNum b.token * UInt32.ofNat ramnvSectSize).toNat =
        ramnvSectSize * (reqNum b.token).toNat ∧
      ramnvSectSize * ((reqStart b.token).toNat + (reqNum b.token).toNat) < 4294967296 := by
  have h1 := h n hn
  have h2 := copySize_lt hn
  refine ⟨?_, ?_, by omega⟩
  all_goals
    rw [UInt32.toNat_mul]
    simp only [ramnvSectSize, UInt32.toNat_ofNat'] at h1 ⊢
    omega

theorem Remaining.head (h : Remaining s (tok ++ rest)) (hp : s.sync.syncState = .head)
    (ht : tok.length = 20) (hok : HeadOk s.ctl tok) : Remaining (s.afterHead tok) rest := by
  simp only [Remaining, hp] at h
  obtain ⟨r, hr, hbytes⟩ := h
  obtain ⟨rfl, rfl⟩ := List.append_inj hbytes (by rw [ht, hr.head_size])
  obtain ⟨p, hpart, -⟩ := getCtlId_spec hok.2
  exact ⟨⟨_, copySize_eq hpart⟩, r.bodies, r.tail, hr.items, rfl⟩

theorem Remaining.body (h : Remaining s (tok ++ rest)) (hp : s.sync.syncState = .body)
    (ht : tok.length = 20) (hok : BodyOk s.sync.syncReqFrame tok) :
    Remaining (s.afterBody tok) rest := by
  simp only [Remaining, hp] at h
  obtain ⟨⟨n, hn⟩, bs, tail, hi, hbytes⟩ := h
  cases bs with
  | nil =>
    -- a tail token is not a body token
    obtain ⟨rfl, -⟩ := List.append_inj (hbytes.trans (List.append_nil tail).symm)
      (by rw [ht, hi.tail_size])
    exact absurd (hok.1.symm.trans hi.tail_type) (by decide)
  | cons b bs =>
    rw [itemBytes_cons] at hbytes
    have hmem : b ∈ b :: bs := List.mem_cons_self
    obtain ⟨rfl, rfl⟩ := List.append_inj hbytes (by rw [ht, hi.token_size b hmem])
    obtain ⟨h1, h2, h3⟩ := (hi.fits b hmem).no_wrap hn
    have hl := (markDirtyInfo_same s.ctl s.sync.id (reqStart b.token) (reqNum b.token)).layout_eq
    refine ⟨⟨n, (copySize_congr hl _).trans hn⟩, b.data, bs, tail, ?_, ?_, hi.cons.congr hl, rfl⟩
    · exact (hi.data_size b hmem).trans h2.symm
    · show (reqStart b.token * _).toNat + (reqNum b.token * _).toNat < 4294967296
      rw [h1, h2, ← Nat.mul_add]
      exact h3

theorem Remaining.data (h : Remaining s (d ++ rest)) (hp : s.sync.syncState = .data)
    (hlen : d.length = s.sync.len.toNat) : Remaining (s.afterData d) rest := by
  simp only [Remaining, hp] at h
  obtain ⟨⟨n, hn⟩, d', bs, tail, hd', -, hi, hbytes⟩ := h
  obtain ⟨rfl, rfl⟩ := List.append_inj hbytes (by rw [hlen, hd'])
  have hl := layout_writeData s.ctl s.sync.id s.sync.start d
  exact ⟨⟨n, (copySize_congr hl _).trans hn⟩, bs, tail, hi.congr hl, rfl⟩

theorem Remaining.part (h : Remaining s (d ++ rest)) (hp : s.sync.syncState = .data)
    (hl : d.length < s.sync.len.toNat) : Remaining (s.afterPart d) rest := by
  simp only [Remaining, hp] at h
  obtain ⟨⟨n, hn⟩, d', bs, tail, hd', hw, hi, hbytes⟩ := h
  obtain ⟨e1, e2⟩ := ofNat_length_toNat (Nat.le_of_lt hl)
  -- the data goes on in the next packet
  obtain ⟨d₂, rfl, rfl⟩ : ∃ d₂, d' = d ++ d₂ ∧ rest = d₂ ++ itemBytes bs tail := by
    rcases List.append_eq_append_iff.mp hbytes with ⟨e, h1, h2⟩ | ⟨e, h1, h2⟩
    · exact ⟨e, h1, h2⟩
    · have hlen := congrArg List.length h1
      rw [List.length_append, hd'] at hlen
      omega
  have hlay := layout_writeData s.ctl s.sync.id s.sync.start d
  have hph : (s.afterPart d).sync.syncState = .data := hp
  simp only [Remaining, hph]
  refine ⟨⟨n, (copySize_congr hlay _).trans hn⟩, d₂, bs, tail, ?_, ?_, hi.congr hlay, rfl⟩
  · show d₂.length = (s.sync.len - UInt32.ofNat d.length).toNat
    rw [List.length_append] at hd'
    omega
  · show (s.sync.start + UInt32.ofNat d.length).toNat +
      (s.sync.len - UInt32.ofNat d.length).toNat < 4294967296
    rw [e2, UInt32.toNat_add, e1]
    omega

end Remaining

/-! ## Joining two payloads -/

section Join

variable {env : SaveEnv} {hd : PacketHead} {s s' : Analyzer} {a b : List UInt8} {ev : List Event}

/-- The state after a payload does not depend on the packet's header. -/
theorem Parses.change_head (h : Parses env hd s a s' ev) (hd' : PacketHead) :
    ∃ ev', Parses env hd' s a s' ev' := by
  induction h with
  | nil => exact ⟨_, .nil⟩
  | short hp hne hl => exact ⟨_, .short hp hne hl⟩
  | badHead hp ht hbad => exact ⟨_, .badHead hp ht hbad⟩
  | head hp ht hok _ ih => exact ⟨_, .head hp ht hok ih.choose_spec⟩
  | badBody hp ht hnb hnt => exact ⟨_, .badBody hp ht hnb hnt⟩
  | body hp ht hok _ ih => exact ⟨_, .body hp ht hok ih.choose_spec⟩
  | tail hp ht hok => exact ⟨_, .tail hp ht hok⟩
  | data hp hlen hne _ ih => exact ⟨_, .data hp hlen hne ih.choose_spec⟩
  | part hp hne hl => exact ⟨_, .part hp hne hl⟩

/-- When the request ends in the first payload the second one is not looked at. -/
theorem Parses.append_ended (h : Parses env hd s a s' ev) :
    s.sync.syncBusy = true → s'.sync.syncBusy = false → Parses env hd s (a ++ b) s' ev := by
  induction h with
  | nil => exact fun h1 h2 => nomatch h1.symm.trans h2
  | short => exact fun h1 h2 => nomatch h1.symm.trans h2
  | badHead hp ht hbad =>
    intro _ _
    rw [List.append_assoc]
    exact .badHead hp ht hbad
  | head hp ht hok _ ih =>
    intro h1 h2
    rw [List.append_assoc]
    exact .head hp ht hok (ih h1 h2)
  | badBody hp ht hnb hnt =>
    intro _ _
    rw [List.append_assoc]
    exact .badBody hp ht hnb hnt
  | body hp ht hok _ ih =>
    intro h1 h2
    rw [List.append_assoc]
    exact .body hp ht hok (ih h1 h2)
  | tail hp ht hok =>
    intro _ _
    rw [List.append_assoc]
    exact .tail hp ht hok
  | data hp hlen hne _ ih =>
    intro h1 h2
    rw [List.append_assoc]
    exact .data hp hlen (by rw [← List.append_assoc]; exact List.append_ne_nil_of_left_ne_nil hne _)
      (ih h1 h2)
  | part => exact fun h1 h2 => nomatch h1.symm.trans h2

/-- Writing data in two pieces is writing it at once, as long as the position does not wrap. -/
theorem writeData_writeData (c : RamNvCtl) (id start : UInt32) (d₁ d₂ : List UInt8)
    (hw : (start + UInt32.ofNat d₁.length).toNat = start.toNat + d₁.length) :
    writeData (writeData c id start d₁) id (start + UInt32.ofNat d₁.length) d₂ =
      writeData c id start (d₁ ++ d₂) := by
  unfold writeData
  rw [modifyPart_modifyPart]
  congr 1
  funext p
  simp only [Function.comp, hw, patch_append]

theorem afterPart_afterData {d₁ d₂ : List UInt8}
    (hw : (s.sync.start + UInt32.ofNat d₁.length).toNat = s.sync.start.toNat + d₁.length) :
    (s.afterPart d₁).afterData d₂ = s.afterData (d₁ ++ d₂) := by
  have hst : s.sync.start + UInt32.ofNat d₁.length + (s.sync.len - UInt32.ofNat d₁.length) =
      s.sync.start + s.sync.len := by grind
  simp only [Analyzer.afterPart, Analyzer.afterData, writeData_writeData _ _ _ _ _ hw, hst]

theorem afterPart_afterPart {d₁ d₂ : List UInt8}
    (hw : (s.sync.start + UInt32.ofNat d₁.length).toNat = s.sync.start.toNat + d₁.length) :
    (s.afterPart d₁).afterPart d₂ = s.afterPart (d₁ ++ d₂) := by
  have hst : s.sync.start + UInt32.ofNat d₁.length + UInt32.ofNat d₂.length =
      s.sync.start + UInt32.ofNat (d₁ ++ d₂).length := by
    rw [List.length_append, UInt32.ofNat_add, UInt32.add_assoc]
  have hln : s.sync.len - UInt32.ofNat d₁.length - UInt32.ofNat d₂.length =
      s.sync.len - UInt32.ofNat (d₁ ++ d₂).length := by
    rw [List.length_append, UInt32.ofNat_add]
    grind
  simp only [Analyzer.afterPart, writeData_writeData _ _ _ _ _ hw, hst, hln]

/-- Data that goes on in the second payload is read as if it had come in one piece. -/
theorem Parses.join_part {d : List UInt8} (hp : s.sync.syncState = .data) (hne : d ≠ [])
    (hl : d.length < s.sync.len.toNat)
    (hw : s.sync.start.toNat + s.sync.len.toNat < 4294967296)
    (h : Parses env hd (s.afterPart d) b s' ev) : ∃ ev', Parses env hd s (d ++ b) s' ev' := by
  obtain ⟨e1, e2⟩ := ofNat_length_toNat (Nat.le_of_lt hl)
  have hw' : (s.sync.start + UInt32.ofNat d.length).toNat = s.sync.start.toNat + d.length := by
    rw [UInt32.toNat_add, e1]
    omega
  have hph : (s.afterPart d).sync.syncState = .data := hp
  have hlen : (s.afterPart d).sync.len.toNat = s.sync.len.toNat - d.length := e2
  generalize hs : s.afterPart d = t at h hph hlen
  cases h with
  | nil =>
    rw [List.append_nil, ← hs]
    exact ⟨_, .part hp hne hl⟩
  | short hp' => exact absurd hph hp'
  | badHead hp' => cases hp'.symm.trans hph
  | head hp' => cases hp'.symm.trans hph
  | badBody hp' => cases hp'.symm.trans hph
  | body hp' => cases hp'.symm.trans hph
  | tail hp' => cases hp'.symm.trans hph
  | @data _ d₂ rest _ ev _ hlen' _ hrest =>
    rw [← hs, afterPart_afterData hw'] at hrest
    rw [← List.append_assoc]
    refine ⟨_, .data hp ?_ (by simp [hne]) hrest⟩
    rw [List.length_append]
    omega
  | part _ _ hl' =>
    rw [← hs, afterPart_afterPart hw']
    refine ⟨_, .part hp (by simp [hne]) ?_⟩
    rw [List.length_append]
    omega

/-- **Two payloads are read as one**, unless the first one ends inside a token: either the request
ended in the first one, or the second one continues it. -/
theorem Parses.join (h : Parses env hd s a s' ev) (hb : s.sync.syncBusy = true)
    (hrem : Remaining s (a ++ b)) (hns : ∀ c p, scan s.ctl.knows s.cursor a ≠ .inToken c p) :
    s'.sync.syncBusy = true → Remaining s' b ∧
      ∀ {t ev₂}, Parses env hd s' b t ev₂ → ∃ ev', Parses env hd s (a ++ b) t ev' := by
  induction h with
  | nil => exact fun _ => ⟨hrem, fun h => ⟨_, h⟩⟩
  | short hp hne hl => exact absurd (scan_short _ (cursor_ne_data hp) hne hl) (hns _ _)
  | badHead | badBody | tail => exact fun h => by cases h
  | @head s tok rest s' ev hp ht hok _ ih =>
    intro hb'
    rw [List.append_assoc] at hrem
    have hc : s.cursor = .head := by simp only [Analyzer.cursor, hp]
    rw [hc, scan_head _ ht, if_pos ((headOk_iff _ _).mp hok)] at hns
    obtain ⟨h1, h2⟩ := ih hb (hrem.head hp ht hok) hns hb'
    refine ⟨h1, fun h => ?_⟩
    obtain ⟨ev', h'⟩ := h2 h
    rw [List.append_assoc]
    exact ⟨_, .head hp ht hok h'⟩
  | @body s tok rest s' ev hp ht hok _ ih =>
    intro hb'
    rw [List.append_assoc] at hrem
    have hc : s.cursor = .body s.sync.syncReqFrame := by simp only [Analyzer.cursor, hp]
    have hk := knows_congr (markDirtyInfo_same s.ctl s.sync.id (reqStart tok) (reqNum tok)).layout_eq
    rw [hc, scan_body _ ht, if_pos hok, ← hk] at hns
    obtain ⟨h1, h2⟩ := ih hb (hrem.body hp ht hok) hns hb'
    refine ⟨h1, fun h => ?_⟩
    obtain ⟨ev', h'⟩ := h2 h
    rw [List.append_assoc]
    exact ⟨_, .body hp ht hok h'⟩
  | @data s d rest s' ev hp hlen hne _ ih =>
    intro hb'
    rw [List.append_assoc] at hrem
    have hc : s.cursor = .data s.sync.syncReqFrame s.sync.len.toNat := by
      simp only [Analyzer.cursor, hp]
    have hk := knows_congr (layout_writeData s.ctl s.sync.id s.sync.start d)
    rw [hc, scan_data _ hne hlen, ← hk] at hns
    obtain ⟨h1, h2⟩ := ih hb (hrem.data hp hlen) hns hb'
    refine ⟨h1, fun h => ?_⟩
    obtain ⟨ev', h'⟩ := h2 h
    have hne' := List.append_ne_nil_of_left_ne_nil hne b
    rw [List.append_assoc] at hne' ⊢
    exact ⟨_, .data hp hlen hne' h'⟩
  | @part s d hp hne hl =>
    intro _
    have hw : s.sync.start.toNat + s.sync.len.toNat < 4294967296 := by
      simp only [Remaining, hp] at hrem
      obtain ⟨-, _, _, _, -, hw, -⟩ := hrem
      exact hw
    exact ⟨hrem.part hp hl, fun h => Parses.join_part hp hne hl hw h⟩

/-- A whole request comes to an end. -/
theorem Parses.request_ends (h : Parses env hd s a s' ev) :
    Remaining s a → s'.sync.syncBusy = false := by
  have hitems : ∀ {c id bs tail}, Items c id bs tail → 20 ≤ (itemBytes bs tail).length := by
    intro c id bs tail hi
    simp only [itemBytes, List.length_append, hi.tail_size]
    omega
  have hlong : ∀ {s a}, Remaining s a → 20 ≤ a.length := by
    intro s a hr
    unfold Remaining at hr
    split at hr
    · obtain ⟨r, hr, rfl⟩ := hr
      simp only [Request.bytes, List.length_append, hr.head_size]
      omega
    · obtain ⟨-, bs, tail, hi, rfl⟩ := hr
      exact hitems hi
    · obtain ⟨-, d, bs, tail, -, -, hi, rfl⟩ := hr
      have := hitems hi
      simp only [List.length_append]
      omega
  induction h with
  | nil => exact fun hr => absurd (hlong hr) (by simp)
  | short _ _ hl => exact fun hr => absurd (hlong hr) (by omega)
  | badHead | badBody | tail => exact fun _ => rfl
  | head hp ht hok _ ih => exact fun hr => ih (hr.head hp ht hok)
  | body hp ht hok _ ih => exact fun hr => ih (hr.body hp ht hok)
  | data hp hlen _ _ ih => exact fun hr => ih (hr.data hp hlen)
  | @part s d hp _ hl =>
    intro hr
    simp only [Remaining, hp] at hr
    obtain ⟨-, d', bs, tail, hd', -, -, hbytes⟩ := hr
    rw [hbytes, List.length_append] at hl
    omega

end Join

/-! ## Packets -/

/-- A way to cut a byte string into packet payloads. -/
structure Cutting (bytes : List UInt8) (chunks : List (List UInt8)) : Prop where
  flatten : chunks.flatten = bytes
  size : ∀ c ∈ chunks, c ≠ [] ∧ c.length ≤ 1024

/-- The chunks in packets of group `g`, from sub-index `k` on. -/
def packetsFrom (env : SaveEnv) (g : UInt32) (k : UInt32) : List (List UInt8) → List Input
  | [] => []
  | c :: cs => ⟨packetOf g k c, env⟩ :: packetsFrom env g (k + 1) cs

/-- Read packet after packet, no packet ends inside a token. -/
def Unsplit (known : UInt32 → Bool) : Cursor → List (List UInt8) → Prop
  | _, [] => True
  | c, p :: ps =>
    match scan known c p with
    | .inToken _ _ => False
    | .between c' | .inData c' => Unsplit known c' ps
    | .refused _ | .committed _ => True

instance Unsplit.decidable (known : UInt32 → Bool) :
    ∀ (c : Cursor) (ps : List (List UInt8)), Decidable (Unsplit known c ps)
  | _, [] => isTrue trivial
  | c, p :: ps =>
    match h : scan known c p with
    | .inToken _ _ => isFalse (by simp [Unsplit, h])
    | .between c' =>
      have := Unsplit.decidable known c' ps
      decidable_of_iff (Unsplit known c' ps) (by simp [Unsplit, h])
    | .inData c' =>
      have := Unsplit.decidable known c' ps
      decidable_of_iff (Unsplit known c' ps) (by simp [Unsplit, h])
    | .refused _ => isTrue (by simp [Unsplit, h])
    | .committed _ => isTrue (by simp [Unsplit, h])

/-- An idle analyser that has just set `_syncBusy`. -/
theorem busy_of_idle {a : Analyzer} (hidle : a.sync = syncInit a.sync) :
    a.busy.sync.ofst = 0 ∧ a.busy.sync.syncState = .head := by
  show a.sync.ofst = 0 ∧ a.sync.syncState = .head
  rw [hidle]
  exact ⟨rfl, rfl⟩

theorem Remaining.start {a : Analyzer} {r : Request} (hidle : a.sync = syncInit a.sync)
    (hr : r.Wf a.ctl) : Remaining a.busy r.bytes := by
  simp only [Remaining, (busy_of_idle hidle).2]
  exact ⟨r, hr, rfl⟩

theorem Request.Wf.bytes_ne_nil {c : RamNvCtl} {r : Request} (hr : r.Wf c) : r.bytes ≠ [] := by
  intro h
  have hlen := congrArg List.length h
  simp only [Request.bytes, List.length_append, hr.head_size, List.length_nil] at hlen
  omega

section Packets

variable (env : SaveEnv) {s : Nvitemd} {g k : UInt32} {c : List UInt8}

theorem step_start (hidle : s.an.sync = syncInit s.an.sync) (hg : s.pkt.idxGrp ≠ g)
    (hl : c.length ≤ 1024) :
    let s' := (nvitemd.step s ⟨packetOf g 0 c, env⟩).1
    s'.pkt = ⟨g, 0⟩ ∧ s'.an.Wf ∧ ∃ hd ev, Parses env hd s.an.busy c s'.an ev := by
  have hw : s.an.Wf := ⟨by rw [hidle]; rfl, fun _ => hidle⟩
  have hres : getPacket s.pkt (packetOf g 0 c) = (.start, ⟨g, 0⟩) := by
    rw [(packetOf_wellFormed g 0 hl).accepted]
    simp [packetOf, hg]
  have hstep := packetStep hw ⟨packetOf g 0 c, env⟩
  obtain ⟨h1, ev, hp⟩ := hstep.of_start hres
  rw [(hw.abort_of_idle (by rw [hidle]; rfl)).1, payload_packetOf g 0 hl] at hp
  exact ⟨h1, hstep.wf hw, _, ev, hp⟩

theorem step_cont (hw : s.an.Wf) (hk : s.pkt = ⟨g, k⟩) (hl : c.length ≤ 1024) :
    let s' := (nvitemd.step s ⟨packetOf g (k + 1) c, env⟩).1
    s'.pkt = ⟨g, k + 1⟩ ∧ s'.an.Wf ∧ (s.an.sync.syncBusy = false → s'.an = s.an) ∧
      (s.an.sync.syncBusy = true → ∃ hd ev, Parses env hd s.an c s'.an ev) := by
  have hres : getPacket s.pkt (packetOf g (k + 1) c) = (.cont, ⟨g, k + 1⟩) := by
    rw [(packetOf_wellFormed g (k + 1) hl).accepted, hk]
    simp [packetOf]
  have hstep := packetStep hw ⟨packetOf g (k + 1) c, env⟩
  obtain ⟨h1, h2, h3⟩ := hstep.of_cont hres
  refine ⟨h1, hstep.wf hw, h2, fun hb => ?_⟩
  obtain ⟨ev, hp⟩ := h3 hb
  rw [payload_packetOf g (k + 1) hl] at hp
  exact ⟨_, ev, hp⟩

/-- Packets of a group whose request has ended change nothing. -/
theorem run_idle (hw : s.an.Wf) (hk : s.pkt = ⟨g, k⟩) (hb : s.an.sync.syncBusy = false)
    {cs : List (List UInt8)} (hl : ∀ c ∈ cs, c.length ≤ 1024) :
    (nvitemd.run s (packetsFrom env g (k + 1) cs)).1.an = s.an := by
  induction cs generalizing s k with
  | nil => rfl
  | cons c cs ih =>
    obtain ⟨h1, h2, h3, -⟩ := step_cont env hw hk (hl c List.mem_cons_self)
    have hb' : (nvitemd.step s ⟨packetOf g (k + 1) c, env⟩).1.an.sync.syncBusy = false := by
      rw [h3 hb]
      exact hb
    exact (ih h2 h1 hb' fun c' hc' => hl c' (List.mem_cons_of_mem _ hc')).trans (h3 hb)

variable {env} in
/-- One packet in front of the rest of its cutting, which ends as the uncut rest would. -/
theorem Parses.join_run {hd hd' : PacketHead} {a a' t : Analyzer} {ev : List Event}
    {b : List UInt8} (h : Parses env hd a c a' ev) (hb : a.sync.syncBusy = true)
    (hrem : Remaining a (c ++ b)) (hns : ∀ u p, scan a.ctl.knows a.cursor c ≠ .inToken u p)
    (hend : a'.sync.syncBusy = false → t = a')
    (hgo : a'.sync.syncBusy = true → Remaining a' b → ∃ ev', Parses env hd' a' b t ev') :
    ∃ ev', Parses env hd' a (c ++ b) t ev' := by
  obtain ⟨ev₁, h₁⟩ := h.change_head hd'
  cases hb' : a'.sync.syncBusy with
  | false =>
    rw [hend hb']
    exact ⟨_, h₁.append_ended hb hb'⟩
  | true =>
    obtain ⟨hrem', hjoin⟩ := h₁.join hb hrem hns hb'
    obtain ⟨ev', h'⟩ := hgo hb' hrem'
    exact hjoin h'

variable {env} in
/-- An unsplit cutting goes on where its first packet ends. -/
theorem Unsplit.tail {a a' : Analyzer} {hd : PacketHead} {ev : List Event}
    {cs : List (List UInt8)} (h : Unsplit a.ctl.knows a.cursor (c :: cs))
    (hp : Parses env hd a c a' ev) (hb : a.sync.syncBusy = true) :
    (∀ u p, scan a.ctl.knows a.cursor c ≠ .inToken u p) ∧
      (a'.sync.syncBusy = true → Unsplit a'.ctl.knows a'.cursor cs) := by
  have hend := (hp.ends hb).1
  unfold Unsplit at h
  rw [knows_congr hp.layout]
  cases hscan : scan a.ctl.knows a.cursor c with
  | between u => rw [hscan] at h hend; exact ⟨by simp, fun _ => hend.2.1 ▸ h⟩
  | inData u => rw [hscan] at h hend; exact ⟨by simp, fun _ => hend.2.1 ▸ h⟩
  | inToken u p => rw [hscan] at h; exact h.elim
  | refused r =>
    rw [hscan] at hend
    exact ⟨by simp, fun h' => nomatch hend.1.symm.trans h'⟩
  | committed r =>
    rw [hscan] at hend
    exact ⟨by simp, fun h' => nomatch hend.1.symm.trans h'⟩

/-- In the middle of a request. -/
theorem run_unsplit_cont (hd : PacketHead) {cs : List (List UInt8)} (hw : s.an.Wf)
    (hk : s.pkt = ⟨g, k⟩) (hb : s.an.sync.syncBusy = true) (hl : ∀ c ∈ cs, c.length ≤ 1024)
    (hrem : Remaining s.an cs.flatten) (hns : Unsplit s.an.ctl.knows s.an.cursor cs) :
    ∃ ev, Parses env hd s.an cs.flatten
      (nvitemd.run s (packetsFrom env g (k + 1) cs)).1.an ev := by
  induction cs generalizing s k with
  | nil => exact ⟨_, .nil⟩
  | cons c cs ih =>
    obtain ⟨h1, h2, -, h3⟩ := step_cont env hw hk (hl c List.mem_cons_self)
    obtain ⟨_, _, hp⟩ := h3 hb
    obtain ⟨hn1, hn2⟩ := hns.tail hp hb
    have hl' : ∀ c' ∈ cs, c'.length ≤ 1024 := fun c' hc' => hl c' (List.mem_cons_of_mem _ hc')
    exact hp.join_run hb hrem hn1 (fun hb' => run_idle env h2 h1 hb' hl')
      fun hb' hrem' => ih h2 h1 hb' hl' hrem' (hn2 hb')

/-- **A cutting that splits no token ends as the uncut request.** -/
theorem run_unsplit (hd : PacketHead) {r : Request} {cs : List (List UInt8)}
    (hidle : s.an.sync = syncInit s.an.sync) (hg : s.pkt.idxGrp ≠ g) (hr : r.Wf s.an.ctl)
    (hcut : Cutting r.bytes cs) (hns : Unsplit s.an.ctl.knows .head cs) :
    ∃ ev, Parses env hd s.an.busy r.bytes (nvitemd.run s (packetsFrom env g 0 cs)).1.an ev := by
  have hrem := Remaining.start hidle hr
  have hcur : s.an.busy.cursor = .head := by
    simp only [Analyzer.cursor, (busy_of_idle hidle).2]
  cases cs with
  | nil => exact absurd hcut.flatten.symm hr.bytes_ne_nil
  | cons c cs =>
    have hl : ∀ c' ∈ cs, c'.length ≤ 1024 := fun c' hc' =>
      (hcut.size c' (List.mem_cons_of_mem _ hc')).2
    obtain ⟨h1, h2, _, _, hp⟩ :=
      step_start env hidle hg (hcut.size c List.mem_cons_self).2
    rw [← hcur] at hns
    obtain ⟨hn1, hn2⟩ := Unsplit.tail (a := s.an.busy) hns hp rfl
    rw [← hcut.flatten] at hrem ⊢
    exact hp.join_run rfl hrem hn1 (fun hb' => run_idle env h2 h1 hb' hl)
      fun hb' hrem' => run_unsplit_cont env hd h2 h1 hb' hl hrem' (hn2 hb')

end Packets

/-! ## Two cuttings of every request -/

/-- One byte a packet. -/
def bytewise (bytes : List UInt8) : List (List UInt8) := bytes.map ([·])

theorem bytewise_cutting (bytes : List UInt8) : Cutting bytes (bytewise bytes) where
  flatten := by
    induction bytes with
    | nil => rfl
    | cons x bytes ih => exact congrArg (x :: ·) ih
  size c hc := by
    obtain ⟨x, -, rfl⟩ := List.mem_map.mp hc
    simp

/-- Each token in a packet of its own, and the data byte by byte. -/
def itemChunks (bs : List BodyReq) (tail : List UInt8) : List (List UInt8) :=
  (bs.map fun b => b.token :: bytewise b.data).flatten ++ [tail]

def Request.aligned (r : Request) : List (List UInt8) := r.head :: itemChunks r.bodies r.tail

theorem itemChunks_cons (b : BodyReq) (bs : List BodyReq) (tail : List UInt8) :
    itemChunks (b :: bs) tail = b.token :: (bytewise b.data ++ itemChunks bs tail) := by
  simp [itemChunks]

theorem itemChunks_cutting {c : RamNvCtl} {id : UInt32} {bs : List BodyReq} {tail : List UInt8}
    (h : Items c id bs tail) : Cutting (itemBytes bs tail) (itemChunks bs tail) := by
  have htok : ∀ {t : List UInt8}, t.length = 20 → t ≠ [] ∧ t.length ≤ 1024 := by
    intro t ht
    refine ⟨fun h => ?_, by omega⟩
    rw [h] at ht
    cases ht
  induction bs with
  | nil =>
    refine ⟨by simp [itemChunks, itemBytes], fun c hc => ?_⟩
    obtain rfl : c = tail := by simpa [itemChunks] using hc
    exact htok h.tail_size
  | cons b bs ih =>
    obtain ⟨hf, hs⟩ := ih h.cons
    have hd := bytewise_cutting b.data
    rw [itemChunks_cons, itemBytes_cons]
    refine ⟨by simp [hd.flatten, hf], fun c hc => ?_⟩
    rcases List.mem_cons.mp hc with rfl | hc
    · exact htok (h.token_size b List.mem_cons_self)
    · rcases List.mem_append.mp hc with hc | hc
      · exact hd.size c hc
      · exact hs c hc

theorem Request.Wf.aligned_cutting {c : RamNvCtl} {r : Request} (h : r.Wf c) :
    Cutting r.bytes r.aligned := by
  obtain ⟨hf, hs⟩ := itemChunks_cutting h.items
  have hh := h.head_size
  refine ⟨by simp [Request.aligned, Request.bytes, hf], fun c hc => ?_⟩
  rcases List.mem_cons.mp hc with rfl | hc
  · exact ⟨fun h => (by rw [h] at hh; cases hh), by omega⟩
  · exact hs c hc

section Aligned

variable (known : UInt32 → Bool) {f : UInt32}

/-- Data byte by byte splits nothing. -/
theorem unsplit_bytewise {d : List UInt8} {cs : List (List UInt8)}
    (h0 : Unsplit known (.data f 0) cs) (h : Unsplit known (.body f) cs) :
    Unsplit known (.data f d.length) (bytewise d ++ cs) := by
  induction d with
  | nil => exact h0
  | cons x d ih =>
    show Unsplit known (.data f (d.length + 1)) ([x] :: (bytewise d ++ cs))
    unfold Unsplit
    cases d with
    | nil =>
      have hscan : scan known (.data f 1) [x] = .between (.body f) := by
        have hone := scan_data known (f := f) (show [x] ++ [] ≠ [] by simp) rfl
        rwa [scan_nil] at hone
      rw [show ([] : List UInt8).length + 1 = 1 from rfl, hscan]
      exact h
    | cons y d =>
      rw [scan_part known (by simp) (by simp)]
      exact ih

/-- The last packet of a request ends at the end of a token. -/
theorem unsplit_tail {tail : List UInt8} (hl : tail.length = 20)
    (ht : reqPacketType tail = syncReqTail) : Unsplit known (.body f) [tail] := by
  have hscan := scan_body known hl f []
  rw [List.append_nil, if_neg fun h => absurd (h.1.symm.trans ht) (by decide)] at hscan
  unfold Unsplit
  rw [hscan]
  by_cases hok : TailOk f tail
  · rw [if_pos hok]
    trivial
  · rw [if_neg hok]
    trivial

/-- With no data outstanding the next token is read as if none had been announced. -/
theorem unsplit_zero {t : List UInt8} {cs : List (List UInt8)} (ht : t.length = 20)
    (h : Unsplit known (.body f) (t :: cs)) : Unsplit known (.data f 0) (t :: cs) := by
  have hne : [] ++ t ≠ [] := by
    rintro rfl
    cases ht
  have hscan := scan_data known (f := f) hne rfl
  rw [List.nil_append, List.length_nil] at hscan
  unfold Unsplit at h ⊢
  rw [hscan]
  exact h

theorem unsplit_items {c : RamNvCtl} {id : UInt32} {n : Nat} (hn : c.copySize id.toNat = some n)
    {bs : List BodyReq} {tail : List UInt8} (h : Items c id bs tail) :
    Unsplit known (.body f) (itemChunks bs tail) ∧
      Unsplit known (.data f 0) (itemChunks bs tail) := by
  induction bs generalizing f with
  | nil =>
    have hu := unsplit_tail known (f := f) h.tail_size h.tail_type
    exact ⟨hu, unsplit_zero known h.tail_size hu⟩
  | cons b bs ih =>
    have hmem : b ∈ b :: bs := List.mem_cons_self
    have ht := h.token_size b hmem
    have hlen : (reqNum b.token * UInt32.ofNat ramnvSectSize).toNat = b.data.length :=
      ((h.fits b hmem).no_wrap hn).2.1.trans (h.data_size b hmem).symm
    have hscan := scan_body known ht f []
    rw [List.append_nil, hlen, scan_nil] at hscan
    have hu : Unsplit known (.body f) (b.token :: (bytewise b.data ++ itemChunks bs tail)) := by
      unfold Unsplit
      rw [hscan]
      by_cases hok : BodyOk f b.token
      · rw [if_pos hok]
        obtain ⟨h1, h2⟩ := ih (f := f + 1) h.cons
        exact unsplit_bytewise known h2 h1
      · rw [if_neg hok]
        by_cases hok' : TailOk f b.token
        · rw [if_pos hok']
          trivial
        · rw [if_neg hok']
          trivial
    rw [itemChunks_cons]
    exact ⟨hu, unsplit_zero known ht hu⟩

theorem Request.Wf.aligned_unsplit {c : RamNvCtl} {r : Request} (h : r.Wf c) :
    Unsplit c.knows .head r.aligned := by
  have hscan := scan_head c.knows h.head_size []
  rw [List.append_nil, scan_nil] at hscan
  unfold Request.aligned Unsplit
  rw [hscan]
  by_cases hok : HeadOk c r.head
  · obtain ⟨p, hp, -⟩ := getCtlId_spec hok.2
    rw [if_pos ((headOk_iff _ _).mp hok)]
    exact (unsplit_items c.knows (copySize_eq hp) h.items).1
  · rw [if_neg fun h' => hok ((headOk_iff _ _).mpr h')]
    trivial

end Aligned

section Bytewise

variable (env : SaveEnv) {s : Nvitemd} {g k : UInt32}

/-- A single byte is never enough for a head token. -/
theorem Parses.single_byte {hd : PacketHead} {a a' : Analyzer} {x : UInt8} {ev : List Event}
    (h : Parses env hd a [x] a' ev) (h0 : a.sync.ofst = 0) (hp : a.sync.syncState = .head) :
    a' = a := by
  have hshort : Parses env hd a [x] a _ := .short (by rw [hp]; decide) (by simp) (by simp)
  exact congrArg Prod.fst ((h.eq_loop h0).symm.trans (hshort.eq_loop h0))

theorem run_bytewise_cont (bytes : List UInt8) (hw : s.an.Wf) (hk : s.pkt = ⟨g, k⟩)
    (hb : s.an.sync.syncBusy = true) (hp : s.an.sync.syncState = .head) :
    (nvitemd.run s (packetsFrom env g (k + 1) (bytewise bytes))).1.an = s.an := by
  induction bytes generalizing s k with
  | nil => rfl
  | cons x bytes ih =>
    obtain ⟨h1, h2, -, h3⟩ := step_cont env (c := [x]) hw hk (by simp)
    obtain ⟨_, _, hparse⟩ := h3 hb
    have heq := Parses.single_byte env hparse hw.ofst hp
    exact (ih h2 h1 (by rw [heq]; exact hb) (by rw [heq]; exact hp)).trans heq

theorem run_bytewise {bytes : List UInt8} (hne : bytes ≠ [])
    (hidle : s.an.sync = syncInit s.an.sync) (hg : s.pkt.idxGrp ≠ g) :
    (nvitemd.run s (packetsFrom env g 0 (bytewise bytes))).1.an = s.an.busy := by
  cases bytes with
  | nil => exact absurd rfl hne
  | cons x bytes =>
    obtain ⟨h1, h2, _, _, hparse⟩ := step_start env (c := [x]) hidle hg (by simp)
    obtain ⟨h0, hp⟩ := busy_of_idle hidle
    have heq := Parses.single_byte env hparse h0 hp
    exact (run_bytewise_cont env bytes h2 h1 (by rw [heq]; rfl) (by rw [heq]; exact hp)).trans heq

end Bytewise

/-- **Fragmentation.** From an idle state, all cuttings of a request into packets of a fresh group
that split no token the analyser gets to end in the same state: images, dirty tables and static
variables. For no request do all cuttings do so: there are two of which one leaves the request open
and the other does not. -/
theorem fragmentation (env : SaveEnv) (s : Nvitemd) (r : Request) (g : UInt32)
    (hidle : s.an.sync = syncInit s.an.sync) (hg : s.pkt.idxGrp ≠ g) (hr : r.Wf s.an.ctl) :
    (∀ c₁ c₂, Cutting r.bytes c₁ → Cutting r.bytes c₂ →
      Unsplit s.an.ctl.knows .head c₁ → Unsplit s.an.ctl.knows .head c₂ →
      (nvitemd.run s (packetsFrom env g 0 c₁)).1.an =
        (nvitemd.run s (packetsFrom env g 0 c₂)).1.an) ∧
    ∃ c₁ c₂, Cutting r.bytes c₁ ∧ Cutting r.bytes c₂ ∧
      (nvitemd.run s (packetsFrom env g 0 c₁)).1.an.sync.syncBusy = true ∧
      (nvitemd.run s (packetsFrom env g 0 c₂)).1.an.sync.syncBusy = false := by
  have h0 := (busy_of_idle hidle).1
  refine ⟨fun c₁ c₂ hc₁ hc₂ hu₁ hu₂ => ?_, ?_⟩
  · obtain ⟨ev₁, h₁⟩ := run_unsplit env (packetOf g 0 []).head hidle hg hr hc₁ hu₁
    obtain ⟨ev₂, h₂⟩ := run_unsplit env (packetOf g 0 []).head hidle hg hr hc₂ hu₂
    exact congrArg Prod.fst ((h₁.eq_loop h0).symm.trans (h₂.eq_loop h0))
  · refine ⟨bytewise r.bytes, r.aligned, bytewise_cutting _, hr.aligned_cutting, ?_, ?_⟩
    · rw [run_bytewise env hr.bytes_ne_nil hidle hg]
      rfl
    · obtain ⟨ev, h⟩ := run_unsplit env (packetOf g 0 []).head hidle hg hr
        hr.aligned_cutting hr.aligned_unsplit
      exact h.request_ends (Remaining.start hidle hr)

/-- A sector of sevens for the partition of zeros. -/
def sevensRequest : Request :=
  ⟨syncReq 0 9 1 512 512, [⟨syncReq 1 10 1 0 1, List.replicate 512 7⟩], syncReq 2 11 1 0 0⟩

theorem sevensRequest_wf : sevensRequest.Wf (nvitemdInit [zeroPart]).an.ctl where
  head_size := by decide
  head_type := by decide
  items := by
    have hn : (nvitemdInit [zeroPart]).an.ctl.copySize
        (getCtlId (nvitemdInit [zeroPart]).an.ctl (reqPartId sevensRequest.head)).toNat =
        some 512 := by decide +kernel
    refine ⟨by decide, by decide, ?_, ?_, by decide, by decide⟩
    · intro b hb
      obtain rfl := List.mem_singleton.mp hb
      rw [List.length_replicate]
      decide
    · intro b hb n hn'
      obtain rfl := List.mem_singleton.mp hb
      rw [hn, Option.some.injEq] at hn'
      subst hn'
      decide

/-- Cut inside the data both packets together commit the request; the second of two packets cut
inside the tail token is lost on the analyser. -/
theorem sevensRequest_cut_data :
    let cs := [sevensRequest.bytes.take 300, sevensRequest.bytes.drop 300]
    let cs' := [sevensRequest.bytes]
    (nvitemd.run (nvitemdInit [zeroPart]) (packetsFrom plainEnv 5 0 cs)).1.an =
      (nvitemd.run (nvitemdInit [zeroPart]) (packetsFrom plainEnv 5 0 cs')).1.an := by
  refine (fragmentation plainEnv (nvitemdInit [zeroPart]) sevensRequest 5 rfl (by decide)
    sevensRequest_wf).1 _ _ ⟨?_, ?_⟩ ⟨?_, ?_⟩ ?_ ?_
  all_goals decide +kernel

theorem sevensRequest_cut_tail :
    let cs := [sevensRequest.bytes.take 562, sevensRequest.bytes.drop 562]
    let cs' := [sevensRequest.bytes]
    Cutting sevensRequest.bytes cs ∧ Cutting sevensRequest.bytes cs' ∧
      (nvitemd.run (nvitemdInit [zeroPart]) (packetsFrom plainEnv 5 0 cs)).1.an.sync.syncBusy =
        true ∧
      (nvitemd.run (nvitemdInit [zeroPart]) (packetsFrom plainEnv 5 0 cs')).1.an.sync.syncBusy =
        false := by
  refine ⟨⟨?_, ?_⟩, ⟨?_, ?_⟩, ?_, ?_⟩
  all_goals decide +kernel

end SprdHal.Nvitem
