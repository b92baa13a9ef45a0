import SprdHal.Nvitem.Images

/-!
# Sync requests are transactions

`Txn` is what an open request stands for: a partition and the writes its body tokens have
announced, with the data received so far. It is computed from the events of the analyser alone
(`txnOf`). The simulation `Sim` ties the static variables and the images to it: `backup` is the
committed image, and `fromChannel` is `backup` overlaid with the writes of the open transaction, if
there is one for that partition, and equal to `backup` otherwise.

Every exit of the inner loop preserves `Sim` (`Parses.sim`), hence every packet does
(`PacketStep.sim`); atomicity is read off it (`sync_atomic`).
-/

namespace SprdHal.Nvitem

open SprdHal.Lib

/-! ## The abstract transaction -/

/-- A body token with the data that has arrived for it. -/
structure Body where
  start : Nat
  num : Nat
  data : List UInt8
  deriving DecidableEq

/-- The write a body token asks for: where, in bytes, and what. -/
def Body.write (b : Body) : Nat × List UInt8 := (ramnvSectSize * b.start, b.data)

/-- All data of the body token has arrived. -/
def Body.Complete (b : Body) : Prop := b.data.length = ramnvSectSize * b.num

structure Txn where
  id : UInt32
  frame : UInt32
  bodies : List Body
  deriving DecidableEq

/-- New data goes to the last body token. -/
def extendLast (bs : List Body) (d : List UInt8) : List Body :=
  match bs.reverse with
  | [] => []
  | b :: rest => (({ b with data := b.data ++ d } : Body) :: rest).reverse

/-- What an event does to the open transaction. -/
def Txn.track : Option Txn → Event → Option Txn
  | _, .head id r => some ⟨id, r, []⟩
  | some t, .body _ r start num =>
    some { t with frame := r, bodies := t.bodies ++ [⟨start.toNat, num.toNat, []⟩] }
  | some t, .writeData _ _ d => some { t with bodies := extendLast t.bodies d }
  | _, .backupData _ => none
  | _, .restoreData _ => none
  | t, _ => t

/-- The transaction that is open after the events. -/
def txnOf (log : List Event) : Option Txn := log.foldl Txn.track none

theorem extendLast_snoc (bs : List Body) (b : Body) (d : List UInt8) :
    extendLast (bs ++ [b]) d = bs ++ [{ b with data := b.data ++ d }] := by
  simp [extendLast]

/-! ## In-range requests -/

/-- An accepted body token lies inside its partition. -/
def InRange (c : RamNvCtl) : Event → Prop
  | .body id _ start num =>
    ∀ n, c.copySize id.toNat = some n → ramnvSectSize * (start.toNat + num.toNat) ≤ n
  | _ => True

/-- All body tokens accepted while the packet is processed lie inside their partition. -/
def InRangeStep (s : Nvitemd) (i : Input) : Prop :=
  ∀ e ∈ (nvitemdStep s i).2, InRange s.an.ctl e

instance (c : RamNvCtl) : DecidablePred (InRange c)
  | .body id _ start num =>
    match h : c.copySize id.toNat with
    | some n =>
      decidable_of_iff (ramnvSectSize * (start.toNat + num.toNat) ≤ n) (by simp [InRange, h])
    | none => isTrue (by simp [InRange, h])
  | .token _ | .head .. | .tail .. | .writeData .. | .backupData _ | .restoreData _
  | .sendPacktRsp _ => isTrue trivial

instance (s : Nvitemd) (i : Input) : Decidable (InRangeStep s i) :=
  inferInstanceAs (Decidable (∀ e ∈ (nvitemdStep s i).2, InRange s.an.ctl e))

/-! ## The simulation -/

/-- The image a transaction leads to. -/
def Txn.apply (t : Txn) (img : List UInt8) : List UInt8 := overlay img (t.bodies.map Body.write)

/-- What a partition's working image is when its committed image is `b`: only the partition of the
open transaction differs. -/
def openImage : Option Txn → Nat → List UInt8 → List UInt8
  | none, _, b => b
  | some t, k, b => if k = t.id.toNat then t.apply b else b

@[simp] theorem openImage_none (k : Nat) (b : List UInt8) : openImage none k b = b := rfl

@[simp] theorem openImage_some (t : Txn) (k : Nat) (b : List UInt8) :
    openImage (some t) k b = if k = t.id.toNat then t.apply b else b := rfl

/-- What the phase of the analyser says about the open transaction. -/
def PhaseSim (s : Analyzer) : Option Txn → Prop
  | none => s.sync.syncState = .head
  | some t =>
    t.id = s.sync.id ∧ t.frame = s.sync.syncReqFrame ∧
      ((s.sync.syncState = .body ∧ ∀ b ∈ t.bodies, b.Complete) ∨
        (s.sync.syncState = .data ∧ ∃ bs b, t.bodies = bs ++ [b] ∧ (∀ b' ∈ bs, b'.Complete) ∧
          s.sync.start.toNat = ramnvSectSize * b.start + b.data.length ∧
          b.data.length + s.sync.len.toNat = ramnvSectSize * b.num))

structure Sim (s : Analyzer) (txn : Option Txn) : Prop where
  phase : PhaseSim s txn
  images : ∀ k b, s.ctl.backImage k = some b →
    s.ctl.fromImage k = some (openImage txn k b)
  present : ∀ t, txn = some t → ∃ n, s.ctl.copySize t.id.toNat = some n ∧
    ∀ b ∈ t.bodies, ramnvSectSize * (b.start + b.num) ≤ n ∧ b.data.length ≤ ramnvSectSize * b.num

theorem InRange.congr {c c' : RamNvCtl} (h : c'.layout = c.layout) {e : Event}
    (he : InRange c e) : InRange c' e := by
  cases e with
  | body id r start num => exact fun n hn => he n (by rwa [copySize_congr h] at hn)
  | _ => trivial

theorem backImage_eq_none_iff {c : RamNvCtl} {k : Nat} :
    c.backImage k = none ↔ c.layout.length ≤ k := by
  simp [RamNvCtl.backImage, RamNvCtl.layout]

/-- In-range writes stay clear of what the copies leave alone. -/
theorem Txn.apply_agree {t : Txn} {n : Nat}
    (h : ∀ b ∈ t.bodies, ramnvSectSize * (b.start + b.num) ≤ n ∧
      b.data.length ≤ ramnvSectSize * b.num) (img : List UInt8) :
    AgreeFrom n (t.apply img) img := by
  refine ⟨length_overlay _ _, fun k hk => getElem?_overlay_of_out img ?_ hk⟩
  intro w hw
  obtain ⟨b, hb, rfl⟩ := List.mem_map.mp hw
  obtain ⟨h1, h2⟩ := h b hb
  simp only [Body.write, ramnvSectSize] at h1 h2 ⊢
  omega

theorem AgreeFrom.symm {n : Nat} {a b : List UInt8} (h : AgreeFrom n a b) : AgreeFrom n b a :=
  ⟨h.1.symm, fun k hk => (h.2 k hk).symm⟩

/-! ## The simulation step by step -/

section Steps

variable {s : Analyzer} {t : Txn} {tok d : List UInt8}

/-- Outside a transaction the two images agree. -/
theorem Sim.clean {c : RamNvCtl} {v : SyncVars} (hp : v.syncState = .head)
    (h : ∀ k b, c.backImage k = some b → c.fromImage k = some b) : Sim ⟨c, v⟩ none :=
  ⟨hp, h, fun _ h => by cases h⟩

theorem Sim.eq_none {txn : Option Txn} (h : Sim s txn) (hp : s.sync.syncState = .head) :
    txn = none := by
  cases txn with
  | none => rfl
  | some t =>
    rcases h.phase.2.2 with ⟨h', -⟩ | ⟨h', -⟩ <;>
      · rw [hp] at h'; cases h'

theorem Sim.eq_some {txn : Option Txn} (h : Sim s txn) (hp : s.sync.syncState ≠ .head) :
    ∃ t, txn = some t := by
  cases txn with
  | none => exact absurd h.phase hp
  | some t => exact ⟨t, rfl⟩

theorem Sim.afterHead (h : Sim s none) (hok : HeadOk s.ctl tok) :
    Sim (s.afterHead tok) (some ⟨getCtlId s.ctl (reqPartId tok), reqReqIdx tok, []⟩) := by
  refine ⟨⟨rfl, rfl, Or.inl ⟨rfl, by simp⟩⟩, ?_, ?_⟩
  · intro k b hb
    rw [show (s.afterHead tok).ctl = s.ctl from rfl] at hb ⊢
    rw [h.images k b hb]
    simp [Txn.apply]
  · rintro t ⟨rfl⟩
    obtain ⟨p, hp, -⟩ := getCtlId_spec hok.2
    exact ⟨_, copySize_eq hp, by simp⟩

theorem Sim.afterBody (h : Sim s (some t)) (hp : s.sync.syncState = .body)
    (hok : BodyOk s.sync.syncReqFrame tok)
    (hr : InRange s.ctl (.body s.sync.id (reqReqIdx tok) (reqStart tok) (reqNum tok))) :
    Sim (s.afterBody tok) (some { t with
      frame := reqReqIdx tok
      bodies := t.bodies ++ [⟨(reqStart tok).toNat, (reqNum tok).toNat, []⟩] }) := by
  obtain ⟨hid, hf, hph⟩ := h.phase
  obtain ⟨n, hn, hbs⟩ := h.present t rfl
  have hsame := markDirtyInfo_same s.ctl s.sync.id (reqStart tok) (reqNum tok)
  have hcomp : ∀ b ∈ t.bodies, b.Complete := by
    rcases hph with ⟨-, h⟩ | ⟨h, -⟩
    · exact h
    · rw [hp] at h; cases h
  have hext : ramnvSectSize * ((reqStart tok).toNat + (reqNum tok).toNat) ≤ n :=
    hr n (by rw [← hid]; exact hn)
  have hlt := copySize_lt hn
  -- the sector count does not overflow when it is turned into bytes
  have hmul : ∀ w : UInt32, ramnvSectSize * w.toNat ≤ n →
      (w * UInt32.ofNat ramnvSectSize).toNat = ramnvSectSize * w.toNat := by
    intro w hw
    rw [UInt32.toNat_mul]
    simp only [ramnvSectSize, UInt32.toNat_ofNat'] at hw ⊢
    omega
  refine ⟨⟨hid, hok.2, Or.inr ⟨rfl, t.bodies, _, rfl, hcomp, ?_, ?_⟩⟩, ?_, ?_⟩
  · exact hmul _ (by simp only [ramnvSectSize] at hext ⊢; omega)
  · rw [List.length_nil, Nat.zero_add]
    exact hmul _ (by simp only [ramnvSectSize] at hext ⊢; omega)
  · intro k b hb
    rw [show (s.afterBody tok).ctl = markDirtyInfo s.ctl s.sync.id (reqStart tok) (reqNum tok)
      from rfl] at hb ⊢
    rw [hsame.back_eq] at hb
    rw [hsame.from_eq, h.images k b hb]
    simp [Txn.apply, Body.write, overlay_snoc]
  · rintro t' ⟨rfl⟩
    refine ⟨n, by rw [← hn]; exact copySize_congr hsame.layout_eq _, ?_⟩
    intro b hb
    rcases List.mem_append.mp hb with hb | hb
    · exact hbs b hb
    · obtain rfl := List.mem_singleton.mp hb
      exact ⟨hext, by simp⟩

/-- Data of the last body token: all of it (`afterData`) or a part of it (`afterPart`). -/
theorem Sim.writeData {s' : Analyzer} (h : Sim s (some t)) (hp : s.sync.syncState = .data)
    (hlen : d.length ≤ s.sync.len.toNat)
    (hctl : s'.ctl = writeData s.ctl s.sync.id s.sync.start d)
    (hid' : s'.sync.id = s.sync.id) (hf' : s'.sync.syncReqFrame = s.sync.syncReqFrame)
    (hph' : (s'.sync.syncState = .body ∧ d.length = s.sync.len.toNat) ∨
      (s'.sync.syncState = .data ∧ s'.sync.start = s.sync.start + UInt32.ofNat d.length ∧
        s'.sync.len = s.sync.len - UInt32.ofNat d.length)) :
    Sim s' (some { t with bodies := extendLast t.bodies d }) := by
  obtain ⟨hid, hf, hph⟩ := h.phase
  obtain ⟨n, hn, hbs⟩ := h.present t rfl
  obtain ⟨bs, b, hbo, hcomp, hst, hln⟩ : ∃ bs b, t.bodies = bs ++ [b] ∧
      (∀ b' ∈ bs, b'.Complete) ∧ s.sync.start.toNat = ramnvSectSize * b.start + b.data.length ∧
      b.data.length + s.sync.len.toNat = ramnvSectSize * b.num := by
    rcases hph with ⟨h, -⟩ | ⟨-, h⟩
    · rw [hp] at h; cases h
    · exact h
  have hlt := copySize_lt hn
  have hb := hbs b (by rw [hbo]; simp)
  obtain ⟨hdl, hrest⟩ := ofNat_length_toNat hlen
  rw [hbo, extendLast_snoc]
  refine ⟨⟨by rw [hid', hid], by rw [hf', hf], ?_⟩, ?_, ?_⟩
  · rcases hph' with ⟨h1, h2⟩ | ⟨h1, h2, h3⟩
    · refine Or.inl ⟨h1, fun b' hb' => ?_⟩
      rcases List.mem_append.mp hb' with hb' | hb'
      · exact hcomp b' hb'
      · obtain rfl := List.mem_singleton.mp hb'
        simp only [Body.Complete, List.length_append]
        omega
    · refine Or.inr ⟨h1, bs, _, rfl, hcomp, ?_, ?_⟩
      · rw [h2, UInt32.toNat_add, hdl, hst, List.length_append]
        simp only [ramnvSectSize] at hb hln ⊢
        omega
      · show (b.data ++ d).length + s'.sync.len.toNat = ramnvSectSize * b.num
        rw [h3, List.length_append, hrest]
        omega
  · intro k img hk
    rw [hctl, backImage_writeData] at hk
    rw [hctl, fromImage_writeData, h.images k img hk]
    by_cases hki : k = t.id.toNat
    · have hks : k = s.sync.id.toNat := by rw [← hid]; exact hki
      simp only [openImage_some, hki, if_true, ← hid, Option.map_some, Txn.apply, hbo, List.map_append,
        List.map_cons, List.map_nil, Body.write, hst, overlay_extend]
    · have hks : ¬ k = s.sync.id.toNat := by rw [← hid]; exact hki
      simp only [openImage_some, hki, hks, if_false]
  · rintro t' ⟨rfl⟩
    refine ⟨n, by rw [← hn, hctl]; exact copySize_congr (layout_writeData _ _ _ _) _, ?_⟩
    intro b' hb'
    rcases List.mem_append.mp hb' with hb' | hb'
    · exact hbs b' (by rw [hbo]; exact List.mem_append_left _ hb')
    · obtain rfl := List.mem_singleton.mp hb'
      refine ⟨hb.1, ?_⟩
      simp only [List.length_append]
      omega

/-- Undoing the open request, if there is one. -/
theorem Sim.restore {txn : Option Txn} (h : Sim s txn) (v : SyncVars) (hv : v.syncState = .head)
    (hid : ∀ t, txn = some t → t.id = s.sync.id) :
    Sim ⟨restoreData s.ctl s.sync.id, v⟩ none := by
  apply Sim.clean hv
  intro k b hb
  rw [backImage_restoreData] at hb
  have hk := h.images k b hb
  obtain ⟨p, hp, hpb⟩ := Option.map_eq_some_iff.mp hb
  cases txn with
  | none =>
    rw [fromImage_restoreData _ _ _ hk hb (copySize_eq hp) ⟨rfl, fun _ _ => rfl⟩]
    simp
  | some t =>
    obtain ⟨n, hn, hbs⟩ := h.present t rfl
    by_cases hki : k = t.id.toNat
    · have hks : k = s.sync.id.toNat := by rw [← hid t rfl]; exact hki
      simp only [openImage_some, hki, if_true] at hk
      rw [hki] at hb ⊢
      rw [fromImage_restoreData _ _ _ hk hb hn (Txn.apply_agree hbs b).symm,
        if_pos (by rw [← hks, hki])]
    · have hks : ¬ k = s.sync.id.toNat := by rw [← hid t rfl]; exact hki
      simp only [openImage_some, hki, if_false] at hk
      rw [fromImage_restoreData _ _ _ hk hb (copySize_eq hp) ⟨rfl, fun _ _ => rfl⟩, if_neg hks]

/-- **A commit** installs the image the transaction leads to, in its partition only, and leaves
the two images equal. -/
theorem Sim.commit (h : Sim s (some t)) (env : SaveEnv) (v : SyncVars)
    (hv : v.syncState = .head) :
    Sim ⟨(backupData env s.ctl s.sync.id).1, v⟩ none ∧
      ∀ k b, s.ctl.backImage k = some b → (backupData env s.ctl s.sync.id).1.backImage k =
        some (if k = t.id.toNat then t.apply b else b) := by
  obtain ⟨hid, -, -⟩ := h.phase
  obtain ⟨n, hn, hbs⟩ := h.present t rfl
  have hback : ∀ k b, s.ctl.backImage k = some b → (backupData env s.ctl s.sync.id).1.backImage k =
      some (if k = t.id.toNat then t.apply b else b) := by
    intro k b hb
    have hk := h.images k b hb
    obtain ⟨p, hp, hpb⟩ := Option.map_eq_some_iff.mp hb
    by_cases hki : k = t.id.toNat
    · have hks : k = s.sync.id.toNat := by rw [← hid]; exact hki
      simp only [openImage_some, hki, if_true] at hk ⊢
      rw [hki] at hb
      rw [backImage_backupData env _ _ _ hk hb hn (Txn.apply_agree hbs b),
        if_pos (by rw [← hks, hki])]
    · have hks : ¬ k = s.sync.id.toNat := by rw [← hid]; exact hki
      simp only [openImage_some, hki, if_false] at hk ⊢
      rw [backImage_backupData env _ _ _ hk hb (copySize_eq hp) ⟨rfl, fun _ _ => rfl⟩, if_neg hks]
  refine ⟨Sim.clean hv fun k b' hb' => ?_, hback⟩
  cases hb : s.ctl.backImage k with
  | none =>
    -- there is no partition at this index, before or after
    rw [backImage_eq_none_iff, ← layout_backupData env s.ctl s.sync.id,
      ← backImage_eq_none_iff] at hb
    rw [hb] at hb'
    cases hb'
  | some b =>
    rw [hback k b hb, Option.some.injEq] at hb'
    rw [fromImage_backupData, h.images k b hb, ← hb', openImage_some]

end Steps

/-! ## A whole packet -/

/-- What the events of a packet say about the `backup` images: without an accepted tail token of a
partition its image is unchanged, and with one it is the image the open transaction led to. -/
structure BackSpec (c c' : RamNvCtl) (txn : Option Txn) (ev : List Event) : Prop where
  keep : ∀ k, (∀ id r, Event.tail id r ∈ ev → id.toNat ≠ k) → c'.backImage k = c.backImage k
  commit : ∀ pre id r post, ev = pre ++ .tail id r :: post →
    ∃ t, pre.foldl Txn.track txn = some t ∧ t.id = id ∧ r = t.frame + 1 ∧
      (∀ b ∈ t.bodies, b.Complete) ∧
      ∀ b, c.backImage id.toNat = some b → c'.backImage id.toNat = some (t.apply b)

theorem BackSpec.of_no_tail {c c' : RamNvCtl} {txn : Option Txn} {ev : List Event}
    (hback : ∀ k, c'.backImage k = c.backImage k) (hev : ∀ id r, Event.tail id r ∉ ev) :
    BackSpec c c' txn ev :=
  ⟨fun k _ => hback k, fun pre id r post h => absurd (h ▸ by simp) (hev id r)⟩

/-- Events before the rest of the packet that accept no tail and touch no `backup` image. -/
theorem BackSpec.cons {c c₁ c' : RamNvCtl} {txn : Option Txn} {e : Event} {ev : List Event}
    (h : BackSpec c₁ c' (Txn.track txn e) ev) (hback : ∀ k, c₁.backImage k = c.backImage k)
    (he : ∀ id r, e ≠ .tail id r) : BackSpec c c' txn (e :: ev) := by
  refine ⟨fun k hk => ?_, fun pre id r post hev => ?_⟩
  · rw [h.keep k fun id r hm => hk id r (List.mem_cons_of_mem _ hm), hback]
  · cases pre with
    | nil => exact absurd (List.cons.inj hev).1 (he id r)
    | cons e' pre =>
      obtain ⟨rfl, hev'⟩ := List.cons.inj hev
      obtain ⟨t, h1, h2, h3, h4, h5⟩ := h.commit pre id r post hev'
      exact ⟨t, h1, h2, h3, h4, fun b hb => h5 b (by rw [hback]; exact hb)⟩

/-- **Every exit of the inner loop keeps the simulation.** -/
theorem Parses.sim {env : SaveEnv} {hd : PacketHead} {s s' : Analyzer} {buf : List UInt8}
    {ev : List Event} (h : Parses env hd s buf s' ev) :
    ∀ {txn : Option Txn}, Sim s txn → (∀ e ∈ ev, InRange s.ctl e) →
      Sim s' (ev.foldl Txn.track txn) ∧ BackSpec s.ctl s'.ctl txn ev := by
  induction h with
  | nil => exact fun hs _ => ⟨hs, .of_no_tail (fun _ => rfl) (by simp)⟩
  | short => exact fun hs _ => ⟨hs, .of_no_tail (fun _ => rfl) (by simp [rspEvent])⟩
  | @badHead s tok _ hp =>
    intro txn hs _
    obtain rfl := hs.eq_none hp
    exact ⟨Sim.clean rfl hs.images, .of_no_tail (fun _ => rfl) (by simp [rspEvent])⟩
  | @head s tok _ _ _ hp _ hok _ ih =>
    intro txn hs hr
    obtain rfl := hs.eq_none hp
    obtain ⟨h1, h2⟩ := ih (hs.afterHead hok) fun e he =>
      hr e (List.mem_cons_of_mem _ (List.mem_cons_of_mem _ he))
    exact ⟨h1, (h2.cons (fun _ => rfl) (by simp)).cons (fun _ => rfl) (by simp)⟩
  | @badBody s tok _ hp =>
    intro txn hs _
    obtain ⟨t, rfl⟩ := hs.eq_some fun h => by cases hp.symm.trans h
    refine ⟨hs.restore _ rfl (fun t' ht' => ?_), ?_⟩
    · cases ht'; exact hs.phase.1
    · exact .of_no_tail (backImage_restoreData _ _) (by simp [rspEvent])
  | @body s tok _ _ _ hp _ hok _ ih =>
    intro txn hs hr
    obtain ⟨t, rfl⟩ := hs.eq_some fun h => by cases hp.symm.trans h
    have hsame := markDirtyInfo_same s.ctl s.sync.id (reqStart tok) (reqNum tok)
    have hb := hs.afterBody hp hok (hr _ (List.mem_cons_of_mem _ List.mem_cons_self))
    obtain ⟨h1, h2⟩ := ih hb fun e he =>
      (hr e (List.mem_cons_of_mem _ (List.mem_cons_of_mem _ he))).congr hsame.layout_eq
    exact ⟨h1, (h2.cons hsame.back_eq (by simp)).cons (fun _ => rfl) (by simp)⟩
  | @tail s tok _ hp _ hok =>
    intro txn hs _
    obtain ⟨t, rfl⟩ := hs.eq_some fun h => by cases hp.symm.trans h
    obtain ⟨hid, hf, hph⟩ := hs.phase
    obtain ⟨h1, h2⟩ := hs.commit env (syncInit (s.sync.load tok)) rfl
    refine ⟨h1, ⟨fun k hk => ?_, fun pre id r post hev => ?_⟩⟩
    · have hne : k ≠ t.id.toNat := fun e =>
        hk s.sync.id (reqReqIdx tok) (by simp) (by rw [← hid, e])
      cases hb : s.ctl.backImage k with
      | none =>
        rw [backImage_eq_none_iff, ← layout_backupData env s.ctl s.sync.id,
          ← backImage_eq_none_iff] at hb
        exact hb
      | some b =>
        have := h2 k b hb
        rwa [if_neg hne] at this
    · -- the tail token is the second event, and the only one of its kind
      obtain ⟨rfl, rfl, rfl⟩ : pre = [.token tok] ∧ s.sync.id = id ∧ reqReqIdx tok = r := by
        cases pre with
        | nil => simp at hev
        | cons e pre =>
          cases pre with
          | nil =>
            simp only [List.cons_append, List.nil_append, List.cons.injEq, Event.tail.injEq] at hev
            exact ⟨by rw [hev.1], hev.2.1.1, hev.2.1.2⟩
          | cons e' pre =>
            have hm : Event.tail id r ∈ [Event.backupData s.sync.id,
                rspEvent hd (backupData env s.ctl s.sync.id).2] := by
              rw [(List.cons.inj (List.cons.inj hev).2).2]
              simp
            simp [rspEvent] at hm
      refine ⟨t, rfl, hid, by rw [hf]; exact hok.2, ?_, fun b hb => ?_⟩
      · rcases hph with ⟨-, hc⟩ | ⟨hd', -⟩
        · exact hc
        · rw [hp] at hd'; cases hd'
      · have := h2 _ b hb
        rwa [if_pos (by rw [hid])] at this
  | @data s d _ _ _ hp hlen _ _ ih =>
    intro txn hs hr
    obtain ⟨t, rfl⟩ := hs.eq_some fun h => by cases hp.symm.trans h
    have hb : Sim (s.afterData d) _ :=
      hs.writeData hp (Nat.le_of_eq hlen) rfl rfl rfl (Or.inl ⟨rfl, hlen⟩)
    have hl := layout_writeData s.ctl s.sync.id s.sync.start d
    obtain ⟨h1, h2⟩ := ih hb fun e he => (hr e (List.mem_cons_of_mem _ he)).congr hl
    exact ⟨h1, h2.cons (backImage_writeData _ _ _ _) (by simp)⟩
  | @part s d hp _ hl =>
    intro txn hs _
    obtain ⟨t, rfl⟩ := hs.eq_some fun h => by cases hp.symm.trans h
    have hb : Sim (s.afterPart d) _ :=
      hs.writeData hp (Nat.le_of_lt hl) rfl rfl rfl (Or.inr ⟨hp, rfl, rfl⟩)
    exact ⟨hb, .of_no_tail (backImage_writeData _ _ _ _) (by simp [rspEvent])⟩

theorem foldl_track_abortEvents {s : Analyzer} {txn : Option Txn} (h : Sim s txn) :
    s.abortEvents.foldl Txn.track txn = none := by
  by_cases hp : s.sync.syncState = .head
  · obtain rfl := h.eq_none hp
    simp [Analyzer.abortEvents, hp]
  · simp only [Analyzer.abortEvents, hp, if_false, List.foldl_cons, List.foldl_nil]
    cases txn <;> rfl

theorem Sim.abort {s : Analyzer} {txn : Option Txn} (h : Sim s txn) : Sim s.abort none := by
  by_cases hp : s.sync.syncState = .head
  · obtain rfl := h.eq_none hp
    simp only [Analyzer.abort, hp, if_true]
    exact Sim.clean rfl h.images
  · simp only [Analyzer.abort, hp, if_false]
    apply h.restore _ rfl
    intro t ht
    subst ht
    exact h.phase.1

theorem Analyzer.backImage_abort (s : Analyzer) (k : Nat) :
    s.abort.ctl.backImage k = s.ctl.backImage k := by
  unfold Analyzer.abort
  split
  · rfl
  · exact backImage_restoreData _ _ _

theorem Analyzer.tail_not_mem_abortEvents (s : Analyzer) (id r : UInt32) :
    Event.tail id r ∉ s.abortEvents := by
  unfold Analyzer.abortEvents
  split <;> simp

/-- Setting `_syncBusy` does not concern the simulation. -/
theorem Sim.busy {s : Analyzer} {txn : Option Txn} (h : Sim s txn) : Sim s.busy txn := by
  obtain ⟨h1, h2, h3⟩ := h
  cases txn with
  | none => exact ⟨h1, h2, h3⟩
  | some t => exact ⟨h1, h2, h3⟩

theorem BackSpec.append {c c₁ c' : RamNvCtl} {txn : Option Txn} {pre ev : List Event}
    (h : BackSpec c₁ c' (pre.foldl Txn.track txn) ev)
    (hback : ∀ k, c₁.backImage k = c.backImage k) (hpre : ∀ id r, Event.tail id r ∉ pre) :
    BackSpec c c' txn (pre ++ ev) := by
  induction pre generalizing txn with
  | nil =>
    refine ⟨fun k hk => by rw [h.keep k hk, hback], fun pre id r post hev => ?_⟩
    obtain ⟨t, h1, h2, h3, h4, h5⟩ := h.commit pre id r post hev
    exact ⟨t, h1, h2, h3, h4, fun b hb => h5 b (by rw [hback]; exact hb)⟩
  | cons e pre ih =>
    have hrest := ih h fun id r hm => hpre id r (List.mem_cons_of_mem _ hm)
    exact hrest.cons (fun _ => rfl) fun id r he => hpre id r (by rw [he]; exact List.mem_cons_self)

/-- **Every packet keeps the simulation.** -/
theorem PacketStep.sim {s s' : Nvitemd} {i : Input} {ev : List Event} (h : PacketStep s i s' ev)
    {txn : Option Txn} (hs : Sim s.an txn) (hr : ∀ e ∈ ev, InRange s.an.ctl e) :
    Sim s'.an (ev.foldl Txn.track txn) ∧ BackSpec s.an.ctl s'.an.ctl txn ev := by
  cases h with
  | fail =>
    rw [foldl_track_abortEvents hs]
    exact ⟨hs.abort, .of_no_tail s.an.backImage_abort s.an.tail_not_mem_abortEvents⟩
  | skip => exact ⟨hs, .of_no_tail (fun _ => rfl) (by simp)⟩
  | @start s' ev _ hp =>
    have hr' : ∀ e ∈ ev, InRange s.an.abort.busy.ctl e := fun e he =>
      (hr e (List.mem_append_right _ he)).congr s.an.layout_abort
    obtain ⟨h1, h2⟩ := hp.sim hs.abort.busy hr'
    rw [List.foldl_append, foldl_track_abortEvents hs]
    refine ⟨h1, BackSpec.append ?_ s.an.backImage_abort s.an.tail_not_mem_abortEvents⟩
    rw [foldl_track_abortEvents hs]
    exact h2
  | noHead => exact ⟨hs, .of_no_tail (fun _ => rfl) (by simp [rspEvent])⟩
  | cont _ _ hp => exact hp.sim hs hr

/-! ## Whole runs -/

theorem Sim.init (config : List PartSource) : Sim (nvitemdInit config).an none := by
  apply Sim.clean rfl
  intro k b hb
  simp only [RamNvCtl.backImage, RamNvCtl.fromImage, initBuf, List.getElem?_map, Option.map_map]
    at hb ⊢
  exact hb

/-- What holds in every state reached by in-range requests. -/
theorem reachable_sim (config : List PartSource) (ins : List Input)
    (hadm : nvitemd.Admits InRangeStep (nvitemdInit config) ins) :
    let r := nvitemd.run (nvitemdInit config) ins
    r.1.an.Wf ∧ Sim r.1.an (txnOf r.2) := by
  refine nvitemd.run_induction (P := fun s log => s.an.Wf ∧ Sim s.an (txnOf log)) ?_ ins _ []
    ⟨Analyzer.wf_init _ _, Sim.init config⟩ hadm
  rintro s log i ⟨hw, hs⟩ hr
  have hstep := packetStep hw i
  refine ⟨hstep.wf hw, ?_⟩
  rw [txnOf, List.foldl_append]
  exact (hstep.sim hs hr).1

/-- **Sync requests are atomic.** In every state reached from start-up by packets whose accepted
body tokens lie inside their partition, `fromChannel` is `backup` overlaid, in order, with the data
the open request has received, and equal to `backup` when no request is open. A packet changes the
`backup` image of a partition only when a tail token with the next request index is accepted for
it, and the image is then the one the request leads to, all data of its body tokens having
arrived. -/
theorem sync_atomic (config : List PartSource) (ins : List Input)
    (hadm : nvitemd.Admits InRangeStep (nvitemdInit config) ins) :
    let s := (nvitemd.run (nvitemdInit config) ins).1
    let log := (nvitemd.run (nvitemdInit config) ins).2
    (∀ k b, s.an.ctl.backImage k = some b →
      s.an.ctl.fromImage k = some (openImage (txnOf log) k b)) ∧
    (s.an.sync.syncBusy = false → ∀ k, s.an.ctl.fromImage k = s.an.ctl.backImage k) ∧
    ∀ i, InRangeStep s i →
      let s' := (nvitemd.step s i).1
      let ev := (nvitemd.step s i).2
      (∀ k, s'.an.ctl.backImage k ≠ s.an.ctl.backImage k →
        ∃ id r, Event.tail id r ∈ ev ∧ id.toNat = k) ∧
      ∀ pre id r post, ev = pre ++ .tail id r :: post →
        ∃ t, txnOf (log ++ pre) = some t ∧ t.id = id ∧ r = t.frame + 1 ∧
          (∀ b ∈ t.bodies, b.Complete) ∧
          ∀ b, s.an.ctl.backImage id.toNat = some b →
            s'.an.ctl.backImage id.toNat = some (t.apply b) := by
  intro s log
  obtain ⟨hw, hs⟩ : s.an.Wf ∧ Sim s.an (txnOf log) := reachable_sim config ins hadm
  refine ⟨hs.images, fun hb k => ?_, fun i hr => ?_⟩
  · have hp : s.an.sync.syncState = .head := by rw [hw.idle hb]; rfl
    have himg := hs.images k
    rw [hs.eq_none hp] at himg
    cases hk : s.an.ctl.backImage k with
    | some b => exact himg b hk
    | none =>
      rw [backImage_eq_none_iff] at hk
      simpa [RamNvCtl.fromImage, RamNvCtl.layout] using hk
  · obtain ⟨-, hback⟩ := (packetStep hw i).sim hs hr
    refine ⟨fun k hne => ?_, fun pre id r post hev => ?_⟩
    · by_contra hno
      exact hne (hback.keep k fun id r hm e => hno ⟨id, r, hm, e⟩)
    · rw [txnOf, List.foldl_append]
      exact hback.commit pre id r post hev

/-- A packet that carries a whole request: head, one body token with a sector of sevens, tail. -/
def sevensPacket : Input where
  read := packetOf 5 0 (syncReq 0 9 1 512 512 ++ syncReq 1 10 1 0 1 ++ List.replicate 512 7 ++
    syncReq 2 11 1 0 0)
  env := plainEnv

theorem sync_atomic_sevens :
    InRangeStep (nvitemdInit [zeroPart]) sevensPacket ∧
      (nvitemd.step (nvitemdInit [zeroPart]) sevensPacket).1.an.ctl.backImage 0 =
        some (overlay (List.replicate 512 0) [(0, List.replicate 512 7)]) := by
  have hr : InRangeStep (nvitemdInit [zeroPart]) sevensPacket := by decide +kernel
  have h := ((sync_atomic [zeroPart] [] trivial).2.2 sevensPacket hr).2
  simp only [Machine.run_nil, List.nil_append] at h
  generalize hstep : nvitemd.step (nvitemdInit [zeroPart]) sevensPacket = r at h ⊢
  -- the tail token is the seventh event
  have hev : r.2 = r.2.take 6 ++ .tail 0 11 :: r.2.drop 7 := by
    rw [← hstep]
    decide +kernel
  have htxn : txnOf (r.2.take 6) = some ⟨0, 10, [⟨0, 1, List.replicate 512 7⟩]⟩ := by
    rw [← hstep]
    decide +kernel
  have h0 : (nvitemdInit [zeroPart]).an.ctl.backImage 0 = some (List.replicate 512 0) := by
    decide +kernel
  obtain ⟨t, ht, -, -, -, hb⟩ := h _ 0 11 _ hev
  obtain rfl := Option.some.inj (htxn.symm.trans ht)
  exact ⟨hr, hb _ h0⟩

end SprdHal.Nvitem
