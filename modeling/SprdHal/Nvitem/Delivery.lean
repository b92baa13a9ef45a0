import SprdHal.Nvitem.Scan

/-!
# In-order delivery to the analyser

The packet layer remembers a group and a sub-index, the analyser remembers whether a request is
open, and the two are reset at different moments. The ghost record `Delivery` watches both: a
window opens when `_syncBusy` becomes 1 and closes when it next becomes 0, and keeps the packets
whose payload went through the inner loop in between and the bytes that were copied out of them.

Every window holds the packets 0, 1, 2, … of one group (`deliver_in_order`), and what was parsed is
what the reader of the request format reads from their payloads. That is all of them exactly when
no packet has bytes left over: none ends inside a token, and none goes on after the token that ends
its request.
-/

namespace SprdHal.Nvitem

open SprdHal.Lib

/-! ## Reading packet after packet -/

section Reading

variable (known : UInt32 → Bool)

/-- Where the reader stands after the payloads; `none` after the end of the request. -/
def readerAfter (c : Option Cursor) (ps : List (List UInt8)) : Option Cursor :=
  ps.foldl (fun c p => c.bind fun c => (scan known c p).next) c

/-- What each payload has left over. -/
def leftovers : Option Cursor → List (List UInt8) → List (List UInt8)
  | _, [] => []
  | none, p :: ps => p :: leftovers none ps
  | some c, p :: ps => (scan known c p).unread :: leftovers (scan known c p).next ps

/-- A payload without the bytes left over at its end. -/
def withoutEnd (p u : List UInt8) : List UInt8 := p.take (p.length - u.length)

/-- The bytes read from the payloads. -/
def bytesRead (c : Option Cursor) (ps : List (List UInt8)) : List UInt8 :=
  (List.zipWith withoutEnd ps (leftovers known c ps)).flatten

theorem length_leftovers (c : Option Cursor) (ps : List (List UInt8)) :
    (leftovers known c ps).length = ps.length := by
  induction ps generalizing c with
  | nil => cases c <;> rfl
  | cons p ps ih => cases c <;> simp [leftovers, ih]

theorem leftovers_snoc (c : Option Cursor) (ps : List (List UInt8)) {c' : Cursor}
    (h : readerAfter known c ps = some c') (p : List UInt8) :
    leftovers known c (ps ++ [p]) = leftovers known c ps ++ [(scan known c' p).unread] := by
  induction ps generalizing c with
  | nil =>
    obtain rfl : c = some c' := h
    rfl
  | cons q ps ih =>
    cases c with
    | none =>
      have hnone : readerAfter known none ps = some c' := h
      simp [leftovers, ih none hnone]
    | some c =>
      have hnext : readerAfter known (scan known c q).next ps = some c' := h
      simp [leftovers, ih _ hnext]

theorem bytesRead_snoc (c : Option Cursor) (ps : List (List UInt8)) {c' : Cursor}
    (h : readerAfter known c ps = some c') (p : List UInt8) :
    bytesRead known c (ps ++ [p]) =
      bytesRead known c ps ++ withoutEnd p (scan known c' p).unread := by
  rw [bytesRead, leftovers_snoc known c ps h,
    List.zipWith_append (length_leftovers known c ps).symm]
  simp [bytesRead]

theorem readerAfter_snoc (c : Option Cursor) (ps : List (List UInt8)) (p : List UInt8) :
    readerAfter known c (ps ++ [p]) =
      (readerAfter known c ps).bind fun c => (scan known c p).next := by
  simp [readerAfter, List.foldl_append]

end Reading

/-- Cutting the ends off leaves the whole exactly when there is nothing to cut off. -/
theorem flatten_withoutEnd_iff {ps us : List (List UInt8)}
    (h : List.Forall₂ (fun p u => u.length ≤ p.length) ps us) :
    (List.zipWith withoutEnd ps us).flatten = ps.flatten ↔ ∀ u ∈ us, u = [] := by
  have hlen : (List.zipWith withoutEnd ps us).flatten.length + us.flatten.length =
      ps.flatten.length := by
    induction h with
    | nil => rfl
    | cons hle _ ih =>
      simp only [List.zipWith_cons_cons, List.flatten_cons, List.length_append, withoutEnd,
        List.length_take]
      omega
  constructor
  · intro heq
    rw [heq] at hlen
    exact List.flatten_eq_nil_iff.mp (List.length_eq_zero_iff.mp (by omega))
  · intro hall
    clear hlen
    induction h with
    | nil => rfl
    | @cons p u ps us _ _ ih =>
      have hu := hall u List.mem_cons_self
      have hrest := ih fun u' hu' => hall u' (List.mem_cons_of_mem _ hu')
      simp [withoutEnd, hu, hrest]

theorem leftovers_le (known : UInt32 → Bool) (c : Option Cursor) (ps : List (List UInt8)) :
    List.Forall₂ (fun p u => u.length ≤ p.length) ps (leftovers known c ps) := by
  induction ps generalizing c with
  | nil => cases c <;> exact .nil
  | cons p ps ih =>
    cases c with
    | none => exact .cons (Nat.le_refl _) (ih none)
    | some c => exact .cons (length_unread_le known c p) (ih _)

/-- All bytes are read exactly when no payload has bytes left over. -/
theorem bytesRead_eq_iff (known : UInt32 → Bool) (c : Option Cursor) (ps : List (List UInt8)) :
    bytesRead known c ps = ps.flatten ↔ ∀ u ∈ leftovers known c ps, u = [] :=
  flatten_withoutEnd_iff (leftovers_le known c ps)

/-! ## Windows -/

/-- What happened between the moment `_syncBusy` became 1 and the moment it next became 0. -/
structure Window where
  packets : List ChannelRead
  parsed : List UInt8

def Window.payloads (w : Window) : List (List UInt8) := w.packets.map (·.payload)

/-- The window that is open, those that are closed, and the bytes parsed outside any window. -/
structure Delivery where
  current : Option Window
  closed : List Window
  stray : List UInt8

/-- One iteration of the outer loop seen from outside. `handed` is the packet if its payload goes
through the inner loop, `bytes` are the payload bytes parsed, and `busy` is `_syncBusy`
afterwards. `_syncBusy` goes from 0 to 1 where a group starts: an open request is reset first. -/
def Delivery.record (d : Delivery) (starts : Bool) (handed : List ChannelRead)
    (bytes : List UInt8) (busy : Bool) : Delivery :=
  let closed := if starts then d.closed ++ d.current.toList else d.closed
  match if starts then some ⟨[], []⟩ else d.current with
  | none => ⟨none, closed, d.stray ++ bytes⟩
  | some w =>
    let w : Window := ⟨w.packets ++ handed, w.parsed ++ bytes⟩
    if busy then ⟨some w, closed, d.stray⟩ else ⟨none, closed ++ [w], d.stray⟩

def Delivery.step (s : Nvitemd) (d : Delivery) (i : Input) : Delivery :=
  let res := (getPacket s.pkt i.read).1
  let handed := if res = .start ∨ res = .cont ∧ s.an.sync.syncBusy = true then [i.read] else []
  d.record (res = .start) handed (parsedBytes (nvitemdStep s i).2)
    (nvitemdStep s i).1.an.sync.syncBusy

/-- The daemon with its record. -/
def watched : Machine (Nvitemd × Delivery) Input Event where
  step s i := (((nvitemd.step s.1 i).1, s.2.step s.1 i), (nvitemd.step s.1 i).2)

def watchedInit (config : List PartSource) : Nvitemd × Delivery :=
  (nvitemdInit config, ⟨none, [], []⟩)

/-- Watching does not interfere. -/
theorem watched_run (s : Nvitemd) (d : Delivery) (ins : List Input) :
    (watched.run (s, d) ins).1.1 = (nvitemd.run s ins).1 ∧
      (watched.run (s, d) ins).2 = (nvitemd.run s ins).2 := by
  induction ins generalizing s d with
  | nil => exact ⟨rfl, rfl⟩
  | cons i ins ih =>
    obtain ⟨h1, h2⟩ := ih (nvitemd.step s i).1 (d.step s i)
    exact ⟨h1, congrArg ((nvitemd.step s i).2 ++ ·) h2⟩

/-! ## The joint invariant -/

section Invariant

variable (known : UInt32 → Bool)

/-- A window holds packets 0, 1, 2, … of one group, and what was parsed is what the reader reads
from them. -/
structure Window.InOrder (w : Window) (g : UInt32) : Prop where
  nonempty : w.packets ≠ []
  index : ∀ (k : Nat) r, w.packets[k]? = some r → r.head.idxGrp = g ∧ r.head.idxSub = UInt32.ofNat k
  parsed : w.parsed = bytesRead known (some .head) w.payloads

/-- While a window is open the packet layer waits for its next packet, and the static variables of
the analyser are where the reader stands. -/
structure Window.Open (w : Window) (s : Nvitemd) : Prop where
  busy : s.an.sync.syncBusy = true
  order : w.InOrder known s.pkt.idxGrp
  next : s.pkt.idxSub + 1 = UInt32.ofNat w.packets.length
  reader : readerAfter known (some .head) w.payloads = some s.an.cursor

structure Delivery.Inv (s : Nvitemd) (d : Delivery) : Prop where
  wf : s.an.Wf
  knows : s.an.ctl.knows = known
  stray : d.stray = []
  closed : ∀ w ∈ d.closed, ∃ g, w.InOrder known g
  idle : d.current = none → s.an.sync.syncBusy = false
  current : ∀ w, d.current = some w → w.Open known s

variable {known}

/-- What one payload adds to the window. -/
theorem Parses.reads {env : SaveEnv} {hd : PacketHead} {s s' : Analyzer} {buf : List UInt8}
    {ev : List Event} (h : Parses env hd s buf s' ev) (hb : s.sync.syncBusy = true)
    (hk : s.ctl.knows = known) :
    parsedBytes ev = withoutEnd buf (scan known s.cursor buf).unread ∧
      (s'.sync.syncBusy = true → (scan known s.cursor buf).next = some s'.cursor) := by
  subst hk
  obtain ⟨hend, hcut⟩ := h.ends hb
  constructor
  · generalize (scan s.ctl.knows s.cursor buf).unread = u at hcut
    rw [withoutEnd, hcut]
    simp
  · intro hb'
    cases hscan : scan s.ctl.knows s.cursor buf with
    | between c => rw [hscan] at hend; exact congrArg some hend.2.1.symm
    | inData c => rw [hscan] at hend; exact congrArg some hend.2.1.symm
    | inToken c part => rw [hscan] at hend; exact congrArg some hend.2.1.symm
    | refused rest =>
      rw [hscan] at hend
      rw [hend.1] at hb'
      cases hb'
    | committed rest =>
      rw [hscan] at hend
      rw [hend.1] at hb'
      cases hb'

theorem parsedBytes_append (a b : List Event) :
    parsedBytes (a ++ b) = parsedBytes a ++ parsedBytes b := by
  induction a with
  | nil => rfl
  | cons e a ih => cases e <;> simp [parsedBytes, ih]

theorem parsedBytes_abortEvents (s : Analyzer) : parsedBytes s.abortEvents = [] := by
  unfold Analyzer.abortEvents
  split <;> rfl

/-- The next packet of the group extends the window. -/
theorem Window.InOrder.snoc {w : Window} {g : UInt32} {r : ChannelRead} {bytes : List UInt8}
    {c : Cursor} (h : w.InOrder known g) (hr : readerAfter known (some .head) w.payloads = some c)
    (hg : r.head.idxGrp = g) (hi : r.head.idxSub = UInt32.ofNat w.packets.length)
    (hb : bytes = withoutEnd r.payload (scan known c r.payload).unread) :
    Window.InOrder known ⟨w.packets ++ [r], w.parsed ++ bytes⟩ g := by
  refine ⟨by simp, fun k r' hk => ?_, ?_⟩
  · rcases Nat.lt_trichotomy k w.packets.length with hlt | heq | hgt
    · exact h.index k r' (by simpa [List.getElem?_append_left hlt] using hk)
    · subst heq
      obtain rfl : r = r' := by simpa using hk
      exact ⟨hg, hi⟩
    · rw [List.getElem?_eq_none (by simp; omega)] at hk
      cases hk
  · show w.parsed ++ bytes = bytesRead known (some .head) ((w.packets ++ [r]).map (·.payload))
    rw [List.map_append, h.parsed, hb]
    exact (bytesRead_snoc known _ _ hr _).symm

/-- The first packet of a group makes a window. -/
theorem Window.InOrder.single {r : ChannelRead} {bytes : List UInt8} (hi : r.head.idxSub = 0)
    (hb : bytes = withoutEnd r.payload (scan known .head r.payload).unread) :
    Window.InOrder known ⟨[r], bytes⟩ r.head.idxGrp := by
  refine ⟨by simp, fun k r' hk => ?_, ?_⟩
  · cases k with
    | zero =>
      obtain rfl : r = r' := by simpa using hk
      exact ⟨rfl, hi⟩
    | succ k => simp at hk
  · simp [Window.payloads, bytesRead, leftovers, hb]

/-! ### The record after one packet -/

/-- A packet that is not handed on and yields no bytes: the window stays, or is closed. -/
theorem Delivery.Inv.record_nothing {s s' : Nvitemd} {d : Delivery} (h : d.Inv known s)
    (hw : s'.an.Wf) (hk : s'.an.ctl.knows = known)
    (hs : s'.an.sync.syncBusy = false ∨ s' = s) :
    (d.record false [] [] s'.an.sync.syncBusy).Inv known s' := by
  have hclosed := h.closed
  cases hc : d.current with
  | none =>
    have hb : s'.an.sync.syncBusy = false := by
      rcases hs with hb | rfl
      · exact hb
      · exact h.idle hc
    simp only [Delivery.record, hc, Bool.false_eq_true, if_false, List.append_nil]
    exact ⟨hw, hk, h.stray, hclosed, fun _ => hb, by simp⟩
  | some w =>
    have hopen := h.current w hc
    simp only [Delivery.record, hc, Bool.false_eq_true, if_false, List.append_nil]
    rcases hs with hb | rfl
    · simp only [hb, Bool.false_eq_true, if_false]
      refine ⟨hw, hk, h.stray, fun w' hw' => ?_, fun _ => hb, by simp⟩
      rcases List.mem_append.mp hw' with hm | hm
      · exact hclosed w' hm
      · obtain rfl := List.mem_singleton.mp hm
        exact ⟨_, hopen.order⟩
    · simp only [hopen.busy, if_true]
      refine ⟨hw, hk, h.stray, hclosed, by simp, fun w' hw' => ?_⟩
      obtain rfl : w = w' := by simpa using hw'
      exact hopen

/-- A packet of the window `w` that was handed on: the window goes on, or is closed. -/
theorem Delivery.Inv.of_handed {s' : Nvitemd} {d : Delivery} {w : Window} {closed : List Window}
    (hw : s'.an.Wf) (hk : s'.an.ctl.knows = known) (hstray : d.stray = [])
    (hclosed : ∀ w ∈ closed, ∃ g, w.InOrder known g) (ho : w.InOrder known s'.pkt.idxGrp)
    (hn : s'.pkt.idxSub + 1 = UInt32.ofNat w.packets.length)
    (hr : s'.an.sync.syncBusy = true →
      readerAfter known (some .head) w.payloads = some s'.an.cursor) :
    Delivery.Inv known s' (if s'.an.sync.syncBusy then ⟨some w, closed, d.stray⟩
      else ⟨none, closed ++ [w], d.stray⟩) := by
  cases hb : s'.an.sync.syncBusy with
  | true =>
    rw [if_pos rfl]
    refine ⟨hw, hk, hstray, hclosed, by simp, fun w' hw' => ?_⟩
    obtain rfl : w = w' := by simpa using hw'
    exact ⟨hb, ho, hn, hr hb⟩
  | false =>
    rw [if_neg (by decide)]
    refine ⟨hw, hk, hstray, fun w' hw' => ?_, fun _ => hb, by simp⟩
    rcases List.mem_append.mp hw' with hm | hm
    · exact hclosed w' hm
    · obtain rfl := List.mem_singleton.mp hm
      exact ⟨_, ho⟩

theorem Delivery.Inv.step {s : Nvitemd} {d : Delivery} (h : d.Inv known s) (i : Input) :
    (d.step s i).Inv known (nvitemdStep s i).1 := by
  have hstep := packetStep h.wf i
  have hw := hstep.wf h.wf
  have hk : (nvitemdStep s i).1.an.ctl.knows = known := (knows_congr hstep.layout).trans h.knows
  unfold Delivery.step
  generalize (nvitemdStep s i).1 = s' at hstep hw hk ⊢
  generalize (nvitemdStep s i).2 = ev at hstep ⊢
  cases hstep with
  | fail hres =>
    have := h.record_nothing hw hk (Or.inl rfl)
    simpa [hres, parsedBytes_abortEvents] using this
  | skip hres =>
    have := h.record_nothing hw hk (Or.inr rfl)
    simpa [hres, parsedBytes] using this
  | @start a ev hres hp =>
    obtain ⟨-, hsub, -⟩ := getPacket_start hres
    obtain ⟨hbytes, hnext⟩ := hp.reads rfl ((knows_congr s.an.layout_abort).trans h.knows)
    have hpb : parsedBytes (s.an.abortEvents ++ ev) = parsedBytes ev := by
      rw [parsedBytes_append, parsedBytes_abortEvents, List.nil_append]
    simp only [hres, Delivery.record, hpb, decide_true, if_true, true_or, List.nil_append]
    refine Delivery.Inv.of_handed hw hk h.stray (fun w hm => ?_) (.single hsub hbytes) rfl hnext
    rcases List.mem_append.mp hm with hm | hm
    · exact h.closed w hm
    · exact ⟨_, (h.current w (Option.mem_toList.mp hm)).order⟩
  | noHead hres hb =>
    have hc : d.current = none := by
      cases hc : d.current with
      | none => rfl
      | some w =>
        have := (h.current w hc).busy
        rw [hb] at this
        cases this
    have := h.record_nothing hw hk (Or.inl hb)
    simpa [hres, hb, parsedBytes, rspEvent] using this
  | @cont a ev hres hb hp =>
    obtain ⟨hgrp, hsub, -⟩ := getPacket_cont hres
    obtain ⟨hbytes, hnext⟩ := hp.reads hb h.knows
    cases hc : d.current with
    | none =>
      have := h.idle hc
      rw [hb] at this
      cases this
    | some w =>
      have hopen := h.current w hc
      have hrec : d.record false [i.read] (parsedBytes ev) a.sync.syncBusy =
          if a.sync.syncBusy then
            ⟨some ⟨w.packets ++ [i.read], w.parsed ++ parsedBytes ev⟩, d.closed, d.stray⟩
          else ⟨none, d.closed ++ [⟨w.packets ++ [i.read], w.parsed ++ parsedBytes ev⟩],
            d.stray⟩ := by
        simp only [Delivery.record, hc, Bool.false_eq_true, if_false]
      simp only [hres, hb, reduceCtorEq, decide_false, false_or, and_self, if_true, hrec]
      refine Delivery.Inv.of_handed hw hk h.stray h.closed ?_ ?_ fun hb' => ?_
      · exact hopen.order.snoc hopen.reader hgrp (hsub.trans hopen.next) hbytes
      · rw [List.length_append, List.length_singleton, hopen.next, UInt32.ofNat_add]
        rfl
      · show readerAfter known (some .head) ((w.packets ++ [i.read]).map (·.payload)) = _
        rw [List.map_append, List.map_singleton, readerAfter_snoc,
          show readerAfter known (some .head) (w.packets.map (·.payload)) = _ from hopen.reader]
        exact hnext hb'

end Invariant

/-- **In-order, unmixed delivery.** In every run, nothing is parsed outside a window, and every
window, closed or open, holds the packets 0, 1, 2, … of one group. What was parsed in it is what
the reader reads from their payloads; that is all of their bytes exactly when no packet has bytes
left over. -/
theorem deliver_in_order (config : List PartSource) (ins : List Input) :
    let d := (watched.run (watchedInit config) ins).1.2
    let known := (initBuf config).knows
    d.stray = [] ∧ ∀ w ∈ d.closed ++ d.current.toList, ∃ g,
      w.packets ≠ [] ∧
      (∀ (k : Nat) r, w.packets[k]? = some r →
        r.head.idxGrp = g ∧ r.head.idxSub = UInt32.ofNat k) ∧
      w.parsed = bytesRead known (some .head) w.payloads ∧
      (w.parsed = w.payloads.flatten ↔
        ∀ u ∈ leftovers known (some .head) w.payloads, u = []) := by
  intro d known
  have hinv : d.Inv known (watched.run (watchedInit config) ins).1.1 :=
    watched.run_invariant (P := fun s => s.2.Inv known s.1) (fun s i h => h.step i) ins _
      ⟨Analyzer.wf_init _ _, rfl, rfl, by simp [watchedInit], fun _ => rfl, by simp [watchedInit]⟩
  refine ⟨hinv.stray, fun w hw => ?_⟩
  obtain ⟨g, ho⟩ : ∃ g, w.InOrder known g := by
    rcases List.mem_append.mp hw with hm | hm
    · exact hinv.closed w hm
    · exact ⟨_, (hinv.current w (Option.mem_toList.mp hm)).order⟩
  refine ⟨g, ho.nonempty, ho.index, ho.parsed, ?_⟩
  rw [ho.parsed]
  exact bytesRead_eq_iff known _ _

/-- A head token cut in two, and then the end of the connection. -/
def cutHeadRun : List Input :=
  [⟨packetOf 5 0 ((syncReq 0 9 1 512 512).take 10), plainEnv⟩,
    ⟨packetOf 5 1 ((syncReq 0 9 1 512 512).drop 10), plainEnv⟩,
    ⟨{ packetOf 5 2 [] with ret := 0 }, plainEnv⟩]

theorem cutHeadRun_gap :
    (watched.run (watchedInit [zeroPart]) cutHeadRun).1.2.closed.map
      (fun w => (w.parsed, w.payloads.flatten)) = [([], syncReq 0 9 1 512 512)] := by
  decide +kernel

end SprdHal.Nvitem
