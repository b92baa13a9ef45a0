import SprdHal.Audio.MuxPcm

/-!
# Who holds a sound card

Between two calls all locks should be free, and the bit of a direction should be set exactly when
one stream holds the card in that direction (`World.Owned`). Four error paths break this:
`mux_snd_card_get` keeps the mutex when the card does not exist, `saudio_send_common_cmd` keeps the
lock of the card when the answer is cut short, `mux_pcm_close` does not release the card when a
command fails, and a stream whose `mux_pcm_open` failed after the card was taken has no flags, so
that closing it releases the playback direction. `World.Safe` says that a call takes none of them,
and `mux_cards_owned` that then all is well.
-/

namespace SprdHal.Audio

open SprdHal.Lib

/-! ## Directions -/

def IsDir (d : BitVec 32) : Prop := d = muxPcmIn ∨ d = muxPcmOut

theorem isDir_muxFlags (flags : BitVec 32) : IsDir (muxFlags flags) := by
  unfold muxFlags
  split
  · exact Or.inl rfl
  · exact Or.inr rfl

theorem or_dir_ne_zero {s f d : BitVec 32} (hf : IsDir f) (hd : IsDir d) :
    (s ||| f) &&& d ≠ 0 ↔ s &&& d ≠ 0 ∨ d = f := by
  have hsplit : (s ||| f) &&& d = (s &&& d) ||| (f &&& d) := by
    ext i
    simp [Bool.and_or_distrib_right]
  rw [hsplit]
  rcases hf with rfl | rfl
  · rcases hd with rfl | rfl
    · simp [muxPcmIn]
    · simp [muxPcmIn, muxPcmOut]
  · rcases hd with rfl | rfl
    · simp [muxPcmIn, muxPcmOut]
    · simp [muxPcmOut]

theorem clear_dir_ne_zero {s f d : BitVec 32} (hf : IsDir f) (hd : IsDir d) :
    (s &&& ~~~f) &&& d ≠ 0 ↔ s &&& d ≠ 0 ∧ d ≠ f := by
  rw [BitVec.and_assoc]
  rcases hf with rfl | rfl
  · rcases hd with rfl | rfl
    · simp
    · simp [muxPcmIn, muxPcmOut]
  · rcases hd with rfl | rfl
    · simp [muxPcmIn, muxPcmOut]
    · simp

/-- The direction of a stream. -/
def MuxPcm.dir (p : MuxPcm) : BitVec 32 :=
  if p.streamType = audioCapture then muxPcmIn else muxPcmOut

theorem MuxPcm.isDir (p : MuxPcm) : IsDir p.dir := by
  unfold dir
  split
  · exact Or.inl rfl
  · exact Or.inr rfl

/-- A stream that is used stays what it is. -/
structure MuxPcm.Same (p q : MuxPcm) : Prop where
  card : q.card = p.card
  streamType : q.streamType = p.streamType
  muxFd : q.muxFd = p.muxFd

/-! ## Answers of the control device -/

/-- What becomes of a command: it cannot be written, its answer is cut short, wrong or right. -/
inductive Reply
  | refused | cutShort | wrong | right
  deriving DecidableEq, Repr

/-- The answer to a command, and the outcomes after it. -/
def reply (cmd : Nat) : List Outcome → Option (Reply × List Outcome)
  | [] => none
  | wr :: ctl =>
    if wr.ret < 0 then some (.refused, ctl)
    else
      match muxRead 1 16 ctl with
      | none => none
      | some (result, common, rest) =>
        if result ≠ 16 then some (.cutShort, rest)
        else some (if common.word 0 = cmd <<< 16 % 2 ^ 32 then .right else .wrong, rest)

/-- Whether all commands are answered rightly. -/
def allRight : List Nat → List Outcome → Option Bool
  | [], _ => some true
  | cmd :: cmds, ctl =>
    match reply cmd ctl with
    | none => none
    | some (.right, rest) => allRight cmds rest
    | some _ => some false

theorem saudioSendCommonCmd_reply {card : MuxSndCard} (hl : card.lock = false) (hfd : 0 < card.ctlFd)
    (cmd : Nat) (ctl : List Outcome) :
    Returns (saudioSendCommonCmd card cmd ctl) fun r =>
      ∃ rep, reply cmd ctl = some (rep, r.2.2) ∧ (r.2.1 = true ↔ rep = .cutShort) ∧
        (r.1 = 0 ↔ rep = .right) := by
  have hfd' : ¬card.ctlFd < 0 := by omega
  unfold saudioSendCommonCmd
  rw [if_neg hfd', hl, if_neg Bool.false_ne_true]
  cases ctl with
  | nil => exact rfl
  | cons wr ctl =>
    have hread : muxRead card.ctlFd 16 ctl = muxRead 1 16 ctl := by
      unfold muxRead
      rw [if_neg hfd', if_neg (by decide)]
    simp only [reply, hread]
    by_cases hwr : wr.ret < 0
    · rw [if_pos hwr, if_pos hwr]
      exact ⟨.refused, rfl, by simp, by simp; omega⟩
    · rw [if_neg hwr, if_neg hwr]
      rcases muxRead 1 16 ctl with _ | ⟨result, common, rest⟩
      · exact rfl
      · simp only
        by_cases hr : result ≠ 16
        · rw [if_pos hr, if_pos hr]
          exact ⟨.cutShort, rfl, by simp, by simp⟩
        · rw [if_neg hr, if_neg hr]
          refine ⟨_, rfl, ?_, ?_⟩
          · split <;> simp
          · split <;> simp

namespace World

/-! ## Ownership -/

/-- Stream number `h` holds card `i` in direction `d`. -/
def Holds (w : World) (h i : Nat) (d : BitVec 32) : Prop :=
  ∃ p, w.pcms[h]? = some (some p) ∧ p.card = some i ∧ p.dir = d

/-- All locks are free, and a bit is set if and only if exactly one stream holds the card in that
direction. -/
structure Owned (w : World) : Prop where
  mutex : w.mutex = false
  locks : ∀ c ∈ w.cards, c.lock = false
  bits : ∀ i c, w.cards[i]? = some c → ∀ d, IsDir d → (c.state &&& d ≠ 0 ↔ ∃! h, w.Holds h i d)

/-- What a call must do: it does not block, all is well after it, and where an open finds its
direction taken, the stream that holds the card was opened without an error. -/
structure Keeps (w : World) (c : MuxCall) : Prop where
  returns : Returns (w.call c) Owned
  refused : ∀ cardId flags dev, c = .open cardId flags dev → ∀ i card, w.cardIndex cardId = some i →
    w.cards[i]? = some card → card.state &&& muxFlags flags ≠ 0 →
    ∃ (h : Nat) (p : MuxPcm), w.pcms[h]? = some (some p) ∧ p.card = some i ∧ p.dir = muxFlags flags ∧ p.fd ≠ -1

/-- The condition on a call. -/
def Safe (w : World) : MuxCall → Prop
  | .open cardId flags dev => w.cardIndex cardId ≠ none ∧
      ∀ i c, w.cardIndex cardId = some i → w.cards[i]? = some c →
        (∀ (h : Nat) (p : MuxPcm), w.pcms[h]? = some (some p) → p.card = some i →
          p.dir = muxFlags flags → p.fd ≠ -1) ∧
        let fd := openFile (c.dataFile (subCmd flags)) dev.dataOpen
        (c.state &&& muxFlags flags = 0 → 0 < c.ctlFd ∨ 0 < openFile c.ctlFile dev.ctlOpen →
          0 < fd → muxPipeClear fd dev.data ≠ none →
          ∀ rest, reply saudioCmdOpen dev.ctl ≠ some (.cutShort, rest))
  | .write h _ dev | .read h _ dev => ∀ p, w.pcms[h]? = some (some p) → 0 < p.muxFd → p.state = 0 →
      ∀ rest, reply saudioCmdStart dev.ctl ≠ some (.cutShort, rest)
  | .close h dev => ∀ p, w.pcms[h]? = some (some p) →
      if 0 < p.muxFd then
        let answered := allRight (if p.state = 1 then [saudioCmdStop, saudioCmdClose]
          else [saudioCmdClose]) dev.ctl
        answered ≠ some false ∧ (answered = some true → p.dir = muxFlags p.flags)
      else p.card ≠ none → p.dir = muxFlags p.flags

/-! ## The invariant -/

/-- What holds between two calls. -/
structure Inv (w : World) : Prop where
  mutex : w.mutex = false
  locks : ∀ c ∈ w.cards, c.lock = false
  bit : ∀ i c d, w.cards[i]? = some c → IsDir d → c.state &&& d ≠ 0 → ∃ h, w.Holds h i d
  held : ∀ h i d, w.Holds h i d → ∃ c, w.cards[i]? = some c ∧ c.state &&& d ≠ 0 ∧ 0 < c.ctlFd
  unique : ∀ h h' i d, w.Holds h i d → w.Holds h' i d → h = h'
  pcm : ∀ (h : Nat) (p : MuxPcm), w.pcms[h]? = some (some p) →
    p.lock = false ∧ (0 < p.muxFd → p.card ≠ none)

variable {w w' : World} {i : Nat} {c c' : MuxSndCard}

theorem Inv.owned (h : w.Inv) : w.Owned where
  mutex := h.mutex
  locks := h.locks
  bits i c hi d hd := by
    constructor
    · intro hbit
      obtain ⟨n, hn⟩ := h.bit i c d hi hd hbit
      exact ⟨n, hn, fun m hm => h.unique m n i d hm hn⟩
    · rintro ⟨n, hn, -⟩
      obtain ⟨c', hc', hbit, -⟩ := h.held n i d hn
      rw [hi] at hc'
      exact Option.some.inj hc' ▸ hbit

theorem inv_init : muxInit.Inv where
  mutex := rfl
  locks := by simp [muxInit, gSndCard]
  bit i c d hi _ hbit := by
    have hmem := List.mem_of_getElem? hi
    simp only [muxInit, gSndCard, List.mem_cons, List.not_mem_nil, or_false] at hmem
    rcases hmem with rfl | rfl | rfl
    · simp at hbit
    · simp at hbit
    · simp at hbit
  held := by
    rintro h i d ⟨p, hp, -⟩
    simp [muxInit] at hp
  unique := by
    rintro h _ i d ⟨p, hp, -⟩
    simp [muxInit] at hp
  pcm := by
    intro h p hp
    simp [muxInit] at hp

theorem getElem?_setCard (hi : w.cards[i]? = some c) (c' : MuxSndCard) (j : Nat) :
    (w.setCard i c').cards[j]? = if j = i then some c' else w.cards[j]? := by
  have hlt := (List.getElem?_eq_some_iff.mp hi).1
  unfold setCard
  by_cases hj : j = i
  · subst hj
    simp [hlt]
  · simp [List.getElem?_set_ne (Ne.symm hj), hj]

theorem setCard_self (hi : w.cards[i]? = some c) : w.setCard i c = w := by
  have hset : w.cards.set i c = w.cards := by
    refine List.ext_getElem? fun j => (getElem?_setCard hi c j).trans ?_
    by_cases hj : j = i
    · rw [if_pos hj, hj, hi]
    · rw [if_neg hj]
  unfold setCard
  rw [hset]

/-- One card and its holders have changed. -/
theorem Inv.update (h : w.Inv) (hm : w'.mutex = false)
    (hc : ∀ j, w'.cards[j]? = if j = i then some c' else w.cards[j]?) (hl : c'.lock = false)
    (hne : ∀ h j d, j ≠ i → (w'.Holds h j d ↔ w.Holds h j d))
    (hbit : ∀ d, IsDir d → c'.state &&& d ≠ 0 → ∃ h, w'.Holds h i d)
    (hheld : ∀ h d, w'.Holds h i d → c'.state &&& d ≠ 0 ∧ 0 < c'.ctlFd)
    (huniq : ∀ h h' d, w'.Holds h i d → w'.Holds h' i d → h = h')
    (hpcm : ∀ (h : Nat) (p : MuxPcm), w'.pcms[h]? = some (some p) →
      p.lock = false ∧ (0 < p.muxFd → p.card ≠ none)) : w'.Inv where
  mutex := hm
  locks := by
    intro k hk
    obtain ⟨j, hj⟩ := List.mem_iff_getElem?.mp hk
    rw [hc] at hj
    split at hj
    · exact Option.some.inj hj ▸ hl
    · exact h.locks k (List.mem_of_getElem? hj)
  bit := by
    intro j k d hj hd hk
    by_cases hji : j = i
    · subst hji
      rw [hc, if_pos rfl] at hj
      exact hbit d hd (Option.some.inj hj ▸ hk)
    · rw [hc, if_neg hji] at hj
      obtain ⟨n, hn⟩ := h.bit j k d hj hd hk
      exact ⟨n, (hne n j d hji).mpr hn⟩
  held := by
    intro n j d hn
    by_cases hji : j = i
    · subst hji
      exact ⟨c', (hc j).trans (if_pos rfl), hheld n d hn⟩
    · obtain ⟨k, hk, hrest⟩ := h.held n j d ((hne n j d hji).mp hn)
      exact ⟨k, ((hc j).trans (if_neg hji)).trans hk, hrest⟩
  unique := by
    intro n m j d hn hm'
    by_cases hji : j = i
    · subst hji
      exact huniq n m d hn hm'
    · exact h.unique n m j d ((hne n j d hji).mp hn) ((hne m j d hji).mp hm')
  pcm := hpcm

/-- Only streams that hold no card have come or gone. -/
theorem Inv.streams (h : w.Inv) {pcms : List (Option MuxPcm)}
    (hholds : ∀ h i d, ({ w with pcms := pcms } : World).Holds h i d ↔ w.Holds h i d)
    (hpcm : ∀ (h : Nat) (p : MuxPcm), pcms[h]? = some (some p) →
      p.lock = false ∧ (0 < p.muxFd → p.card ≠ none)) :
    ({ w with pcms := pcms } : World).Inv where
  mutex := h.mutex
  locks := h.locks
  bit i c d hi hd hb := by
    obtain ⟨n, hn⟩ := h.bit i c d hi hd hb
    exact ⟨n, (hholds n i d).mpr hn⟩
  held n i d hn := h.held n i d ((hholds n i d).mp hn)
  unique n m i d hn hm := h.unique n m i d ((hholds n i d).mp hn) ((hholds m i d).mp hm)
  pcm := hpcm

/-! ## Streams that come and go -/

section Streams

variable {p q : MuxPcm} {n : Nat} {d : BitVec 32}

theorem getElem?_snoc {α : Type} {l : List α} {a b : α} {n : Nat} :
    (l ++ [a])[n]? = some b ↔ l[n]? = some b ∨ n = l.length ∧ a = b := by
  rcases Nat.lt_trichotomy n l.length with hlt | rfl | hgt
  · rw [List.getElem?_append_left hlt]
    simp [Nat.ne_of_lt hlt]
  · simp
  · have h1 : (l ++ [a])[n]? = none := List.getElem?_eq_none (by simp; omega)
    have h2 : l[n]? = none := List.getElem?_eq_none (Nat.le_of_lt hgt)
    simp [h1, h2, Nat.ne_of_gt hgt]

theorem holds_snoc {h : Nat} :
    ({ w with pcms := w.pcms ++ [some p] } : World).Holds h i d ↔
      w.Holds h i d ∨ h = w.pcms.length ∧ p.card = some i ∧ p.dir = d := by
  unfold Holds
  simp only [getElem?_snoc]
  constructor
  · rintro ⟨q, hq | ⟨rfl, hpq⟩, hrest⟩
    · exact Or.inl ⟨q, hq, hrest⟩
    · obtain rfl := Option.some.inj hpq
      exact Or.inr ⟨rfl, hrest⟩
  · rintro (⟨q, hq, hrest⟩ | ⟨rfl, hrest⟩)
    · exact ⟨q, Or.inl hq, hrest⟩
    · exact ⟨p, Or.inr ⟨rfl, rfl⟩, hrest⟩

theorem Inv.snoc_pcm (h : w.Inv) (hl : p.lock = false) (hfd : 0 < p.muxFd → p.card ≠ none) (n : Nat)
    (q : MuxPcm) (hq : (w.pcms ++ [some p])[n]? = some (some q)) :
    q.lock = false ∧ (0 < q.muxFd → q.card ≠ none) := by
  rcases getElem?_snoc.mp hq with hq | ⟨-, hpq⟩
  · exact h.pcm n q hq
  · exact Option.some.inj hpq ▸ ⟨hl, hfd⟩

theorem holds_set_none {h : Nat} :
    ({ w with pcms := w.pcms.set n none } : World).Holds h i d ↔ h ≠ n ∧ w.Holds h i d := by
  unfold Holds
  by_cases hn : h = n
  · subst hn
    simp [List.getElem?_set_self']
  · simp [List.getElem?_set_ne (Ne.symm hn), hn]

theorem Inv.set_none_pcm (h : w.Inv) (n m : Nat) (q : MuxPcm)
    (hq : (w.pcms.set n none)[m]? = some (some q)) :
    q.lock = false ∧ (0 < q.muxFd → q.card ≠ none) := by
  by_cases hmn : m = n
  · subst hmn
    simp [List.getElem?_set_self'] at hq
  · rw [List.getElem?_set_ne (Ne.symm hmn)] at hq
    exact h.pcm m q hq

/-- A stream takes a card. -/
theorem Inv.take (h : w.Inv) (hi : w.cards[i]? = some c) {f : BitVec 32} {fd : Int}
    (hzero : c.state &&& f = 0) (hfd : 0 < fd) (hcard : p.card = some i) (hdir : p.dir = f)
    (hlock : p.lock = false) :
    ({ w.setCard i { c with ctlFd := fd, state := c.state ||| f } with
      pcms := w.pcms ++ [some p] } : World).Inv := by
  have hf : IsDir f := hdir ▸ p.isDir
  have hnone : ∀ n, ¬w.Holds n i f := by
    intro n hn
    obtain ⟨k, hk, hbit, -⟩ := h.held n i f hn
    rw [hi] at hk
    exact hbit (Option.some.inj hk ▸ hzero)
  have hholds : ∀ {n j d}, ({ w.setCard i { c with ctlFd := fd, state := c.state ||| f } with
      pcms := w.pcms ++ [some p] } : World).Holds n j d ↔
        w.Holds n j d ∨ n = w.pcms.length ∧ p.card = some j ∧ p.dir = d := holds_snoc (w := w)
  refine h.update h.mutex (getElem?_setCard hi { c with ctlFd := fd, state := c.state ||| f })
    (h.locks c (List.mem_of_getElem? hi)) ?_ ?_ ?_ ?_
    (h.snoc_pcm hlock fun _ => hcard ▸ nofun)
  · intro n j d hj
    rw [hholds]
    refine ⟨fun hor => hor.resolve_right ?_, Or.inl⟩
    rintro ⟨-, hcj, -⟩
    rw [hcard] at hcj
    exact hj (Option.some.inj hcj).symm
  · intro d hd hbit
    rcases (or_dir_ne_zero hf hd).mp hbit with hold | rfl
    · obtain ⟨n, hn⟩ := h.bit i c d hi hd hold
      exact ⟨n, hholds.mpr (Or.inl hn)⟩
    · exact ⟨_, hholds.mpr (Or.inr ⟨rfl, hcard, hdir⟩)⟩
  · intro n d hn
    refine ⟨?_, hfd⟩
    rcases hholds.mp hn with hold | ⟨-, -, rfl⟩
    · obtain ⟨k, hk, hbit, -⟩ := h.held n i d hold
      obtain ⟨q, -, -, rfl⟩ := hold
      rw [hi] at hk
      exact (or_dir_ne_zero hf q.isDir).mpr (Or.inl (Option.some.inj hk ▸ hbit))
    · exact (or_dir_ne_zero hf p.isDir).mpr (Or.inr hdir)
  · -- a new holder is the only one, since the bit was clear
    intro n m d hn hm
    rcases hholds.mp hn with hn | ⟨rfl, -, rfl⟩
    · rcases hholds.mp hm with hm | ⟨-, -, rfl⟩
      · exact h.unique n m i d hn hm
      · exact absurd (hdir ▸ hn) (hnone n)
    · rcases hholds.mp hm with hm | ⟨rfl, -, -⟩
      · exact absurd (hdir ▸ hm) (hnone m)
      · rfl

/-- A stream gives its card back. -/
theorem Inv.release (h : w.Inv) (hi : w.cards[i]? = some c) (hn : w.pcms[n]? = some (some p))
    (hcard : p.card = some i) :
    ({ w.setCard i { c with state := c.state &&& ~~~p.dir } with
      pcms := w.pcms.set n none } : World).Inv := by
  have hp : w.Holds n i p.dir := ⟨p, hn, hcard, rfl⟩
  have hholds : ∀ {m j d}, ({ w.setCard i { c with state := c.state &&& ~~~p.dir } with
      pcms := w.pcms.set n none } : World).Holds m j d ↔ m ≠ n ∧ w.Holds m j d :=
    holds_set_none (w := w)
  refine h.update h.mutex (getElem?_setCard hi { c with state := c.state &&& ~~~p.dir }) (h.locks c (List.mem_of_getElem? hi)) ?_ ?_ ?_ ?_ (h.set_none_pcm n)
  · intro m j d hj
    rw [hholds]
    refine ⟨And.right, fun hm => ⟨?_, hm⟩⟩
    rintro rfl
    obtain ⟨q, hq, hcj, -⟩ := hm
    rw [hn] at hq
    obtain rfl := Option.some.inj (Option.some.inj hq)
    rw [hcard] at hcj
    exact hj (Option.some.inj hcj).symm
  · intro d hd hbit
    obtain ⟨hold, hne⟩ := (clear_dir_ne_zero p.isDir hd).mp hbit
    obtain ⟨m, hm⟩ := h.bit i c d hi hd hold
    refine ⟨m, hholds.mpr ⟨?_, hm⟩⟩
    rintro rfl
    obtain ⟨q, hq, -, rfl⟩ := hm
    rw [hn] at hq
    exact hne (Option.some.inj (Option.some.inj hq) ▸ rfl)
  · intro m d hm
    obtain ⟨hmn, hm⟩ := hholds.mp hm
    obtain ⟨k, hk, hbit, hfd⟩ := h.held m i d hm
    rw [hi] at hk
    obtain rfl := Option.some.inj hk
    have hne : d ≠ p.dir := fun hd => hmn (h.unique m n i d hm (hd ▸ hp))
    obtain ⟨q, -, -, rfl⟩ := hm
    exact ⟨(clear_dir_ne_zero p.isDir q.isDir).mpr ⟨hbit, hne⟩, hfd⟩
  · exact fun m m' d hm hm' => h.unique m m' i d (hholds.mp hm).2 (hholds.mp hm').2

/-- A stream is used. -/
theorem Inv.use (h : w.Inv) (hn : w.pcms[n]? = some (some p)) (hcard : q.card = p.card)
    (hdir : q.dir = p.dir) (hlock : q.lock = false) (hfd : q.muxFd = p.muxFd) :
    ({ w with pcms := w.pcms.set n (some q) } : World).Inv := by
  have hlt := (List.getElem?_eq_some_iff.mp hn).1
  refine h.streams (fun m i d => ?_) fun m r hr => ?_
  · unfold Holds
    by_cases hmn : m = n
    · subst hmn
      rw [List.getElem?_set_self hlt, hn]
      constructor
      · rintro ⟨r, hr, h1, h2⟩
        obtain rfl := Option.some.inj (Option.some.inj hr)
        exact ⟨p, rfl, hcard.symm.trans h1, hdir.symm.trans h2⟩
      · rintro ⟨r, hr, h1, h2⟩
        obtain rfl := Option.some.inj (Option.some.inj hr)
        exact ⟨q, rfl, hcard.trans h1, hdir.trans h2⟩
    · simp [List.getElem?_set_ne (Ne.symm hmn)]
  · by_cases hmn : m = n
    · subst hmn
      simp only [List.getElem?_set_self hlt, Option.some.injEq] at hr
      obtain rfl := hr
      exact ⟨hlock, fun hpos => hcard ▸ (h.pcm m p hn).2 (hfd ▸ hpos)⟩
    · rw [List.getElem?_set_ne (Ne.symm hmn)] at hr
      exact h.pcm m r hr

/-- A stream without a card comes. -/
theorem Inv.snoc (h : w.Inv) (hcard : p.card = none) (hlock : p.lock = false)
    (hfd : ¬0 < p.muxFd) : ({ w with pcms := w.pcms ++ [some p] } : World).Inv := by
  refine h.streams (fun m i d => ?_) (h.snoc_pcm hlock fun hpos => absurd hpos hfd)
  rw [holds_snoc, hcard]
  simp

/-- A stream without a card goes. -/
theorem Inv.drop (h : w.Inv) (hn : w.pcms[n]? = some (some p)) (hcard : p.card = none) :
    ({ w with pcms := w.pcms.set n none } : World).Inv := by
  refine h.streams (fun m i d => ?_) (h.set_none_pcm n)
  rw [holds_set_none]
  refine ⟨And.right, fun hm => ⟨?_, hm⟩⟩
  rintro rfl
  obtain ⟨q, hq, hc, -⟩ := hm
  rw [hn] at hq
  obtain rfl := Option.some.inj (Option.some.inj hq)
  rw [hcard] at hc
  cases hc

/-! ## What the calls do -/

theorem card_some (hi : w.cards[i]? = some c) : w.card (some i) = .ok (i, c) := by
  simp only [card, hi]

theorem send_spec (hcard : p.card = some i) (hi : w.cards[i]? = some c) (hl : c.lock = false)
    (hfd : 0 < c.ctlFd) {cmd : Nat} {ctl : List Outcome}
    (hcut : ∀ rest, reply cmd ctl ≠ some (.cutShort, rest)) :
    Returns (w.send p cmd ctl) fun r =>
      r.2.1 = w ∧ ∃ rep, reply cmd ctl = some (rep, r.2.2) ∧ (r.1 = 0 ↔ rep = .right) := by
  unfold send
  rw [hcard, card_some hi]
  refine (saudioSendCommonCmd_reply hl hfd cmd ctl).bind ?_
  rintro ⟨ret, lock, rest⟩ ⟨rep, hrep, hlock, hret⟩
  have hfree : lock = c.lock := by
    rw [hl]
    refine Bool.eq_false_iff.mpr fun ht => hcut rest ?_
    rw [hrep, hlock.mp ht]
  refine ⟨?_, rep, hrep, hret⟩
  rw [hfree]
  exact setCard_self hi

theorem cardIndex_lt {cardId : Nat} (h : w.cardIndex cardId = some i) :
    ∃ c, w.cards[i]? = some c := by
  have hfold : ∀ (l : List (MuxSndCard × Nat)) (r : Option Nat),
      l.foldl (fun card c => if c.1.cardId = cardId then some c.2 else card) r = some i →
      r = some i ∨ ∃ c, (c, i) ∈ l := by
    intro l
    induction l with
    | nil => exact fun r hr => Or.inl hr
    | cons x l ih =>
      intro r hr
      rcases ih _ hr with hx | ⟨c, hc⟩
      · simp only at hx
        split at hx
        · exact Or.inr ⟨x.1, List.mem_cons.mpr (Or.inl (by rw [← Option.some.inj hx]))⟩
        · exact Or.inl hx
      · exact Or.inr ⟨c, List.mem_cons_of_mem x hc⟩
  rcases hfold _ _ h with hnone | ⟨c, hc⟩
  · cases hnone
  · exact ⟨c, List.mem_zipIdx_iff_getElem?.mp hc⟩

theorem muxSndCardGet_spec (h : w.Inv) {cardId : Nat} {flags : BitVec 32} {ctlOpen : Int}
    (hid : w.cardIndex cardId = some i) (hi : w.cards[i]? = some c) :
    Returns (w.muxSndCardGet cardId flags ctlOpen) fun r =>
      (r.1 = none ∧ r.2.Inv) ∨
      ∃ fd, 0 < fd ∧ (0 < c.ctlFd ∨ 0 < openFile c.ctlFile ctlOpen) ∧
        c.state &&& muxFlags flags = 0 ∧
        r = (some i, w.setCard i { c with ctlFd := fd, state := c.state ||| muxFlags flags }) := by
  have hl := h.locks c (List.mem_of_getElem? hi)
  -- the descriptor after the control device has been opened
  let fd := if c.ctlFd ≤ 0 then openFile c.ctlFile ctlOpen else c.ctlFd
  have hcard : (if c.ctlFd ≤ 0 then
      { c with
        ctlFd := openFile c.ctlFile ctlOpen
        lock := if openFile c.ctlFile ctlOpen ≤ 0 then c.lock else false }
      else c) = { c with ctlFd := fd } := by
    simp only [fd]
    split
    · congr 1
      rw [hl, ite_self]
    · rfl
  have hinv : (w.setCard i { c with ctlFd := fd }).Inv := by
    refine h.update h.mutex (getElem?_setCard hi _) hl (fun _ _ _ _ => Iff.rfl)
      (fun d hd hb => h.bit i c d hi hd hb) (fun n d hn => ?_) (fun n m d => h.unique n m i d) h.pcm
    obtain ⟨k, hk, hbit, hpos⟩ := h.held n i d hn
    rw [hi] at hk
    obtain rfl := Option.some.inj hk
    refine ⟨hbit, ?_⟩
    simp only [fd, if_neg (not_le.mpr hpos), hpos]
  unfold muxSndCardGet
  rw [h.mutex, if_neg Bool.false_ne_true, hid]
  simp only [hi, hcard]
  split
  · exact Or.inl ⟨rfl, hinv⟩
  · rename_i hfd
    split
    · exact Or.inl ⟨rfl, hinv⟩
    · rename_i hzero
      refine Or.inr ⟨fd, not_le.mp hfd, ?_, not_not.mp hzero, rfl⟩
      by_cases hc : c.ctlFd ≤ 0
      · simp only [fd, if_pos hc, not_le] at hfd
        exact Or.inr hfd
      · exact Or.inl (not_le.mp hc)

theorem dir_subCmd (hp : p.streamType = subCmd flags) : p.dir = muxFlags flags := by
  unfold MuxPcm.dir muxFlags
  rw [hp]
  unfold subCmd
  split
  · rfl
  · rfl

/-- **`mux_pcm_open`** -/
theorem Inv.open (h : w.Inv) {cardId : Nat} {flags : BitVec 32} {dev : Devices}
    (hs : w.Safe (.open cardId flags dev)) :
    Returns (w.muxPcmOpen cardId flags dev) fun r =>
      ({ r.2 with pcms := r.2.pcms ++ [some r.1] } : World).Inv := by
  obtain ⟨hne, hs⟩ := hs
  obtain ⟨i, hid⟩ := Option.ne_none_iff_exists'.mp hne
  obtain ⟨c, hi⟩ := cardIndex_lt hid
  obtain ⟨-, hcut⟩ := hs i c hid hi
  unfold muxPcmOpen
  refine (muxSndCardGet_spec h hid hi).bind ?_
  rintro ⟨card, w'⟩ (⟨rfl, hinv⟩ | ⟨fd, hfd, hctl, hzero, heq⟩)
  · exact hinv.snoc rfl rfl (by simp)
  · obtain ⟨rfl, rfl⟩ := Prod.mk.inj heq
    -- whatever happens to the stream now, it holds the card
    have htake : ∀ p : MuxPcm, p.card = some i → p.streamType = subCmd flags → p.lock = false →
        ({ w.setCard i { c with ctlFd := fd, state := c.state ||| muxFlags flags } with
          pcms := w.pcms ++ [some p] } : World).Inv :=
      fun p hp hst hlock => h.take hi hzero hfd hp (dir_subCmd hst) hlock
    have hi' := (getElem?_setCard hi { c with ctlFd := fd, state := c.state ||| muxFlags flags }
      i).trans (if_pos rfl)
    simp only [card_some hi', ok_bind]
    split
    · exact htake _ rfl rfl rfl
    · rename_i hdata
      refine (returns_await _).bind fun rest hrest => ?_
      have hcut' := hcut hzero hctl (not_le.mp hdata) (hrest ▸ nofun)
      refine (send_spec rfl hi' (h.locks c (List.mem_of_getElem? hi)) hfd hcut').bind ?_
      rintro ⟨ret, _, ctl⟩ ⟨rfl, -⟩
      simp only
      split
      · exact htake _ rfl rfl rfl
      · exact htake _ rfl rfl rfl

theorem start_spec (h : w.Inv) (hn : w.pcms[n]? = some (some p)) (hfd : 0 < p.muxFd)
    {ctl : List Outcome}
    (hcut : p.state = 0 → ∀ rest, reply saudioCmdStart ctl ≠ some (.cutShort, rest)) :
    Returns (w.start p ctl) fun r => r.2.2 = w ∧ p.Same r.2.1 := by
  obtain ⟨hl, hcard⟩ := h.pcm n p hn
  obtain ⟨i, hi⟩ := Option.ne_none_iff_exists'.mp (hcard hfd)
  obtain ⟨c, hc, -, hctl⟩ := h.held n i p.dir ⟨p, hn, hi, rfl⟩
  unfold start MuxPcm.lockPcm
  rw [hl, if_neg Bool.false_ne_true, ok_bind]
  split
  · rename_i hst
    refine (send_spec (p := { p with lock := true, state := 1 }) hi hc
      (h.locks c (List.mem_of_getElem? hc)) hctl (hcut hst)).bind ?_
    rintro ⟨ret, _, rest⟩ ⟨rfl, -⟩
    exact ⟨rfl, rfl, rfl, rfl⟩
  · exact ⟨rfl, rfl, rfl, rfl⟩

/-- **`mux_pcm_write`** -/
theorem write_spec (h : w.Inv) (hn : w.pcms[n]? = some (some p)) {count : Nat} {dev : Devices}
    (hs : w.Safe (.write n count dev)) :
    Returns (w.muxPcmWrite p count dev) fun r =>
      r.2.2 = w ∧ p.Same r.2.1 ∧ r.2.1.lock = false := by
  unfold muxPcmWrite
  split
  · rename_i hfd
    refine (start_spec h hn hfd (hs p hn hfd)).bind ?_
    rintro ⟨ret, q, _⟩ ⟨rfl, hq⟩
    simp only
    split
    · exact ⟨rfl, ⟨hq.card, hq.streamType, hq.muxFd⟩, rfl⟩
    · refine (returns_await _).bind fun data _ => (returns_await _).bind fun r _ => ?_
      exact ⟨rfl, ⟨hq.card, hq.streamType, hq.muxFd⟩, rfl⟩
  · exact ⟨rfl, ⟨rfl, rfl, rfl⟩, (h.pcm n p hn).1⟩

/-- **`mux_pcm_read`** -/
theorem read_spec (h : w.Inv) (hn : w.pcms[n]? = some (some p)) {count : Nat} {dev : Devices}
    (hs : w.Safe (.read n count dev)) :
    Returns (w.muxPcmRead p count dev) fun r =>
      r.2.2 = w ∧ p.Same r.2.1 ∧ r.2.1.lock = false := by
  unfold muxPcmRead
  split
  · rename_i hfd
    refine (start_spec h hn hfd (hs p hn hfd)).bind ?_
    rintro ⟨ret, q, _⟩ ⟨rfl, hq⟩
    simp only
    split
    · exact ⟨rfl, ⟨hq.card, hq.streamType, hq.muxFd⟩, rfl⟩
    · refine (returns_await _).bind fun bytes _ => ?_
      exact ⟨rfl, ⟨hq.card, hq.streamType, hq.muxFd⟩, rfl⟩
  · exact ⟨rfl, ⟨rfl, rfl, rfl⟩, (h.pcm n p hn).1⟩

theorem Inv.use_same (h : w.Inv) (hn : w.pcms[n]? = some (some p)) (hq : p.Same q)
    (hl : q.lock = false) : ({ w with pcms := w.pcms.set n (some q) } : World).Inv := by
  refine h.use hn hq.card ?_ hl hq.muxFd
  unfold MuxPcm.dir
  rw [hq.streamType]

theorem muxSndCardRelease_spec (h : w.Inv) (hn : w.pcms[n]? = some (some p))
    (hdir : p.card ≠ none → p.dir = muxFlags p.flags) :
    Returns (w.muxSndCardRelease p.card p.flags) fun w' =>
      ({ w' with pcms := w'.pcms.set n none } : World).Inv := by
  unfold muxSndCardRelease
  cases hcard : p.card with
  | none => exact h.drop hn hcard
  | some i =>
    obtain ⟨c, hc, -, -⟩ := h.held n i p.dir ⟨p, hn, hcard, rfl⟩
    simp only [h.mutex, Bool.false_eq_true, if_false, card_some hc, ok_bind]
    rw [← hdir (hcard ▸ nofun)]
    exact h.release hc hn hcard

theorem allRight_cons (cmd : Nat) (cmds : List Nat) {ctl rest : List Outcome} {rep : Reply}
    (h : reply cmd ctl = some (rep, rest)) :
    allRight (cmd :: cmds) ctl = if rep = .right then allRight cmds rest else some false := by
  rw [allRight, h]
  cases rep with
  | right => rfl
  | refused | cutShort | wrong => rfl

/-- **`mux_pcm_close`** -/
theorem Inv.close (h : w.Inv) (hn : w.pcms[n]? = some (some p)) {dev : Devices}
    (hs : w.Safe (.close n dev)) :
    Returns (w.muxPcmClose p dev) fun w' =>
      ({ w' with pcms := w'.pcms.set n none } : World).Inv := by
  have hs := hs p hn
  obtain ⟨hl, hcard⟩ := h.pcm n p hn
  unfold muxPcmClose
  by_cases hfd : 0 < p.muxFd
  · rw [if_pos hfd] at hs
    rw [if_pos hfd]
    obtain ⟨hright, hdir⟩ := hs
    obtain ⟨i, hi⟩ := Option.ne_none_iff_exists'.mp (hcard hfd)
    obtain ⟨c, hc, -, hctl⟩ := h.held n i p.dir ⟨p, hn, hi, rfl⟩
    have hlock := h.locks c (List.mem_of_getElem? hc)
    -- a command that must be answered rightly, and the ones after it
    have hsend : ∀ (cmd : Nat) (cmds : List Nat) (ctl : List Outcome),
        allRight (cmd :: cmds) ctl ≠ some false →
        Returns (w.send { p with lock := true } cmd ctl) fun r =>
          r.1 = 0 ∧ r.2.1 = w ∧ allRight (cmd :: cmds) ctl = allRight cmds r.2.2 := by
      intro cmd cmds ctl hne
      have hcut : ∀ rest, reply cmd ctl ≠ some (.cutShort, rest) := by
        intro rest hrep
        rw [allRight_cons cmd cmds hrep] at hne
        exact hne rfl
      refine (send_spec (p := { p with lock := true }) hi hc hlock hctl hcut).mono ?_
      rintro r ⟨hw, rep, hrep, hret⟩
      rw [allRight_cons cmd cmds hrep] at hne ⊢
      by_cases hr : rep = .right
      · exact ⟨hret.mpr hr, hw, if_pos hr⟩
      · rw [if_neg hr] at hne
        exact absurd rfl hne
    unfold MuxPcm.lockPcm
    rw [hl, if_neg Bool.false_ne_true, ok_bind]
    have hstop : Returns (w.stop { p with lock := true } dev.ctl) fun r => r.1 = 0 ∧ r.2.1 = w ∧
        allRight (if p.state = 1 then [saudioCmdStop, saudioCmdClose] else [saudioCmdClose])
          dev.ctl = allRight [saudioCmdClose] r.2.2 := by
      unfold stop
      split
      · rename_i hst
        rw [if_pos hst] at hright
        exact hsend _ _ _ hright
      · exact ⟨rfl, rfl, rfl⟩
    refine hstop.bind ?_
    rintro ⟨_, _, ctl⟩ ⟨rfl, rfl, hall⟩
    rw [hall] at hright hdir
    refine (hsend _ _ _ hright).bind ?_
    rintro ⟨_, _, rest⟩ ⟨rfl, rfl, hall'⟩
    exact muxSndCardRelease_spec (p := p) h hn fun _ => hdir hall'
  · rw [if_neg hfd] at hs
    rw [if_neg hfd]
    exact muxSndCardRelease_spec h hn hs

/-- **Safe calls keep the invariant.** -/
theorem Inv.call (h : w.Inv) {k : MuxCall} (hs : w.Safe k) : Returns (w.call k) Inv := by
  cases k with
  | «open» cardId flags dev => exact (h.open hs).bind fun _ hr => hr
  | write n count dev =>
    simp only [World.call]
    split
    · rename_i p hn
      refine (write_spec h hn hs).bind ?_
      rintro ⟨ret, q, _⟩ ⟨rfl, hq, hl⟩
      exact h.use_same hn hq hl
    · exact h
  | read n count dev =>
    simp only [World.call]
    split
    · rename_i p hn
      refine (read_spec h hn hs).bind ?_
      rintro ⟨ret, q, _⟩ ⟨rfl, hq, hl⟩
      exact h.use_same hn hq hl
    · exact h
  | close n dev =>
    simp only [World.call]
    split
    · rename_i p hn
      exact (h.close hn hs).bind fun _ hr => hr
    · exact h

theorem Inv.keeps (h : w.Inv) {k : MuxCall} (hs : w.Safe k) : w.Keeps k where
  returns := (h.call hs).mono fun _ => Inv.owned
  refused := by
    rintro cardId flags dev rfl i c hid hi hbit
    obtain ⟨n, p, hn, hcard, hdir⟩ := h.bit i c _ hi (isDir_muxFlags flags) hbit
    exact ⟨n, p, hn, hcard, hdir, (hs.2 i c hid hi).1 n p hn hcard hdir⟩

end Streams

end World

/-- A condition on the call that is made, if the one before it has returned. -/
def WhenIdle (P : World → MuxCall → Prop) (s : Except Stop World) (k : MuxCall) : Prop :=
  ∀ w, s = .ok w → P w k

/-- **Ownership of the sound cards**: in every sequence of calls that are all safe, whatever the
devices answer, every call keeps the cards owned. -/
theorem mux_cards_owned (calls : List MuxCall)
    (hs : muxCalls.Admits (WhenIdle World.Safe) (.ok muxInit) calls) :
    muxCalls.Admits (WhenIdle World.Keeps) (.ok muxInit) calls := by
  have hall : ∀ (calls : List MuxCall) (s : Except Stop World), Returns s World.Inv →
      muxCalls.Admits (WhenIdle World.Safe) s calls →
      muxCalls.Admits (WhenIdle World.Keeps) s calls := by
    intro calls
    induction calls with
    | nil => exact fun _ _ _ => trivial
    | cons k calls ih =>
      rintro s h ⟨hk, hrest⟩
      refine ⟨?_, ih _ ?_ hrest⟩
      · rintro w rfl
        exact World.Inv.keeps h (hk w rfl)
      · cases s with
        | ok w => exact World.Inv.call h (hk w rfl)
        | error e => exact h
  exact hall calls _ World.inv_init hs

/-- A control device that takes the command `OPEN` and answers it. -/
def openAnswer : List Outcome :=
  [⟨16, false, false, []⟩, ⟨1, false, true, []⟩,
    ⟨16, false, false, [0, 0, 1, 0, 0, 0, 0, 0, 0, 0, 0, 0, 0, 0, 0, 0]⟩]

/-- A capture stream is opened twice: at first the control device cannot be opened. -/
def openTwice : List MuxCall :=
  [.open 1 pcmIn ⟨-1, -1, [], []⟩, .open 1 pcmIn ⟨5, 6, openAnswer, [⟨0, false, false, []⟩]⟩]

theorem openTwice_owned : muxCalls.Admits (WhenIdle World.Keeps) (.ok muxInit) openTwice := by
  refine mux_cards_owned openTwice ⟨?_, ?_, trivial⟩
  · rintro _ ⟨⟩
    refine ⟨nofun, ?_⟩
    rintro i c ⟨⟩ ⟨⟩
    refine ⟨by simp [muxInit], fun _ hctl => absurd hctl (by decide)⟩
  · rintro _ ⟨⟩
    refine ⟨nofun, ?_⟩
    rintro i c ⟨⟩ ⟨⟩
    refine ⟨?_, fun _ _ _ _ rest hrep => ?_⟩
    · -- the stream of the first call holds no card
      rintro (_ | h) p hp hcard
      · cases hp
        cases hcard
      · cases hp
    · cases hrep

/-- A card that does not exist. -/
def openUnknown : List MuxCall := [.open 7 pcmIn ⟨5, 6, openAnswer, [⟨0, false, false, []⟩]⟩]

/-- The mutex is kept. -/
theorem openUnknown_locked :
    ¬muxCalls.Admits (WhenIdle World.Keeps) (.ok muxInit) openUnknown := by
  rintro ⟨hk, -⟩
  have howned : World.Owned _ := (hk muxInit rfl).returns
  cases howned.mutex

end SprdHal.Audio
