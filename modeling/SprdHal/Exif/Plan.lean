import SprdHal.Exif.Trace
import SprdHal.Exif.Stores
import SprdHal.Exif.Directories

/-!
# What the writer asks of the buffer

Where everything goes depends on the lengths of the values only. A `Plan` says, for a part of the
writer, up to where the buffer has to reach for each of its writes, in their order, what it returns and
what it notes. If the buffer reaches so far for all of them the part does what its plan says; if the
first write for which it does not is one whose failure is looked at, the part fails
(`Follows`). There are writes whose failure is not looked at.
-/

namespace SprdHal.Exif

open Lib

/-! ## Demands -/

/-- The buffer has to reach up to `stop`; `checked` is whether a failure is reported. -/
structure Demand where
  checked : Bool
  stop : Nat
  deriving DecidableEq, Repr

/-- The buffer reaches so far. -/
def Fit (size : Nat) (ds : List Demand) : Prop := ∀ d ∈ ds, d.stop ≤ size

/-- The failure of the first write that finds no room is reported. -/
def Reported (size : Nat) : List Demand → Prop
  | [] => False
  | d :: ds => if d.stop ≤ size then Reported size ds else d.checked = true

section Demands

variable {size : Nat} {ds ds' : List Demand}

theorem fit_append : Fit size (ds ++ ds') ↔ Fit size ds ∧ Fit size ds' := List.forall_mem_append

theorem fit_cons {d : Demand} : Fit size (d :: ds) ↔ d.stop ≤ size ∧ Fit size ds :=
  List.forall_mem_cons

theorem fit_nil : Fit size [] := List.forall_mem_nil _

theorem reported_cons {d : Demand} : Reported size (d :: ds) ↔
    if d.stop ≤ size then Reported size ds else d.checked = true := Iff.rfl

theorem reported_unchecked {stop : Nat} :
    Reported size (⟨false, stop⟩ :: ds) ↔ stop ≤ size ∧ Reported size ds := by
  rw [reported_cons]
  split
  · next hfit => rw [and_iff_right hfit]
  · next hfit => simp [show ¬ stop ≤ size from hfit]

theorem reported_checked {stop : Nat} :
    Reported size (⟨true, stop⟩ :: ds) ↔ size < stop ∨ stop ≤ size ∧ Reported size ds := by
  rw [reported_cons]
  split
  · next hfit =>
    have hle : stop ≤ size := hfit
    rw [and_iff_right hle, or_iff_right (Nat.not_lt.mpr hle)]
  · next hfit => simp [Nat.not_le.mp (show ¬ stop ≤ size from hfit)]

theorem reported_append :
    Reported size (ds ++ ds') ↔ Reported size ds ∨ Fit size ds ∧ Reported size ds' := by
  induction ds with
  | nil => simp [Reported, Fit]
  | cons d ds ih =>
    rw [List.cons_append, fit_cons, reported_cons, reported_cons]
    split
    · next hd => rw [ih, and_iff_right hd]
    · next hd => simp [hd]

end Demands

/-! ## Plans -/

structure Plan (α : Type) where
  value : α
  demands : List Demand
  visits : List Visit

namespace Plan

variable {α β : Type}

protected def pure (a : α) : Plan α := ⟨a, [], []⟩

protected def bind (p : Plan α) (f : α → Plan β) : Plan β :=
  ⟨(f p.value).value, p.demands ++ (f p.value).demands, p.visits ++ (f p.value).visits⟩

instance : Monad Plan where
  pure := Plan.pure
  bind := Plan.bind

@[simp] theorem value_pure (a : α) : (pure a : Plan α).value = a := rfl

@[simp] theorem value_bind (p : Plan α) (f : α → Plan β) :
    (p >>= f).value = (f p.value).value := rfl

@[simp] theorem demands_bind (p : Plan α) (f : α → Plan β) :
    (p >>= f).demands = p.demands ++ (f p.value).demands := rfl

@[simp] theorem visits_pure (a : α) : (pure a : Plan α).visits = [] := rfl

@[simp] theorem visits_bind (p : Plan α) (f : α → Plan β) :
    (p >>= f).visits = p.visits ++ (f p.value).visits := rfl

theorem bind_assoc {γ : Type} (p : Plan α) (f : α → Plan β) (g : β → Plan γ) :
    p >>= f >>= g = p >>= fun a => f a >>= g := by
  show Plan.mk _ _ _ = Plan.mk _ _ _
  simp only [demands_bind, visits_bind, value_bind, List.append_assoc]

/-- A step with no note. -/
def step (ds : List Demand) (a : α) : Plan α := ⟨a, ds, []⟩

def note (v : Visit) : Plan Unit := ⟨(), [], [v]⟩

end Plan

/-- In a buffer of `size` bytes a part of the writer follows its plan as far as there is room. -/
structure Budget {α : Type} (size : Nat) (m : Write α) (ds : List Demand) (a : α) : Prop where
  fits : ∀ buf pos, buf.length = size → pos ≤ size → Fit size ds →
    ∃ buf' pos', m ⟨buf, pos⟩ = .ok a ⟨buf', pos'⟩ ∧ buf'.length = size ∧ pos' ≤ size
  short : ∀ buf pos, buf.length = size → pos ≤ size → Reported size ds →
    ∃ e s, m ⟨buf, pos⟩ = .error e s

/-- The same with the notes. -/
def Follows {α : Type} (size : Nat) (m : Traced α) (p : Plan α) : Prop :=
  ∀ log, Budget size (m log) p.demands (p.value, log ++ p.visits)

section Follows

variable {α β : Type} {size : Nat}

theorem follows_pure (a : α) : Follows size (pure a : Traced α) (pure a) := fun log =>
  ⟨fun buf pos hbuf hpos _ => ⟨buf, pos, by rw [Plan.visits_pure, List.append_nil]; rfl, hbuf, hpos⟩,
    fun _ _ _ _ h => h.elim⟩

theorem follows_note (v : Visit) : Follows size (Traced.note v) (Plan.note v) := fun _ =>
  ⟨fun buf pos hbuf hpos _ => ⟨buf, pos, rfl, hbuf, hpos⟩, fun _ _ _ _ h => h.elim⟩

theorem Budget.lift {m : Write α} {ds : List Demand} {a : α} (h : Budget size m ds a) :
    Follows size (Traced.lift m) (Plan.step ds a) := by
  intro log
  constructor
  · intro buf pos hbuf hpos hfit
    obtain ⟨buf', pos', hrun, hlen, hpos'⟩ := h.fits buf pos hbuf hpos hfit
    refine ⟨buf', pos', ?_, hlen, hpos'⟩
    rw [show (Plan.step ds a).visits = [] from rfl, List.append_nil]
    exact bind_ok hrun
  · intro buf pos hbuf hpos hshort
    obtain ⟨e, s, hrun⟩ := h.short buf pos hbuf hpos hshort
    exact ⟨e, s, bind_error hrun⟩

/-- **One part after the other.** -/
theorem Follows.bind {m : Traced α} {f : α → Traced β} {p : Plan α} {q : α → Plan β}
    (hm : Follows size m p) (hf : Follows size (f p.value) (q p.value)) :
    Follows size (m >>= f) (p >>= q) := by
  intro log
  constructor
  · intro buf pos hbuf hpos hfit
    obtain ⟨hfit, hfit'⟩ := fit_append.mp hfit
    obtain ⟨buf1, pos1, hrun1, hlen1, hpos1⟩ := (hm log).fits buf pos hbuf hpos hfit
    obtain ⟨buf2, pos2, hrun2, hlen2, hpos2⟩ :=
      (hf (log ++ p.visits)).fits buf1 pos1 hlen1 hpos1 hfit'
    refine ⟨buf2, pos2, ?_, hlen2, hpos2⟩
    rw [Plan.visits_bind, ← List.append_assoc]
    exact (bind_ok hrun1).trans hrun2
  · intro buf pos hbuf hpos hshort
    rcases reported_append.mp hshort with hshort | ⟨hfit, hshort⟩
    · obtain ⟨e, s, hrun⟩ := (hm log).short buf pos hbuf hpos hshort
      exact ⟨e, s, bind_error hrun⟩
    · obtain ⟨buf1, pos1, hrun1, hlen1, hpos1⟩ := (hm log).fits buf pos hbuf hpos hfit
      obtain ⟨e, s, hrun⟩ := (hf (log ++ p.visits)).short buf1 pos1 hlen1 hpos1 hshort
      exact ⟨e, s, (bind_ok hrun1).trans hrun⟩

end Follows

/-! ## Writes without room -/

section Short

variable {α : Type} {buf : List UInt8} {pos : Nat}

theorem bind_orFail_false {m : Write Bool} {f : Unit → Write α} {s s' : Stream}
    (h : m s = .ok false s') : (orFail m >>= f) s = .error .failed s' :=
  bind_error (bind_ok h)

theorem setWritePos_short {offset : Nat} (h : buf.length < offset) :
    setWritePos offset ⟨buf, pos⟩ = .ok false ⟨buf, pos⟩ := if_pos h

theorem writeCs_short (cs : List UInt8) (hpos : pos ≤ buf.length)
    (h : buf.length < pos + cs.length) : ∃ s, writeCs cs ⟨buf, pos⟩ = .ok false s := by
  induction cs generalizing buf pos with
  | nil => exact absurd h (Nat.not_lt.mpr hpos)
  | cons c cs ih =>
    rw [List.length_cons] at h
    unfold writeCs
    by_cases hroom : pos < buf.length
    · rw [bind_ok (writeC_ok hroom), if_pos rfl]
      exact ih (by rw [length_patch]; omega) (by rw [length_patch]; omega)
    · have hfull : writeC c ⟨buf, pos⟩ = .ok false ⟨buf, pos⟩ := if_pos (Nat.not_lt.mp hroom)
      rw [bind_ok hfull]
      exact ⟨_, rfl⟩

theorem writeW_short (w : UInt16) (hpos : pos ≤ buf.length) (h : buf.length < pos + 2) :
    ∃ s, writeW w ⟨buf, pos⟩ = .ok false s :=
  writeCs_short (beShort w) hpos (by rw [length_beShort]; exact h)

theorem writeL_short (l : UInt32) (h : buf.length < pos + 4) :
    writeL l ⟨buf, pos⟩ = .ok false ⟨buf, pos⟩ := if_pos h

theorem writeLs_short (ls : List UInt32) (hpos : pos ≤ buf.length)
    (h : buf.length < pos + (ls.flatMap beLong).length) :
    ∃ s, writeLs ls ⟨buf, pos⟩ = .ok false s := by
  induction ls generalizing buf pos with
  | nil => exact absurd h (Nat.not_lt.mpr hpos)
  | cons l ls ih =>
    rw [List.flatMap_cons, List.length_append, length_beLong] at h
    unfold writeLs
    by_cases hroom : pos + 4 ≤ buf.length
    · rw [bind_ok (writeL_ok hroom), if_pos rfl]
      exact ih (by rw [length_patch]; omega) (by rw [length_patch]; omega)
    · rw [bind_ok (writeL_short l (Nat.not_le.mp hroom))]
      exact ⟨_, rfl⟩

theorem writeIFD_short (info : IfdInfo) (hpos : pos ≤ buf.length) (h : buf.length < pos + 12) :
    ∃ s, writeIFD info ⟨buf, pos⟩ = .error .failed s := by
  unfold writeIFD
  by_cases htag : pos + 2 ≤ buf.length
  · rw [bind_orFail (writeW_ok htag)]
    by_cases htype : pos + 4 ≤ buf.length
    · rw [bind_orFail (writeW_ok (by rw [length_patch]; omega))]
      by_cases hcount : pos + 8 ≤ buf.length
      · rw [bind_orFail (writeL_ok (by rw [length_patch, length_patch]; omega))]
        exact ⟨_, bind_ok (writeL_short _ (by rw [length_patch, length_patch, length_patch]; omega))⟩
      · exact ⟨_, bind_orFail_false (writeL_short _ (by rw [length_patch, length_patch]; omega))⟩
    · obtain ⟨s, hrun⟩ := writeW_short info.type.code
        (show pos + 2 ≤ (patch buf pos (beShort info.tag)).length by rw [length_patch]; omega)
        (by rw [length_patch]; omega)
      exact ⟨s, bind_orFail_false hrun⟩
  · obtain ⟨s, hrun⟩ := writeW_short info.tag hpos (Nat.not_le.mp htag)
    exact ⟨s, bind_orFail_false hrun⟩

/-- An entry that finds no room, whatever comes after it. -/
theorem entry_short {i : Nat} (info : IfdInfo) (k : Unit → Write α) (h : buf.length < i + 12) :
    ∃ s, (orFail (setWritePos i) >>= fun _ => writeIFD info >>= k) ⟨buf, pos⟩ = .error .failed s := by
  by_cases hi : i ≤ buf.length
  · obtain ⟨s, hrun⟩ := writeIFD_short info hi h
    refine ⟨s, ?_⟩
    rw [bind_orFail (setWritePos_ok hi)]
    exact bind_error hrun
  · exact ⟨_, bind_orFail_false (setWritePos_short (Nat.not_le.mp hi))⟩

end Short

/-! ## One entry -/

/-- The value of so many elements goes behind the entries. -/
def Writer.outside : Writer → Nat → Bool
  | rational, _ => true
  | long, count => 1 < count
  | short, count => 2 < count
  | byte, count => 4 < count

/-- A value that cannot be written is reported: the others return `JPEG_FAILED`, which is not
`FALSE`. -/
def Writer.checks : Writer → Bool
  | rational | long => true
  | short | byte => false

def Writer.demands (w : Writer) (count : Nat) (value : List UInt8) (i v : Nat) : List Demand :=
  ⟨true, i + 12⟩ ::
    if w.outside count then [⟨true, v⟩, ⟨w.checks, v + (w.data count value).length⟩] else []

section Entry

variable {size : Nat}

theorem Writer.data_inside {w : Writer} {count : Nat} (h : ¬ w.outside count) (value : List UInt8) :
    w.data count value = [] := by
  cases w with
  | rational => exact absurd rfl h
  | long | short | byte => exact if_neg (by simpa [Writer.outside] using h)

/-- An entry with its value in it. -/
theorem Writer.run_inside {w : Writer} (info : IfdInfo) (h : ¬ w.outside info.count)
    {buf : List UInt8} (pos : Nat) {i : Nat} (v : Nat) (hi : i + 12 ≤ buf.length) :
    w.run info i v ⟨buf, pos⟩ = .ok (i + 12, v) ⟨patch buf i (w.inline info).entry, i + 12⟩ := by
  have hset : setWritePos i ⟨buf, pos⟩ = .ok true ⟨buf, i⟩ := setWritePos_ok (by omega)
  cases w with
  | rational => exact absurd rfl h
  | long | short | byte =>
    simp only [Writer.outside, decide_eq_true_eq] at h
    simp only [Writer.run, writeLongIFD, writeShortIFD, writeByteIFD]
    rw [bind_orFail hset, bind_ok (writeIFD_ok hi), bind_ok (m := getWritePos) rfl, if_neg h]
    rfl

/-- There is no room for the value. -/
theorem Writer.run_short {w : Writer} (info : IfdInfo) (h : w.outside info.count)
    {buf : List UInt8} (pos : Nat) {i v : Nat} (hi : i + 12 ≤ buf.length)
    (hshort : buf.length < v ∨
      w.checks = true ∧ buf.length < v + (w.data info.count info.value).length) :
    ∃ e s, w.run info i v ⟨buf, pos⟩ = .error e s := by
  have hset : setWritePos i ⟨buf, pos⟩ = .ok true ⟨buf, i⟩ := setWritePos_ok (by omega)
  -- the position of the value, or the value
  have hvalue : ∀ (b : List UInt8) (ls : List UInt32) (k : Unit → Write (Nat × Nat)),
      b.length = buf.length → v ≤ buf.length →
      buf.length < v + (ls.flatMap beLong).length →
      ∃ e s, (orFail (setWritePos v) >>= fun _ => orFail (writeLs ls) >>= k) ⟨b, i + 12⟩ =
        .error e s := by
    intro b ls k hb hv hlen
    obtain ⟨s, hrun⟩ := writeLs_short ls (show v ≤ b.length by omega) (by omega)
    refine ⟨.failed, s, ?_⟩
    rw [bind_orFail (setWritePos_ok (by omega))]
    exact bind_orFail_false hrun
  have hplace : ∀ (b : List UInt8) (k : Unit → Write (Nat × Nat)),
      b.length = buf.length → buf.length < v →
      ∃ e s, (orFail (setWritePos v) >>= k) ⟨b, i + 12⟩ = .error e s := fun b k hb hv =>
    ⟨.failed, _, bind_orFail_false (setWritePos_short (by omega))⟩
  have hlenP := length_patch buf i
  cases w with
  | rational =>
    simp only [Writer.run, writeRationalIFD]
    rw [bind_orFail hset, bind_ok (writeIFD_ok hi), bind_ok (m := getWritePos) rfl]
    by_cases hv : v ≤ buf.length
    · exact hvalue _ _ _ (hlenP _) hv (hshort.resolve_left (Nat.not_lt.mpr hv)).2
    · exact hplace _ _ (hlenP _) (Nat.not_le.mp hv)
  | long =>
    have hc : 1 < info.count := of_decide_eq_true h
    simp only [Writer.data, if_pos hc] at hshort
    simp only [Writer.run, writeLongIFD]
    rw [bind_orFail hset, bind_ok (writeIFD_ok hi), bind_ok (m := getWritePos) rfl, if_pos hc]
    by_cases hv : v ≤ buf.length
    · exact hvalue _ _ _ (hlenP _) hv (hshort.resolve_left (Nat.not_lt.mpr hv)).2
    · exact hplace _ _ (hlenP _) (Nat.not_le.mp hv)
  | short | byte =>
    have hv := hshort.resolve_right fun h => Bool.false_ne_true h.1
    have hc := of_decide_eq_true h
    simp only [Writer.run, writeShortIFD, writeByteIFD]
    rw [bind_orFail hset, bind_ok (writeIFD_ok hi), bind_ok (m := getWritePos) rfl, if_pos hc]
    exact hplace _ _ (hlenP _) hv

theorem Writer.run_entry_short (w : Writer) (info : IfdInfo) {buf : List UInt8} (pos : Nat)
    {i : Nat} (v : Nat) (hi : buf.length < i + 12) :
    ∃ e s, w.run info i v ⟨buf, pos⟩ = .error e s := by
  cases w with
  | rational | long | short | byte =>
    obtain ⟨s, hrun⟩ := @entry_short _ buf pos i _ _ hi
    exact ⟨.failed, s, hrun⟩

/-- **One entry.** -/
theorem Writer.run_budget (w : Writer) (info : IfdInfo) {i v : Nat} (hv : 4 ∣ v) :
    Budget size (w.run info i v) (w.demands info.count info.value i v)
      (i + 12, align4 (v + (w.data info.count info.value).length)) where
  fits := by
    intro buf pos hbuf hpos hfit
    obtain ⟨hentry, hfit⟩ := fit_cons.mp hfit
    have hi : i + 12 ≤ buf.length := by
      have h : i + 12 ≤ size := hentry
      omega
    by_cases hout : w.outside info.count
    · rw [if_pos hout, fit_cons, fit_cons] at hfit
      have hlen : v + (w.data info.count info.value).length ≤ buf.length := by
        have h : _ ≤ size := hfit.2.1
        exact hbuf ▸ h
      obtain ⟨pos', hrun⟩ := w.run_ok info buf pos hv hi hlen
      have hpos' := (programmed_run w info i v).pos_le (s := ⟨buf, pos⟩) (hbuf ▸ hpos) hrun
      simp only [length_patch] at hpos'
      exact ⟨_, pos', hrun, by rw [length_patch, length_patch, hbuf], hbuf ▸ hpos'⟩
    · have hdata := Writer.data_inside hout info.value
      refine ⟨patch buf i (w.inline info).entry, i + 12, ?_, (length_patch _ _ _).trans hbuf,
        hbuf ▸ hi⟩
      rw [Writer.run_inside info hout pos v hi, hdata]
      exact congrArg (fun v => EStateM.Result.ok (i + 12, v) _) (align4_of_dvd hv).symm
  short := by
    intro buf pos hbuf hpos hshort
    by_cases hi : i + 12 ≤ size
    · have hout : w.outside info.count := by
        by_contra hout
        simp [Writer.demands, hout, Reported, hi] at hshort
      simp only [Writer.demands, hout, Reported, hi, if_true] at hshort
      refine Writer.run_short info hout pos (by omega) ?_
      split at hshort
      · split at hshort
        · exact hshort.elim
        · exact .inr ⟨hshort, by omega⟩
      · exact .inl (by omega)
    · exact w.run_entry_short info pos v (by omega)

end Entry

/-! ## The steps of a directory -/

def Block.demands (b : Block) (c : Cursor) : List Demand :=
  if b.present then b.writer.demands b.count b.value c.ifdOffset c.valueOffset else []

/-- Where a block leaves the offsets. -/
def Block.next (b : Block) (c : Cursor) : Cursor :=
  if b.present then ⟨c.ifdOffset + 12, align4 (c.valueOffset + b.data.length), c.entries + 1⟩ else c

def thumbnailDemands (thumbnailIfdOffset : Nat) (thumbnail : List UInt8) (c : Cursor) : List Demand :=
  if 0 < thumbnail.length then
    [⟨false, c.valueOffset⟩, ⟨true, c.valueOffset + thumbnail.length⟩,
      ⟨true, thumbnailIfdOffset + 12⟩]
  else []

section Steps

variable {α β : Type} {size : Nat}

theorem Budget.map {m : Write α} {ds : List Demand} {a : α} (h : Budget size m ds a) (f : α → β) :
    Budget size (do
      let a ← m
      return f a) ds (f a) where
  fits := by
    intro buf pos hbuf hpos hfit
    obtain ⟨buf', pos', hrun, hlen, hpos'⟩ := h.fits buf pos hbuf hpos hfit
    exact ⟨buf', pos', bind_ok hrun, hlen, hpos'⟩
  short := by
    intro buf pos hbuf hpos hshort
    obtain ⟨e, s, hrun⟩ := h.short buf pos hbuf hpos hshort
    exact ⟨e, s, bind_error hrun⟩

theorem Block.write_budget (b : Block) {c : Cursor} (hv : 4 ∣ c.valueOffset) :
    Budget size (b.write 10 c) (b.demands c) (b.next c) := by
  unfold Block.write Block.demands Block.next
  cases b.present with
  | false => exact ⟨fun buf pos hbuf hpos _ => ⟨buf, pos, rfl, hbuf, hpos⟩, fun _ _ _ _ h => h.elim⟩
  | true =>
    simp only [if_true]
    exact (b.writer.run_budget (b.info (UInt32.ofNat (c.valueOffset - 10))) hv).map
      fun offsets => (⟨offsets.1, offsets.2, c.entries + 1⟩ : Cursor)

theorem writeLongIFD_budget (tag : UInt16) (off : UInt32) (i v : Nat) :
    Budget size (writeLongIFD ⟨tag, .long, 1, leBytes off, leBytes off⟩ i v) [⟨true, i + 12⟩]
      (i + 12, v) where
  fits := by
    intro buf pos hbuf hpos hfit
    have hi : i + 12 ≤ buf.length := hbuf ▸ (fit_cons.mp hfit).1
    exact ⟨_, _, writeLongIFD_one pos tag off v hi, (length_patch _ _ _).trans hbuf, hbuf ▸ hi⟩
  short := by
    intro buf pos hbuf hpos hshort
    refine Writer.run_entry_short .long ⟨tag, .long, 1, leBytes off, leBytes off⟩ pos v ?_
    by_contra hi
    rw [reported_cons, if_pos (show i + 12 ≤ size by omega)] at hshort
    exact hshort

theorem openIFD_budget (d : Dir) :
    Budget size (openIFD d.maxEntries d.start) [⟨false, d.start⟩, ⟨true, d.start + 2⟩]
      ⟨d.start + 2, valuesStart d.start d.maxEntries, 0⟩ where
  fits := by
    intro buf pos hbuf hpos hfit
    rw [fit_cons, fit_cons] at hfit
    have hlen : d.start + 2 ≤ buf.length := hbuf ▸ hfit.2.1
    refine ⟨patch buf d.start (beShort (UInt16.ofNat d.maxEntries)), d.start + 2, ?_,
      (length_patch _ _ _).trans hbuf, hbuf ▸ hlen⟩
    unfold openIFD
    rw [bind_ok (setWritePos_ok (show d.start ≤ buf.length by omega)), bind_orFail (writeW_ok hlen),
      bind_ok (m := getWritePos) rfl]
    rfl
  short := by
    intro buf pos hbuf hpos hshort
    rw [reported_unchecked, reported_checked] at hshort
    obtain ⟨hstart, hlen⟩ := hshort
    have hlen := hlen.resolve_right fun h => h.2
    obtain ⟨s, hrun⟩ := writeW_short (UInt16.ofNat d.maxEntries) (show d.start ≤ buf.length by omega)
      (by omega)
    refine ⟨.failed, s, ?_⟩
    unfold openIFD
    rw [bind_ok (setWritePos_ok (by omega))]
    exact bind_orFail_false hrun

theorem closeIFD_budget {d : Dir} {c : Cursor} (next : UInt32) (hi : d.start + 2 ≤ c.ifdOffset) :
    Budget size (closeIFD d.start next c) [⟨false, c.ifdOffset⟩, ⟨true, c.ifdOffset + 4⟩]
      c.valueOffset where
  fits := by
    intro buf pos hbuf hpos hfit
    rw [fit_cons, fit_cons] at hfit
    have hlen : c.ifdOffset + 4 ≤ buf.length := hbuf ▸ hfit.2.1
    refine ⟨patch (patch buf c.ifdOffset (beLong next)) d.start (beShort (UInt16.ofNat c.entries)),
      d.start + 2, ?_, (length_patch _ _ _).trans ((length_patch _ _ _).trans hbuf), by omega⟩
    unfold closeIFD
    rw [bind_ok (setWritePos_ok (show c.ifdOffset ≤ buf.length by omega)),
      bind_orFail (writeL_ok hlen),
      bind_ok (setWritePos_ok (show d.start ≤ _ by rw [length_patch]; omega)),
      bind_orFail (writeW_ok (by rw [length_patch]; omega))]
    rfl
  short := by
    intro buf pos hbuf hpos hshort
    rw [reported_unchecked, reported_checked] at hshort
    obtain ⟨hstart, hlen⟩ := hshort
    have hlen := hlen.resolve_right fun h => h.2
    refine ⟨.failed, ⟨buf, c.ifdOffset⟩, ?_⟩
    unfold closeIFD
    rw [bind_ok (setWritePos_ok (by omega))]
    exact bind_orFail_false (writeL_short next (by omega))

theorem writeThumbnail_budget (thumbnailIfdOffset : Nat) (thumbnail : List UInt8) (c : Cursor) :
    Budget size (writeThumbnail 10 thumbnailIfdOffset thumbnail c)
      (thumbnailDemands thumbnailIfdOffset thumbnail c)
      { c with valueOffset := c.valueOffset + thumbnail.length } := by
  unfold thumbnailDemands
  by_cases hne : 0 < thumbnail.length
  · rw [if_pos hne]
    constructor
    · intro buf pos hbuf hpos hfit
      rw [fit_cons, fit_cons, fit_cons] at hfit
      have hlen : c.valueOffset + thumbnail.length ≤ buf.length := hbuf ▸ hfit.2.1
      have hi : thumbnailIfdOffset + 12 ≤ (patch buf c.valueOffset thumbnail).length := by
        rw [length_patch, hbuf]
        exact hfit.2.2.1
      generalize hoff : UInt32.ofNat (c.valueOffset - 10) = off
      refine ⟨patch (patch buf c.valueOffset thumbnail) thumbnailIfdOffset
        (entryBytes 0x0201 .long 1 off), thumbnailIfdOffset + 12, ?_,
        (length_patch _ _ _).trans ((length_patch _ _ _).trans hbuf), hfit.2.2.1⟩
      unfold writeThumbnail
      rw [if_pos hne]
      simp only
      rw [hoff, bind_ok (setWritePos_ok (show c.valueOffset ≤ buf.length by omega)),
        bind_orFail (writeCs_ok hlen), bind_ok (m := getWritePos) rfl,
        bind_ok (setWritePos_ok (show thumbnailIfdOffset ≤ _ by omega)),
        bind_ok (writeLongIFD_one _ 0x0201 off _ hi)]
      rfl
    · intro buf pos hbuf hpos hshort
      rw [reported_unchecked, reported_checked, reported_checked] at hshort
      obtain ⟨hv, hshort⟩ := hshort
      unfold writeThumbnail
      rw [if_pos hne]
      simp only
      rw [bind_ok (setWritePos_ok (show c.valueOffset ≤ buf.length by omega))]
      rcases hshort with hlen | ⟨hlen, hi⟩
      · obtain ⟨s, hrun⟩ := writeCs_short thumbnail (show c.valueOffset ≤ buf.length by omega)
          (by omega)
        exact ⟨.failed, s, bind_orFail_false hrun⟩
      · have hi := hi.resolve_right fun h => h.2
        rw [bind_orFail (writeCs_ok (by omega)), bind_ok (m := getWritePos) rfl]
        -- the entry cannot be written again, wherever the position is
        obtain ⟨b, s, hset, hbuf'⟩ : ∃ b s, setWritePos thumbnailIfdOffset
            ⟨patch buf c.valueOffset thumbnail, c.valueOffset + thumbnail.length⟩ = .ok b s ∧
            s.buf = patch buf c.valueOffset thumbnail := by
          unfold setWritePos
          split <;> exact ⟨_, _, rfl, rfl⟩
        obtain ⟨e, s', hrun⟩ := Writer.run_entry_short .long
          ⟨0x0201, .long, 1, leBytes (UInt32.ofNat (c.valueOffset - 10)),
            leBytes (UInt32.ofNat (c.valueOffset - 10))⟩ s.pos (c.valueOffset + thumbnail.length)
          (show s.buf.length < thumbnailIfdOffset + 12 by rw [hbuf', length_patch]; omega)
        rw [bind_ok hset]
        exact ⟨e, s', bind_error hrun⟩
  · have hzero : thumbnail.length = 0 := by omega
    rw [if_neg hne, hzero]
    refine ⟨fun buf pos hbuf hpos _ => ⟨buf, pos, ?_, hbuf, hpos⟩, fun _ _ _ _ h => h.elim⟩
    unfold writeThumbnail
    rw [if_neg hne]
    rfl

theorem writeIFH_budget : Budget size (writeIFH 10) [⟨false, 10⟩, ⟨true, 18⟩] 18 where
  fits := by
    intro buf pos hbuf hpos hfit
    rw [fit_cons, fit_cons] at hfit
    have hlen : 18 ≤ buf.length := hbuf ▸ hfit.2.1
    exact ⟨_, 18, writeIFH_ok pos hlen, (length_patch _ _ _).trans hbuf, hfit.2.1⟩
  short := by
    intro buf pos hbuf hpos hshort
    rw [reported_unchecked, reported_checked] at hshort
    obtain ⟨hstart, hlen⟩ := hshort
    have hlen := hlen.resolve_right fun h => h.2
    have hset : setWritePos 10 ⟨buf, pos⟩ = .ok true ⟨buf, 10⟩ := setWritePos_ok (by omega)
    unfold writeIFH
    rw [bind_ok hset]
    by_cases horder : 12 ≤ size
    · rw [bind_orFail (writeW_ok (by omega))]
      by_cases hfix : 14 ≤ size
      · rw [bind_orFail (writeW_ok (by rw [length_patch]; omega))]
        exact ⟨.failed, _, bind_orFail_false
          (writeL_short 8 (by rw [length_patch, length_patch]; omega))⟩
      · obtain ⟨s, hrun⟩ := writeW_short 0x002A
          (show 10 + 2 ≤ (patch buf 10 (beShort 0x4D4D)).length by rw [length_patch]; omega)
          (by rw [length_patch]; omega)
        exact ⟨.failed, s, bind_orFail_false hrun⟩
    · obtain ⟨s, hrun⟩ := writeW_short 0x4D4D (show 10 ≤ buf.length by omega) (by omega)
      exact ⟨.failed, s, bind_orFail_false hrun⟩

end Steps

/-! ## The plan of the writer -/

namespace Plan

def openIFD (d : Dir) : Plan Cursor := do
  let c ← step [⟨false, d.start⟩, ⟨true, d.start + 2⟩]
    ⟨d.start + 2, valuesStart d.start d.maxEntries, 0⟩
  note ⟨d, .opened, c, c⟩
  return c

def closeIFD (d : Dir) (c : Cursor) : Plan Nat := do
  let valueOffset ← step [⟨false, c.ifdOffset⟩, ⟨true, c.ifdOffset + 4⟩] c.valueOffset
  note ⟨d, .closed, c, c⟩
  return valueOffset

def writeBlocks (d : Dir) : List Block → Cursor → Plan Cursor
  | [], c => return c
  | b :: bs, c => do
    let c' ← step (b.demands c) (b.next c)
    note ⟨d, .entry, c, c'⟩
    writeBlocks d bs c'

def writeOptIFD (d : Dir) (writeInfo : Option (Nat → Plan Nat)) (c : Cursor) : Plan Cursor :=
  match writeInfo with
  | none => return c
  | some writeInfo => do
    let offsets ← step [⟨true, c.ifdOffset + 12⟩] (c.ifdOffset + 12, align4 c.valueOffset)
    let c' : Cursor := ⟨offsets.1, offsets.2, c.entries⟩
    note ⟨d, .pointer, c, c'⟩
    let valueOffset ← writeInfo c'.valueOffset
    let c'' : Cursor := ⟨c'.ifdOffset, valueOffset, c.entries + 1⟩
    note ⟨d, .returned, c'', c''⟩
    return c''

def writeExifInteroperabilityInfo (inter : InteroperabilityInfo) (beginOffset : Nat) : Plan Nat := do
  let c ← openIFD ⟨beginOffset, 1⟩
  let c ← writeBlocks ⟨beginOffset, 1⟩ (interBlocks inter) c
  closeIFD ⟨beginOffset, 1⟩ c

def writeExifSpecInfo (spec : SpecificInfo) (inter : Option InteroperabilityInfo)
    (beginOffset : Nat) : Plan Nat := do
  let c ← openIFD ⟨beginOffset, 57⟩
  let c ← writeBlocks ⟨beginOffset, 57⟩ (specBlocks spec) c
  let c ← writeOptIFD ⟨beginOffset, 57⟩ (inter.map writeExifInteroperabilityInfo) c
  let c ← writeBlocks ⟨beginOffset, 57⟩ (specTailBlocks spec) c
  closeIFD ⟨beginOffset, 57⟩ c

def writeExifGPSInfo (gps : GpsInfo) (beginOffset : Nat) : Plan Nat := do
  let c ← openIFD ⟨beginOffset, 31⟩
  let c ← writeBlocks ⟨beginOffset, 31⟩ (gpsBlocks gps) c
  closeIFD ⟨beginOffset, 31⟩ c

def writeThumbnail (d : Dir) (thumbnailIfdOffset : Nat) (thumbnail : List UInt8) (c : Cursor) :
    Plan Cursor := do
  let c' ← step (thumbnailDemands thumbnailIfdOffset thumbnail c)
    { c with valueOffset := c.valueOffset + thumbnail.length }
  note ⟨d, .thumbnail, c, c'⟩
  return c'

/-- The entries of a directory of pictures, up to the thumbnail. -/
def writePicture (d : Ifd) (beginOffset : Nat) (c : Cursor) : Plan Cursor := do
  let c ← writeBlocks ⟨beginOffset, 24⟩ (thumbnailBlocks d.thumbnail) c
  let c ← writeBlocks ⟨beginOffset, 24⟩ (primaryTailBlocks d.primary) c
  let c ← writeOptIFD ⟨beginOffset, 24⟩ (d.spec.map fun spec => writeExifSpecInfo spec d.inter) c
  writeOptIFD ⟨beginOffset, 24⟩ (d.gps.map writeExifGPSInfo) c

def writeExifIFD (d : Ifd) (beginOffset : Nat) : Plan Nat := do
  let c ← openIFD ⟨beginOffset, 24⟩
  let c ← writeBlocks ⟨beginOffset, 24⟩ (primaryBlocks d.primary) c
  let c' ← writePicture d beginOffset c
  let c' ← writeThumbnail ⟨beginOffset, 24⟩ c.ifdOffset d.thumbnail c'
  closeIFD ⟨beginOffset, 24⟩ c'

def writeDirectories (exif : ExifInfo) (thumbnail : List UInt8) : Plan Nat := do
  let endOffset ← step [⟨false, 10⟩, ⟨true, 18⟩] 18
  let endOffset ← writeExifIFD (ifd0 exif) endOffset
  if 0 < thumbnail.length then writeExifIFD (ifd1 thumbnail) endOffset else return endOffset

end Plan

/-! ## The offsets of a directory -/

/-- At most `n` entries are in a row, and the values are behind the room for all of them. -/
structure Cursor.In (c : Cursor) (d : Dir) (n : Nat) : Prop where
  ifdOffset : c.ifdOffset = d.start + 2 + 12 * c.entries
  entries : c.entries ≤ n
  values : valuesStart d.start d.maxEntries ≤ c.valueOffset
  aligned : 4 ∣ c.valueOffset

section Offsets

variable {d : Dir} {c : Cursor} {n : Nat}

theorem openIFD_valueOffset (d : Dir) :
    (Plan.openIFD d).value.valueOffset = valuesStart d.start d.maxEntries := rfl

theorem in_openIFD (d : Dir) : (Plan.openIFD d).value.In d 0 :=
  ⟨rfl, Nat.le_refl 0, Nat.le_refl _, dvd_align4 _⟩

theorem Cursor.In.le (h : c.In d n) : d.start + 2 ≤ c.ifdOffset := by
  rw [h.ifdOffset]
  exact Nat.le_add_right _ _

theorem Block.valueOffset_next (b : Block) (hv : 4 ∣ c.valueOffset) :
    (b.next c).valueOffset = c.valueOffset + b.size := by
  unfold Block.next Block.size
  split
  · exact align4_add hv
  · rfl

theorem Cursor.In.next (h : c.In d n) (b : Block) : (b.next c).In d (n + 1) := by
  have hentries := h.entries
  have hvalues := h.values
  have hnext := b.valueOffset_next h.aligned
  unfold Block.next at hnext ⊢
  split
  · next hp =>
    rw [if_pos hp] at hnext
    refine ⟨?_, by simp only; omega, by omega, dvd_align4 _⟩
    simp only [h.ifdOffset]
    omega
  · exact ⟨h.ifdOffset, by omega, hvalues, h.aligned⟩

theorem Cursor.In.writeBlocks (h : c.In d n) (bs : List Block) :
    (Plan.writeBlocks d bs c).value.In d (n + bs.length) ∧
      (Plan.writeBlocks d bs c).value.valueOffset = c.valueOffset + blocksSize bs := by
  induction bs generalizing c n with
  | nil => exact ⟨h, rfl⟩
  | cons b bs ih =>
    obtain ⟨hin, hvalue⟩ := ih (h.next b)
    rw [b.valueOffset_next h.aligned] at hvalue
    have hsize : blocksSize (b :: bs) = b.size + blocksSize bs := rfl
    refine ⟨?_, ?_⟩
    · rw [List.length_cons, Nat.add_comm bs.length, ← Nat.add_assoc]
      exact hin
    · rw [hsize, ← Nat.add_assoc]
      exact hvalue

/-- A sub-directory takes `size` bytes. -/
def Plan.Takes {α : Type} (plan : α → Nat → Plan Nat) (size : α → Nat) : Prop :=
  ∀ a v, 4 ∣ v → (plan a v).value = v + size a ∧ 4 ∣ size a

theorem Cursor.In.writeOptIFD {α : Type} (h : c.In d n) {plan : α → Nat → Plan Nat}
    {size : α → Nat} (hplan : Plan.Takes plan size) (info : Option α) :
    (Plan.writeOptIFD d (info.map plan) c).value.In d (n + 1) ∧
      (Plan.writeOptIFD d (info.map plan) c).value.valueOffset =
        c.valueOffset + (info.map size).getD 0 := by
  have hentries := h.entries
  have hvalues := h.values
  cases info with
  | none => exact ⟨⟨h.ifdOffset, Nat.le_succ_of_le hentries, hvalues, h.aligned⟩, rfl⟩
  | some a =>
    obtain ⟨hvalue, hsize⟩ := hplan a c.valueOffset h.aligned
    have hplace : (Plan.writeOptIFD d ((some a).map plan) c).value =
        ⟨c.ifdOffset + 12, (plan a c.valueOffset).value, c.entries + 1⟩ := by
      rw [Option.map_some]
      simp only [Plan.writeOptIFD, Plan.value_bind, Plan.value_pure, Plan.step,
        align4_of_dvd h.aligned]
    rw [hplace, hvalue]
    refine ⟨⟨?_, by simp only; omega, by simp only; omega, Nat.dvd_add h.aligned hsize⟩, rfl⟩
    simp only [h.ifdOffset]
    omega

theorem Plan.writeDir_value (d : Dir) (bs : List Block) (hv : 4 ∣ d.start) :
    (do
      let c ← Plan.openIFD d
      let c ← Plan.writeBlocks d bs c
      Plan.closeIFD d c : Plan Nat).value = d.start + dirSize d.maxEntries bs := by
  have hvalue := ((in_openIFD d).writeBlocks bs).2
  simp only [Plan.value_bind, Plan.closeIFD, Plan.value_pure]
  refine hvalue.trans ?_
  rw [openIFD_valueOffset, valuesStart_eq _ hv, Nat.add_assoc]
  rfl

theorem takes_interoperability :
    Plan.Takes Plan.writeExifInteroperabilityInfo fun i => dirSize 1 (interBlocks i) :=
  fun _ v hv => ⟨Plan.writeDir_value ⟨v, 1⟩ _ hv, dvd_dirSize _ _⟩

theorem takes_gps : Plan.Takes Plan.writeExifGPSInfo fun gps => dirSize 31 (gpsBlocks gps) :=
  fun _ v hv => ⟨Plan.writeDir_value ⟨v, 31⟩ _ hv, dvd_dirSize _ _⟩

theorem takes_spec (inter : Option InteroperabilityInfo) :
    Plan.Takes (fun spec => Plan.writeExifSpecInfo spec inter) fun spec => specSize spec inter := by
  intro spec v hv
  refine ⟨?_, dvd_specSize spec inter⟩
  obtain ⟨hin1, hv1⟩ := (in_openIFD ⟨v, 57⟩).writeBlocks (specBlocks spec)
  obtain ⟨hin2, hv2⟩ := hin1.writeOptIFD takes_interoperability inter
  obtain ⟨-, hv3⟩ := hin2.writeBlocks (specTailBlocks spec)
  rw [hv2, hv1, openIFD_valueOffset, valuesStart_eq _ hv] at hv3
  refine hv3.trans ?_
  simp only [specSize, interSize]
  omega

theorem length_thumbnailBlocks (thumbnail : List UInt8) : (thumbnailBlocks thumbnail).length = 2 := rfl

theorem length_primaryTailBlocks (primary : PrimaryInfo) : (primaryTailBlocks primary).length = 6 :=
  rfl

/-- The entries after those of the picture itself. -/
theorem Cursor.In.writePicture {ifd : Ifd} {B : Nat} (h : c.In ⟨B, 24⟩ 14)
    (hc : c.valueOffset = ifd.tailPlace B) :
    (Plan.writePicture ifd B c).value.In ⟨B, 24⟩ 24 ∧
      (Plan.writePicture ifd B c).value.valueOffset = ifd.thumbnailPlace B := by
  obtain ⟨hin1, hv1⟩ := h.writeBlocks (thumbnailBlocks ifd.thumbnail)
  obtain ⟨hin2, hv2⟩ := hin1.writeBlocks (primaryTailBlocks ifd.primary)
  obtain ⟨hin3, hv3⟩ := hin2.writeOptIFD (takes_spec ifd.inter) ifd.spec
  obtain ⟨hin4, hv4⟩ := hin3.writeOptIFD takes_gps ifd.gps
  rw [hv3, hv2, hv1, hc, blocksSize_thumbnailBlocks, Nat.add_zero] at hv4
  rw [length_thumbnailBlocks, length_primaryTailBlocks] at hin4
  simp only [Plan.writePicture, Plan.value_bind]
  exact ⟨hin4, hv4⟩

theorem in_primaryBlocks (ifd : Ifd) (B : Nat) :
    (Plan.writeBlocks ⟨B, 24⟩ (primaryBlocks ifd.primary) (Plan.openIFD ⟨B, 24⟩).value).value.In
        ⟨B, 24⟩ 14 ∧
      (Plan.writeBlocks ⟨B, 24⟩ (primaryBlocks ifd.primary)
        (Plan.openIFD ⟨B, 24⟩).value).value.valueOffset = ifd.tailPlace B := by
  obtain ⟨hin, hv⟩ := (in_openIFD ⟨B, 24⟩).writeBlocks (primaryBlocks ifd.primary)
  rw [openIFD_valueOffset] at hv
  exact ⟨hin, hv⟩

theorem Plan.writeExifIFD_value (ifd : Ifd) (B : Nat) :
    (Plan.writeExifIFD ifd B).value = ifd.endPlace B := by
  obtain ⟨hin, hv⟩ := in_primaryBlocks ifd B
  exact congrArg (· + ifd.thumbnail.length) (hin.writePicture hv).2

theorem Plan.writeDirectories_value (exif : ExifInfo) (thumbnail : List UInt8) :
    (Plan.writeDirectories exif thumbnail).value = app1Size exif thumbnail := by
  have hfirst : (Plan.writeExifIFD (ifd0 exif) 18).value = ifd0End exif :=
    Plan.writeExifIFD_value _ _
  unfold app1Size
  simp only [Plan.writeDirectories, Plan.value_bind, Plan.step, hfirst]
  split
  · exact Plan.writeExifIFD_value _ _
  · rfl

end Offsets

/-! ## The writer follows its plan -/

section Writer

variable {size : Nat} {d : Dir} {c : Cursor} {n : Nat}

theorem follows_openIFD (d : Dir) : Follows size (Traced.openIFD d) (Plan.openIFD d) :=
  (openIFD_budget d).lift.bind ((follows_note _).bind (follows_pure _))

theorem follows_closeIFD (hi : d.start + 2 ≤ c.ifdOffset) (next : UInt32) :
    Follows size (Traced.closeIFD d next c) (Plan.closeIFD d c) :=
  (closeIFD_budget next hi).lift.bind ((follows_note _).bind (follows_pure _))

theorem Cursor.In.follows_writeBlocks (h : c.In d n) (bs : List Block) :
    Follows size (Traced.writeBlocks d bs c) (Plan.writeBlocks d bs c) := by
  induction bs generalizing c n with
  | nil => exact follows_pure c
  | cons b bs ih =>
    exact (b.write_budget h.aligned).lift.bind ((follows_note _).bind (ih (h.next b)))

theorem follows_writeOptIFD {α : Type} (d : Dir) (c : Cursor) (tag : UInt16)
    {write : α → Nat → Traced Nat} {plan : α → Nat → Plan Nat}
    (hw : ∀ a v, 4 ∣ v → Follows size (write a v) (plan a v)) (info : Option α) :
    Follows size (Traced.writeOptIFD d tag (info.map write) c)
      (Plan.writeOptIFD d (info.map plan) c) := by
  cases info with
  | none => exact follows_pure c
  | some a =>
    exact (writeLongIFD_budget tag _ _ _).lift.bind ((follows_note _).bind
      ((hw a _ (dvd_align4 _)).bind ((follows_note _).bind (follows_pure _))))

theorem follows_writeDir (d : Dir) (bs : List Block) :
    Follows size (do
        let c ← Traced.openIFD d
        let c ← Traced.writeBlocks d bs c
        Traced.closeIFD d 0 c)
      (do
        let c ← Plan.openIFD d
        let c ← Plan.writeBlocks d bs c
        Plan.closeIFD d c) :=
  (follows_openIFD d).bind (((in_openIFD d).follows_writeBlocks bs).bind
    (follows_closeIFD ((in_openIFD d).writeBlocks bs).1.le 0))

theorem follows_writeExifSpecInfo (spec : SpecificInfo) (inter : Option InteroperabilityInfo)
    (v : Nat) :
    Follows size (Traced.writeExifSpecInfo spec inter v) (Plan.writeExifSpecInfo spec inter v) := by
  have hin1 := ((in_openIFD ⟨v, 57⟩).writeBlocks (specBlocks spec)).1
  have hin2 := (hin1.writeOptIFD takes_interoperability inter).1
  have hin3 := (hin2.writeBlocks (specTailBlocks spec)).1
  exact (follows_openIFD _).bind (((in_openIFD _).follows_writeBlocks _).bind
    ((follows_writeOptIFD _ _ 0xA005 (fun i v _ => follows_writeDir ⟨v, 1⟩ (interBlocks i)) inter).bind
      ((hin2.follows_writeBlocks _).bind (follows_closeIFD hin3.le 0))))

theorem ifdOffset_writeThumbnail (d : Dir) (thumbnailIfdOffset : Nat) (thumbnail : List UInt8)
    (c : Cursor) :
    (Plan.writeThumbnail d thumbnailIfdOffset thumbnail c).value.ifdOffset = c.ifdOffset := rfl

theorem follows_writeThumbnail (d : Dir) (thumbnailIfdOffset : Nat) (thumbnail : List UInt8)
    (c : Cursor) : Follows size (Traced.writeThumbnail d thumbnailIfdOffset thumbnail c)
      (Plan.writeThumbnail d thumbnailIfdOffset thumbnail c) :=
  (writeThumbnail_budget _ _ _).lift.bind ((follows_note _).bind (follows_pure _))

theorem follows_writeExifIFD (ifd : Ifd) (isNextIfdExist : Bool) (B : Nat) :
    Follows size (Traced.writeExifIFD ifd.primary ifd.spec ifd.gps ifd.inter ifd.thumbnail
      isNextIfdExist B) (Plan.writeExifIFD ifd B) := by
  obtain ⟨hin1, hv1⟩ := in_primaryBlocks ifd B
  have hin2 := (hin1.writeBlocks (thumbnailBlocks ifd.thumbnail)).1
  have hin3 := (hin2.writeBlocks (primaryTailBlocks ifd.primary)).1
  have hin4 := (hin3.writeOptIFD (takes_spec ifd.inter) ifd.spec).1
  have hin5 := (hin1.writePicture hv1).1.le
  simp only [Plan.writePicture, Plan.value_bind] at hin5
  have hplan : Plan.writeExifIFD ifd B = (do
      let c ← Plan.openIFD ⟨B, 24⟩
      let c ← Plan.writeBlocks ⟨B, 24⟩ (primaryBlocks ifd.primary) c
      let c' ← Plan.writeBlocks ⟨B, 24⟩ (thumbnailBlocks ifd.thumbnail) c
      let c' ← Plan.writeBlocks ⟨B, 24⟩ (primaryTailBlocks ifd.primary) c'
      let c' ← Plan.writeOptIFD ⟨B, 24⟩
        (ifd.spec.map fun spec => Plan.writeExifSpecInfo spec ifd.inter) c'
      let c' ← Plan.writeOptIFD ⟨B, 24⟩ (ifd.gps.map Plan.writeExifGPSInfo) c'
      let c' ← Plan.writeThumbnail ⟨B, 24⟩ c.ifdOffset ifd.thumbnail c'
      Plan.closeIFD ⟨B, 24⟩ c') := by
    simp only [Plan.writeExifIFD, Plan.writePicture, Plan.bind_assoc]
  rw [hplan]
  refine (follows_openIFD _).bind (((in_openIFD _).follows_writeBlocks _).bind
    ((hin1.follows_writeBlocks _).bind ((hin2.follows_writeBlocks _).bind
      ((follows_writeOptIFD _ _ 0x8769
          (fun spec v _ => follows_writeExifSpecInfo spec ifd.inter v) ifd.spec).bind
        ((follows_writeOptIFD _ _ 0x8825
            (fun gps v _ => follows_writeDir ⟨v, 31⟩ (gpsBlocks gps)) ifd.gps).bind
          ((follows_writeThumbnail _ _ _ _).bind (follows_closeIFD ?_ _)))))))
  rw [ifdOffset_writeThumbnail]
  exact hin5

/-- **The directories are written as they are planned**, as far as the buffer goes. -/
theorem follows_writeDirectories (exif : ExifInfo) (thumbnail : List UInt8) :
    Follows size (Traced.writeDirectories exif thumbnail)
      (Plan.writeDirectories exif thumbnail) := by
  have hsecond : ∀ B, Follows size
      (if decide (0 < thumbnail.length) then
        Traced.writeExifIFD ifd1Primary none none none thumbnail false B else pure B)
      (if 0 < thumbnail.length then Plan.writeExifIFD (ifd1 thumbnail) B else pure B) := by
    intro B
    by_cases hne : 0 < thumbnail.length
    · rw [if_pos hne, if_pos (decide_eq_true hne)]
      exact follows_writeExifIFD (ifd1 thumbnail) false B
    · rw [if_neg hne, if_neg (by simpa using hne)]
      exact follows_pure B
  exact (writeIFH_budget.lift).bind ((follows_writeExifIFD (ifd0 exif) _ 18).bind (hsecond _))

end Writer

end SprdHal.Exif
