import Mathlib.Data.List.TakeWhile
import SprdHal.Audio.NvFile

/-!
# The stores of the audio parameter reader

What a line names is read off its text alone (`naming`): the indices in it, and the place of the
value if it names a field. The reader is compared with it line by line (`readLine_safe`), and from
that over the whole file (`stringfile2nvstruct_safe_iff`): its stores stay inside the array, and
lines that name no mode or no element store nothing, exactly if every line is fine in the state in
which it is read.
-/

namespace SprdHal.Audio

open SprdHal.Lib

/-! ## What a line names -/

/-- The indices in a line. -/
inductive IndexKind
  | app | eqMode | eqBand
  | element (c : Counter)
  deriving DecidableEq

namespace IndexKind

/-- The modes and the bands of the equalizer are counted from 1. -/
def low : IndexKind → Int
  | .app => 0
  | .eqMode => 1
  | .eqBand => 1
  | .element _ => 0

def count : IndexKind → Int
  | .app => 16
  | .eqMode => 6
  | .eqBand => 8
  | .element c => c.size

/-- An index of an element. -/
def Holds (k : IndexKind) (i : Int) : Prop := k.low ≤ i ∧ i < k.low + k.count

/-- The characters that `sscanf` takes for the index, and the one at which it stops. The index of an
array element is not read. -/
def scan : IndexKind → Option ((Char → Bool) × Char)
  | .app => some (isDec, ']')
  | .eqMode => some (isOneToNine, '\\')
  | .eqBand => some (isDec, '\\')
  | .element _ => none

end IndexKind

/-- An index in a line: the text from it on, and whether a field is named with it. -/
structure LineIndex where
  kind : IndexKind
  text : Text
  used : Bool
  deriving DecidableEq

/-- The number that the text has for the index, if it has one, is that of an element. -/
def LineIndex.Named (ix : LineIndex) : Prop := ∀ i ∈ readInt 10 ix.text, ix.kind.Holds i

/-- The digits have room in `data`, and nothing is between them and the character at which the index
ends. -/
def LineIndex.Closed (ix : LineIndex) : Prop :=
  ∀ k ∈ ix.kind.scan, (ix.text.takeWhile k.1).length < 128 ∧
    (ix.text.takeWhile k.1 ≠ [] → ∀ c ∈ (ix.text.dropWhile k.1).head?, c = k.2)

/-- The digits in `data` behind the index: where it has none, the earlier ones. -/
def LineIndex.dataAfter (ix : LineIndex) (data : Text) : Text :=
  match ix.kind.scan with
  | none => data
  | some k => if ix.text.takeWhile k.1 = [] then data else ix.text.takeWhile k.1

def dataBehind (data : Text) (ixs : List LineIndex) : Text :=
  ixs.foldl (fun d ix => ix.dataAfter d) data

/-- The digits with which a field is named are those of an element, also if they are earlier ones. -/
def UsedFine : Text → List LineIndex → Prop
  | _, [] => True
  | data, ix :: ixs =>
    (ix.used = true → ix.kind.Holds (digitsValue 10 (ix.dataAfter data))) ∧
      UsedFine (ix.dataAfter data) ixs

/-- The indices of a line, with the digits that are in `data` before it. -/
def IndicesFine (data : Text) (ixs : List LineIndex) : Prop :=
  (∀ ix ∈ ixs, ix.Named ∧ ix.Closed) ∧ UsedFine data ixs

/-- The index in brackets in the last part of the path. -/
def elementText (t : Text) : Option Text :=
  ((((t.takeWhile (· ≠ '=')).reverse.takeWhile (· ≠ '\\')).reverse).dropWhile (· ≠ '[')).tail?

def elementIndex (c : Option Counter) (t : Text) : List LineIndex :=
  match c with
  | none => []
  | some c => (elementText t).toList.map fun u => ⟨.element c, u, false⟩

/-- The indices in a line, and the text in which the `=` is searched if the line names a field. -/
structure Naming where
  indices : List LineIndex
  place : Option Text

def armNaming (line : Text) : Naming :=
  match firstKey armKeys line with
  | some x => ⟨elementIndex x.counter line, some line⟩
  | none =>
    match strstr appKey line with
    | none => ⟨[], none⟩
    | some p =>
      match firstKey appKeys p with
      | none => ⟨[⟨.app, p.drop appKey.length, false⟩], none⟩
      | some x => ⟨⟨.app, p.drop appKey.length, true⟩ :: elementIndex x.counter p, some p⟩

def extendNaming (line : Text) (ixs : List LineIndex) : Naming :=
  if occurs extendArrayKey line then ⟨ixs ++ elementIndex (some .extendArray) line, some line⟩
  else ⟨ixs, none⟩

def eqNaming (nvLine line : Text) : Naming :=
  if occurs eqControlKey line then ⟨[], some line⟩
  else
    match strstr eqModeKey line with
    | none => extendNaming line []
    | some p =>
      match firstKey eqModeKeys p with
      | some _ => ⟨[⟨.eqMode, p.drop eqModeKey.length, true⟩], some line⟩
      | none =>
        match strstr eqBandKey p with
        | none => extendNaming line [⟨.eqMode, p.drop eqModeKey.length, false⟩]
        | some q =>
          match bandItem nvLine line q with
          | some _ =>
            ⟨[⟨.eqMode, p.drop eqModeKey.length, true⟩, ⟨.eqBand, q.drop eqBandKey.length, true⟩],
              some line⟩
          | none =>
            extendNaming line
              [⟨.eqMode, p.drop eqModeKey.length, false⟩, ⟨.eqBand, q.drop eqBandKey.length, false⟩]

def naming (nvLine : Text) : Part → Naming
  | .arm => armNaming (cstr nvLine)
  | .eq => eqNaming nvLine (cstr nvLine)

/-- The name is that of a mode, behind `EQ_` for the equalizer. -/
def ModeTable.Knows (t : ModeTable) (p : Part) (name : Text) : Prop :=
  ∃ m ∈ t.items, name = (match p with | .arm => [] | .eq => "EQ_".toList) ++ m.name

/-- A line with an unknown mode, or with an index that is not one of an element. -/
def Misnames (t : ModeTable) (nvLine : Text) : Prop :=
  ∃ h, heading (cstr nvLine) = some h ∧
    ((∃ name, h.2 = some name ∧ ¬ t.Knows h.1 name) ∨
      ∃ ix ∈ (naming nvLine h.1).indices, ¬ ix.Named)

/-- All copies and stores of a line are inside, and there is no store if it misnames something. -/
def LineLog.Safe (t : ModeTable) (l : LineLog) : Prop :=
  (∀ e ∈ l.events, e.InRange t.items.length) ∧
    (Misnames t l.nvLine → ∀ e ∈ l.events, ¬ e.Stores)

/-- A known mode whose name has room in `outputstyle`. Where the line ends before the name, a mode
must have been found before. -/
def HeadFine (t : ModeTable) (s : Reader) (h : Part × Option Text) : Prop :=
  match h.2 with
  | some name => t.Knows h.1 name ∧ name.length < 16
  | none => (t.find (s.modeName h.1)).isSome ∨ s.output h.1 ≠ -1

/-- A line that is not read, or whose mode, indices and value are in order. -/
def LineFine (t : ModeTable) (s : Reader) (chunk : Text) : Prop :=
  ∀ h ∈ heading (cstr (s.load chunk).nvLine),
    HeadFine t s h ∧ IndicesFine s.data (naming (s.load chunk).nvLine h.1).indices ∧
      ∀ place ∈ (naming (s.load chunk).nvLine h.1).place, ∀ v ∈ valueText place, v.length < 128

/-! ## Indices -/

theorem isDec_of_isOneToNine {c : Char} (h : isOneToNine c = true) : isDec c = true :=
  (Bool.and_eq_true_iff.1 h).1

/-- The indices that the code computes for an application, a mode and a band. -/
theorem holds_app {i : Int} : IndexKind.app.Holds i ↔ 0 ≤ i ∧ i < 16 := Iff.rfl

theorem holds_eqMode {i : Int} : IndexKind.eqMode.Holds i ↔ 0 ≤ i - 1 ∧ i - 1 < 6 := by
  show 1 ≤ i ∧ i < 1 + 6 ↔ _
  omega

theorem holds_eqBand {i : Int} : IndexKind.eqBand.Holds i ↔ 0 ≤ i - 1 ∧ i - 1 < 8 := by
  show 1 ≤ i ∧ i < 1 + 8 ↔ _
  omega

theorem scan_digit {k : IndexKind} {isIdx : Char → Bool} {stop : Char}
    (h : k.scan = some (isIdx, stop)) :
    (∀ c, isIdx c = true → isDec c = true) ∧ isDec stop = false := by
  cases k with
  | app => cases h; exact ⟨fun _ h => h, by decide⟩
  | eqMode => cases h; exact ⟨fun _ => isDec_of_isOneToNine, by decide⟩
  | eqBand => cases h; exact ⟨fun _ h => h, by decide⟩
  | element c => cases h

/-- A larger set takes nothing more where the text goes on with none of it. -/
theorem takeWhile_eq_of_head {p q : Char → Bool} (hpq : ∀ c, p c = true → q c = true) {t : Text}
    (hstop : ∀ c ∈ (t.dropWhile p).head?, q c = false) : t.takeWhile q = t.takeWhile p := by
  induction t with
  | nil => rfl
  | cons c cs ih =>
    cases hc : p c with
    | true =>
      rw [List.dropWhile_cons_of_pos hc] at hstop
      rw [List.takeWhile_cons_of_pos hc, List.takeWhile_cons_of_pos (hpq c hc), ih hstop]
    | false =>
      have hpc : ¬ p c = true := ne_true_of_eq_false hc
      rw [List.dropWhile_cons_of_neg hpc] at hstop
      have hqc : ¬ q c = true := ne_true_of_eq_false (hstop c rfl)
      rw [List.takeWhile_cons_of_neg hpc, List.takeWhile_cons_of_neg hqc]

/-- `data` holds digits of an index. -/
structure DataOk (data : Text) : Prop where
  digits : ∀ c ∈ data, isDec c = true
  lt : digitsValue 10 data < 16

/-- The digits of a number in base 10 are read as that number. -/
theorem readInt_digits {t : Text} (h : t.takeWhile isDec ≠ []) :
    readInt 10 t = some (digitsValue 10 (t.takeWhile isDec) : Int) := by
  cases t with
  | nil => exact absurd rfl h
  | cons c cs =>
    have hc : isDec c = true := by
      by_contra hc
      exact h (List.takeWhile_cons_of_neg hc)
    rw [readInt_of_digit (by decide) hc, unsignedInt]
    exact if_neg h

theorem DataOk.atoi_eq {data : Text} (h : DataOk data) : atoi data = digitsValue 10 data := by
  have hall : data.takeWhile isDec = data := List.takeWhile_eq_self_iff.2 h.digits
  have hlt := h.lt
  unfold atoi strtol
  by_cases hnil : data = []
  · subst hnil
    rfl
  · rw [readInt_digits (by rwa [hall]), hall, Option.getD_some]
    exact clampLong_of_lt (by omega)

theorem DataOk.toShort_eq {data : Text} (h : DataOk data) :
    toShort (atoi data) = digitsValue 10 data := by
  have hlt := h.lt
  rw [h.atoi_eq]
  exact toShort_of_lt (by omega)

theorem Holds.lt {k : IndexKind} {isIdx : Char → Bool} {stop : Char}
    (hscan : k.scan = some (isIdx, stop)) {i : Int} (h : k.Holds i) : i < 16 := by
  cases k with
  | app => exact h.2
  | eqMode =>
    rw [holds_eqMode] at h
    omega
  | eqBand =>
    rw [holds_eqBand] at h
    omega
  | element c => cases hscan

section Index

variable {ix : LineIndex} {data : Text}

/-- `sscanf` stays in `data` exactly if the index is closed. -/
theorem scanIndex_inRange {n : Nat} {isIdx : Char → Bool} {stop : Char}
    (hscan : ix.kind.scan = some (isIdx, stop)) :
    (∀ e ∈ (scanIndex isIdx stop data ix.text).2, e.InRange n) ↔ ix.Closed := by
  unfold LineIndex.Closed scanIndex
  rw [hscan]
  simp only [Option.mem_def, Option.some.injEq, forall_eq']
  cases htake : ix.text.takeWhile isIdx with
  | nil => simp
  | cons d ds =>
    cases hdrop : ix.text.dropWhile isIdx with
    | nil =>
      simp only [List.mem_singleton, forall_eq, Event.InRange, List.length_cons, List.head?_nil]
      constructor
      · intro h
        exact ⟨by omega, fun _ c hc => absurd hc (by simp)⟩
      · rintro ⟨h, -⟩
        omega
    | cons c cs =>
      have hstop : (∀ e ∈ (if c = stop then [] else [Event.wild]), e.InRange n) ↔ c = stop := by
        by_cases hc : c = stop
        · simp [hc]
        · simp [hc, Event.InRange]
      rw [List.forall_mem_cons]
      refine and_congr Iff.rfl (hstop.trans ?_)
      simp [eq_comm]

theorem scanIndex_data {isIdx : Char → Bool} {stop : Char}
    (hscan : ix.kind.scan = some (isIdx, stop)) :
    (scanIndex isIdx stop data ix.text).1 = ix.dataAfter data := by
  unfold LineIndex.dataAfter scanIndex
  rw [hscan]
  cases htake : ix.text.takeWhile isIdx with
  | nil => simp [htake]
  | cons d ds => simp [htake]

/-- The digits of an index that the line names are a number that fits. -/
theorem dataAfter_ok (hnamed : ix.Named) (hclosed : ix.Closed) (hdata : DataOk data) :
    DataOk (ix.dataAfter data) := by
  unfold LineIndex.dataAfter
  cases hscan : ix.kind.scan with
  | none => exact hdata
  | some k =>
    obtain ⟨isIdx, stop⟩ := k
    obtain ⟨hsub, hstop⟩ := scan_digit hscan
    dsimp only
    split
    · exact hdata
    · next hne =>
      have hsame : ix.text.takeWhile isDec = ix.text.takeWhile isIdx := by
        refine takeWhile_eq_of_head hsub fun c hc => ?_
        rw [(hclosed _ hscan).2 hne c hc]
        exact hstop
      have hread := readInt_digits (t := ix.text) (by rwa [hsame])
      have hlt := Holds.lt hscan (hnamed _ hread)
      rw [hsame] at hlt
      exact ⟨fun c hc => hsub c (List.mem_takeWhile_imp hc), by omega⟩

end Index

/-! ## Reading a line -/

section Element

variable {c : Option Counter} {t : Text} {ix : LineIndex}

/-- The index of an array element is not read. -/
theorem elementIndex_unread (h : ix ∈ elementIndex c t) : ix.kind.scan = none ∧ ix.used = false := by
  cases c with
  | none => exact absurd h List.not_mem_nil
  | some c =>
    obtain ⟨u, -, rfl⟩ := List.mem_map.1 h
    exact ⟨rfl, rfl⟩

theorem elementIndex_closed (h : ix ∈ elementIndex c t) : ix.Closed := by
  intro k hk
  rw [(elementIndex_unread h).1] at hk
  cases hk

theorem dataAfter_unread (h : ix.kind.scan = none) (data : Text) : ix.dataAfter data = data := by
  unfold LineIndex.dataAfter
  rw [h]

theorem dataBehind_unread {ixs : List LineIndex} (h : ∀ ix ∈ ixs, ix.kind.scan = none)
    (data : Text) : dataBehind data ixs = data := by
  induction ixs with
  | nil => rfl
  | cons ix ixs ih =>
    obtain ⟨hix, hixs⟩ := List.forall_mem_cons.1 h
    unfold dataBehind at ih ⊢
    rw [List.foldl_cons, dataAfter_unread hix, ih hixs]

theorem usedFine_unused {ixs : List LineIndex} (h : ∀ ix ∈ ixs, ix.used = false) (data : Text) :
    UsedFine data ixs := by
  induction ixs generalizing data with
  | nil => trivial
  | cons ix ixs ih =>
    obtain ⟨hix, hixs⟩ := List.forall_mem_cons.1 h
    exact ⟨fun hused => absurd (hused.symm.trans hix) (by decide), ih hixs _⟩

theorem usedFine_append (data : Text) (a b : List LineIndex) :
    UsedFine data (a ++ b) ↔ UsedFine data a ∧ UsedFine (dataBehind data a) b := by
  induction a generalizing data with
  | nil => exact (and_iff_right trivial).symm
  | cons ix a ih =>
    rw [List.cons_append, UsedFine, UsedFine, ih, and_assoc]
    rfl

end Element

/-- The running indices are those of elements. -/
def CountersOk (index : Counter → Nat) : Prop := ∀ c, index c < c.size

theorem bump_ok {index : Counter → Nat} (h : CountersOk index) (c : Option Counter) :
    CountersOk (bump index c) := by
  cases c with
  | none => exact h
  | some c =>
    intro d
    show Function.update index c _ d < d.size
    rw [Function.update_apply]
    split
    · next hd =>
      subst hd
      have hlt := h d
      split <;> omega
    · exact h d

theorem next_lt {s : Reader} (h : CountersOk s.index) (c : Option Counter) :
    s.next c < c.elim 1 Counter.size := by
  cases c with
  | none => exact Nat.one_pos
  | some c => exact h c

/-- What the reader makes of a line that is named as `nm` says. -/
structure Reading.Matches (r : Reading) (data : Text) (nm : Naming) : Prop where
  place : r.target.map Prod.snd = nm.place
  data_eq : r.data = dataBehind data nm.indices
  events : ∀ n, (∀ e ∈ r.events, e.InRange n) ↔ ∀ ix ∈ nm.indices, ix.Closed
  fields : (∀ ix ∈ nm.indices, ix.Named ∧ ix.Closed) →
    ((∀ x ∈ r.target, x.1.InRange) ↔ UsedFine data nm.indices)

/-- The index of an array element at the end makes no difference to the reader. -/
theorem Reading.Matches.element {r : Reading} {data : Text} (ixs : List LineIndex)
    {place : Option Text} (h : r.Matches data ⟨ixs, place⟩) (c : Option Counter) (t : Text) :
    r.Matches data ⟨ixs ++ elementIndex c t, place⟩ where
  place := h.place
  data_eq := by
    have hlast := dataBehind_unread (fun _ h => (elementIndex_unread (c := c) (t := t) h).1)
      (dataBehind data ixs)
    rw [h.data_eq]
    exact (hlast.symm.trans (List.foldl_append ..).symm)
  events n := by
    rw [h.events n, List.forall_mem_append]
    exact (and_iff_left fun _ => elementIndex_closed).symm
  fields hall := by
    rw [h.fields fun ix hix => hall ix (List.mem_append_left _ hix), usedFine_append]
    exact (and_iff_left (usedFine_unused (fun _ h => (elementIndex_unread h).2) _)).symm

/-- The indices that `sscanf` reads, with `data` and the copies behind them. -/
structure Scanned (data : Text) (ixs : List LineIndex) (out : Text × List Event) : Prop where
  data_eq : out.1 = dataBehind data ixs
  events : ∀ n, (∀ e ∈ out.2, e.InRange n) ↔ ∀ ix ∈ ixs, ix.Closed

theorem Scanned.nil (data : Text) : Scanned data [] (data, []) :=
  ⟨rfl, fun _ => ⟨fun _ _ h => absurd h List.not_mem_nil, fun _ _ h => absurd h List.not_mem_nil⟩⟩

theorem Scanned.snoc {data : Text} {ixs : List LineIndex} {out : Text × List Event}
    (h : Scanned data ixs out) (ix : LineIndex) {isIdx : Char → Bool} {stop : Char}
    (hscan : ix.kind.scan = some (isIdx, stop)) :
    Scanned data (ixs ++ [ix])
      ((scanIndex isIdx stop out.1 ix.text).1, out.2 ++ (scanIndex isIdx stop out.1 ix.text).2) where
  data_eq := by
    unfold dataBehind
    rw [scanIndex_data hscan, h.data_eq, List.foldl_append]
    rfl
  events n := by
    rw [List.forall_mem_append, h.events n, scanIndex_inRange hscan, List.forall_mem_append,
      List.forall_mem_singleton]

/-- Behind the indices that a line names, `data` has digits of one of them. -/
theorem dataBehind_ok {data : Text} {ixs : List LineIndex} (hdata : DataOk data)
    (h : ∀ ix ∈ ixs, ix.Named ∧ ix.Closed) : DataOk (dataBehind data ixs) := by
  induction ixs generalizing data with
  | nil => exact hdata
  | cons ix ixs ih =>
    obtain ⟨hix, hixs⟩ := List.forall_mem_cons.1 h
    exact ih (dataAfter_ok hix.1 hix.2 hdata) hixs

theorem usedFine_singleton {data : Text} {k : IndexKind} {text : Text} :
    UsedFine data [⟨k, text, true⟩] ↔
      k.Holds (digitsValue 10 (dataBehind data [⟨k, text, true⟩])) := by
  simp [UsedFine, dataBehind]

theorem usedFine_pair {data : Text} {a b : LineIndex} (ha : a.used = true) (hb : b.used = true) :
    UsedFine data [a, b] ↔
      a.kind.Holds (digitsValue 10 (dataBehind data [a])) ∧
        b.kind.Holds (digitsValue 10 (dataBehind data [a, b])) := by
  simp [UsedFine, dataBehind, ha, hb]

section Reading

variable {s : Reader} (hindex : CountersOk s.index) (hdata : DataOk s.data)

include hindex

include hdata in
theorem armReading_matches (line : Text) :
    (s.armReading line).Matches s.data (armNaming line) := by
  unfold Reader.armReading armNaming
  cases harm : firstKey armKeys line with
  | some x =>
    refine Reading.Matches.element []
      ⟨rfl, rfl, (Scanned.nil s.data).events, fun _ => ?_⟩ _ _
    simp only [Option.mem_some_iff, forall_eq', UsedFine, iff_true]
    exact next_lt hindex x.counter
  | none =>
    cases happ : strstr appKey line with
    | none => exact ⟨rfl, rfl, (Scanned.nil s.data).events, fun _ => by simp [UsedFine]⟩
    | some p =>
      have hscan : ∀ used, Scanned s.data [⟨.app, p.drop appKey.length, used⟩]
          (scanIndex isDec ']' s.data (p.drop appKey.length)) :=
        fun used => (Scanned.nil s.data).snoc ⟨.app, p.drop appKey.length, used⟩ rfl
      dsimp only
      cases hkey : firstKey appKeys p with
      | none =>
        refine ⟨rfl, (hscan false).data_eq, (hscan false).events, fun _ => ?_⟩
        simp [UsedFine]
      | some x =>
        refine Reading.Matches.element [_]
          ⟨rfl, (hscan true).data_eq, (hscan true).events, fun hall => ?_⟩ _ _
        have hok := dataBehind_ok hdata hall
        rw [usedFine_singleton, holds_app]
        simp only [Option.map_some, Option.mem_some_iff, forall_eq', (hscan true).data_eq,
          hok.toShort_eq]
        exact and_iff_left (next_lt hindex x.counter)

theorem extendReading_matches (line : Text) {ixs : List LineIndex} {out : Text × List Event}
    (h : Scanned s.data ixs out) (hunused : ∀ ix ∈ ixs, ix.used = false) :
    (s.extendReading line out.1 out.2).Matches s.data (extendNaming line ixs) := by
  unfold Reader.extendReading extendNaming
  have hused := usedFine_unused hunused s.data
  split
  · refine Reading.Matches.element _ ⟨rfl, h.data_eq, h.events, fun _ => ?_⟩ _ _
    refine ⟨fun _ => hused, fun _ => ?_⟩
    rintro _ ⟨⟩
    exact next_lt hindex (some .extendArray)
  · exact ⟨rfl, h.data_eq, h.events, fun _ => ⟨fun _ => hused, by simp⟩⟩

include hdata in
theorem eqReading_matches (line : Text) :
    (s.eqReading line).Matches s.data (eqNaming s.nvLine line) := by
  unfold Reader.eqReading eqNaming
  split
  · exact ⟨rfl, rfl, (Scanned.nil s.data).events, fun _ => by simp [UsedFine, Field.InRange]⟩
  · cases hmode : strstr eqModeKey line with
    | none => exact extendReading_matches hindex line (Scanned.nil _) (by simp)
    | some p =>
      have hscan : ∀ used, Scanned s.data [⟨.eqMode, p.drop eqModeKey.length, used⟩]
          (scanIndex isOneToNine '\\' s.data (p.drop eqModeKey.length)) :=
        fun used => (Scanned.nil s.data).snoc ⟨.eqMode, p.drop eqModeKey.length, used⟩ rfl
      dsimp only
      cases hkey : firstKey eqModeKeys p with
      | some x =>
        refine ⟨rfl, (hscan true).data_eq, (hscan true).events, fun hall => ?_⟩
        dsimp only at hall
        have hok := dataBehind_ok hdata hall
        rw [usedFine_singleton, holds_eqMode]
        simp only [Option.mem_some_iff, forall_eq', (hscan true).data_eq, hok.atoi_eq]
        rfl
      | none =>
        cases hband : strstr eqBandKey p with
        | none => exact extendReading_matches hindex line (hscan false) (by simp)
        | some q =>
          have hscan' : ∀ used, Scanned s.data [⟨.eqMode, p.drop eqModeKey.length, used⟩,
              ⟨.eqBand, q.drop eqBandKey.length, used⟩] _ :=
            fun used => (hscan used).snoc ⟨.eqBand, q.drop eqBandKey.length, used⟩ rfl
          dsimp only
          cases hitem : bandItem s.nvLine line q with
          | none => exact extendReading_matches hindex line (hscan' false) (by simp)
          | some x =>
            refine ⟨rfl, (hscan' true).data_eq, (hscan' true).events, fun hall => ?_⟩
            dsimp only at hall
            have hfirst := dataBehind_ok hdata
              (List.forall_mem_singleton.2 (List.forall_mem_cons.1 hall).1)
            have hlast := dataBehind_ok hdata hall
            dsimp only
            rw [usedFine_pair rfl rfl, holds_eqMode, holds_eqBand]
            have hdata' := (hscan' true).data_eq
            rw [(hscan true).data_eq] at hdata' ⊢
            rw [hfirst.atoi_eq, hdata', hlast.toShort_eq]
            simp only [Option.mem_some_iff, forall_eq']
            rfl

include hdata in
theorem reading_matches (p : Part) :
    (s.reading (cstr s.nvLine) p).Matches s.data (naming s.nvLine p) := by
  cases p with
  | arm => exact armReading_matches hindex hdata _
  | eq => exact eqReading_matches hindex hdata _

end Reading

/-! ## The mode of a line -/

theorem cstr_append_nul {s rest : Text} (h : '\x00' ∉ s) : cstr (s ++ '\x00' :: rest) = s := by
  have hpos : ∀ c ∈ s, decide (c ≠ '\x00') = true := by
    intro c hc
    refine decide_eq_true ?_
    rintro rfl
    exact h hc
  unfold cstr
  rw [List.takeWhile_append_of_pos hpos]
  simp

theorem nul_not_mem_cstr (buf : Text) : '\x00' ∉ cstr buf := by
  intro h
  have hne := List.mem_takeWhile_imp (p := fun c => decide (c ≠ '\x00')) h
  exact of_decide_eq_true hne rfl

theorem find_known {t : ModeTable} {name : Text} (h : ∃ m ∈ t.items, m.name = name) :
    ∃ i, t.find name = some i := by
  obtain ⟨m, hm, rfl⟩ := h
  cases hf : t.items.find? fun m' => m'.name = m.name with
  | none => exact absurd (List.find?_eq_none.1 hf m hm) (by simp)
  | some m' => exact ⟨m'.index, by rw [ModeTable.find, hf]; rfl⟩

theorem find_lt {t : ModeTable} {name : Text} {i : Nat} (h : t.find name = some i) :
    i < t.items.length := by
  obtain ⟨m, hm, rfl⟩ := Option.map_eq_some_iff.1 h
  exact t.index_lt m (List.mem_of_find?_eq_some hm)

theorem scanName_nul {literal line name : Text} (h : scanName literal line = some (some name))
    (hline : '\x00' ∉ line) : '\x00' ∉ name := by
  unfold scanName at h
  split at h
  · split at h
    · cases h
    · next c cs hdrop =>
      split at h
      · cases h
      · cases h
        intro hmem
        have hcs := (List.takeWhile_prefix _).subset hmem
        rw [← hdrop] at hcs
        exact hline ((List.drop_suffix _ _).subset hcs)
  · cases h

theorem heading_nul {line name : Text} {p : Part} (h : heading line = some (p, some name))
    (hline : '\x00' ∉ line) : '\x00' ∉ name := by
  unfold heading at h
  split at h
  · obtain ⟨o, ho, heq⟩ := Option.map_eq_some_iff.1 h
    cases heq
    exact scanName_nul ho hline
  · split at h
    · obtain ⟨o, ho, heq⟩ := Option.map_eq_some_iff.1 h
      cases heq
      exact scanName_nul ho fun hmem => hline ((List.dropWhile_suffix _).subset hmem)
    · cases h

/-- An index of the parameter array. -/
def ModeOk (t : ModeTable) (i : Int) : Prop := 0 ≤ i ∧ i < t.items.length

/-- The state in which the lines are read: before the first line of a part there is no mode for it. -/
structure Reader.Ok (t : ModeTable) (s : Reader) : Prop where
  index : CountersOk s.index
  data : DataOk s.data
  output : ∀ p, s.output p = -1 ∨ ModeOk t (s.output p)

section Mode

variable {t : ModeTable} {s : Reader} {p : Part}

theorem selectMode_cases (t : ModeTable) (s : Reader) (p : Part) :
    (t.find (s.modeName p) = none ∧ s.selectMode t p = s) ∨
      ∃ i, t.find (s.modeName p) = some i ∧ s.selectMode t p = s.setOutput i p := by
  unfold Reader.selectMode
  cases hf : t.find (s.modeName p) with
  | none => exact .inl ⟨rfl, rfl⟩
  | some i => exact .inr ⟨i, rfl, rfl⟩

theorem output_setOutput (i : Int) (p q : Part) :
    (s.setOutput i p).output q = if q = p then i else s.output q := by
  cases p <;> cases q <;> rfl

/-- The name has been copied; the other variables are what they were. -/
theorem selectMode_frame (t : ModeTable) (s : Reader) (p : Part) :
    (s.selectMode t p).index = s.index ∧ (s.selectMode t p).data = s.data ∧
      (s.selectMode t p).nvLine = s.nvLine := by
  rcases selectMode_cases t s p with ⟨-, h⟩ | ⟨i, -, h⟩ <;> rw [h]
  · exact ⟨rfl, rfl, rfl⟩
  · cases p <;> exact ⟨rfl, rfl, rfl⟩

theorem selectMode_output (hok : ∀ q, s.output q = -1 ∨ ModeOk t (s.output q)) (q : Part) :
    (s.selectMode t p).output q = -1 ∨ ModeOk t ((s.selectMode t p).output q) := by
  rcases selectMode_cases t s p with ⟨-, h⟩ | ⟨i, hf, h⟩ <;> rw [h]
  · exact hok q
  · rw [output_setOutput]
    split
    · exact .inr ⟨Int.natCast_nonneg i, Int.ofNat_lt.2 (find_lt hf)⟩
    · exact hok q

/-- The mode of a line is one of the table if its name is, or if there was one before. -/
theorem selectMode_modeOk (hok : ∀ q, s.output q = -1 ∨ ModeOk t (s.output q)) :
    ModeOk t ((s.selectMode t p).output p) ↔
      (t.find (s.modeName p)).isSome ∨ s.output p ≠ -1 := by
  rcases selectMode_cases t s p with ⟨hf, h⟩ | ⟨i, hf, h⟩ <;> rw [h, hf]
  · have hneg : ¬ ModeOk t (-1) := fun hm => absurd hm.1 (by decide)
    simp only [Option.isSome_none, Bool.false_eq_true, false_or]
    exact ⟨fun hm heq => hneg (heq ▸ hm), (hok p).resolve_left⟩
  · rw [output_setOutput, if_pos rfl]
    exact ⟨fun _ => .inl rfl, fun _ => ⟨Int.natCast_nonneg i, Int.ofNat_lt.2 (find_lt hf)⟩⟩

/-- A known name is found in the table. -/
theorem find_takeName {name : Text} (h0 : '\x00' ∉ name) (h : t.Knows p name) :
    (t.find ((s.takeName (some name)).modeName p)).isSome := by
  obtain ⟨m, hm, hname⟩ := h
  have hmode : (s.takeName (some name)).modeName p = m.name := by
    subst hname
    cases p with
    | arm => exact cstr_append_nul h0
    | eq =>
      have h0' : '\x00' ∉ m.name := fun hmem => h0 (List.mem_append_right _ hmem)
      exact cstr_append_nul h0'
  rw [hmode]
  obtain ⟨i, hi⟩ := find_known ⟨m, hm, rfl⟩
  rw [hi]
  rfl

end Mode

/-! ## One line -/

/-- The value is copied and stored inside. -/
theorem storeValue_inRange {t : ModeTable} {mode : Int} (hmode : ModeOk t mode)
    (target : Option (Field × Text)) :
    (∀ e ∈ (target.map (storeValue mode)).getD [], e.InRange t.items.length) ↔
      (∀ x ∈ target, x.1.InRange) ∧ ∀ x ∈ target, ∀ v ∈ valueText x.2, v.length < 128 := by
  cases target with
  | none => simp
  | some x =>
    have hstore : (Event.store mode x.1 (x.1.value ((valueText x.2).getD []))).InRange
        t.items.length ↔ x.1.InRange := and_iff_right hmode
    simp only [Option.map_some, Option.getD_some, storeValue, List.forall_mem_append,
      List.forall_mem_singleton, hstore, Option.mem_some_iff, forall_eq']
    rw [and_comm]
    refine and_congr_right' ?_
    cases valueText x.2 with
    | none => simp
    | some v => simp [Event.InRange, Nat.succ_le_iff]

section Line

variable {t : ModeTable} {s : Reader} (hok : s.Ok t) {h : Part × Option Text}

include hok

/-- The mode that is stored to is one of the table where the head of the line is fine. -/
theorem enter_modeOk (hname : ∀ name ∈ h.2, '\x00' ∉ name) (hfine : HeadFine t s h) :
    ModeOk t ((s.enter t h).output h.1) := by
  obtain ⟨p, name⟩ := h
  refine (selectMode_modeOk (s := s.takeName name) hok.output).2 ?_
  cases name with
  | some name => exact .inl (find_takeName (hname name rfl) hfine.1)
  | none => exact hfine

/-- The name is copied and stored inside, and it is that of a mode. -/
theorem nameEvents_inRange (hname : ∀ name ∈ h.2, '\x00' ∉ name) :
    ((∀ e ∈ (s.enter t h).nameEvents h, e.InRange t.items.length) ∧
      (∀ name ∈ h.2, t.Knows h.1 name)) ↔ HeadFine t s h := by
  have htake : ((cstr (s.enter t h).outputstyle).take 15).length < 16 := by
    rw [List.length_take]
    omega
  have hstore : (Event.name ((s.enter t h).output h.1) h.1
      ((cstr (s.enter t h).outputstyle).take 15)).InRange t.items.length ↔
      ModeOk t ((s.enter t h).output h.1) := and_iff_left htake
  unfold Reader.nameEvents
  rw [List.forall_mem_append, List.forall_mem_singleton, hstore]
  constructor
  · rintro ⟨⟨hcopy, hmode⟩, hknown⟩
    obtain ⟨p, name⟩ := h
    cases name with
    | some name =>
      exact ⟨hknown name rfl, Nat.lt_of_succ_le (hcopy (.copy 16 (name.length + 1)) (by simp))⟩
    | none => exact (selectMode_modeOk (s := s.takeName none) hok.output).1 hmode
  · intro hfine
    refine ⟨⟨?_, enter_modeOk hok hname hfine⟩, ?_⟩
    · obtain ⟨p, name⟩ := h
      cases name with
      | some name => simpa [Event.InRange] using Nat.succ_le_of_lt hfine.2
      | none => simp
    · obtain ⟨p, name⟩ := h
      rintro name rfl
      exact hfine.1

/-- The reading of a line starts with the running indices and the digits of the state before. -/
theorem enter_matches (h : Part × Option Text) :
    ((s.enter t h).reading (cstr s.nvLine) h.1).Matches s.data (naming s.nvLine h.1) := by
  obtain ⟨hindex, hdata, hline⟩ := selectMode_frame t (s.takeName h.2) h.1
  have hmatch := reading_matches (s := s.enter t h) (hindex ▸ hok.index) (hdata ▸ hok.data) h.1
  have hline' : (s.enter t h).nvLine = s.nvLine := hline
  have hdata' : (s.enter t h).data = s.data := hdata
  rwa [hline', hdata'] at hmatch

/-- **One line with a heading.** It is safe exactly if its head, its indices and its value are fine. -/
theorem readLine_safe (hname : ∀ name ∈ h.2, '\x00' ∉ name) :
    ((∀ e ∈ (s.readLine t (cstr s.nvLine) h).2, e.InRange t.items.length) ∧
        (∀ name ∈ h.2, t.Knows h.1 name) ∧ ∀ ix ∈ (naming s.nvLine h.1).indices, ix.Named) ↔
      HeadFine t s h ∧ IndicesFine s.data (naming s.nvLine h.1).indices ∧
        ∀ place ∈ (naming s.nvLine h.1).place, ∀ v ∈ valueText place, v.length < 128 := by
  have hmatch := enter_matches hok h
  generalize hr : (s.enter t h).reading (cstr s.nvLine) h.1 = r at hmatch
  generalize naming s.nvLine h.1 = nm at hmatch ⊢
  have hplace : (∀ x ∈ r.target, ∀ v ∈ valueText x.2, v.length < 128) ↔
      ∀ place ∈ nm.place, ∀ v ∈ valueText place, v.length < 128 := by
    rw [← hmatch.place]
    cases r.target <;> simp
  have hevents : (s.readLine t (cstr s.nvLine) h).2 = (s.enter t h).nameEvents h ++ r.events ++
      (r.target.map (storeValue ((s.enter t h).output h.1))).getD [] := by
    rw [← hr]
    rfl
  rw [hevents, List.forall_mem_append, List.forall_mem_append, hmatch.events, ← hplace]
  have hhead := nameEvents_inRange hok hname
  constructor
  · rintro ⟨⟨⟨hnames, hclosed⟩, hstore⟩, hknown, hnamed⟩
    have hfine := hhead.1 ⟨hnames, hknown⟩
    have hmode := enter_modeOk hok hname hfine
    obtain ⟨hfields, hvalue⟩ := (storeValue_inRange hmode r.target).1 hstore
    have hall : ∀ ix ∈ nm.indices, ix.Named ∧ ix.Closed := fun ix hix =>
      ⟨hnamed ix hix, hclosed ix hix⟩
    exact ⟨hfine, ⟨hall, (hmatch.fields hall).1 hfields⟩, hvalue⟩
  · rintro ⟨hfine, ⟨hall, hused⟩, hvalue⟩
    have hmode := enter_modeOk hok hname hfine
    obtain ⟨hnames, hknown⟩ := hhead.2 hfine
    have hfields := (hmatch.fields hall).2 hused
    refine ⟨⟨⟨hnames, fun ix hix => (hall ix hix).2⟩, ?_⟩, hknown, fun ix hix => (hall ix hix).1⟩
    exact (storeValue_inRange hmode r.target).2 ⟨hfields, hvalue⟩

/-- A line that is fine leaves a state in which the next one can be read. -/
theorem readLine_ok (hindices : IndicesFine s.data (naming s.nvLine h.1).indices) :
    (s.readLine t (cstr s.nvLine) h).1.Ok t := by
  have hmatch := enter_matches hok h
  obtain ⟨hindex, -, -⟩ := selectMode_frame t (s.takeName h.2) h.1
  refine ⟨bump_ok ?_ _, ?_, selectMode_output (s := s.takeName h.2) hok.output⟩
  · rw [show (s.enter t h).index = s.index from hindex]
    exact hok.index
  · show DataOk ((s.enter t h).reading (cstr s.nvLine) h.1).data
    rw [hmatch.data_eq]
    exact dataBehind_ok hok.data hindices.1

end Line

/-- A line with a heading stores at least the name. -/
theorem readLine_stores (t : ModeTable) (s : Reader) (line : Text) (h : Part × Option Text) :
    ∃ e ∈ (s.readLine t line h).2, e.Stores := by
  refine ⟨.name ((s.enter t h).output h.1) h.1 ((cstr (s.enter t h).outputstyle).take 15), ?_,
    trivial⟩
  refine List.mem_append_left _ (List.mem_append_left _ (List.mem_append_right _ ?_))
  exact List.mem_singleton_self _

theorem misnames_iff {t : ModeTable} {nvLine : Text} {h : Part × Option Text}
    (hhead : heading (cstr nvLine) = some h) :
    ¬ Misnames t nvLine ↔
      (∀ name ∈ h.2, t.Knows h.1 name) ∧ ∀ ix ∈ (naming nvLine h.1).indices, ix.Named := by
  unfold Misnames
  rw [hhead]
  simp only [Option.some.injEq, exists_eq_left', not_or, not_exists, not_and, not_not]
  rfl

/-- **One line.** Its copies and stores are safe exactly if it is fine. -/
theorem nvLineStep_safe {t : ModeTable} {s : Reader} (hok : s.Ok t) (chunk : Text) :
    LineLog.Safe t ⟨(s.load chunk).nvLine, (nvLineStep t s chunk).2⟩ ↔ LineFine t s chunk := by
  have hload : (s.load chunk).Ok t := ⟨hok.index, hok.data, hok.output⟩
  unfold LineLog.Safe LineFine nvLineStep
  dsimp only
  cases hhead : heading (cstr (s.load chunk).nvLine) with
  | none => simp
  | some h =>
    have hname : ∀ name ∈ h.2, '\x00' ∉ name := by
      obtain ⟨p, name⟩ := h
      rintro name rfl
      exact heading_nul hhead (nul_not_mem_cstr _)
    have hquiet : (Misnames t (s.load chunk).nvLine →
        ∀ e ∈ ((s.load chunk).readLine t (cstr (s.load chunk).nvLine) h).2, ¬ e.Stores) ↔
          ¬ Misnames t (s.load chunk).nvLine := by
      obtain ⟨e, he, hstores⟩ := readLine_stores t (s.load chunk) (cstr (s.load chunk).nvLine) h
      exact ⟨fun hno hmis => hno hmis e he hstores, fun hmis h => absurd h hmis⟩
    simp only [Option.mem_some_iff, forall_eq']
    rw [hquiet, misnames_iff hhead]
    exact readLine_safe hload hname

theorem nvLineStep_ok {t : ModeTable} {s : Reader} {chunk : Text} (hok : s.Ok t)
    (hfine : LineFine t s chunk) : (nvLineStep t s chunk).1.Ok t := by
  have hload : (s.load chunk).Ok t := ⟨hok.index, hok.data, hok.output⟩
  unfold nvLineStep
  dsimp only
  cases hhead : heading (cstr (s.load chunk).nvLine) with
  | none => exact hload
  | some h => exact readLine_ok hload (hfine h hhead).2.1

/-! ## The file -/

theorem init_ok (t : ModeTable) : Reader.init.Ok t where
  index c := by cases c <;> decide
  data := ⟨fun _ h => absurd h List.not_mem_nil, by decide⟩
  output p := by cases p <;> exact .inl rfl

/-- **The copies and stores of the whole file.** They are safe exactly if every line is fine in the
state in which it is read. -/
theorem stringfile2nvstruct_safe_iff (t : ModeTable) (text : Text) :
    (∀ l ∈ stringfile2nvstruct t text, l.Safe t) ↔
      (nvReader t).Admits (LineFine t) .init (nvLines text) := by
  refine (nvReader t).outputs_safe_iff (P := fun s => s.Ok t) (fun s chunk hok => ?_)
    (fun s chunk => nvLineStep_ok) _ _ (init_ok t)
  exact List.forall_mem_singleton.trans (nvLineStep_safe hok chunk)

/-- The first line is about a mode that is not in the table. -/
theorem not_safe_unknown : ¬ ∀ (t : ModeTable) (text : Text),
    ∀ l ∈ stringfile2nvstruct t text, l.Safe t := by
  intro h
  have hsafe := h ⟨[⟨"Headset".toList, 0⟩], by decide⟩
    "audio_arm\\audio_arm\\Handsfree\\AudioStructure\\midi_opt=0x1\n".toList
  have hall := fun l hl => (hsafe l hl).1
  revert hall
  decide +kernel

end SprdHal.Audio
