import SprdHal.Audio.NvBounds
import SprdHal.Audio.NvWrite

/-!
# Reading a written line

A line of the writer is read as the field it is written for, with one exception: the element of an
array is the one that the running index has (`nvLineStep_nvline`). The names of the modes are plain:
they hold nothing that the reader takes for a separator or for a key.
-/

namespace SprdHal.Audio

open SprdHal.Lib

/-- A name that the writer has room for, behind `EQ_` and before the terminator, and that the reader
does not mix up with the rest of a line. -/
structure NameOk (name : Text) : Prop where
  nonempty : name ≠ []
  length_le : name.length ≤ 12
  separator : '\\' ∉ name
  equals : '=' ∉ name
  newline : '\n' ∉ name
  nul : '\x00' ∉ name
  control : occurs eqControlKey name = false
  mode : occurs eqModeKey name = false

instance (name : Text) : Decidable (NameOk name) :=
  decidable_of_iff
    ((name ≠ [] ∧ name.length ≤ 12) ∧ ('\\' ∉ name ∧ '=' ∉ name ∧ '\n' ∉ name ∧ '\x00' ∉ name) ∧
      occurs eqControlKey name = false ∧ occurs eqModeKey name = false)
    ⟨fun ⟨⟨h1, h2⟩, ⟨h3, h4, h5, h6⟩, h7, h8⟩ => ⟨h1, h2, h3, h4, h5, h6, h7, h8⟩,
      fun h => ⟨⟨h.1, h.2⟩, ⟨h.3, h.4, h.5, h.6⟩, h.7, h.8⟩⟩

/-- A table with plain names, in which names and indices are distinct. -/
structure ModeTable.Plain (t : ModeTable) : Prop where
  names : ∀ m ∈ t.items, NameOk m.name
  nodup_names : (t.items.map ModeItem.name).Nodup
  nodup_indices : (t.items.map ModeItem.index).Nodup

/-! ## Keys behind the name -/

/-- A key with a separator: the part in front of it is not at the end of `audio_arm`, the part behind
it does not start with the letter `A` of `AudioStructure`. -/
structure BehindName (k : Text) : Prop where
  sep : k = k.takeWhile (· ≠ '\\') ++ '\\' :: (k.dropWhile (· ≠ '\\')).tail
  front : ¬ k.takeWhile (· ≠ '\\') <:+ "audio_arm".toList
  back : (k.dropWhile (· ≠ '\\')).tail.head?.any (· ≠ 'A') = true

instance (k : Text) : Decidable (BehindName k) :=
  decidable_of_iff
    (k = k.takeWhile (· ≠ '\\') ++ '\\' :: (k.dropWhile (· ≠ '\\')).tail ∧
      ¬ k.takeWhile (· ≠ '\\') <:+ "audio_arm".toList ∧
      (k.dropWhile (· ≠ '\\')).tail.head?.any (· ≠ 'A') = true)
    ⟨fun ⟨h1, h2, h3⟩ => ⟨h1, h2, h3⟩, fun h => ⟨h.1, h.2, h.3⟩⟩

theorem sep_not_mem_front (k : Text) : '\\' ∉ k.takeWhile (· ≠ '\\') := by
  intro h
  have hne := List.mem_takeWhile_imp (p := fun c => decide (c ≠ '\\')) h
  exact of_decide_eq_true hne rfl

/-- Such a key is not in the heading, in the name or across them. -/
theorem BehindName.occurs_eq {k : Text} (hk : BehindName k) {name : Text} (hname : '\\' ∉ name)
    (rest : Text) :
    occurs k (lineHead .arm name ++ '\\' :: 'A' :: rest) = occurs k ('A' :: rest) := by
  have hfront := sep_not_mem_front k
  have hback : ¬ (k.dropWhile (· ≠ '\\')).tail <+: 'A' :: rest := by
    intro hpre
    have hhead := hk.back
    cases htail : (k.dropWhile (· ≠ '\\')).tail with
    | nil =>
      rw [htail] at hhead
      cases hhead
    | cons c cs =>
      rw [htail] at hpre hhead
      rw [(List.cons_prefix_cons.1 hpre).1] at hhead
      cases hhead
  have hlit : lineHead .arm name ++ '\\' :: 'A' :: rest =
      "audio_arm".toList ++ '\\' :: ("audio_arm".toList ++ '\\' :: (name ++ '\\' :: 'A' :: rest)) :=
    List.append_assoc ..
  have harm : '\\' ∉ "audio_arm".toList := by decide
  rw [hlit, hk.sep, occurs_behind hfront harm fun h => hk.front h.1,
    occurs_behind hfront harm fun h => hk.front h.1,
    occurs_behind hfront hname fun h => hback h.2]

-- a literal is made a list of characters before anything is decided of it: the kernel decodes it
-- otherwise
theorem armKeys_ok : ∀ k ∈ armKeys, KeyOk k.1 ∧ BehindName k.1 := by
  unfold armKeys
  repeat rw [String.toList_ofList]
  decide +kernel

theorem appKeys_ok : ∀ k ∈ appKeys, KeyOk k.1 := by decide

theorem appKey_behind : BehindName appKey := by decide

/-! ## The lines of the arm part -/

theorem valueText_append {a v : Text} (h : '=' ∉ a) : valueText (a ++ '=' :: v) = some v := by
  unfold valueText
  rw [List.dropWhile_append_of_pos]
  · rfl
  · intro c hc
    apply decide_eq_true
    rintro rfl
    exact h hc

/-- The characters of a path. -/
def isPathChar (c : Char) : Bool :=
  c.isAlphanum || c = '_' || c = '\\' || c = '[' || c = ']'

theorem isPathChar_of_all {p : Text} (h : p.all isPathChar = true) :
    ∀ c ∈ p, isPathChar c = true := List.all_eq_true.1 h

theorem isPathChar_literal {p : List Char} (h : p.all isPathChar = true) :
    ∀ c ∈ (String.ofList p).toList, isPathChar c = true := by
  rw [String.toList_ofList]
  exact isPathChar_of_all h

theorem isPathChar_indexDigits (i : Int) : ∀ c ∈ indexDigits i, isPathChar c = true := by
  intro c hc
  have hdigit : c.isDigit = true := Nat.isDigit_of_mem_toDigits (by decide) (by decide) hc
  unfold isPathChar Char.isAlphanum
  rw [hdigit, Bool.or_true]
  rfl

theorem isPathChar_elementBracket (c : Option Counter) (k : Nat) :
    ∀ d ∈ elementBracket c k, isPathChar d = true := by
  cases c with
  | none => exact fun _ h => absurd h List.not_mem_nil
  | some c =>
    refine List.forall_mem_cons.2 ⟨by decide, List.forall_mem_append.2 ⟨?_, ?_⟩⟩
    · exact isPathChar_indexDigits k
    · exact isPathChar_of_all (by decide)

theorem isPathChar_path (f : Field) : ∀ c ∈ f.path, isPathChar c = true := by
  have harm (x : ArmItem) : ∀ c ∈ x.path, isPathChar c = true := by
    cases x <;> exact isPathChar_literal (by decide)
  have happ (x : AppItem) : ∀ c ∈ x.path, isPathChar c = true := by
    cases x <;> exact isPathChar_literal (by decide)
  have hmode (x : EqModeItem) : ∀ c ∈ x.path, isPathChar c = true := by
    cases x <;> exact isPathChar_literal (by decide)
  have hband (x : BandItem) : ∀ c ∈ x.path, isPathChar c = true := by
    cases x <;> exact isPathChar_literal (by decide)
  have hmodeKey : ∀ c ∈ eqModeKey, isPathChar c = true := isPathChar_of_all (by decide)
  cases f with
  | arm x k => exact List.forall_mem_append.2 ⟨harm x, isPathChar_elementBracket _ k⟩
  | app j x k =>
    have hpath : ∀ c ∈ appPath, isPathChar c = true := isPathChar_literal (by decide)
    refine List.forall_mem_append.2 ⟨hpath, List.forall_mem_cons.2 ⟨by decide, ?_⟩⟩
    refine List.forall_mem_append.2 ⟨isPathChar_indexDigits j, List.forall_mem_cons.2 ⟨by decide, ?_⟩⟩
    exact List.forall_mem_append.2 ⟨happ x, isPathChar_elementBracket _ k⟩
  | eqControl => exact isPathChar_of_all (by decide)
  | eqMode m x =>
    refine List.forall_mem_append.2 ⟨hmodeKey, List.forall_mem_append.2 ⟨?_, ?_⟩⟩
    · exact isPathChar_indexDigits (m + 1)
    · exact List.forall_mem_cons.2 ⟨by decide, hmode x⟩
  | eqBand m b x =>
    have hbandKey : ∀ c ∈ eqBandKey, isPathChar c = true := isPathChar_of_all (by decide)
    refine List.forall_mem_append.2 ⟨hmodeKey, List.forall_mem_append.2 ⟨?_, ?_⟩⟩
    · exact isPathChar_indexDigits (m + 1)
    · refine List.forall_mem_cons.2 ⟨by decide, List.forall_mem_append.2 ⟨hbandKey, ?_⟩⟩
      refine List.forall_mem_append.2 ⟨isPathChar_indexDigits (b + 1), ?_⟩
      exact List.forall_mem_cons.2 ⟨by decide, hband x⟩
  | extendArray k =>
    refine List.forall_mem_append.2 ⟨?_, isPathChar_elementBracket _ k⟩
    exact isPathChar_of_all (by decide)

theorem not_mem_path {c : Char} (h : isPathChar c = false) (f : Field) : c ∉ f.path := by
  intro hc
  rw [isPathChar_path f c hc] at h
  cases h

section Arm

variable {name : Text} (hname : '\\' ∉ name)

include hname

/-- The first key in the line of a member of the arm part. -/
theorem firstKey_arm (x : ArmItem) (e v : Nat) :
    firstKey armKeys (lineHead .arm name ++
      '\\' :: ((x.path ++ elementBracket x.counter e) ++ '=' :: valueLine v)) = some x := by
  have hpath : ∃ rest, x.path = 'A' :: rest := by cases x <;> exact ⟨_, String.toList_ofList⟩
  have hfirst : firstKey armKeys x.path = some x := by
    unfold armKeys
    cases x <;> unfold ArmItem.path <;> repeat rw [String.toList_ofList]
    all_goals decide
  obtain ⟨rest, hrest⟩ := hpath
  rw [← hfirst]
  apply firstKey_congr
  intro k hk
  obtain ⟨hkey, hbehind⟩ := armKeys_ok k hk
  rw [hrest, List.append_assoc, List.cons_append, hbehind.occurs_eq hname, ← List.cons_append,
    ← hrest, occurs_written hkey]

/-- No key of a member is in the line of an application. -/
theorem firstKey_app (j : Int) (x : AppItem) (e v : Nat) :
    firstKey armKeys (lineHead .arm name ++ '\\' :: ((appPath ++ '[' :: (indexDigits j ++
      ']' :: (x.path ++ elementBracket x.counter e))) ++ '=' :: valueLine v)) = none := by
  have hfront : ∀ k ∈ armKeys, occurs k.1 appPath = false := by
    unfold armKeys appPath
    repeat rw [String.toList_ofList]
    decide
  have hback : ∀ k ∈ armKeys, occurs k.1 x.path = false := by
    unfold armKeys
    cases x <;> unfold AppItem.path <;> repeat rw [String.toList_ofList]
    all_goals decide
  have hpath : ∃ rest, appPath = 'A' :: rest := ⟨_, String.toList_ofList⟩
  obtain ⟨rest, hrest⟩ := hpath
  apply firstKey_eq_none
  intro k hk
  obtain ⟨hkey, hbehind⟩ := armKeys_ok k hk
  have hline : occurs k.1 (appPath ++ '[' :: (indexDigits j ++
      ']' :: (x.path ++ (elementBracket x.counter e ++ '=' :: valueLine v)))) = false := by
    rw [occurs_bracket hkey, occurs_written hkey, hfront k hk, hback k hk]
    rfl
  rw [hrest, List.append_assoc, List.cons_append, hbehind.occurs_eq hname, ← List.cons_append,
    ← hrest]
  simpa only [List.append_assoc, List.cons_append] using hline

/-- The key of the applications is found where it is written. -/
theorem strstr_appKey (rest : Text) :
    strstr appKey (lineHead .arm name ++ '\\' :: (appPath ++ '[' :: rest)) = some (appKey ++ rest) := by
  have hsplit : appPath ++ ['['] = "AudioStructure\\".toList ++ appKey := by
    unfold appPath appKey
    repeat rw [String.toList_ofList]
    decide
  have hpath : appPath ++ '[' :: rest = "AudioStructure\\".toList ++ (appKey ++ rest) := by
    rw [← List.append_assoc, ← hsplit, List.append_assoc, List.singleton_append]
  have hclosed : occurs appKey ("AudioStructure\\".toList ++ appKey.dropLast) = false := by
    unfold appKey
    repeat rw [String.toList_ofList]
    decide
  have hnone : occurs appKey (lineHead .arm name ++
      '\\' :: ("AudioStructure\\".toList ++ appKey.dropLast)) = false :=
    (appKey_behind.occurs_eq hname _).trans hclosed
  rw [hpath, ← List.cons_append, ← List.append_assoc]
  apply strstr_first (by decide)
  rwa [List.append_assoc, List.cons_append]

omit hname in
theorem firstKey_appKeys (j : Int) (x : AppItem) (e v : Nat) :
    firstKey appKeys (appKey ++ (indexDigits j ++
      ']' :: (x.path ++ (elementBracket x.counter e ++ '=' :: valueLine v)))) = some x := by
  have hfront : ∀ k ∈ appKeys, occurs k.1 appKey.dropLast = false := by
    unfold appKeys appKey
    repeat rw [String.toList_ofList]
    decide
  have hfirst : firstKey appKeys x.path = some x := by
    unfold appKeys
    cases x <;> unfold AppItem.path <;> repeat rw [String.toList_ofList]
    all_goals decide
  rw [← hfirst]
  apply firstKey_congr
  intro k hk
  have hkey := appKeys_ok k hk
  show occurs k.1 (appKey.dropLast ++ '[' :: (indexDigits j ++ ']' :: _)) = _
  rw [occurs_bracket hkey, occurs_written hkey, hfront k hk, Bool.false_or]

end Arm

/-- The digits of an index are read as the index. -/
theorem indexDigits_ok {i : Int} (h0 : 0 ≤ i) (h : i < 16) :
    DataOk (indexDigits i) ∧ digitsValue 10 (indexDigits i) = i := by
  have hvalue : digitsValue 10 (indexDigits i) = i.toNat :=
    digitsValue_toDigits (by decide) (by decide) i.toNat
  exact ⟨⟨isDec_indexDigits i, by omega⟩, by omega⟩

theorem scanIndex_digits {isIdx : Char → Bool} {stop : Char} {ds rest : Text} (hne : ds ≠ [])
    (hds : ∀ c ∈ ds, isIdx c = true) (hstop : isIdx stop = false) (data : Text) :
    (scanIndex isIdx stop data (ds ++ stop :: rest)).1 = ds := by
  have htake : (ds ++ stop :: rest).takeWhile isIdx = ds := by
    rw [List.takeWhile_append_of_pos hds, List.takeWhile_cons_of_neg (by simp [hstop]),
      List.append_nil]
  unfold scanIndex
  rw [htake]
  cases ds with
  | nil => exact absurd rfl hne
  | cons d ds => rfl

theorem indexDigits_ne_nil (i : Int) : indexDigits i ≠ [] := Nat.toDigits_ne_nil

/-- The field to which the value of a line goes: of an array, the element that is next. -/
def Field.placed (f : Field) (index : Counter → Nat) : Field :=
  match f with
  | .arm x _ => .arm x (x.counter.elim 0 index)
  | .app j x _ => .app j x (x.counter.elim 0 index)
  | .extendArray _ => .extendArray (index .extendArray)
  | f => f

/-- The reader takes a line for the one of a field and a value. -/
def Reads (s : Reader) (line : Text) (f : Field) (v : Nat) : Prop :=
  ∃ place, (s.reading line f.part).target = some (f.placed s.index, place) ∧
    valueText place = some (valueLine (f.ivalue v))

section Reads

variable {m : ModeItem} (hm : NameOk m.name) (s : Reader)

include hm

theorem equals_not_mem_head (p : Part) : '=' ∉ lineHead p m.name := by
  cases p with
  | arm =>
    intro h
    rcases List.mem_append.1 h with h | h
    · exact absurd h (by decide)
    · exact hm.equals h
  | eq =>
    intro h
    rcases List.mem_append.1 h with h | h
    · exact absurd h (by decide)
    · rcases List.mem_append.1 h with h | h
      · exact absurd h (by decide)
      · exact hm.equals h

/-- The value of a line is behind its only `=`. -/
theorem valueText_nvline (f : Field) (v : Nat) :
    valueText (nvline m f v) = some (valueLine (f.ivalue v)) := by
  unfold nvline
  rw [← List.cons_append, ← List.append_assoc]
  apply valueText_append
  intro h
  rcases List.mem_append.1 h with h | h
  · exact equals_not_mem_head hm _ h
  · rcases List.mem_cons.1 h with h | h
    · exact absurd h (by decide)
    · exact not_mem_path (by decide) f h

theorem reads_arm (x : ArmItem) (k v : Nat) :
    Reads s (nvline m (.arm x k) v) (.arm x k) v := by
  refine ⟨nvline m (.arm x k) v, ?_, valueText_nvline hm _ v⟩
  show (s.armReading _).target = _
  unfold Reader.armReading
  rw [show firstKey armKeys (nvline m (.arm x k) v) = some x from
    firstKey_arm hm.separator x k _]
  rfl

theorem reads_app {j : Int} (x : AppItem) (k v : Nat) (h0 : 0 ≤ j) (hj : j < 16) :
    Reads s (nvline m (.app j x k) v) (.app j x k) v := by
  obtain ⟨hok, hvalue⟩ := indexDigits_ok h0 hj
  have hline : nvline m (.app j x k) v = lineHead .arm m.name ++ '\\' :: (appPath ++ '[' ::
      (indexDigits j ++ ']' :: (x.path ++ (elementBracket x.counter k ++ '=' :: valueLine v)))) := by
    show lineHead .arm m.name ++ '\\' :: ((appPath ++ '[' :: (indexDigits j ++ ']' ::
      (x.path ++ elementBracket x.counter k))) ++ '=' :: valueLine v) = _
    rw [List.append_assoc appPath, List.cons_append, List.append_assoc, List.cons_append,
      List.append_assoc]
  have hplace : '=' ∉ appKey ++ (indexDigits j ++ ']' :: (x.path ++ elementBracket x.counter k)) := by
    intro h
    rcases List.mem_append.1 h with h | h
    · exact absurd h (by decide)
    · exact not_mem_path (c := '=') (by decide) (.app j x k)
        (List.mem_append_right _ (List.mem_cons_of_mem _ h))
  refine ⟨appKey ++ (indexDigits j ++ ']' :: (x.path ++ (elementBracket x.counter k ++
    '=' :: valueLine v))), ?_, ?_⟩
  · show (s.armReading _).target = _
    unfold Reader.armReading
    rw [show firstKey armKeys (nvline m (.app j x k) v) = none from
      firstKey_app hm.separator j x k _, hline, strstr_appKey hm.separator]
    dsimp only
    rw [List.drop_left, firstKey_appKeys, scanIndex_digits (indexDigits_ne_nil j) hok.digits
      (by decide), hok.toShort_eq, hvalue]
    rfl
  · have htext := valueText_append (v := valueLine v) hplace
    rw [List.append_assoc, List.append_assoc, List.cons_append, List.append_assoc] at htext
    exact htext

end Reads

end SprdHal.Audio
