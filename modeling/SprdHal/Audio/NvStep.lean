import Mathlib.Data.List.Nodup
import SprdHal.Audio.NvEqLine

/-!
# What a written line stores

A written line is read as one line of the file. Its value goes to the mode and the field that it is
written for, with one exception: the element of an array is the one that the running index has
(`nvLineStep_nvline`).
-/

namespace SprdHal.Audio

open SprdHal.Lib

/-! ## The heading of a written line -/

/-- The name that `sscanf` takes from a line. -/
def nameText (p : Part) (name : Text) : Text :=
  match p with
  | .arm => name
  | .eq => "EQ_".toList ++ name

theorem scanName_append {lit name : Text} (hne : name ≠ []) (hsep : '\\' ∉ name) (rest : Text) :
    scanName lit (lit ++ (name ++ '\\' :: rest)) = some (some name) := by
  have hpre : lit.isPrefixOf (lit ++ (name ++ '\\' :: rest)) = true :=
    List.isPrefixOf_iff_prefix.2 (List.prefix_append _ _)
  have htake : (name ++ '\\' :: rest).takeWhile (· ≠ '\\') = name := by
    rw [List.takeWhile_append_of_pos]
    · simp
    · intro c hc
      apply decide_eq_true
      rintro rfl
      exact hsep hc
  unfold scanName
  rw [if_pos hpre, List.drop_left]
  cases name with
  | nil => exact absurd rfl hne
  | cons c cs =>
    have hc : c ≠ '\\' := fun h => hsep (h ▸ List.mem_cons_self)
    rw [List.cons_append] at htake ⊢
    dsimp only
    rw [if_neg hc, htake]

/-- No line of the equalizer is taken for one of the other part. -/
theorem letter_not_mem_eqPath {f : Field} (hf : f.part = .eq) : 'u' ∉ f.path := by
  have hdigits : ∀ i, 'u' ∉ indexDigits i := not_mem_indexDigits (by decide)
  cases f with
  | arm x k => cases hf
  | app j x k => cases hf
  | eqControl => decide
  | eqMode i x =>
    have hkey : 'u' ∉ eqModeKey := by decide
    have hpath : 'u' ∉ x.path := by cases x <;> decide
    have hback : 'u' ∉ '\\' :: x.path := List.not_mem_cons_of_ne_of_not_mem (by decide) hpath
    exact List.not_mem_append hkey (List.not_mem_append (hdigits _) hback)
  | eqBand i b x =>
    have hkeys : 'u' ∉ eqModeKey ∧ 'u' ∉ eqBandKey := by decide
    have hpath : 'u' ∉ x.path := by cases x <;> decide
    have hback : 'u' ∉ '\\' :: x.path := List.not_mem_cons_of_ne_of_not_mem (by decide) hpath
    have hband : 'u' ∉ '\\' :: (eqBandKey ++ (indexDigits (b + 1) ++ '\\' :: x.path)) :=
      List.not_mem_cons_of_ne_of_not_mem (by decide)
        (List.not_mem_append hkeys.2 (List.not_mem_append (hdigits _) hback))
    exact List.not_mem_append hkeys.1 (List.not_mem_append (hdigits _) hband)
  | extendArray k =>
    have hkey : 'u' ∉ "extendArray\\extendArray".toList := by decide
    have hback : 'u' ∉ '[' :: (indexDigits k ++ [']']) :=
      List.not_mem_cons_of_ne_of_not_mem (by decide) (List.not_mem_append (hdigits _) (by decide))
    exact List.not_mem_append hkey hback

theorem eqPath_head {f : Field} (hf : f.part = .eq) : ∃ rest, f.path = 'e' :: rest := by
  cases f with
  | arm x k => cases hf
  | app j x k => cases hf
  | eqControl => exact ⟨_, rfl⟩
  | eqMode i x => exact ⟨_, rfl⟩
  | eqBand i b x => exact ⟨_, rfl⟩
  | extendArray k => exact ⟨_, rfl⟩

theorem armLiteral_eqLine {name : Text} (hname : '\\' ∉ name) {f : Field} (hf : f.part = .eq)
    (v : Nat) : occurs armLiteral
      (lineHead .eq name ++ '\\' :: (f.path ++ '=' :: valueLine v)) = false := by
  have hlit : armLiteral = "audio_arm".toList ++ '\\' :: "audio_arm\\".toList := rfl
  have hsep : '\\' ∉ "audio_arm".toList ∧ '\\' ∉ "%audio".toList := by decide
  have hline : lineHead .eq name ++ '\\' :: (f.path ++ '=' :: valueLine v) = "%audio".toList ++
      '\\' :: (("EQ_".toList ++ name) ++ '\\' :: (f.path ++ '=' :: valueLine v)) :=
    List.append_assoc ..
  have hname' : '\\' ∉ "EQ_".toList ++ name := by
    intro h
    rcases List.mem_append.1 h with h | h
    · exact absurd h (by decide)
    · exact hname h
  have hfront : ¬ "audio_arm".toList <:+ "%audio".toList := by decide
  have hback : ¬ "audio_arm\\".toList <+: f.path ++ '=' :: valueLine v := by
    obtain ⟨rest, hrest⟩ := eqPath_head hf
    rw [hrest, List.cons_append]
    intro h
    exact absurd (List.cons_prefix_cons.1 h).1 (by decide)
  have hrest : 'u' ∉ f.path ++ '=' :: valueLine v := by
    intro h
    rcases List.mem_append.1 h with h | h
    · exact letter_not_mem_eqPath hf h
    · rcases List.mem_cons.1 h with h | h
      · exact absurd h (by decide)
      · exact not_mem_valueLine (by decide) v h
  rw [hline, hlit, occurs_behind hsep.1 hsep.2 fun h => hfront h.1,
    occurs_behind hsep.1 hname' fun h => hback h.2]
  exact occurs_foreign (by decide) hrest

theorem heading_nvline {m : ModeItem} (hm : NameOk m.name) (f : Field) (v : Nat) :
    heading (nvline m f v) = some (f.part, some (nameText f.part m.name)) := by
  unfold heading nvline
  cases hpart : f.part with
  | arm =>
    have hline : lineHead .arm m.name ++ '\\' :: (f.path ++ '=' :: valueLine (f.ivalue v)) =
        armLiteral ++ (m.name ++ '\\' :: (f.path ++ '=' :: valueLine (f.ivalue v))) :=
      List.append_assoc ..
    rw [hline, if_pos (occurs_self_append _ _), scanName_append hm.nonempty hm.separator]
    rfl
  | eq =>
    have hline : lineHead .eq m.name ++ '\\' :: (f.path ++ '=' :: valueLine (f.ivalue v)) =
        eqLiteral ++ (("EQ_".toList ++ m.name) ++
          '\\' :: (f.path ++ '=' :: valueLine (f.ivalue v))) :=
      List.append_assoc ..
    have hsep : '\\' ∉ "EQ_".toList ++ m.name := by
      intro h
      rcases List.mem_append.1 h with h | h
      · exact absurd h (by decide)
      · exact hm.separator h
    have hspace : ∀ u : Text, (eqLiteral ++ u).dropWhile isSpace = eqLiteral ++ u := fun u => rfl
    rw [if_neg (by rw [armLiteral_eqLine hm.separator hpart]; decide), hline,
      if_pos (occurs_self_append _ _), hspace, scanName_append (by simp) hsep]
    rfl

/-! ## Values -/

theorem strstr_hexMark (t : Text) : strstr "0x".toList ('0' :: 'x' :: t) = some ('0' :: 'x' :: t) :=
  strstr_prefix

/-- **The value of a written line is stored,** but for a negative `q`. -/
theorem value_valueLine {f : Field} {v : Nat} (hv : v < 2 ^ f.bits) :
    f.value (valueLine v) = v := by
  have hdigits := isDigitIn_toDigits (b := 16) (by decide) (by decide) v
  unfold Field.value
  split
  · next hbits =>
    have hlen : (Nat.toDigits 16 v).length ≤ 8 := by
      rw [Nat.length_toDigits_le_iff (by decide) (by decide)]
      rw [hbits] at hv
      exact hv
    have htake : ((Nat.toDigits 16 v ++ ['\n']).take 8).takeWhile (isDigitIn 16) =
        Nat.toDigits 16 v := by
      rw [List.take_append, List.take_of_length_le hlen, List.takeWhile_append_of_pos hdigits]
      cases 8 - (Nat.toDigits 16 v).length with
      | zero => simp
      | succ n =>
        rw [List.take_succ_cons, List.takeWhile_cons_of_neg (by decide), List.append_nil]
    have harm : armVolumeValue (valueLine v) = v := by
      unfold armVolumeValue valueLine
      rw [strstr_hexMark]
      show (digitsValue 16 (((Nat.toDigits 16 v ++ ['\n']).take 8).takeWhile (isDigitIn 16)) : Int) = v
      rw [htake, digitsValue_toDigits (by decide) (by decide)]
    rw [hbits] at hv
    rw [harm, hbits]
    omega
  · next hbits =>
    have h16 : f.bits = 16 := by
      cases f with
      | app j x k => cases x <;> first | rfl | exact absurd rfl hbits
      | _ => rfl
    have hplain : plainValue (valueLine v) = v := by
      have hx : occurs "0x".toList (valueLine v) = true := by
        unfold occurs valueLine
        rw [strstr_hexMark]
        rfl
      unfold plainValue
      rw [hx, Bool.true_or, if_pos rfl]
      unfold strtol valueLine
      rw [readInt_hex v (by decide), Option.getD_some]
      rw [h16] at hv
      exact clampLong_of_lt (by omega)
    rw [h16] at hv
    rw [hplain, h16]
    omega

/-! ## One line -/

/-- A number that is stored, with its place. -/
def Event.write? : Event → Option ((Int × Field) × Nat)
  | .store mode f v => some ((mode, f), v)
  | _ => none

def writes (es : List Event) : List ((Int × Field) × Nat) := es.filterMap Event.write?

theorem writes_append (a b : List Event) : writes (a ++ b) = writes a ++ writes b :=
  List.filterMap_append

theorem writes_scanIndex (isIdx : Char → Bool) (stop : Char) (data t : Text) :
    writes (scanIndex isIdx stop data t).2 = [] := by
  unfold scanIndex
  split
  · rfl
  · split
    · rfl
    · split <;> rfl

/-- No number is stored while a line is read. -/
theorem writes_reading (s : Reader) (line : Text) (p : Part) :
    writes (s.reading line p).events = [] := by
  have hextend : ∀ data es, writes es = [] → writes (s.extendReading line data es).events = [] :=
    fun _ _ h => h
  cases p with
  | arm =>
    show writes (s.armReading line).events = []
    unfold Reader.armReading
    split
    · rfl
    · split
      · rfl
      · exact writes_scanIndex ..
  | eq =>
    show writes (s.eqReading line).events = []
    unfold Reader.eqReading
    split
    · rfl
    · split
      · rfl
      · dsimp only
        split
        · exact writes_scanIndex ..
        · split
          · exact hextend _ _ (writes_scanIndex ..)
          · have hboth : ∀ u v : Text, writes ((scanIndex isOneToNine '\\' s.data u).2 ++
                (scanIndex isDec '\\' (scanIndex isOneToNine '\\' s.data u).1 v).2) = [] := by
              intro u v
              rw [writes_append, writes_scanIndex, writes_scanIndex]
              rfl
            split
            · exact hboth _ _
            · exact hextend _ _ (hboth _ _)

theorem writes_nameEvents (s : Reader) (h : Part × Option Text) :
    writes (s.nameEvents h) = [] := by
  unfold Reader.nameEvents
  cases h.2 <;> rfl

theorem writes_storeValue (mode : Int) (target : Field × Text) :
    writes (storeValue mode target) =
      [((mode, target.1), target.1.value ((valueText target.2).getD []))] := by
  unfold storeValue
  cases valueText target.2 <;> rfl

section Step

variable {t : ModeTable} (ht : t.Plain) {m : ModeItem} (hm : m ∈ t.items)

include ht hm

/-- A mode is found under its name. -/
theorem find_name : t.find m.name = some m.index := by
  obtain ⟨i, hi⟩ := find_known ⟨m, hm, rfl⟩
  obtain ⟨m', hm', rfl⟩ := Option.map_eq_some_iff.1 hi
  have hname : m'.name = m.name := by simpa using List.find?_some hm'
  have hmem : m' ∈ t.items := List.mem_of_find?_eq_some hm'
  rw [hi, List.inj_on_of_nodup_map ht.nodup_names hmem hm hname]

theorem nul_not_mem_nvline (f : Field) (v : Nat) : '\x00' ∉ nvline m f v := by
  have hname := (ht.names m hm).nul
  have hhead : '\x00' ∉ lineHead f.part m.name := by
    cases f.part with
    | arm => exact List.not_mem_append (by decide) hname
    | eq => exact List.not_mem_append (by decide) (List.not_mem_append (by decide) hname)
  have hvalue : '\x00' ∉ '=' :: valueLine (f.ivalue v) :=
    List.not_mem_cons_of_ne_of_not_mem (by decide) (not_mem_valueLine (by decide) _)
  have hpath : '\x00' ∉ '\\' :: (f.path ++ '=' :: valueLine (f.ivalue v)) :=
    List.not_mem_cons_of_ne_of_not_mem (by decide)
      (List.not_mem_append (not_mem_path (by decide) f) hvalue)
  exact List.not_mem_append hhead hpath

/-- The mode of a written line is the one it is written for. -/
theorem enter_output (s : Reader) (f : Field) :
    (s.enter t (f.part, some (nameText f.part m.name))).output f.part = m.index := by
  have hnul := (ht.names m hm).nul
  have hmode : ∀ p, (s.takeName (some (nameText p m.name))).modeName p = m.name := by
    intro p
    cases p with
    | arm => exact cstr_append_nul hnul
    | eq => exact cstr_append_nul hnul
  show ((s.takeName _).selectMode t f.part).output f.part = _
  unfold Reader.selectMode
  rw [hmode, find_name ht hm]
  dsimp only
  rw [output_setOutput, if_pos rfl]

/-- **One written line.** Its value goes to its mode, and in an array to the element that is next. -/
theorem nvLineStep_nvline {f : Field} (hf : f.InRange) (v : Nat) (s : Reader) :
    (nvLineStep t s (nvline m f v)).1.index = bump s.index f.counter ∧
      writes (nvLineStep t s (nvline m f v)).2 =
        [(((m.index : Int), f.placed s.index), f.value (valueLine (f.ivalue v)))] := by
  have hname := ht.names m hm
  have hline : cstr (s.load (nvline m f v)).nvLine = nvline m f v :=
    cstr_append_nul (nul_not_mem_nvline ht hm f v)
  generalize hh : (f.part, some (nameText f.part m.name)) = h
  have hhead : heading (nvline m f v) = some h := hh ▸ heading_nvline hname f v
  have hpart : h.1 = f.part := by rw [← hh]
  obtain ⟨hindex, -, hbuf⟩ := selectMode_frame t ((s.load (nvline m f v)).takeName h.2) h.1
  have hreads : Reads ((s.load (nvline m f v)).enter t h) (nvline m f v) f v :=
    reads_nvline hname _ hf v hbuf
  obtain ⟨place, htarget, hvalue⟩ := hreads
  have hidx : ((s.load (nvline m f v)).enter t h).index = s.index := hindex
  have hout : ((s.load (nvline m f v)).enter t h).output h.1 = m.index := by
    rw [← hh]
    exact enter_output ht hm _ f
  have hcounter : (f.placed s.index).counter = f.counter := by cases f <;> rfl
  have hbits : (f.placed s.index).value (valueLine (f.ivalue v)) =
      f.value (valueLine (f.ivalue v)) := by
    cases f with
    | app j x k => cases x <;> rfl
    | _ => rfl
  unfold nvLineStep
  dsimp only
  rw [hline, hhead]
  dsimp only
  unfold Reader.readLine
  dsimp only
  rw [hpart, htarget, hidx]
  constructor
  · show bump s.index (f.placed s.index).counter = _
    rw [hcounter]
  · rw [writes_append, writes_append, writes_nameEvents, writes_reading, Option.map_some,
      Option.getD_some, writes_storeValue, hvalue, Option.getD_some, ← hpart, hout, hbits]
    rfl

end Step

/-! ## The lines of a file -/

/-- What `fgets` reads of a line that has room in the buffer. -/
theorem fgets_line {n : Nat} {body : Text} (hbody : '\n' ∉ body) (hlen : body.length < n)
    (rest : Text) : fgets n (body ++ '\n' :: rest) = (body ++ ['\n'], rest) := by
  induction body generalizing n with
  | nil =>
    obtain ⟨k, rfl⟩ := Nat.exists_eq_add_of_lt hlen
    simp [fgets]
  | cons c cs ih =>
    have hc : '\n' ≠ c := List.ne_of_not_mem_cons hbody
    have hcs : '\n' ∉ cs := List.not_mem_of_not_mem_cons hbody
    obtain ⟨k, rfl⟩ : ∃ k, n = k + 1 := ⟨n - 1, by simp only [List.length_cons] at hlen; omega⟩
    rw [List.cons_append, fgets, if_neg (Ne.symm hc),
      ih hcs (by simp only [List.length_cons] at hlen; omega)]
    rfl

/-- A line that ends with its newline and fits into `nvLine`. -/
def IsLine (l : Text) : Prop := ∃ body, l = body ++ ['\n'] ∧ '\n' ∉ body ∧ body.length < 1023

theorem nvLinesFuel_lines {ls : List Text} (h : ∀ l ∈ ls, IsLine l) {fuel : Nat}
    (hfuel : ls.flatten.length ≤ fuel) : nvLinesFuel fuel ls.flatten = ls := by
  induction ls generalizing fuel with
  | nil => cases fuel <;> rfl
  | cons l ls ih =>
    obtain ⟨⟨body, rfl, hbody, hlen⟩, hls⟩ := List.forall_mem_cons.1 h
    have hfirst := fgets_line hbody hlen ls.flatten
    have hflat : ((body ++ ['\n']) :: ls).flatten = body ++ '\n' :: ls.flatten := by
      rw [List.flatten_cons, List.append_assoc, List.singleton_append]
    rw [hflat] at hfuel ⊢
    rw [List.length_append, List.length_cons] at hfuel
    obtain ⟨k, rfl⟩ : ∃ k, fuel = k + 1 := ⟨fuel - 1, by omega⟩
    generalize hu : body ++ '\n' :: ls.flatten = u at hfirst ⊢
    cases u with
    | nil => simp at hu
    | cons c cs => rw [nvLinesFuel, hfirst, ih hls (by omega)]

/-- **A file of lines is read line by line.** -/
theorem nvLines_flatten {ls : List Text} (h : ∀ l ∈ ls, IsLine l) : nvLines ls.flatten = ls :=
  nvLinesFuel_lines h (Nat.le_refl _)

theorem indexDigits_length {i : Int} (h : i < 100) : (indexDigits i).length ≤ 2 := by
  unfold indexDigits
  rw [Nat.length_toDigits_le_iff (by decide) (by decide)]
  omega

theorem elementBracket_length {c : Option Counter} {k : Nat} (h : k < c.elim 1 Counter.size) :
    (elementBracket c k).length ≤ 4 := by
  cases c with
  | none => exact Nat.zero_le _
  | some c =>
    have hsize : c.size ≤ 64 := by cases c <;> decide
    have hk : k < c.size := h
    have hdigits := indexDigits_length (i := k) (by omega)
    simp only [elementBracket, List.length_cons, List.length_append, List.length_nil]
    omega

theorem path_length {f : Field} (hf : f.InRange) : f.path.length ≤ 200 := by
  cases f with
  | arm x k =>
    have hpath : x.path.length ≤ 80 := by
      cases x <;> unfold ArmItem.path <;> rw [String.toList_ofList] <;> decide
    have hbracket := elementBracket_length (c := x.counter) (k := k) hf
    show (x.path ++ elementBracket x.counter k).length ≤ 200
    rw [List.length_append]
    omega
  | app j x k =>
    have happ : appPath.length ≤ 80 := by
      unfold appPath
      rw [String.toList_ofList]
      decide
    have hpath : x.path.length ≤ 40 := by
      cases x <;> unfold AppItem.path <;> rw [String.toList_ofList] <;> decide
    have hdigits := indexDigits_length (i := j) (by have := hf.1.2; omega)
    have hbracket := elementBracket_length (c := x.counter) (k := k) hf.2
    show (appPath ++ '[' :: (indexDigits j ++ ']' :: (x.path ++ elementBracket x.counter k))).length
      ≤ 200
    rw [List.length_append, List.length_cons, List.length_append, List.length_cons,
      List.length_append]
    omega
  | eqControl => decide
  | eqMode i x =>
    have hkey : eqModeKey.length ≤ 10 := by decide
    have hpath : x.path.length ≤ 40 := by
      cases x <;> unfold EqModeItem.path <;> rw [String.toList_ofList] <;> decide
    have hdigits := indexDigits_length (i := i + 1) (by have := hf.2; omega)
    show (eqModeKey ++ (indexDigits (i + 1) ++ '\\' :: x.path)).length ≤ 200
    rw [List.length_append, List.length_append, List.length_cons]
    omega
  | eqBand i b x =>
    have hkeys : eqModeKey.length ≤ 10 ∧ eqBandKey.length ≤ 10 := by decide
    have hpath : x.path.length ≤ 40 := by
      cases x <;> unfold BandItem.path <;> rw [String.toList_ofList] <;> decide
    have hdigits := indexDigits_length (i := i + 1) (by have := hf.1.2; omega)
    have hdigits' := indexDigits_length (i := b + 1) (by have := hf.2.2; omega)
    show (eqModeKey ++ (indexDigits (i + 1) ++ '\\' :: (eqBandKey ++ (indexDigits (b + 1) ++
      '\\' :: x.path)))).length ≤ 200
    rw [List.length_append, List.length_append, List.length_cons, List.length_append,
      List.length_append, List.length_cons]
    omega
  | extendArray k =>
    have hkey : "extendArray\\extendArray".toList.length ≤ 40 := by decide
    have hbracket := elementBracket_length (c := some .extendArray) (k := k) hf
    show ("extendArray\\extendArray".toList ++ elementBracket (some .extendArray) k).length ≤ 200
    rw [List.length_append]
    omega

/-- The number that is printed has 32 bits. -/
theorem ivalue_lt {f : Field} {v : Nat} (hv : v < 2 ^ f.bits) : f.ivalue v < 2 ^ 32 := by
  cases f with
  | app j x k =>
    cases x with
    | armVolume => exact hv
    | _ => exact Nat.lt_of_lt_of_le hv (show 2 ^ 16 ≤ 2 ^ 32 by decide)
  | eqBand i b x =>
    have h16 : v < 2 ^ 16 := hv
    cases x with
    | q =>
      show (if v < 2 ^ 15 then v else v + (2 ^ 32 - 2 ^ 16)) < 2 ^ 32
      split <;> omega
    | _ => exact Nat.lt_of_lt_of_le hv (show 2 ^ 16 ≤ 2 ^ 32 by decide)
  | _ => exact Nat.lt_of_lt_of_le hv (show 2 ^ 16 ≤ 2 ^ 32 by decide)

theorem nvline_isLine {m : ModeItem} (hm : NameOk m.name) {f : Field} (hf : f.InRange) {v : Nat}
    (hv : v < 2 ^ f.bits) : IsLine (nvline m f v) := by
  refine ⟨lineHead f.part m.name ++ '\\' :: (f.path ++ '=' :: '0' :: 'x' ::
    Nat.toDigits 16 (f.ivalue v)), ?_, ?_, ?_⟩
  · show lineHead f.part m.name ++ '\\' :: (f.path ++ '=' :: '0' :: 'x' ::
      (Nat.toDigits 16 (f.ivalue v) ++ ['\n'])) = _
    simp only [List.append_assoc, List.cons_append]
  · have hhead : '\n' ∉ lineHead f.part m.name := by
      cases f.part with
      | arm => exact List.not_mem_append (by decide) hm.newline
      | eq => exact List.not_mem_append (by decide) (List.not_mem_append (by decide) hm.newline)
    have hdigits : '\n' ∉ Nat.toDigits 16 (f.ivalue v) := by
      intro h
      exact absurd (isDigitIn_toDigits (by decide) (by decide) _ _ h) (by decide)
    have hvalue : '\n' ∉ '=' :: '0' :: 'x' :: Nat.toDigits 16 (f.ivalue v) := by
      simp [hdigits]
    exact List.not_mem_append hhead (List.not_mem_cons_of_ne_of_not_mem (by decide)
      (List.not_mem_append (not_mem_path (by decide) f) hvalue))
  · have hhead : (lineHead f.part m.name).length ≤ 32 := by
      have hname := hm.length_le
      have hlit : armLiteral.length = 20 ∧ eqLiteral.length = 7 ∧ "EQ_".toList.length = 3 := by
        decide
      cases f.part with
      | arm =>
        simp only [lineHead, List.length_append]
        omega
      | eq =>
        simp only [lineHead, List.length_append]
        omega
    have hpath := path_length hf
    have hdigits : (Nat.toDigits 16 (f.ivalue v)).length ≤ 8 := by
      rw [Nat.length_toDigits_le_iff (by decide) (by decide)]
      exact ivalue_lt hv
    simp only [List.length_append, List.length_cons]
    omega

end SprdHal.Audio
