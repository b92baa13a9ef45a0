import SprdHal.Audio.NvFile

/-!
# Writing the audio parameter file (`nvstruct2stringfile`)

The writer puts every number of every mode on a line of its own: the heading, the name of the mode,
the path of the field with its indices, and the value in base 16 behind `=0x`. The keys of the reader
are searched in such a line piece by piece: no key goes over a bracket or the `=`, and no key has a
part in an index or a value (`occurs_written`).
-/

namespace SprdHal.Audio

open SprdHal.Lib

/-! ## The lines -/

/-- The path of a member, without the index of an array. -/
def ArmItem.path : ArmItem → Text
  | .midiOpt => "AudioStructure\\midi_opt".toList
  | .audDev => "AudioStructure\\aud_dev".toList
  | .reserve => "AudioStructure\\reserve\\reserve".toList
  | .validDevSetCount => "AudioStructure\\dev_path_set\\valid_dev_set_count".toList
  | .devPathReserve => "AudioStructure\\dev_path_set\\reserve".toList
  | .devSet => "AudioStructure\\dev_path_set\\dev_set\\dev_set".toList
  | .validAppSetCount => "AudioStructure\\app_config_info_set\\valid_app_set_count".toList
  | .validAgcInputGainCount =>
    "AudioStructure\\app_config_info_set\\valid_agc_input_gain_count".toList
  | .audProcExpControl =>
    "AudioStructure\\app_config_info_set\\aud_proc_exp_control\\aud_proc_exp_control".toList

def appPath : Text := "AudioStructure\\app_config_info_set\\app_config_info\\app_config_info".toList

def AppItem.path : AppItem → Text
  | .eqSwitch => "\\eq_switch".toList
  | .agcInputGain => "\\agc_input_gain\\agc_input_gain".toList
  | .validVolumeLevelCount => "\\valid_volume_level_count".toList
  | .armVolume => "\\arm_volume\\arm_volume".toList
  | .reserve => "\\reserve\\reserve".toList

def EqModeItem.path : EqModeItem → Text
  | .agcInGain => "agc_in_gain".toList
  | .bandControl => "band_control".toList

def BandItem.path : BandItem → Text
  | .fo => "fo".toList
  | .q => "q".toList
  | .boostdB => "boostdB".toList
  | .gaindB => "gaindB".toList

/-- `sprintf("%d", …)` of an index. -/
def indexDigits (i : Int) : Text := Nat.toDigits 10 i.toNat

/-- The index of an array element, in brackets. -/
def elementBracket (c : Option Counter) (k : Nat) : Text :=
  match c with
  | none => []
  | some _ => '[' :: (indexDigits k ++ [']'])

namespace Field

def part : Field → Part
  | .arm .. => .arm
  | .app .. => .arm
  | .eqControl => .eq
  | .eqMode .. => .eq
  | .eqBand .. => .eq
  | .extendArray _ => .eq

/-- What is between the name of the mode and the `=`. -/
def path : Field → Text
  | .arm x k => x.path ++ elementBracket x.counter k
  | .app j x k => appPath ++ '[' :: (indexDigits j ++ ']' :: (x.path ++ elementBracket x.counter k))
  | .eqControl => eqControlKey
  | .eqMode m x => eqModeKey ++ (indexDigits (m + 1) ++ '\\' :: x.path)
  | .eqBand m b x =>
    eqModeKey ++ (indexDigits (m + 1) ++ '\\' :: (eqBandKey ++ (indexDigits (b + 1) ++ '\\' :: x.path)))
  | .extendArray k =>
    "extendArray\\extendArray".toList ++ elementBracket (some .extendArray) k

/-- `ivalue`: the numbers are not masked to 16 bits for `q`, which is signed. -/
def ivalue (f : Field) (v : Nat) : Nat :=
  match f with
  | .eqBand _ _ .q => if v < 2 ^ 15 then v else v + (2 ^ 32 - 2 ^ 16)
  | _ => v

end Field

/-- `sprintf("%0x", …)` behind the `=0x`, and the end of the line. -/
def valueLine (v : Nat) : Text := '0' :: 'x' :: (Nat.toDigits 16 v ++ ['\n'])

/-- The heading and the name of the mode. -/
def lineHead (p : Part) (name : Text) : Text :=
  match p with
  | .arm => armLiteral ++ name
  | .eq => eqLiteral ++ ("EQ_".toList ++ name)

/-- The line for a field of a mode. -/
def nvline (m : ModeItem) (f : Field) (v : Nat) : Text :=
  lineHead f.part m.name ++ '\\' :: (f.path ++ '=' :: valueLine (f.ivalue v))

/-- The members of one mode in the order of the source. -/
def writtenFields : List Field :=
  [.arm .validDevSetCount 0, .arm .devPathReserve 0] ++
    (List.range 8).map (.arm .devSet) ++
    [.arm .validAppSetCount 0, .arm .validAgcInputGainCount 0] ++
    (List.range 2).map (.arm .audProcExpControl) ++
    (List.range 16).flatMap (fun j =>
      [.app j .eqSwitch 0] ++ (List.range 8).map (.app j .agcInputGain) ++
        [.app j .validVolumeLevelCount 0] ++ (List.range 31).map (.app j .armVolume) ++
        (List.range 9).map (.app j .reserve)) ++
    [.arm .midiOpt 0, .arm .audDev 0] ++
    (List.range 64).map (.arm .reserve) ++
    [.eqControl] ++
    (List.range 6).flatMap (fun m =>
      [.eqMode m .agcInGain, .eqMode m .bandControl] ++
        (List.range 8).flatMap fun b =>
          [.eqBand m b .fo, .eqBand m b .q, .eqBand m b .boostdB, .eqBand m b .gaindB]) ++
    (List.range 59).map .extendArray

/-- The numbers of the parameter array. -/
abbrev NvMem := Int → Field → Nat

/-- `nvstruct2stringfile`: the modes of the table one after the other. -/
def nvstruct2stringfile (t : ModeTable) (mem : NvMem) : Text :=
  t.items.zipIdx.flatMap fun m => writtenFields.flatMap fun f => nvline m.1 f (mem m.2 f)

/-- The writer writes all numbers of an `AUDIO_TOTAL_T`. -/
theorem mem_writtenFields (f : Field) : f ∈ writtenFields ↔ f.InRange := by
  cases f with
  | arm x k => cases x <;> simp [writtenFields, Field.InRange, Field.elements, Field.counter,
      ArmItem.counter, Counter.size]
  | app j x k =>
    constructor
    · intro h
      cases x <;> simp [writtenFields, Field.InRange, Field.elements, Field.counter,
        AppItem.counter, Counter.size] at h ⊢ <;> omega
    · rintro ⟨⟨h0, hj⟩, hk⟩
      obtain ⟨a, rfl⟩ := Int.eq_ofNat_of_zero_le h0
      cases x <;> simp [writtenFields, Field.elements, Field.counter, AppItem.counter,
        Counter.size] at hk ⊢ <;> omega
  | eqControl => simp [writtenFields, Field.InRange]
  | eqMode m x =>
    constructor
    · intro h
      cases x <;> simp [writtenFields, Field.InRange] at h ⊢ <;> omega
    · rintro ⟨h0, hm⟩
      obtain ⟨a, rfl⟩ := Int.eq_ofNat_of_zero_le h0
      cases x <;> simp [writtenFields] <;> omega
  | eqBand m b x =>
    constructor
    · intro h
      cases x <;> simp [writtenFields, Field.InRange] at h ⊢ <;> omega
    · rintro ⟨⟨h0, hm⟩, h0', hb⟩
      obtain ⟨a, rfl⟩ := Int.eq_ofNat_of_zero_le h0
      obtain ⟨c, rfl⟩ := Int.eq_ofNat_of_zero_le h0'
      cases x <;> simp [writtenFields] <;> omega
  | extendArray k => simp [writtenFields, Field.InRange, Field.elements, Field.counter, Counter.size]

/-! ## Keys in a written line -/

/-- The characters of indices and values. -/
def isTail (c : Char) : Bool := isDigitIn 16 c || c = 'x' || c = '\n' || c = ']'

/-- A key that goes over no bracket, no `=` and no digit, and that is not part of a value. -/
structure KeyOk (k : Text) : Prop where
  opened : '[' ∉ k
  closed : ']' ∉ k
  equals : '=' ∉ k
  digits : ∀ c ∈ k, isDec c = false
  own : ∃ c ∈ k, isTail c = false

instance (k : Text) : Decidable (KeyOk k) :=
  decidable_of_iff
    (('[' ∉ k ∧ ']' ∉ k ∧ '=' ∉ k) ∧ (k.all (!isDec ·)) = true ∧ (k.any (!isTail ·)) = true)
    ⟨fun ⟨⟨h1, h2, h3⟩, h4, h5⟩ => ⟨h1, h2, h3, by simpa using h4, by simpa using h5⟩,
      fun h => ⟨⟨h.1, h.2, h.3⟩, by simpa using h.4, by simpa using h.5⟩⟩

theorem isTail_of_digit {c : Char} (h : isDigitIn 16 c = true) : isTail c = true := by
  unfold isTail
  rw [h]
  rfl

theorem isDec_indexDigits (i : Int) : ∀ c ∈ indexDigits i, isDec c = true :=
  isDigitIn_toDigits (by decide) (by decide) i.toNat

theorem isTail_indexDigits (i : Int) : ∀ c ∈ indexDigits i, isTail c = true := by
  intro c hc
  apply isTail_of_digit
  exact isDigitIn_of_ten (isDec_indexDigits i c hc)

theorem isTail_valueLine (v : Nat) : ∀ c ∈ valueLine v, isTail c = true := by
  intro c hc
  unfold valueLine at hc
  rw [List.mem_cons, List.mem_cons, List.mem_append, List.mem_singleton] at hc
  rcases hc with rfl | rfl | hc | rfl
  · decide
  · decide
  · exact isTail_of_digit (isDigitIn_toDigits (by decide) (by decide) v c hc)
  · decide

/-- A character that is in no index and in no value. -/
theorem not_mem_indexDigits {c : Char} (h : isDec c = false) (i : Int) : c ∉ indexDigits i := by
  intro hc
  rw [isDec_indexDigits i c hc] at h
  cases h

theorem not_mem_valueLine {c : Char} (h : isTail c = false) (v : Nat) : c ∉ valueLine v := by
  intro hc
  rw [isTail_valueLine v c hc] at h
  cases h

section Pieces

variable {k : Text} (hk : KeyOk k)

include hk

theorem occurs_tail {u : Text} (hu : ∀ c ∈ u, isTail c = true) : occurs k u = false := by
  obtain ⟨c, hc, hown⟩ := hk.own
  apply occurs_foreign hc
  intro hmem
  rw [hu c hmem] at hown
  cases hown

/-- The element and the value of a line hold no part of a key. -/
theorem occurs_written (p : Text) (c : Option Counter) (e v : Nat) :
    occurs k (p ++ (elementBracket c e ++ '=' :: valueLine v)) = occurs k p := by
  have hvalue := occurs_tail hk (isTail_valueLine v)
  cases c with
  | none =>
    show occurs k (p ++ '=' :: valueLine v) = occurs k p
    rw [occurs_append_cons hk.equals, hvalue, Bool.or_false]
  | some c =>
    have hdigits : occurs k (indexDigits e ++ [']']) = false := by
      apply occurs_tail hk
      intro d hd
      rcases List.mem_append.1 hd with hd | hd
      · exact isTail_indexDigits e d hd
      · rw [List.mem_singleton.1 hd]
        decide
    show occurs k (p ++ '[' :: ((indexDigits e ++ [']']) ++ '=' :: valueLine v)) = occurs k p
    rw [occurs_append_cons hk.opened, occurs_append_cons hk.equals, hdigits, hvalue, Bool.or_false,
      Bool.or_false]

/-- An index in brackets splits a line for a key. -/
theorem occurs_bracket (a b : Text) (i : Int) :
    occurs k (a ++ '[' :: (indexDigits i ++ ']' :: b)) = (occurs k a || occurs k b) := by
  rw [occurs_append_cons hk.opened, occurs_append_cons hk.closed,
    occurs_tail hk (isTail_indexDigits i), Bool.false_or]

/-- So does an index behind an underscore. -/
theorem occurs_index (hsep : '\\' ∉ k) (a b : Text) (i : Int) :
    occurs k (a ++ (indexDigits i ++ '\\' :: b)) = (occurs k a || occurs k b) := by
  have hdec := isDec_indexDigits i
  have htail := isTail_indexDigits i
  cases hd : indexDigits i with
  | nil => rw [List.nil_append, occurs_append_cons hsep]
  | cons d ds =>
    rw [hd] at hdec htail
    have hmem : d ∉ k := by
      intro hd
      have hno := hk.digits d hd
      rw [hdec d List.mem_cons_self] at hno
      cases hno
    have hds : occurs k ds = false :=
      occurs_tail hk fun c hc => htail c (List.mem_cons_of_mem d hc)
    rw [List.cons_append, occurs_append_cons hmem, occurs_append_cons hsep, hds, Bool.false_or]

end Pieces

end SprdHal.Audio
