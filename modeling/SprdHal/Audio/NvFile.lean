import Mathlib.Logic.Function.Basic
import SprdHal.Lib.Machine
import SprdHal.Lib.Numerals
import SprdHal.Lib.Search

/-!
# Reading the audio parameter file (`stringfile2nvstruct`)

The file has one value a line, with the path of the field it belongs to. A line is searched with
`strstr` for the keys in the order of the source; the first one that occurs decides where the value
goes. The modes, the applications and the bands are named by the line. The elements of an array are
not: a running index that all modes and applications share takes the next one.

The reader copies the name, the digits of an index and the value to local buffers without a look at
their size, and it stores behind `aud_params_ptr` without a look at the indices. `nvLineStep` returns
all of these copies and stores.
-/

namespace SprdHal.Audio

open SprdHal.Lib

/-- A text, or a pointer to a place in one. -/
abbrev Text := List Char

/-- `audio_mode_item_t`. -/
structure ModeItem where
  name : Text
  index : Nat
  deriving DecidableEq, Repr

/-- `aud_mode_t`: the indices are those of the elements of the parameter array. -/
structure ModeTable where
  items : List ModeItem
  index_lt : ∀ m ∈ items, m.index < items.length

/-! ## Fields -/

/-- The running indices of `stringfile2nvstruct`. -/
inductive Counter
  | devSet | audProcExpControl | agcInputGain | armVolume | reserve1 | reserve3 | extendArray
  deriving DecidableEq, Repr

/-- Where a running index is set back to 0, the length of its array. -/
def Counter.size : Counter → Nat
  | .devSet => 8
  | .audProcExpControl => 2
  | .agcInputGain => 8
  | .armVolume => 31
  | .reserve1 => 64
  | .reserve3 => 9
  | .extendArray => 59

/-- Members of an `AUDIO_NV_ARM_MODE_STRUCT_T` and of the structures in it. -/
inductive ArmItem
  | midiOpt | audDev | reserve | validDevSetCount | devPathReserve | devSet | validAppSetCount
  | validAgcInputGainCount | audProcExpControl
  deriving DecidableEq, Repr

/-- Members of an `AUDIO_NV_ARM_APP_CONFIG_INFO_T`. -/
inductive AppItem
  | eqSwitch | agcInputGain | validVolumeLevelCount | armVolume | reserve
  deriving DecidableEq, Repr

/-- Members of an `EQ_MODE_PARA_T`. -/
inductive EqModeItem
  | agcInGain | bandControl
  deriving DecidableEq, Repr

/-- Members of an `EQ_BAND_INPUT_PARA_T`. -/
inductive BandItem
  | fo | q | boostdB | gaindB
  deriving DecidableEq, Repr

/-- The running index of an array. -/
def ArmItem.counter : ArmItem → Option Counter
  | .reserve => some .reserve1
  | .devSet => some .devSet
  | .audProcExpControl => some .audProcExpControl
  | _ => none

def AppItem.counter : AppItem → Option Counter
  | .agcInputGain => some .agcInputGain
  | .armVolume => some .armVolume
  | .reserve => some .reserve3
  | _ => none

/-- A number of an `AUDIO_TOTAL_T`, with the indices that the code computes for it. The element `k`
is 0 for what is no array. -/
inductive Field
  | arm (x : ArmItem) (k : Nat)
  | app (j : Int) (x : AppItem) (k : Nat)
  | eqControl
  | eqMode (m : Int) (x : EqModeItem)
  | eqBand (m b : Int) (x : BandItem)
  | extendArray (k : Nat)
  deriving DecidableEq, Repr

namespace Field

def counter : Field → Option Counter
  | .arm x _ => x.counter
  | .app _ x _ => x.counter
  | .extendArray _ => some .extendArray
  | _ => none

/-- The index in the array. -/
def element : Field → Nat
  | .arm _ k => k
  | .app _ _ k => k
  | .extendArray k => k
  | _ => 0

/-- `arm_volume` is an array of `unsigned int`, all else has 16 bits. -/
def bits : Field → Nat
  | .app _ .armVolume _ => 32
  | _ => 16

/-- The number of elements. -/
def elements (f : Field) : Nat := f.counter.elim 1 Counter.size

/-- The indices are those of an `AUDIO_TOTAL_T`. -/
def InRange : Field → Prop
  | f@(.arm _ k) => k < f.elements
  | f@(.app j _ k) => (0 ≤ j ∧ j < 16) ∧ k < f.elements
  | .eqControl => True
  | .eqMode m _ => 0 ≤ m ∧ m < 6
  | .eqBand m b _ => (0 ≤ m ∧ m < 6) ∧ 0 ≤ b ∧ b < 8
  | f@(.extendArray k) => k < f.elements

instance decidableInRange : DecidablePred InRange := fun f => by
  cases f <;> unfold InRange <;> infer_instance

end Field

/-! ## Keys -/

def armLiteral : Text := "audio_arm\\audio_arm\\".toList

def eqLiteral : Text := "%audio\\".toList

def armKeys : List (Text × ArmItem) :=
  [("AudioStructure\\midi_opt".toList, .midiOpt),
    ("AudioStructure\\aud_dev".toList, .audDev),
    ("AudioStructure\\reserve".toList, .reserve),
    ("dev_path_set\\valid_dev_set_count".toList, .validDevSetCount),
    ("dev_path_set\\reserve".toList, .devPathReserve),
    ("dev_path_set\\dev_set".toList, .devSet),
    ("app_config_info_set\\valid_app_set_count".toList, .validAppSetCount),
    ("app_config_info_set\\valid_agc_input_gain_count".toList, .validAgcInputGainCount),
    ("app_config_info_set\\aud_proc_exp_control".toList, .audProcExpControl)]

def appKey : Text := "app_config_info_set\\app_config_info\\app_config_info[".toList

def appKeys : List (Text × AppItem) :=
  [("eq_switch".toList, .eqSwitch),
    ("agc_input_gain".toList, .agcInputGain),
    ("valid_volume_level_count".toList, .validVolumeLevelCount),
    ("arm_volume".toList, .armVolume),
    ("reserve".toList, .reserve)]

def eqControlKey : Text := "eq_control".toList

def eqModeKey : Text := "eq_mode_".toList

def eqModeKeys : List (Text × EqModeItem) :=
  [("agc_in_gain".toList, .agcInGain), ("band_control".toList, .bandControl)]

def eqBandKey : Text := "eq_band_".toList

def extendArrayKey : Text := "extendArray".toList

/-! ## Copies and stores -/

/-- The two structures of an `AUDIO_TOTAL_T`. -/
inductive Part
  | arm | eq
  deriving DecidableEq, Repr

/-- What the reader does to memory. -/
inductive Event
  /-- `len` characters are copied to a local buffer of `size` -/
  | copy (size len : Nat)
  /-- `sscanf` stores to an argument that is not passed -/
  | wild
  /-- the name of a mode is stored -/
  | name (mode : Int) (part : Part) (name : Text)
  | store (mode : Int) (f : Field) (value : Nat)
  deriving DecidableEq, Repr

/-- A copy or store within the buffer, and within the array of `n` elements. -/
def Event.InRange (n : Nat) : Event → Prop
  | .copy size len => len ≤ size
  | .wild => False
  | .name mode _ s => (0 ≤ mode ∧ mode < n) ∧ s.length < 16
  | .store mode f _ => (0 ≤ mode ∧ mode < n) ∧ f.InRange

instance (n : Nat) : DecidablePred (Event.InRange n) := fun e => by
  cases e <;> unfold Event.InRange <;> infer_instance

/-- A store to the parameter array. -/
def Event.Stores : Event → Prop
  | .copy .. => False
  | .wild => False
  | .name .. => True
  | .store .. => True

instance : DecidablePred Event.Stores := fun e => by
  cases e <;> unfold Event.Stores <;> infer_instance

/-! ## The state -/

/-- The local variables of `stringfile2nvstruct`. Of the buffers `nvLine` and `outputstyle` all bytes
are kept: some are read behind the terminator. -/
structure Reader where
  nvLine : Text
  outputstyle : Text
  data : Text
  outputArm : Int
  outputEq : Int
  index : Counter → Nat

/-- The string in a buffer. -/
def cstr (buf : Text) : Text := buf.takeWhile (· ≠ '\x00')

/-- A buffer to which a string is copied with its terminator. -/
def copyStr (buf s : Text) : Text := s ++ '\x00' :: buf.drop (s.length + 1)

namespace Reader

def init : Reader where
  nvLine := List.replicate 1024 '\x00'
  outputstyle := List.replicate 16 '\x00'
  data := []
  outputArm := -1
  outputEq := -1
  index := fun _ => 0

/-- `output_arm` or `output_eq`. -/
def output (s : Reader) : Part → Int
  | .arm => s.outputArm
  | .eq => s.outputEq

def setOutput (s : Reader) (i : Int) : Part → Reader
  | .arm => { s with outputArm := i }
  | .eq => { s with outputEq := i }

/-- The name that is looked for in the table: behind `EQ_` for the equalizer. -/
def modeName (s : Reader) : Part → Text
  | .arm => cstr s.outputstyle
  | .eq => cstr (s.outputstyle.drop 3)

/-- The element that is next, 0 for what is no array. -/
def next (s : Reader) (c : Option Counter) : Nat := c.elim 0 s.index

end Reader

/-- The index of the first mode of a name. -/
def ModeTable.find (t : ModeTable) (name : Text) : Option Nat :=
  (t.items.find? fun m => m.name = name).map ModeItem.index

/-- The loop over the table: without a mode of that name the index stays what it is. -/
def Reader.selectMode (t : ModeTable) (s : Reader) (p : Part) : Reader :=
  match t.find (s.modeName p) with
  | some i => s.setOutput i p
  | none => s

/-! ## Scanning a line -/

/-- `sscanf(nvLine, "…%[^\\]", outputstyle)`: `none` if it returns 0, `some none` if the line ends
where the name should start. -/
def scanName (literal line : Text) : Option (Option Text) :=
  if literal.isPrefixOf line then
    match line.drop literal.length with
    | [] => some none
    | c :: cs => if c = '\\' then none else some (some ((c :: cs).takeWhile (· ≠ '\\')))
  else none

/-- The structure that a line is about, and what `sscanf` makes of its name. A `%%` in the format
skips white space. -/
def heading (line : Text) : Option (Part × Option Text) :=
  if occurs armLiteral line then (scanName armLiteral line).map (Part.arm, ·)
  else if occurs eqLiteral line then
    (scanName eqLiteral (line.dropWhile isSpace)).map (Part.eq, ·)
  else none

/-- The set `[0-9]`. -/
def isDec : Char → Bool := isDigitIn 10

/-- The set `[1-9]`. -/
def isOneToNine (c : Char) : Bool := isDec c && c ≠ '0'

/-- `sscanf(t, "%[…]%[^…]", data)`, which has no argument for its second conversion: `data`
afterwards, and what is stored. -/
def scanIndex (isIdx : Char → Bool) (stop : Char) (data t : Text) : Text × List Event :=
  match t.takeWhile isIdx with
  | [] => (data, [])
  | d :: ds =>
    (d :: ds, .copy 128 (ds.length + 2) ::
      match t.dropWhile isIdx with
      | [] => []
      | c :: _ => if c = stop then [] else [.wild])

/-- What is read of a line before its value: `data`, the copies, and the field with the place from
which on the `=` is searched. -/
structure Reading where
  data : Text
  events : List Event
  target : Option (Field × Text)

def Reader.armReading (s : Reader) (line : Text) : Reading :=
  match firstKey armKeys line with
  | some x => ⟨s.data, [], some (.arm x (s.next x.counter), line)⟩
  | none =>
    match strstr appKey line with
    | none => ⟨s.data, [], none⟩
    | some p =>
      let scan := scanIndex isDec ']' s.data (p.drop appKey.length)
      ⟨scan.1, scan.2,
        (firstKey appKeys p).map fun x => (.app (toShort (atoi scan.1)) x (s.next x.counter), p)⟩

/-- The member of a band. The letter `q` is searched 9 characters behind the key, which can be behind
the terminator of the line. -/
def bandItem (nvLine line q : Text) : Option BandItem :=
  if occurs "fo".toList q then some .fo
  else if occurs "q".toList (cstr (nvLine.drop (line.length - q.length + 9))) then some .q
  else if occurs "boostdB".toList q then some .boostdB
  else if occurs "gaindB".toList q then some .gaindB
  else none

/-- The test for `extendArray`, which a line reaches that names nothing else. -/
def Reader.extendReading (s : Reader) (line data : Text) (events : List Event) : Reading :=
  ⟨data, events,
    if occurs extendArrayKey line then some (.extendArray (s.next (some .extendArray)), line)
    else none⟩

def Reader.eqReading (s : Reader) (line : Text) : Reading :=
  if occurs eqControlKey line then ⟨s.data, [], some (.eqControl, line)⟩
  else
    match strstr eqModeKey line with
    | none => s.extendReading line s.data []
    | some p =>
      let scan := scanIndex isOneToNine '\\' s.data (p.drop eqModeKey.length)
      let m := atoi scan.1 - 1
      match firstKey eqModeKeys p with
      | some x => ⟨scan.1, scan.2, some (.eqMode m x, line)⟩
      | none =>
        match strstr eqBandKey p with
        | none => s.extendReading line scan.1 scan.2
        | some q =>
          let scan' := scanIndex isDec '\\' scan.1 (q.drop eqBandKey.length)
          match bandItem s.nvLine line q with
          | some x =>
            ⟨scan'.1, scan.2 ++ scan'.2, some (.eqBand m (toShort (atoi scan'.1) - 1) x, line)⟩
          | none => s.extendReading line scan'.1 (scan.2 ++ scan'.2)

def Reader.reading (s : Reader) (line : Text) : Part → Reading
  | .arm => s.armReading line
  | .eq => s.eqReading line

/-! ## Values -/

/-- What follows the first `=`. -/
def valueText (t : Text) : Option Text := (t.dropWhile (· ≠ '=')).tail?

/-- `my_strtol`: up to eight digits behind the prefix. -/
def myStrtol (src : Text) : Int :=
  digitsValue 16 (((src.drop 2).take 8).takeWhile (isDigitIn 16))

/-- `iValue` for `arm_volume`. -/
def armVolumeValue (v : Text) : Int :=
  match strstr "0x".toList v with
  | some p => myStrtol p
  | none =>
    match strstr "0X".toList v with
    | some p => myStrtol p
    | none => atoi v

/-- `iValue` for all other fields. -/
def plainValue (v : Text) : Int :=
  if occurs "0x".toList v || occurs "0X".toList v then strtol 16 v else atoi v

/-- What is stored: the bits of `iValue` for which the field has room. -/
def Field.value (f : Field) (v : Text) : Nat :=
  ((if f.bits = 32 then armVolumeValue v else plainValue v) % 2 ^ f.bits).toNat

/-- A running index after an element is stored. -/
def bump (index : Counter → Nat) : Option Counter → Counter → Nat
  | none => index
  | some c => Function.update index c (if index c + 1 = c.size then 0 else index c + 1)

/-- The value behind the `=` is copied to `nvtemp` and stored. -/
def storeValue (mode : Int) (target : Field × Text) : List Event :=
  let v := valueText target.2
  (v.map fun v => Event.copy 128 (v.length + 1)).toList ++
    [.store mode target.1 (target.1.value (v.getD []))]

/-! ## One line -/

/-- `nvLine` with a line of the file, and the copies and stores it leads to. -/
structure LineLog where
  nvLine : Text
  events : List Event
  deriving DecidableEq, Repr

/-- `sscanf` has stored the name. -/
def Reader.takeName (s : Reader) (name : Option Text) : Reader :=
  { s with outputstyle := name.elim s.outputstyle (copyStr s.outputstyle) }

/-- The state in which a line is read that has a heading. -/
def Reader.enter (t : ModeTable) (s : Reader) (h : Part × Option Text) : Reader :=
  (s.takeName h.2).selectMode t h.1

/-- The copies and stores of the name. At most 15 characters of it are stored. -/
def Reader.nameEvents (s : Reader) (h : Part × Option Text) : List Event :=
  (h.2.map fun name => Event.copy 16 (name.length + 1)).toList ++
    [.name (s.output h.1) h.1 ((cstr s.outputstyle).take 15)]

/-- A line with a heading, from `sscanf` on. -/
def Reader.readLine (t : ModeTable) (s : Reader) (line : Text) (h : Part × Option Text) :
    Reader × List Event :=
  let s := s.enter t h
  let r := s.reading line h.1
  ({ s with
      data := r.data
      index := bump s.index (r.target.bind fun x => x.1.counter) },
    s.nameEvents h ++ r.events ++ (r.target.map (storeValue (s.output h.1))).getD [])

/-- `nvLine` after `fgets`. -/
def Reader.load (s : Reader) (chunk : Text) : Reader :=
  { s with nvLine := copyStr s.nvLine chunk }

/-- The body of the loop, for what `fgets` has read. -/
def nvLineStep (t : ModeTable) (s : Reader) (chunk : Text) : Reader × List Event :=
  let s := s.load chunk
  match heading (cstr s.nvLine) with
  | none => (s, [])
  | some h => s.readLine t (cstr s.nvLine) h

/-! ## The file -/

/-- `fgets` for at most `n` characters: what it reads, and the rest of the file. -/
def fgets : Nat → Text → Text × Text
  | 0, t => ([], t)
  | _ + 1, [] => ([], [])
  | n + 1, c :: cs => if c = '\n' then ([c], cs) else (c :: (fgets n cs).1, (fgets n cs).2)

def nvLinesFuel : Nat → Text → List Text
  | 0, _ => []
  | _ + 1, [] => []
  | fuel + 1, c :: cs => (fgets 1023 (c :: cs)).1 :: nvLinesFuel fuel (fgets 1023 (c :: cs)).2

/-- What `fgets` reads one after the other until the file ends. -/
def nvLines (text : Text) : List Text := nvLinesFuel text.length text

/-- The loop over the lines. -/
def nvReader (t : ModeTable) : Machine Reader Text LineLog where
  step s chunk :=
    ((nvLineStep t s chunk).1, [⟨(s.load chunk).nvLine, (nvLineStep t s chunk).2⟩])

/-- All copies and stores, line by line. -/
def stringfile2nvstruct (t : ModeTable) (text : Text) : List LineLog :=
  ((nvReader t).run .init (nvLines text)).2

end SprdHal.Audio
