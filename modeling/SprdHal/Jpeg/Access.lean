import SprdHal.Jpeg.Parse

/-!
# The accesses of the header parser

`ParseHead` as in `Parse`, which also notes every index that it uses and every call of
`JpegDec_ExtraMemAlloc`. The notes are not looked at: without them this is the parser
(`checked_parseHead`). What happens after an access outside is not followed: it is the access that
counts.
-/

namespace SprdHal.Jpeg

/-- What is indexed, or behind a pointer. -/
inductive Table
  | tblMap | compIdMap | compInfo | quantTbl | quantEntry | huffTbl | bits | huffval
  | defaultBits | defaultHuffval
  deriving DecidableEq, Repr

/-- An index into a table that has `bound` entries (none while its pointer is `NULL`), or a call of
`JpegDec_ExtraMemAlloc` when `used` of `total` bytes are taken. -/
inductive Access
  | index (table : Table) (i bound : Nat)
  | alloc (size used total : Nat)
  deriving DecidableEq, Repr

def Access.Inside : Access → Prop
  | index _ i bound => i < bound
  | alloc size used total => 0 < size ∧ used + size ≤ total

/-- The memory of the decoder as `JpegDec_InitMem` and `JpegDec_InitBitream` leave it. -/
structure ExtraMem where
  total : Nat
  used : Nat
  le : used ≤ total

/-- The decoder, `s_used_extra_mem`, `s_extra_mem_size` and `g_huff_tbl_malloced`. -/
structure Parser where
  decoder : Decoder
  used : Nat
  total : Nat
  huffTblMalloced : Bool

/-- A part of the parser: the accesses that it makes, and what it leaves if it goes on. -/
def Checked (α : Type) : Type := Parser → List Access × Option (α × Parser)

namespace Checked

variable {α β : Type}

def bind (m : Checked α) (f : α → Checked β) : Checked β := fun s =>
  match m s with
  | (l, none) => (l, none)
  | (l, some (a, s')) => (l ++ (f a s').1, (f a s').2)

instance : Monad Checked where
  pure a := fun s => ([], some (a, s))
  bind := Checked.bind

/-- `JPEG_FAILED` -/
def fail : Checked α := fun _ => ([], none)

def accesses (l : List Access) : Checked Unit := fun s => (l, some ((), s))

/-- A part of the parser that only reads from the stream. -/
def lift (m : Decoder → Option (α × Decoder)) : Checked α := fun s =>
  ([], (m s.decoder).map fun r => (r.1, { s with decoder := r.2 }))

/-- A handler that uses none of the tables. -/
def liftUnit (m : Decoder → Option Decoder) : Checked Unit :=
  lift fun s => (m s).map fun s' => ((), s')

def codec : Checked Codec := fun s => ([], some (s.decoder.codec, s))

def update (f : Codec → Codec) : Checked Unit := fun s =>
  ([], some ((), { s with decoder := { s.decoder with codec := f s.decoder.codec } }))

/-- `JpegDec_ExtraMemAlloc`: the size is rounded up to words. -/
def alloc (size : Nat) : Checked Unit := fun s =>
  let size := (size + 3) / 4 * 4
  ([.alloc size s.used s.total], some ((), { s with used := s.used + size }))

def getChar : Checked UInt8 := lift Decoder.getChar

def getShortWord : Checked Nat := lift Decoder.getShortWord

/-- A loop of `n` reads from number `i` on, with the accesses of each. -/
def readEach (read : Checked α) (uses : Nat → List Access) : Nat → Nat → Checked (List α)
  | 0, _ => pure []
  | n + 1, i => do
    let a ← read
    accesses (uses i)
    let as ← readEach read uses n (i + 1)
    return a :: as

/-! ## Segments -/

/-- The loop of `GetSOF` over the components. -/
def getSOFComponents (componentNum ci : Nat) : Checked Unit :=
  if ci < componentNum then do
    let id ← getChar
    accesses [.index .compInfo ci componentNum]
    if id.toNat < 1 ∨ 3 < id.toNat then fail
    else
      let ratio ← getChar
      let quant ← getChar
      if 2 < quant.toNat then fail
      else
        accesses [.index .tblMap (id.toNat - 1) 3]
        update fun codec => codec.addComponent ci id ratio quant
        getSOFComponents componentNum (ci + 1)
  else pure ()
termination_by componentNum - ci

/-- The end of `GetSOF`. -/
def setMcuInfo : Checked Unit := do
  let codec ← codec
  accesses [.index .compInfo 0 codec.numComponents]
  if codec.numComponents = 1 then update fun codec => { codec with inputMcuInfo := .yuv400 }
  else
    match mcuInfoOf (sampleRatio codec.compInfo 0) with
    | none => fail
    | some info =>
      accesses [.index .compInfo 1 codec.numComponents]
      if sampleRatio codec.compInfo 1 ≠ 0x11 then fail
      else
        accesses (if 2 < codec.numComponents then [.index .compInfo 2 codec.numComponents] else [])
        if 2 < codec.numComponents ∧ sampleRatio codec.compInfo 2 ≠ 0x11 then fail
        else update fun codec => { codec with inputMcuInfo := info }

/-- `sizeof(jpeg_component_info)` -/
def sizeofComponentInfo : Nat := 16

/-- `GetSOF` -/
def getSOF (isProgressive : Bool) : Checked Unit := do
  let length ← getShortWord
  if length < 8 then fail
  else
    let precision ← getChar
    if precision ≠ 8 then fail
    else
      let height ← getShortWord
      let width ← getShortWord
      let componentNum ← getChar
      if length ≠ componentNum.toNat * 3 + 8 then fail
      else
        alloc (componentNum.toNat * sizeofComponentInfo)
        update fun codec =>
          { codec with
            progressiveMode := isProgressive
            inputHeight := height
            inputWidth := width
            numComponents := componentNum.toNat
            compInfo := [] }
        getSOFComponents componentNum.toNat 0
        setMcuInfo

/-- The loop of `GetSOS` over `comp_info`, from number `ci` on. -/
def findComponent (cc : UInt8) : Nat → Nat → Checked Bool
  | 0, _ => pure false
  | n + 1, ci => do
    let codec ← codec
    accesses [.index .compInfo ci codec.compInfo.length]
    if codec.compInfo[ci]?.any (·.componentId == cc.toNat) then pure true
    else findComponent cc n (ci + 1)

/-- The loop of `GetSOS` over the components. -/
def getSOSComponents (n i : Nat) : Checked Unit :=
  if i < n then do
    let cc ← getChar
    let c ← getChar
    if cc.toNat ≠ i + 1 then fail
    else
      accesses [.index .tblMap i 3]
      let codec ← codec
      let found ← findComponent cc codec.numComponents 0
      accesses (if found then [.index .compIdMap i 3] else [])
      update fun codec => codec.setScanTbl i cc c
      getSOSComponents n (i + 1)
  else pure ()
termination_by n - i

/-- `GetSOS` -/
def getSOS : Checked Unit := do
  let length ← getShortWord
  if length < 3 then fail
  else
    let n ← getChar
    if length - 3 ≠ n.toNat * 2 + 3 then fail
    else
      update fun codec => { codec with compsInScan := n.toNat }
      getSOSComponents n.toNat 0
      let ss ← getChar
      let se ← getChar
      let c ← getChar
      update fun codec =>
        { codec with
          ss := ss.toNat
          se := se.toNat
          ah := c.toNat / 16
          al := c.toNat % 16
          nextRestartNum := 0
          inputScanNumber := (codec.inputScanNumber + 1) % 256 }

/-- `bits` and `huffval` of one DC and one AC table. -/
def allocHuffTbl : Checked Unit := do
  alloc 17
  alloc 257
  alloc 17
  alloc 257

/-- The start of `GetHuffTbl`. -/
def allocHuffTbls : Checked Unit := fun s =>
  if s.huffTblMalloced = true then ([], some ((), s))
  else
    (do
      allocHuffTbl
      allocHuffTbl
      allocHuffTbl
      allocHuffTbl : Checked Unit) { s with huffTblMalloced := true }

/-- The number of symbols of the default tables: `DC_SYMBOL_NUM` and `AC_SYMBOL_NUM`. -/
def defaultSymbols (index : Nat) : Nat := if index &&& 0x10 ≠ 0 then 256 else 12

/-- One table of `GetHuffTbl`. -/
def getOneHuffTbl : Checked (Nat × List UInt8 × List UInt8) := do
  let c ← getChar
  let index := c.toNat &&& 0x13
  accesses [.index .huffTbl (if index &&& 0x10 ≠ 0 then index - 0x10 else index) 4, .index .bits 0 17]
  let bits ← readEach getChar (fun i => [.index .bits i 17, .index .defaultBits i 17]) 16 1
  let count := (bits.map UInt8.toNat).sum
  if 256 < count then fail
  else
    let huffval ← readEach getChar
      (fun i => [.index .huffval i 257, .index .defaultHuffval i (defaultSymbols index)]) count 0
    return (index, bits, huffval)

/-- The loop of `GetHuffTbl`. -/
def getHuffTblLoop (length : Nat) : Checked Unit :=
  if 0 < length then do
    let (index, bits, huffval) ← getOneHuffTbl
    if length < 1 + 16 + huffval.length then fail
    else
      update fun codec => codec.setHuffTbl index bits huffval
      getHuffTblLoop (length - (1 + 16 + huffval.length))
  else pure ()
termination_by length
decreasing_by omega

/-- `GetHuffTbl` -/
def getHuffTbl : Checked Unit := do
  allocHuffTbls
  let length ← getShortWord
  if length < 2 then fail else getHuffTblLoop (length - 2)

/-- The accesses for entry `j` of a quantisation table. -/
def quantUses (j : Nat) : List Access :=
  [.index .quantEntry (zigzagOrder.getD j 0) 64]

/-- The entries of a table of `GetQuantTbl`. -/
def getQuantValues (prec : Nat) : Checked (List UInt8) :=
  if prec = 0 then readEach getChar quantUses 64 0
  else do
    let ws ← readEach getShortWord quantUses 64 0
    return ws.map UInt8.ofNat

/-- The loop of `GetQuantTbl`. -/
def getQuantTblLoop (length : Nat) (twoChroma : Bool) : Checked Bool :=
  if 0 < length then do
    let c ← getChar
    let prec := c.toNat / 16
    let n := c.toNat % 16
    if 2 < n then fail
    else
      accesses [.index .quantTbl n 3]
      alloc 64
      let values ← getQuantValues prec
      if length < 64 + 1 + 64 * prec then fail
      else
        update fun codec => { codec with quantTbl := codec.quantTbl.set n (some (unzigzag values)) }
        getQuantTblLoop (length - (64 + 1 + 64 * prec)) (twoChroma || decide (1 < n))
  else pure twoChroma
termination_by length
decreasing_by omega

/-- The entries behind a pointer to a quantisation table. -/
def quantBound (t : Option (Option (List UInt8))) : Nat := if t.join.isSome then 64 else 0

/-- The comparison of the two chroma tables, from entry `j` on. -/
def compareQuant (u v : Option (Option (List UInt8))) : Nat → Nat → List Access
  | 0, _ => []
  | n + 1, j =>
    .index .quantEntry j (quantBound u) :: .index .quantEntry j (quantBound v) ::
      if u.join.bind (·[j]?) = v.join.bind (·[j]?) then compareQuant u v n (j + 1) else []

/-- `GetQuantTbl` -/
def getQuantTbl : Checked Unit := do
  let length ← getShortWord
  if length < 2 then fail
  else
    let twoChroma ← getQuantTblLoop (length - 2) false
    let codec ← codec
    let u := codec.quantTbl[1]?
    let v := codec.quantTbl[2]?
    accesses (if twoChroma then compareQuant u v 64 0 else [])
    if twoChroma = true ∧ u ≠ v then fail else pure ()

/-! ## The header -/

def handle : Handler → Checked Unit
  | .sof isProgressive => getSOF isProgressive
  | .sos => getSOS
  | .skip => liftUnit skipVariable
  | .dri => liftUnit getDRI
  | .app0 => liftUnit getAPP0
  | .dht => getHuffTbl
  | .dqt => getQuantTbl

/-- `ProcessTables` -/
def processTables (s : Parser) : List Access × Option (UInt8 × Parser) :=
  match s.decoder.getNextMarker with
  | none => ([], none)
  | some (c, d) =>
    match actionOf c with
    | .stop => ([], some (c, { s with decoder := d }))
    | .error => ([], none)
    | .handle h =>
      match handle h { s with decoder := d } with
      | (l, none) => (l, none)
      | (l, some ((), s')) =>
        if s'.decoder.rest.length < s.decoder.rest.length then
          (l ++ (processTables s').1, (processTables s').2)
        else (l, none)
termination_by s.decoder.rest.length

/-- `ParseHead` -/
def parseHead : Checked Unit := do
  liftUnit findSOI
  let c ← processTables
  if c = markerSOS then getSOS else fail

end Checked

/-- The parser as `JPEG_FWParseHead` calls it. -/
def Parser.start (stream : List UInt8) (mem : ExtraMem) : Parser :=
  ⟨⟨stream, Codec.init⟩, mem.used, mem.total, false⟩

namespace Checked

section Run

variable {α β : Type} {m : Checked α} {f : α → Checked β} {s s' : Parser} {l : List Access} {a : α}

theorem bind_run (hm : m s = (l, some (a, s'))) :
    (m >>= f) s = (l ++ (f a s').1, (f a s').2) := by
  show Checked.bind m f s = _
  unfold Checked.bind
  rw [hm]

theorem bind_stop (hm : m s = (l, none)) : (m >>= f) s = (l, none) := by
  show Checked.bind m f s = _
  unfold Checked.bind
  rw [hm]

theorem bind_quiet (hm : m s = ([], some (a, s'))) : (m >>= f) s = f a s' := bind_run hm

end Run

end Checked

/-! ## Without the notes -/

/-- What is left of a part of the parser without the notes and the memory. -/
def Erases {α γ : Type} (p : α → Decoder → γ) (out : List Access × Option (α × Parser))
    (r : Option γ) : Prop :=
  out.2.map (fun x => p x.1 x.2.decoder) = r

section Erases

variable {α β γ δ : Type} {p : α → Decoder → γ} {q : β → Decoder → δ} {s : Parser}

theorem Erases.bind {m : Checked α} {r : Option γ} {f : α → Checked β} {f₀ : γ → Option δ}
    (hm : Erases p (m s) r) (hf : ∀ a s', Erases q (f a s') (f₀ (p a s'.decoder))) :
    Erases q ((m >>= f) s) (r >>= f₀) := by
  rw [← hm]
  cases hrun : m s with
  | mk l x =>
    cases x with
    | none =>
      rw [Checked.bind_stop hrun]
      rfl
    | some x =>
      rw [Checked.bind_run hrun]
      exact hf x.1 x.2

/-- A step that the parser without the notes does not have. -/
theorem Erases.skip {m : Checked α} {a : α} {r : Option δ} {f : α → Checked β} {l : List Access}
    {s' : Parser} (hm : m s = (l, some (a, s'))) (hf : Erases q (f a s') r) :
    Erases q ((m >>= f) s) r := by
  rw [Checked.bind_run hm]
  exact hf

theorem erases_lift (m : Decoder → Option (α × Decoder)) :
    Erases Prod.mk (Checked.lift m s) (m s.decoder) := by
  simp only [Erases, Checked.lift, Option.map_map, Function.comp_def, Option.map_id']

theorem erases_liftUnit (m : Decoder → Option Decoder) :
    Erases (fun _ d => d) (Checked.liftUnit m s) (m s.decoder) := by
  simp only [Erases, Checked.liftUnit, Checked.lift, Option.map_map, Function.comp_def,
    Option.map_id']

theorem erases_fail : Erases p (Checked.fail s) none := rfl

theorem erases_update (f : Codec → Codec) :
    Erases (fun _ d => d) (Checked.update f s)
      (some { s.decoder with codec := f s.decoder.codec }) := rfl

theorem Erases.ite {c : Prop} [Decidable c] {m m' : Checked α} {r r' : Option γ}
    (h : Erases p (m s) r) (h' : Erases p (m' s) r') :
    Erases p ((if c then m else m') s) (if c then r else r') := by
  split
  · exact h
  · exact h'

theorem erases_readChars (uses : Nat → List Access) (n i : Nat) :
    Erases Prod.mk (Checked.readEach Checked.getChar uses n i s) (s.decoder.getChars n) := by
  induction n generalizing i s with
  | zero => rfl
  | succ n ih =>
    refine (erases_lift Decoder.getChar).bind fun a s₁ => .skip rfl ?_
    exact (ih (i + 1)).bind fun as s₂ => rfl

theorem erases_readWords (uses : Nat → List Access) (n i : Nat) :
    Erases Prod.mk (Checked.readEach Checked.getShortWord uses n i s)
      (s.decoder.getShortWords n) := by
  induction n generalizing i s with
  | zero => rfl
  | succ n ih =>
    refine (erases_lift Decoder.getShortWord).bind fun a s₁ => .skip rfl ?_
    exact (ih (i + 1)).bind fun as s₂ => rfl

theorem erases_getSOFComponents (componentNum ci : Nat) :
    Erases (fun _ d => d) (Checked.getSOFComponents componentNum ci s)
      (getSOFComponents componentNum ci s.decoder) := by
  induction hn : componentNum - ci generalizing ci s with
  | zero =>
    have hge : ¬ ci < componentNum := by omega
    rw [Checked.getSOFComponents, getSOFComponents, if_neg hge, if_neg hge]
    rfl
  | succ n ih =>
    have hlt : ci < componentNum := by omega
    rw [Checked.getSOFComponents, getSOFComponents, if_pos hlt, if_pos hlt]
    refine (erases_lift Decoder.getChar).bind fun id s₁ => .skip rfl (.ite erases_fail ?_)
    refine (erases_lift Decoder.getChar).bind fun ratio s₂ => ?_
    refine (erases_lift Decoder.getChar).bind fun quant s₃ => .ite erases_fail ?_
    exact .skip rfl (.skip rfl (ih (ci + 1) (by omega)))

theorem erases_setMcuInfo :
    Erases (fun _ d => d) (Checked.setMcuInfo s) (setMcuInfo s.decoder) := by
  unfold setMcuInfo
  refine .skip rfl (.skip rfl (.ite (erases_update _) ?_))
  cases mcuInfoOf (sampleRatio s.decoder.codec.compInfo 0) with
  | none => exact erases_fail
  | some info =>
    exact .skip rfl (.ite erases_fail (.skip rfl (.ite erases_fail (erases_update _))))

theorem erases_getSOF (isProgressive : Bool) :
    Erases (fun _ d => d) (Checked.getSOF isProgressive s) (getSOF isProgressive s.decoder) := by
  refine (erases_lift Decoder.getShortWord).bind fun length s₁ => .ite erases_fail ?_
  refine (erases_lift Decoder.getChar).bind fun precision s₂ => .ite erases_fail ?_
  refine (erases_lift Decoder.getShortWord).bind fun height s₃ => ?_
  refine (erases_lift Decoder.getShortWord).bind fun width s₄ => ?_
  refine (erases_lift Decoder.getChar).bind fun componentNum s₅ => .ite erases_fail ?_
  refine .skip rfl (.skip rfl ?_)
  exact (erases_getSOFComponents _ _).bind fun _ _ => erases_setMcuInfo

/-- The loop over `comp_info` changes nothing. -/
theorem findComponent_runs (cc : UInt8) (n ci : Nat) :
    ∃ l found, Checked.findComponent cc n ci s = (l, some (found, s)) := by
  induction n generalizing ci with
  | zero => exact ⟨_, _, rfl⟩
  | succ n ih =>
    obtain ⟨l, found, hrun⟩ := ih (ci + 1)
    unfold Checked.findComponent
    rw [Checked.bind_run rfl, Checked.bind_run rfl]
    split
    · exact ⟨_, _, rfl⟩
    · rw [hrun]
      exact ⟨_, _, rfl⟩

theorem erases_getSOSComponents (n i : Nat) :
    Erases (fun _ d => d) (Checked.getSOSComponents n i s) (getSOSComponents n i s.decoder) := by
  induction hn : n - i generalizing i s with
  | zero =>
    have hge : ¬ i < n := by omega
    rw [Checked.getSOSComponents, getSOSComponents, if_neg hge, if_neg hge]
    rfl
  | succ k ih =>
    have hlt : i < n := by omega
    rw [Checked.getSOSComponents, getSOSComponents, if_pos hlt, if_pos hlt]
    refine (erases_lift Decoder.getChar).bind fun cc s₁ => ?_
    refine (erases_lift Decoder.getChar).bind fun c s₂ => .ite erases_fail ?_
    obtain ⟨l, found, hrun⟩ := findComponent_runs (s := s₂) cc s₂.decoder.codec.numComponents 0
    exact .skip rfl (.skip rfl (.skip hrun (.skip rfl (.skip rfl (ih (i + 1) (by omega))))))

theorem erases_getSOS : Erases (fun _ d => d) (Checked.getSOS s) (getSOS s.decoder) := by
  refine (erases_lift Decoder.getShortWord).bind fun length s₁ => .ite erases_fail ?_
  refine (erases_lift Decoder.getChar).bind fun n s₂ => .ite erases_fail (.skip rfl ?_)
  refine (erases_getSOSComponents _ _).bind fun _ s₃ => ?_
  refine (erases_lift Decoder.getChar).bind fun ss s₄ => ?_
  refine (erases_lift Decoder.getChar).bind fun se s₅ => ?_
  exact (erases_lift Decoder.getChar).bind fun c s₆ => erases_update _

theorem allocHuffTbls_runs :
    ∃ l s', Checked.allocHuffTbls s = (l, some ((), s')) ∧ s'.decoder = s.decoder := by
  unfold Checked.allocHuffTbls
  split
  · exact ⟨_, _, rfl, rfl⟩
  · exact ⟨_, _, rfl, rfl⟩

theorem erases_getOneHuffTbl :
    Erases Prod.mk (Checked.getOneHuffTbl s) (getOneHuffTbl s.decoder) := by
  refine (erases_lift Decoder.getChar).bind fun c s₁ => .skip rfl ?_
  refine (erases_readChars _ 16 1).bind fun bits s₂ => .ite erases_fail ?_
  exact (erases_readChars _ _ 0).bind fun huffval s₃ => rfl

theorem getHuffTblLoop_of_pos {length : Nat} (h : 0 < length) (s : Decoder) :
    getHuffTblLoop length s = getOneHuffTbl s >>= fun r =>
      if length < 1 + 16 + r.1.2.2.length then none
      else getHuffTblLoop (length - (1 + 16 + r.1.2.2.length))
        { r.2 with codec := r.2.codec.setHuffTbl r.1.1 r.1.2.1 r.1.2.2 } := by
  rw [getHuffTblLoop, dif_pos h]
  cases getOneHuffTbl s with
  | none | some => rfl

theorem erases_getHuffTblLoop (length : Nat) :
    Erases (fun _ d => d) (Checked.getHuffTblLoop length s) (getHuffTblLoop length s.decoder) := by
  induction length using Nat.strong_induction_on generalizing s with
  | _ length ih =>
    by_cases hpos : 0 < length
    · rw [Checked.getHuffTblLoop, if_pos hpos, getHuffTblLoop_of_pos hpos]
      exact erases_getOneHuffTbl.bind fun t s' =>
        .ite erases_fail (.skip rfl (ih _ (by omega)))
    · rw [Checked.getHuffTblLoop, getHuffTblLoop, if_neg hpos, dif_neg hpos]
      rfl

theorem erases_getHuffTbl :
    Erases (fun _ d => d) (Checked.getHuffTbl s) (getHuffTbl s.decoder) := by
  obtain ⟨l, s', hrun, hsame⟩ := allocHuffTbls_runs (s := s)
  rw [← hsame]
  refine .skip hrun ?_
  exact (erases_lift Decoder.getShortWord).bind fun length s₁ =>
    .ite erases_fail (erases_getHuffTblLoop _)

theorem erases_getQuantValues (prec : Nat) :
    Erases Prod.mk (Checked.getQuantValues prec s) (getQuantValues prec s.decoder) := by
  refine .ite (erases_readChars _ 64 0) ?_
  exact (erases_readWords _ 64 0).bind fun ws s₁ => rfl

theorem getQuantTblLoop_of_pos {length : Nat} (h : 0 < length) (twoChroma : Bool) (s : Decoder) :
    getQuantTblLoop length twoChroma s = s.getChar >>= fun r =>
      if 2 < r.1.toNat % 16 then none
      else getQuantValues (r.1.toNat / 16) r.2 >>= fun t =>
        if length < 64 + 1 + 64 * (r.1.toNat / 16) then none
        else getQuantTblLoop (length - (64 + 1 + 64 * (r.1.toNat / 16)))
          (twoChroma || decide (1 < r.1.toNat % 16))
          { t.2 with
            codec := { t.2.codec with
              quantTbl := t.2.codec.quantTbl.set (r.1.toNat % 16) (some (unzigzag t.1)) } } := by
  rw [getQuantTblLoop, dif_pos h]
  cases s.getChar with
  | none => rfl
  | some r =>
    obtain ⟨c, d⟩ := r
    simp only [Option.bind_eq_bind, Option.bind_some]
    split
    · rfl
    · cases getQuantValues (c.toNat / 16) d with
      | none | some => rfl

theorem erases_getQuantTblLoop (length : Nat) (twoChroma : Bool) :
    Erases Prod.mk (Checked.getQuantTblLoop length twoChroma s)
      (getQuantTblLoop length twoChroma s.decoder) := by
  induction length using Nat.strong_induction_on generalizing s twoChroma with
  | _ length ih =>
    by_cases hpos : 0 < length
    · rw [Checked.getQuantTblLoop, if_pos hpos, getQuantTblLoop_of_pos hpos]
      refine (erases_lift Decoder.getChar).bind fun c s₁ => .ite erases_fail ?_
      refine .skip rfl (.skip rfl ?_)
      exact (erases_getQuantValues _).bind fun values s₂ =>
        .ite erases_fail (.skip rfl (ih _ (by omega) _))
    · rw [Checked.getQuantTblLoop, getQuantTblLoop, if_neg hpos, dif_neg hpos]
      rfl

theorem erases_getQuantTbl :
    Erases (fun _ d => d) (Checked.getQuantTbl s) (getQuantTbl s.decoder) := by
  refine (erases_lift Decoder.getShortWord).bind fun length s₁ => .ite erases_fail ?_
  refine (erases_getQuantTblLoop _ _).bind fun twoChroma s₂ => .skip rfl (.skip rfl ?_)
  exact .ite erases_fail rfl

theorem erases_handle (h : Handler) :
    Erases (fun _ d => d) (Checked.handle h s) (h.run s.decoder) := by
  cases h with
  | sof isProgressive => exact erases_getSOF isProgressive
  | sos => exact erases_getSOS
  | skip | dri | app0 => exact erases_liftUnit _
  | dht => exact erases_getHuffTbl
  | dqt => exact erases_getQuantTbl

theorem erases_processTables (s : Parser) :
    Erases Prod.mk (Checked.processTables s) (processTables s.decoder) := by
  induction hn : s.decoder.rest.length using Nat.strong_induction_on generalizing s with
  | _ n ih =>
    rw [Checked.processTables, processTables]
    cases s.decoder.getNextMarker with
    | none => rfl
    | some m =>
      obtain ⟨c, d⟩ := m
      simp only
      cases actionOf c with
      | stop => rfl
      | error => rfl
      | handle h =>
        simp only
        have hhandle := erases_handle (s := { s with decoder := d }) h
        cases hrun : Checked.handle h { s with decoder := d } with
        | mk l x =>
          rw [hrun] at hhandle
          simp only at hhandle
          rw [← hhandle]
          cases x with
          | none => rfl
          | some x =>
            simp only [Option.map_some]
            split
            · next hlt => exact ih _ (by omega) _ rfl
            · rfl

/-- **The parser with the notes is the parser.** -/
theorem checked_parseHead (s : Parser) :
    Erases (fun _ d => d) (Checked.parseHead s) (parseHead s.decoder) := by
  refine (erases_liftUnit findSOI).bind fun _ s₁ => ?_
  exact (erases_processTables s₁).bind fun c s₂ => .ite erases_getSOS erases_fail

end Erases

end SprdHal.Jpeg
