import SprdHal.Isp.Tune

/-!
# What a downloaded packet does (`isp_param_tune_com.c`)

`ispParser(ISP_PARSER_DOWN)` looks at the verify id and the end id of a packet and then hands the
packet to the handler of its type. The handlers return in the variable that held the result of the
check, so a corrupt packet is treated like any other; it has no effect only where the handler
declines it for a reason of its own (`noEffect_iff`).
-/

namespace SprdHal.Isp

open SprdHal.Lib

/-- `ISP_TOOL_CMD_ID` -/
def toolCmdId : UInt32 := 0x80000000

/-- `ISP_TOOL_SYNC_ID` -/
def toolSyncId : UInt32 := 0x40000000

/-- `ISP_CTRL_AF` -/
def ctrlAf : UInt32 := 12

/-- `ISP_CTRL_PARAM_UPDATE` -/
def ctrlParamUpdate : UInt32 := 21

/-- `ISP_CTRL_FLASH_CTRL` -/
def ctrlFlashCtrl : UInt32 := 38

/-- `ISP_CTRL_AE_CTRL` -/
def ctrlAeCtrl : UInt32 := 39

/-- What `isp_ioctl` is given as `param_ptr`. -/
inductive IoctlArg where
  | null
  /-- a copy of `mode`, the windows and their number -/
  | afWin (mode : UInt32) (win : List (UInt32 × UInt32 × UInt32 × UInt32)) (validWin : UInt32)
  /-- a place in the packet -/
  | packet (p : Nat)
  | level (level : UInt32)

/-- What lies beyond: the controls of the ISP, the flash and the registers of the sensor, in a state
of type `σ`. -/
structure Devices (σ : Type) where
  /-- `isp_ioctl`; it may read the packet -/
  ispIoctl : UInt32 → IoctlArg → Mem → σ → Int × σ
  /-- `camera_set_flashdevice` -/
  cameraSetFlashdevice : UInt32 → σ → σ
  /-- `Sensor_WriteReg` -/
  sensorWriteReg : UInt16 → UInt16 → σ → σ

/-- `struct isp_parser_cmd_param`, with the 48 words of `param` as bytes. -/
structure CmdParam where
  cmd : UInt32
  param : List UInt8

/-- `s_isp_size_info` without its end -/
def ispSizeInfo : List (UInt32 × UInt32 × UInt32) :=
  [(0x1, 480, 270), (0x2, 640, 480), (0x4, 480, 360), (0x8, 800, 600), (0x10, 1280, 960),
    (0x20, 1296, 972), (0x40, 1280, 1024), (0x80, 1600, 1200), (0x100, 1632, 1224),
    (0x200, 1920, 1080), (0x400, 2048, 1536), (0x800, 2112, 1568), (0x1000, 2592, 1944),
    (0x2000, 3264, 2448), (0x4000, 4208, 3120)]

section Handlers

variable {σ : Type} (d : Devices σ) (m : Mem)

/-- `ispFlashCtrl` -/
def ispFlashCtrl (mode : UInt32) (st : σ) : σ :=
  d.cameraSetFlashdevice (if mode = 1 then 0x1 else if mode = 2 then 0x11 else 0x0) st

/-- `_ispParserWriteSensorReg` -/
def ispParserWriteSensorReg (p : Nat) (st : σ) : σ :=
  (List.range (word m p 2).toNat).foldl (fun st i =>
    d.sensorWriteReg (word m p (3 + i * 2)).toUInt16 (word m p (4 + i * 2)).toUInt16 st) st

/-- The size for `ISP_CAPTURE`, in `param[1]` and `param[2]`. -/
def captureSize (id : UInt32) (param : List UInt8) : List UInt8 :=
  if id &&& 0xffff0000 ≠ 0 then
    putWord (putWord param 1 ((id >>> 16) &&& 0xffff)) 2 (id &&& 0xffff)
  else
    match ispSizeInfo.find? (·.1 = id) with
    | some (_, w, h) => putWord (putWord param 1 w) 2 h
    | none => param

/-- `_ispParserDownCmd`; `none` if it stores through a null pointer or beyond `param`. -/
def ispParserDownCmd (p : Nat) (rtnPtr : Option CmdParam) (st : σ) : Option (CmdParam × σ) :=
  match rtnPtr with
  | none => none
  | some rtn =>
    let param := p + 0x0c
    let cmd := word m param 0
    -- `ISP_CAPTURE`
    if cmd = 2 then
      some (⟨cmd, captureSize (word m param 3) (putWord rtn.param 0 (word m param 2))⟩, st)
    -- `ISP_READ_SENSOR_REG`
    else if cmd = 7 then
      some (⟨cmd, putWord (putWord rtn.param 0 (word m param 2)) 1 (word m param 3)⟩, st)
    -- `ISP_WRITE_SENSOR_REG`
    else if cmd = 8 then some (⟨cmd, rtn.param⟩, ispParserWriteSensorReg d m param st)
    -- `ISP_INFO`
    else if cmd = 11 then
      let len := word m param 3 + 0x04
      if 188 < len then none
      else some (⟨cmd, patch (putWord rtn.param 0 (word m param 2)) 4
        (m.bytes (param + 12) len.toNat)⟩, st)
    else some (⟨cmd, rtn.param⟩, st)

/-- `param_ptr` for `isp_ioctl` in `_ispParserDownLevel`; the packet data begin at `param`. -/
def levelArg (param : Nat) : IoctlArg :=
  let cmd := word m param 0
  if cmd = ctrlAf then
    let validWin := word m param 39
    .afWin (word m param 2) ((List.range validWin.toNat).map fun i =>
      (word m param (3 + 4 * i), word m param (4 + 4 * i), word m param (5 + 4 * i),
        word m param (6 + 4 * i))) validWin
  else if cmd = ctrlFlashCtrl then .null
  else if cmd = ctrlAeCtrl then .packet (param + 8)
  else .level (word m param 2)

/-- `cmd` for `isp_ioctl` in `_ispParserDownLevel`. -/
def levelCmd (param : Nat) : UInt32 :=
  let cmd := word m param 0
  (if cmd = ctrlAf then cmd ||| toolSyncId else cmd) ||| toolCmdId

/-- What `_ispParserDownLevel` does before `isp_ioctl`. -/
def levelFlash (param : Nat) (st : σ) : σ :=
  if word m param 0 = ctrlFlashCtrl then ispFlashCtrl d (word m param 2) st else st

/-- `_ispParserDownLevel`; `none` if more windows are stored than `af_param` has. -/
def ispParserDownLevel (p : Nat) (st : σ) : Option (Int × σ) :=
  let param := p + 0x0c
  if word m param 0 = ctrlAf ∧ 9 < word m param 39 then none
  else some (d.ispIoctl (levelCmd m param) (levelArg m param) m (levelFlash d m param st))

end Handlers

/-- What `ispParser(ISP_PARSER_DOWN)` returns and leaves behind. -/
structure Downloaded (σ : Type) where
  rtn : Int
  mem : Mem
  cmdParam : Option CmdParam
  devices : σ

section Download

variable {σ : Type} (d : Devices σ) (s : Sensor) (m : Mem) (p : Nat)

/-- The setters of all parameters have the ISP take them over once they are copied. -/
def paramUpdate (copied : Down) (st : σ) : σ :=
  if word m (p + 0x0c) 1 = packetAll ∧ copied.writes ≠ [] then
    (d.ispIoctl (ctrlParamUpdate ||| toolCmdId) .null copied.mem st).2
  else st

/-- `_ispParserDownHnadle`: the handlers' results replace that of `_ispParamVerify`. -/
def ispParserDown (rtnPtr : Option CmdParam) (st : σ) : Option (Downloaded σ) :=
  match ispParserDownHnadle s m p with
  | .cmd => (ispParserDownCmd d m p rtnPtr st).map fun (rtn, st) => ⟨0, m, some rtn, st⟩
  | .param copied => some ⟨copied.rtn, copied.mem, rtnPtr, paramUpdate d m p copied st⟩
  | .level => (ispParserDownLevel d m p st).map fun (rtn, st) => ⟨rtn, m, rtnPtr, st⟩
  | .unknown => some ⟨ispParamVerify m p, m, rtnPtr, st⟩

/-- The packet is refused: an error is returned, and memory and devices are as they were. -/
def NoEffect (rtnPtr : Option CmdParam) (st : σ) : Prop :=
  ∃ r, ispParserDown d s m p rtnPtr st = some r ∧ r.rtn ≠ 0 ∧ r.mem = m ∧ r.devices = st

/-- A setter finds no table for the parameters at `param`, or none of their length. -/
def SetterDeclines (param : Nat) : Prop :=
  let versionId := word m param 0
  let moduleId := word m param 1
  let dataLen := word m param 2 - 0x10
  let moduleInfo := word m param 3
  let lnc := s.lncMap ((moduleInfo >>> 4) &&& 0x0f) (moduleInfo &&& 0x0f)
  (versionId = version0000 ∨ versionId = version0001) ∧
    (moduleId = packetAll ∧ (s.tunePtr = 0 ∨ dataLen = 0) ∨
      moduleId = 0x001a ∧ (lnc.1 = 0 ∨ dataLen = 0 ∨ lnc.2 ≠ dataLen) ∨
      moduleId = 0x001b ∧ versionId = version0000 ∧
        (s.awbMap.1 = 0 ∨ s.awbMap.2 < dataLen))

/-- `isp_ioctl` refuses the command at `param`, which is not one that makes too many windows. -/
def LevelDeclined (param : Nat) (st : σ) : Prop :=
  (word m param 0 = ctrlAf → word m param 39 ≤ 9) ∧
    ∃ r, r ≠ 0 ∧
      d.ispIoctl (levelCmd m param) (levelArg m param) m (levelFlash d m param st) = (r, st)

/-- The packet is of no type that is handled, or its handler has a reason of its own to decline it. -/
def Declined (st : σ) : Prop :=
  let type := word m p 1
  (type ≠ 0x0000 ∧ type ≠ typeParam ∧ type ≠ 0x0002) ∨
    (type = typeParam ∧ SetterDeclines s m (p + 0x0c)) ∨
    (type = 0x0002 ∧ LevelDeclined d m (p + 0x0c) st)

/-! ## The parameters -/

/-- A setter that declines leaves everything as it is, and its error is all there is. -/
structure SetterSpec (declines : Prop) (r : Down) : Prop where
  rtn : r.rtn ≠ 0 ↔ declines
  unchanged : r.rtn ≠ 0 → r.mem = m ∧ r.writes = []

variable {m}

/-- A setter that copies if `c` holds. -/
theorem setterSpec_ite {c declines : Prop} [Decidable c] (h : ¬c ↔ declines) (dst : Nat)
    (dataLen : UInt32) :
    SetterSpec m declines (if c then setParam m p dst dataLen else ⟨1, m, []⟩) := by
  split
  · next hc =>
    exact ⟨⟨fun hne => absurd rfl hne, fun hd => absurd hc (h.mpr hd)⟩, fun hne => absurd rfl hne⟩
  · next hc => exact ⟨⟨fun _ => h.mp hc, fun _ => Nat.one_ne_zero⟩, fun _ => ⟨rfl, rfl⟩⟩

variable (m)

theorem ispSetAllParam_spec :
    SetterSpec m (s.tunePtr = 0 ∨ word m p 2 - 0x10 = 0) (ispSetAllParam s m p) :=
  setterSpec_ite p (by tauto) _ _

theorem ispSetLncParam_spec :
    SetterSpec m
      ((s.lncMap ((word m p 3 >>> 4) &&& 0x0f) (word m p 3 &&& 0x0f)).1 = 0 ∨
        word m p 2 - 0x10 = 0 ∨
        (s.lncMap ((word m p 3 >>> 4) &&& 0x0f) (word m p 3 &&& 0x0f)).2 ≠ word m p 2 - 0x10)
      (ispSetLncParam s m p) :=
  setterSpec_ite p (by tauto) _ _

theorem ispSetAwbParamV0000_spec :
    SetterSpec m (s.awbMap.1 = 0 ∨ s.awbMap.2 < word m p 2 - 0x10)
      (ispSetAwbParamV0000 s m p) := by
  refine setterSpec_ite p ?_ _ _
  rw [not_and_or, not_not, UInt32.not_le]

theorem SetterSpec.congr {declines declines' : Prop} {r : Down} (h : SetterSpec m declines r)
    (hiff : declines ↔ declines') : SetterSpec m declines' r :=
  ⟨h.rtn.trans hiff, h.unchanged⟩

/-- No setter declines what no setter is given. -/
theorem setterSpec_none {declines : Prop} (h : ¬declines) : SetterSpec m declines ⟨0, m, []⟩ :=
  ⟨⟨fun hne => absurd rfl hne, fun hd => absurd hd h⟩, fun hne => absurd rfl hne⟩

theorem ispParserDownParam_spec :
    SetterSpec m (SetterDeclines s m (p + 0x0c)) (ispParserDownParam s m p) := by
  have hall : packetAll ≠ 0x001a ∧ packetAll ≠ 0x001b := by decide
  have hmap : (0x001a : UInt32) ≠ 0x001b := by decide
  have hv : version0001 ≠ version0000 := by decide
  have hset := ispSetAllParam_spec s m (p + 0x0c)
  have hlnc := ispSetLncParam_spec s m (p + 0x0c)
  have hawb := ispSetAwbParamV0000_spec s m (p + 0x0c)
  unfold ispParserDownParam ispGetDownParamFunV0000 ispGetDownParamFunV0001 SetterDeclines
  by_cases ha : word m (p + 0x0c) 1 = packetAll
  · by_cases h0 : word m (p + 0x0c) 0 = version0000
    · simpa [h0, ha, hall] using hset
    · by_cases h1 : word m (p + 0x0c) 0 = version0001
      · simpa [h1, ha, hall, hv] using hset
      · simpa [h0, h1] using setterSpec_none m id
  · by_cases hl : word m (p + 0x0c) 1 = 0x001a
    · by_cases h0 : word m (p + 0x0c) 0 = version0000
      · simpa [h0, hl, hall.1.symm, hmap] using hlnc
      · by_cases h1 : word m (p + 0x0c) 0 = version0001
        · simpa [h1, hl, hall.1.symm, hmap, hv] using hlnc
        · simpa [h0, h1] using setterSpec_none m id
    · by_cases h0 : word m (p + 0x0c) 0 = version0000
      · by_cases hw : word m (p + 0x0c) 1 = 0x001b
        · simpa [h0, hw, hall.2.symm, hmap.symm] using hawb
        · simpa [h0, ha, hl, hw] using setterSpec_none m id
      · simpa [h0, ha, hl] using setterSpec_none m id

/-! ## The packet -/

variable {m p} (rtnPtr : Option CmdParam) (st : σ)

theorem ispParserDown_param (h : word m p 1 = typeParam) :
    ispParserDown d s m p rtnPtr st =
      some ⟨(ispParserDownParam s m p).rtn, (ispParserDownParam s m p).mem, rtnPtr,
        paramUpdate d m p (ispParserDownParam s m p) st⟩ := by
  have hne : typeParam ≠ 0x0000 := by decide
  unfold ispParserDown ispParserDownHnadle
  simp only [h, if_neg hne, if_pos]

/-- A packet of parameters is refused where its setter declines it. -/
theorem noEffect_param (h : word m p 1 = typeParam) :
    NoEffect d s m p rtnPtr st ↔ SetterDeclines s m (p + 0x0c) := by
  have hspec := ispParserDownParam_spec s m p
  have hdown := ispParserDown_param d s rtnPtr st h
  rw [← hspec.rtn]
  constructor
  · rintro ⟨r, hr, hne, -, -⟩
    rw [hdown] at hr
    cases hr
    exact Int.natCast_ne_zero.mp hne
  · intro hne
    obtain ⟨hmem, hwrites⟩ := hspec.unchanged hne
    refine ⟨_, hdown, Int.natCast_ne_zero.mpr hne, hmem, ?_⟩
    unfold paramUpdate
    exact if_neg fun hc => hc.2 hwrites

theorem noEffect_level (h : word m p 1 = 0x0002) :
    NoEffect d s m p rtnPtr st ↔ LevelDeclined d m (p + 0x0c) st := by
  have hdown : ispParserDown d s m p rtnPtr st =
      (ispParserDownLevel d m p st).map fun (rtn, st) => ⟨rtn, m, rtnPtr, st⟩ := by
    have hne : (0x0002 : UInt32) ≠ 0x0000 := by decide
    have hne' : (0x0002 : UInt32) ≠ typeParam := by decide
    unfold ispParserDown ispParserDownHnadle
    simp only [h, if_neg hne, if_neg hne', if_pos]
  unfold NoEffect LevelDeclined
  rw [hdown, ispParserDownLevel]
  by_cases hwin : word m (p + 0x0c) 0 = ctrlAf ∧ 9 < word m (p + 0x0c) 39
  · rw [if_pos hwin]
    constructor
    · rintro ⟨r, hr, -⟩
      cases hr
    · rintro ⟨hle, -⟩
      exact absurd hwin.2 (UInt32.not_lt.mpr (hle hwin.1))
  · rw [if_neg hwin]
    constructor
    · rintro ⟨r, hr, hne, -, hst⟩
      cases hr
      exact ⟨fun haf => UInt32.not_lt.mp fun hlt => hwin ⟨haf, hlt⟩, _, hne, Prod.ext rfl hst⟩
    · rintro ⟨-, r, hne, hcall⟩
      rw [hcall]
      exact ⟨_, rfl, hne, rfl, rfl⟩

theorem not_noEffect_cmd (h : word m p 1 = 0x0000) : ¬NoEffect d s m p rtnPtr st := by
  have hdown : ispParserDown d s m p rtnPtr st =
      (ispParserDownCmd d m p rtnPtr st).map fun (rtn, st) => ⟨0, m, some rtn, st⟩ := by
    unfold ispParserDown ispParserDownHnadle
    simp only [h, if_pos]
  rintro ⟨r, hr, hne, -, -⟩
  rw [hdown, Option.map_eq_some_iff] at hr
  obtain ⟨⟨rtn, st⟩, -, rfl⟩ := hr
  exact hne rfl

/-- **A corrupt packet has no effect** exactly if it is of no type that is handled, or the handler
declines it for a reason of its own. -/
theorem noEffect_iff (hcorrupt : ispParamVerify m p ≠ 0) :
    NoEffect d s m p rtnPtr st ↔ Declined d s m p st := by
  have htypes : typeParam ≠ 0x0000 ∧ typeParam ≠ 0x0002 ∧ (0x0002 : UInt32) ≠ 0x0000 := by decide
  unfold Declined
  by_cases hcmd : word m p 1 = 0x0000
  · refine iff_of_false (not_noEffect_cmd d s rtnPtr st hcmd) ?_
    rintro (⟨h, -⟩ | ⟨h, -⟩ | ⟨h, -⟩)
    · exact h hcmd
    · exact htypes.1 (h.symm.trans hcmd)
    · exact htypes.2.2 (h.symm.trans hcmd)
  · by_cases hparam : word m p 1 = typeParam
    · rw [noEffect_param d s rtnPtr st hparam]
      refine ⟨fun h => Or.inr (Or.inl ⟨hparam, h⟩), ?_⟩
      rintro (⟨-, h, -⟩ | ⟨-, h⟩ | ⟨h, -⟩)
      · exact absurd hparam h
      · exact h
      · exact absurd (hparam.symm.trans h) htypes.2.1
    · by_cases hlevel : word m p 1 = 0x0002
      · rw [noEffect_level d s rtnPtr st hlevel]
        refine ⟨fun h => Or.inr (Or.inr ⟨hlevel, h⟩), ?_⟩
        rintro (⟨-, -, h⟩ | ⟨h, -⟩ | ⟨-, h⟩)
        · exact absurd hlevel h
        · exact absurd h hparam
        · exact h
      · have hdown : ispParserDown d s m p rtnPtr st =
            some ⟨ispParamVerify m p, m, rtnPtr, st⟩ := by
          unfold ispParserDown ispParserDownHnadle
          simp only [if_neg hcmd, if_neg hparam, if_neg hlevel]
        refine iff_of_true ⟨_, hdown, Int.natCast_ne_zero.mpr hcorrupt, rfl, rfl⟩ ?_
        exact Or.inl ⟨hcmd, hparam, hlevel⟩

end Download

/-- Memory with a packet at address 1000. -/
def packetMem (words : List UInt32) : Mem := Mem.store (fun _ => 0) 1000 (words.flatMap leBytes)

/-- Devices whose state is the list of commands that `isp_ioctl` was given. -/
def loggingDevices : Devices (List UInt32) where
  ispIoctl cmd _ _ st := (0, st ++ [cmd])
  cameraSetFlashdevice _ st := st
  sensorWriteReg _ _ st := st

/-- A sensor with its tune structure at address 2000 and without tables. -/
def tunedSensor : Sensor := ⟨version0000, 2000, fun _ _ => (0, 0), (0, 0)⟩

/-- A packet with a wrong verify id for a lens table that there is not. -/
theorem noEffect_no_table :
    NoEffect loggingDevices tunedSensor (packetMem [0, 1, 32, 0, 0x1a, 0x14, 0, 0x01020304]) 1000
      none [] :=
  (noEffect_iff loggingDevices tunedSensor none [] (by decide)).mpr
    (Or.inr (Or.inl ⟨by decide, Or.inl (by decide),
      Or.inr (Or.inl ⟨by decide, Or.inl (by decide)⟩)⟩))

/-- The same for the tune structure: it is overwritten, the ISP takes it over, and no error is
returned. -/
theorem corrupt_packet_copied :
    ispParamVerify (packetMem [0, 1, 32, 0, 0, 0x14, 0, 0x01020304]) 1000 ≠ 0 ∧
    ¬NoEffect loggingDevices tunedSensor (packetMem [0, 1, 32, 0, 0, 0x14, 0, 0x01020304]) 1000
      none [] ∧
    ∃ r, ispParserDown loggingDevices tunedSensor
        (packetMem [0, 1, 32, 0, 0, 0x14, 0, 0x01020304]) 1000 none [] = some r ∧
      r.rtn = 0 ∧ r.mem 2000 = 4 ∧ r.devices = [ctrlParamUpdate ||| toolCmdId] := by
  have hdown := ispParserDown_param (m := packetMem [0, 1, 32, 0, 0, 0x14, 0, 0x01020304]) (p := 1000)
    loggingDevices tunedSensor none [] (by decide)
  refine ⟨by decide, ?_, _, hdown, by decide, by decide, by decide⟩
  rintro ⟨r, hr, hne, -⟩
  rw [hdown] at hr
  cases hr
  exact hne (by decide)

end SprdHal.Isp
