import Mathlib.Algebra.Ring.Int.Defs
import Mathlib.Algebra.Ring.Nat
import SprdHal.Engmode.Codec

/-!
# `eng_diag_parse`

`eng_diag_parse` decides which command a diag frame is. It works on the buffer of its caller: it
decodes the frame in place, and for an AT command `is_audio_at_cmd_need_to_handle` cuts the text
into tokens with `strsep`, which overwrites separators.

The two ways in which it writes give two reasons for which it may leave the buffer alone: nothing is
escaped, and there is no separator (`engDiagParse_buf`).
-/

namespace SprdHal.Engmode

open SprdHal.Lib

/-! ## Tokens of an AT command (`eng_attok.c`)

A pointer into the text is an index, `none` is `NULL`. A text ends at a NUL or where the buffer
ends. -/

/-- The offset of the first `c` in a C string. -/
def findByte (c : UInt8) : List UInt8 → Option Nat
  | [] => none
  | b :: text => if b = c then some 0 else if b = 0 then none else (findByte c text).map (· + 1)

def isSpace (b : UInt8) : Bool := b == 0x20 || (0x09 ≤ b && b ≤ 0x0d)
def isDigit (b : UInt8) : Bool := 0x30 ≤ b && b ≤ 0x39
def isUpper (b : UInt8) : Bool := 0x41 ≤ b && b ≤ 0x5a

/-- `strsep` with one delimiter: the text and `*p_cur`. -/
def strsep (c : UInt8) (text : List UInt8) (cur : Nat) : List UInt8 × Option Nat :=
  match findByte c (text.drop cur) with
  | some k => (text.set (cur + k) 0, some (cur + k + 1))
  | none => (text, none)

/-- `skipNextComma` -/
def skipNextComma (text : List UInt8) (cur : Option Nat) : Option Nat :=
  cur.map fun p =>
    let k := ((text.drop p).takeWhile fun b => b ≠ 0 ∧ b ≠ 0x2c).length
    if text.getD (p + k) 0 = 0x2c then p + k + 1 else p + k

/-- `nextTok`: the token, the text and `*p_cur`. -/
def nextTok (text : List UInt8) (cur : Nat) : Nat × List UInt8 × Option Nat :=
  let p := cur + ((text.drop cur).takeWhile isSpace).length
  if text.getD p 0 = 0x22 then
    let r := strsep 0x22 text (p + 1)
    (p + 1, r.1, skipNextComma r.1 r.2)
  else
    let r := strsep 0x2c text p
    (p, r.1, r.2)

/-- The digits of a decimal number. -/
def decimal (digits : List UInt8) : Int :=
  digits.foldl (fun n d => 10 * n + (d.toNat - 0x30 : Nat)) 0

/-- `(int)strtol(s, &end, 10)`, where `long` has 32 bits. -/
def strtol (s : List UInt8) : Int :=
  let s := s.dropWhile isSpace
  match s with
  | 0x2d :: s => max (-(2 ^ 31)) (-decimal (s.takeWhile isDigit))
  | 0x2b :: s => min (2 ^ 31 - 1) (decimal (s.takeWhile isDigit))
  | s => min (2 ^ 31 - 1) (decimal (s.takeWhile isDigit))

/-- The text, `*p_cur` and the integer that a token was put into. -/
structure TokState where
  text : List UInt8
  cur : Option Nat
  out : Int

/-- `at_tok_nextint`. With no text left `*p_out` keeps its value. -/
def atTokNextint (text : List UInt8) (cur : Option Nat) (out : Int) : TokState :=
  match cur with
  | none => ⟨text, none, out⟩
  | some p =>
    let r := nextTok text p
    ⟨r.2.1, r.2.2, strtol (r.2.1.drop r.1)⟩

/-- `at_tok_equel_start` -/
def atTokEquelStart (text : List UInt8) : Option Nat := (findByte 0x3d text).map (· + 1)

/-! ## Audio commands -/

/-- The variables that other code sets, and the results of the functions that only read the
frame. -/
structure DiagEnv where
  gIsData : Bool
  cmdType : Int
  eqOrTunType : Int
  gIndex : Int
  audioModeNum : Int
  isApAtCmd : List UInt8 → Bool
  isBtwifiAddr : List UInt8 → Bool
  /-- whether `eng_diag` returns 1 -/
  engDiag : List UInt8 → Bool

/-- `at_sadm`, `at_spenha`, `at_calibr` and `at_phoneinfo` -/
def atSadm : List UInt8 := [0x41, 0x54, 0x2b, 0x53, 0x41, 0x44, 0x4d, 0x34, 0x41, 0x50]
def atSpenha : List UInt8 := [0x41, 0x54, 0x2b, 0x53, 0x50, 0x45, 0x4e, 0x48, 0x41]
def atCalibr : List UInt8 := [0x41, 0x54, 0x2b, 0x43, 0x41, 0x4c, 0x49, 0x42, 0x52]
def atPhoneinfo : List UInt8 := [0x41, 0x54, 0x2b, 0x50, 0x45, 0x49, 0x4e, 0x46, 0x4f]

/-- `at_sadm_cmd_to_handle` and `at_spenha_cmd_to_handle`, without the -1 that ends them. -/
def atSadmCmdToHandle : List Int := [7, 8, 9, 10, 11, 12]
def atSpenhaCmdToHandle : List Int := [0, 1, 2, 3, 4]

/-- `GET_ARM_VOLUME_MODE_COUNT`, `GET_AUDIO_ENHA_MODE_COUNT` -/
def getArmVolumeModeCount : Int := 7
def getAudioEnhaModeCount : Int := 0

/-- `is_audio_at_cmd_need_to_handle` on the text behind the header: its result and the text. -/
def isAudioAtCmdNeedToHandle (env : DiagEnv) (text : List UInt8) : Bool × List UInt8 :=
  let first := text.getD 0 0
  if env.gIsData ∧ ¬ [0x41, 0x54] <+: text ∧ (isDigit first ∨ isUpper first) then (true, text)
  else if atSadm <+: text then
    let r := atTokNextint text (atTokEquelStart text) env.cmdType
    if r.out ∉ atSadmCmdToHandle then (false, r.text)
    else if r.out = getArmVolumeModeCount then (true, r.text)
    else (strtol (r.cur.elim [] r.text.drop) < env.audioModeNum, r.text)
  else if atSpenha <+: text then
    let r := atTokNextint text (atTokEquelStart text) env.eqOrTunType
    let r := atTokNextint r.text r.cur env.cmdType
    if r.out ∉ atSpenhaCmdToHandle then (false, r.text)
    else if r.out = getAudioEnhaModeCount then (true, r.text)
    else
      let r := atTokNextint r.text r.cur env.gIndex
      (r.out ≤ env.audioModeNum ∧ 0 < r.out, r.text)
  else if atCalibr <+: text then
    (true, (atTokNextint text (atTokEquelStart text) env.cmdType).text)
  else (atPhoneinfo <+: text, text)

/-! ## The command of a frame -/

/-- `DIAG_CMD_TYPE` -/
inductive DiagCmdType
  | common | userVer | userBtwifi | userFactorymode | userAudio | userReset | userGetvoltage
  | userApcali | userApcmd | userAdc | userProductCtrl | userDirectPhschk | userMmicitRead
  | userDeepSleep | userFileOper | userShutDown | userAutotest | userAutotestPathConfirm
  deriving DecidableEq, Repr

/-- The `DIAG_CMD_` values that `eng_diag_parse` knows. -/
def diagCmdVer : UInt8 := 0x00
def diagCmdImeibtwifi : UInt8 := 0x5E
def diagCmdGetvoltage : UInt8 := 0x1E
def diagCmdApcali : UInt8 := 0x62
def diagCmdFactorymode : UInt8 := 0x0D
def diagCmdAdcF : UInt8 := 0x0F
def diagCmdAt : UInt8 := 0x68
def diagCmdChangemode : UInt8 := 12
def diagCmdDirectPhschk : UInt8 := 0x5F
def diagCmdAutotest : UInt8 := 0x38
def diagCmdCurrentTest : UInt8 := 0x11

/-- `sizeof(MSG_HEAD_T) + 1`, where the text of a command begins. -/
def diagText : Nat := 9

/-- `eng_diag_ap_req` -/
def engDiagApReq (buf : List UInt8) : DiagCmdType :=
  if buf.getD diagText 0 = 0x03 ∧ buf.getD (diagText + 1) 0 = 0 then .userFileOper else .userApcali

/-- The `switch` of `eng_diag_parse` for all commands but AT commands. -/
def diagCmdType (env : DiagEnv) (buf : List UInt8) : DiagCmdType :=
  let type := buf.getD 7 0
  let subtype := buf.getD 8 0
  if type = diagCmdChangemode then if subtype = 8 then .userReset else .common
  else if type = diagCmdFactorymode then
    if subtype = 0x07 then .userFactorymode
    else if 0x2 ≤ subtype ∧ subtype ≤ 0x4 then .userProductCtrl
    else if subtype = 0x1A then .userMmicitRead
    else .common
  else if type = diagCmdDirectPhschk then .userDirectPhschk
  else if type = diagCmdAdcF then .userAdc
  else if type = diagCmdGetvoltage then .userGetvoltage
  else if type = diagCmdApcali then engDiagApReq buf
  else if type = diagCmdAutotest then
    if subtype = 0x1c then .userAutotestPathConfirm else .userAutotest
  else if type = diagCmdVer then if subtype = 0x2 then .userVer else .common
  else if type = diagCmdImeibtwifi then if env.isBtwifiAddr buf then .userBtwifi else .common
  else if type = diagCmdCurrentTest then
    if subtype = 0x2 then .userDeepSleep else if subtype = 0xe then .userShutDown else .common
  else .common

/-- `eng_diag_parse`: the command and the buffer. -/
def engDiagParse (env : DiagEnv) (buf : List UInt8) (len : Nat) : DiagCmdType × List UInt8 :=
  let buf := buf.take 1 ++ engDiagDecode7d7e (buf.drop 1) (len - 1)
  if buf.getD 7 0 = diagCmdAt then
    let r := isAudioAtCmdNeedToHandle env (buf.drop diagText)
    let buf := buf.take diagText ++ r.2
    (if r.1 then .userAudio else if env.isApAtCmd buf then .userApcmd else .common, buf)
  else (diagCmdType env buf, buf)

/-! ## What the parser writes -/

/-- The texts `is_audio_at_cmd_need_to_handle` cuts into tokens. -/
def AudioText (text : List UInt8) : Prop :=
  atSadm <+: text ∨ atSpenha <+: text ∨ atCalibr <+: text

/-- There is nothing for `strsep` to overwrite. -/
structure NoSeparator (text : List UInt8) : Prop where
  comma : (0x2c : UInt8) ∉ text
  quote : (0x22 : UInt8) ∉ text

instance : DecidablePred AudioText := fun _ => instDecidableOr

instance : DecidablePred NoSeparator := fun text =>
  decidable_of_iff ((0x2c : UInt8) ∉ text ∧ (0x22 : UInt8) ∉ text)
    ⟨fun h => ⟨h.1, h.2⟩, fun h => ⟨h.comma, h.quote⟩⟩

theorem findByte_eq_none {c : UInt8} {text : List UInt8} (h : c ∉ text) :
    findByte c text = none := by
  induction text with
  | nil => rfl
  | cons b text ih =>
    rw [List.mem_cons, not_or] at h
    rw [findByte, if_neg (Ne.symm h.1), ih h.2]
    split <;> rfl

theorem strsep_text {c : UInt8} {text : List UInt8} (h : c ∉ text) (cur : Nat) :
    (strsep c text cur).1 = text := by
  rw [strsep, findByte_eq_none fun hc => h (List.mem_of_mem_drop hc)]

theorem length_strsep (c : UInt8) (text : List UInt8) (cur : Nat) :
    (strsep c text cur).1.length = text.length := by
  unfold strsep
  split <;> simp

/-- A text after some calls of `at_tok_nextint`. -/
inductive Tokenised (text : List UInt8) : List UInt8 → Prop
  | refl : Tokenised text text
  | next {t : List UInt8} (cur : Option Nat) (out : Int) :
      Tokenised text t → Tokenised text (atTokNextint t cur out).text

section Tokens

variable {text t : List UInt8}

theorem Tokenised.length_eq (h : Tokenised text t) : t.length = text.length := by
  induction h with
  | refl => rfl
  | next cur out _ ih =>
    cases cur with
    | none => exact ih
    | some p =>
      simp only [atTokNextint, nextTok]
      split <;> rw [length_strsep, ih]

theorem Tokenised.eq (hsep : NoSeparator text) (h : Tokenised text t) : t = text := by
  induction h with
  | refl => rfl
  | next cur out _ ih =>
    subst ih
    cases cur with
    | none => rfl
    | some p =>
      simp only [atTokNextint, nextTok]
      split
      · exact strsep_text hsep.quote _
      · exact strsep_text hsep.comma _

theorem isAudio_tokenised (env : DiagEnv) (text : List UInt8) :
    (isAudioAtCmdNeedToHandle env text).2 = text ∨
      AudioText text ∧ Tokenised text (isAudioAtCmdNeedToHandle env text).2 := by
  have htok := fun cur out => Tokenised.next cur out (@Tokenised.refl text)
  unfold isAudioAtCmdNeedToHandle
  by_cases hdata : env.gIsData ∧ ¬ [0x41, 0x54] <+: text ∧
      (isDigit (text.getD 0 0) ∨ isUpper (text.getD 0 0))
  · simp only [if_pos hdata, true_or]
  · simp only [if_neg hdata]
    by_cases hsadm : atSadm <+: text
    · refine Or.inr ⟨Or.inl hsadm, ?_⟩
      simp only [if_pos hsadm]
      split
      · exact htok _ _
      · split <;> exact htok _ _
    · simp only [if_neg hsadm]
      by_cases hspenha : atSpenha <+: text
      · refine Or.inr ⟨Or.inr (Or.inl hspenha), ?_⟩
        simp only [if_pos hspenha]
        split
        · exact (htok _ _).next _ _
        · split
          · exact (htok _ _).next _ _
          · exact ((htok _ _).next _ _).next _ _
      · simp only [if_neg hspenha]
        by_cases hcalibr : atCalibr <+: text
        · simp only [if_pos hcalibr]
          exact Or.inr ⟨Or.inr (Or.inr hcalibr), htok _ _⟩
        · simp only [if_neg hcalibr, true_or]

end Tokens

/-- A buffer in which nothing is escaped is decoded to itself. -/
theorem decode7d7eLoop_of_plain {buf : List UInt8} {len i : Nat}
    (h : ∀ k, i ≤ k → k < len → isSpecial (buf.getD k 0) = false) :
    decode7d7eLoop buf len i = buf := by
  fun_induction decode7d7eLoop buf len i with
  | case1 buf len i hlt hs =>
    rw [h i (Nat.le_refl i) hlt] at hs
    cases hs
  | case2 buf len i hlt hs ih => exact ih fun k hk => h k (by omega)
  | case3 => rfl

theorem length_decode7d7eLoop (buf : List UInt8) (len i : Nat) :
    (decode7d7eLoop buf len i).length = buf.length := by
  fun_induction decode7d7eLoop buf len i with
  | case1 buf len i hlt hs tmp buf₁ buf₂ ih =>
    rw [ih]
    simp only [buf₂, buf₁, memcpyDown, length_patch, List.length_set]
  | case2 buf len i hlt hs ih => exact ih
  | case3 => rfl

section Parse

variable (env : DiagEnv) (buf : List UInt8) (len : Nat)

/-- The text of an AT command may be cut into tokens, and nothing else is written. -/
theorem engDiagParse_cases :
    let dec := buf.take 1 ++ engDiagDecode7d7e (buf.drop 1) (len - 1)
    (engDiagParse env buf len).2 = dec ∨
      ∃ t, dec.getD 7 0 = diagCmdAt ∧ AudioText (dec.drop diagText) ∧
        Tokenised (dec.drop diagText) t ∧
        (engDiagParse env buf len).2 = dec.take diagText ++ t := by
  intro dec
  by_cases hat : dec.getD 7 0 = diagCmdAt
  · have hbuf : (engDiagParse env buf len).2 =
        dec.take diagText ++ (isAudioAtCmdNeedToHandle env (dec.drop diagText)).2 := by
      rw [engDiagParse]
      exact congrArg Prod.snd (if_pos hat)
    rcases isAudio_tokenised env (dec.drop diagText) with htext | ⟨haudio, htok⟩
    · rw [htext, List.take_append_drop] at hbuf
      exact Or.inl hbuf
    · exact Or.inr ⟨_, hat, haudio, htok, hbuf⟩
  · rw [engDiagParse]
    exact Or.inl (congrArg Prod.snd (if_neg hat))

theorem length_engDiagParse : (engDiagParse env buf len).2.length = buf.length := by
  have hdec : (buf.take 1 ++ engDiagDecode7d7e (buf.drop 1) (len - 1)).length = buf.length := by
    rw [List.length_append, engDiagDecode7d7e, length_decode7d7eLoop, ← List.length_append,
      List.take_append_drop]
  rcases engDiagParse_cases env buf len with h | ⟨t, -, -, htok, h⟩
  · rw [h, hdec]
  · rw [h, List.length_append, htok.length_eq, ← List.length_append, List.take_append_drop, hdec]

section Plain

variable {buf len} (hplain : ∀ b ∈ (buf.take len).tail, isSpecial b = false)

include hplain

/-- A frame in which nothing is escaped is decoded to itself. -/
theorem decode_of_plain : buf.take 1 ++ engDiagDecode7d7e (buf.drop 1) (len - 1) = buf := by
  rw [engDiagDecode7d7e, decode7d7eLoop_of_plain, List.take_append_drop]
  intro k _ hk
  rw [List.getD_eq_getElem?_getD]
  cases hget : (buf.drop 1)[k]? with
  | none => rfl
  | some b =>
    refine hplain b (List.mem_of_getElem? (i := k) ?_)
    rw [List.getElem?_drop, Nat.add_comm] at hget
    rw [← List.drop_one, List.getElem?_drop, Nat.add_comm, List.getElem?_take_of_lt (by omega),
      hget]

/-- **The parser leaves the buffer alone** if nothing is escaped and, where the text of an audio
command is cut into tokens, it has no separator. -/
theorem engDiagParse_buf (hsep : buf.getD 7 0 = diagCmdAt → AudioText (buf.drop diagText) →
    NoSeparator (buf.drop diagText)) : (engDiagParse env buf len).2 = buf := by
  have hcases := engDiagParse_cases env buf len
  simp only [decode_of_plain hplain] at hcases
  rcases hcases with h | ⟨t, hat, haudio, htok, h⟩
  · exact h
  · rw [h, htok.eq (hsep hat haudio), List.take_append_drop]

theorem engDiagParse_type (hat : buf.getD 7 0 ≠ diagCmdAt) :
    engDiagParse env buf len = (diagCmdType env buf, buf) := by
  simp only [engDiagParse, decode_of_plain hplain]
  exact if_neg hat

end Plain

end Parse

end SprdHal.Engmode
