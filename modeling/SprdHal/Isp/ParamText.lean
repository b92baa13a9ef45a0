import Mathlib.Data.List.Basic
import Mathlib.Tactic.Common

/-!
# Scanning a parameter file (`isp_param_file_update.c`)

The file is C source that is searched with `strstr` and `strtol`. A pointer into the text is what
lies between it and the terminator behind the text. None of the loops looks for the terminator: a
comment, a table or a number that does not end in the text makes a scan go on behind it, and a table
of too many numbers makes it write behind its buffer. Such a scan is `none`.
-/

namespace SprdHal.Isp

/-- What lies between a pointer into the text and the terminator. -/
abbrev Text := List UInt8

/-- The bytes of a string literal. -/
def ascii (s : String) : Text := s.toList.map fun c => UInt8.ofNat c.toNat

def isDigit (c : UInt8) : Bool := 0x30 ≤ c && c ≤ 0x39

def isHexDigit (c : UInt8) : Bool :=
  isDigit c || (0x61 ≤ c && c ≤ 0x66) || (0x41 ≤ c && c ≤ 0x46)

def isX (c : UInt8) : Bool := c == 0x78 || c == 0x58

/-- A pointer that is moved on by `n`. -/
def advance (n : Nat) (p : Text) : Option Text := if p.length < n then none else some (p.drop n)

/-! ## Comments -/

/-- Where the loop that blanks the comments is. -/
inductive CommentMode
  | code | block | line
  deriving DecidableEq, Repr

/-- The text with its comments blanked. The outer loop ends at the first zero byte. -/
def blankComments : CommentMode → Text → Option Text
  | .code, [] => some []
  | .code, c :: d :: cs =>
    if c = 0 then some (c :: d :: cs)
    else if c = 0x2f ∧ d = 0x2a then (blankComments .block cs).map (0x20 :: 0x20 :: ·)
    else if c = 0x2f ∧ d = 0x2f then (blankComments .line cs).map (0x20 :: 0x20 :: ·)
    else (blankComments .code (d :: cs)).map (c :: ·)
  | .code, [c] => some [c]
  | .block, [] => none
  | .block, c :: d :: cs =>
    if c = 0x2a ∧ d = 0x2f then (blankComments .code cs).map (0x20 :: 0x20 :: ·)
    else (blankComments .block (d :: cs)).map (0x20 :: ·)
  | .block, [_] => none
  | .line, [] => none
  | .line, c :: cs =>
    if c = 0x0d ∨ c = 0x0a then (blankComments .code cs).map (c :: ·)
    else (blankComments .line cs).map (0x20 :: ·)

/-! ## Searching -/

/-- `strstr`: the text from the first occurrence on, before the first zero byte. -/
def strstr (pat : Text) : Text → Option Text
  | [] => none
  | c :: cs =>
    if pat.isPrefixOf (c :: cs) then some (c :: cs)
    else if c = 0 then none
    else strstr pat cs

/-- The end of the number that `strtol` reads at a digit: in base 16 if an `x` comes next, else in
base 10. -/
def strtolEnd (p : Text) : Text :=
  if (p.drop 1).head?.any isX then
    if p.head? = some 0x30 ∧ (p.drop 2).head?.any isHexDigit then (p.drop 2).dropWhile isHexDigit
    else p.dropWhile isHexDigit
  else p.dropWhile isDigit

/-- The loop over the numbers of a table, `while ((*search_ptr++) != '}')`: how many there are, and
where it ends. With `semicolon` it ends at a `;` also. A round takes at least one byte. -/
def scanNumbers (semicolon : Bool) : Nat → Text → Nat → Option (Nat × Text)
  | 0, _, _ => none
  | _ + 1, [], _ => none
  | fuel + 1, c :: cs, cnt =>
    if c = 0x7d then some (cnt, cs)
    else
      let cnt' := if cs.head?.any isDigit then cnt + 1 else cnt
      let p := if cs.head?.any isDigit then strtolEnd cs else cs
      if semicolon ∧ p.head? = some 0x3b then some (cnt', p)
      else scanNumbers semicolon fuel p cnt'

/-- The numbers of a table, in a temporary buffer for `size` of them. -/
def scanTable (semicolon : Bool) (size : Nat) (p : Text) : Option (Nat × Text) :=
  match scanNumbers semicolon (p.length + 1) p 0 with
  | some (cnt, p) => if size < cnt then none else some (cnt, p)
  | none => none

/-- The next number: `while ((*search_ptr < '0') || (*search_ptr > '9')) search_ptr++`, then
`strtol`. -/
def nextNumber (p : Text) : Option Text :=
  match p.dropWhile (!isDigit ·) with
  | [] => none
  | q => some (strtolEnd q)

/-- `n` numbers. -/
def nextNumbers : Nat → Text → Option Text
  | 0, p => some p
  | n + 1, p => (nextNumber p).bind (nextNumbers n)

/-- The `grid` fields. The pointer is moved on by 4 after each of them, and used again but after the
last one. `strstr` may return null. -/
def scanGrids : Nat → Text → Option Text
  | 0, p => some p
  | n + 1, p =>
    match strstr (ascii "0x") p with
    | none => none
    | some q => if n = 0 then some (strtolEnd q) else (advance 4 (strtolEnd q)).bind (scanGrids n)

/-- The `len` field of the AWB map. -/
def scanAwbLen : Text → Option Text
  | [] => none
  | c :: cs => if c = 0x7d then some cs else nextNumber cs

/-! ## The names of the tables -/

/-- `char temp_string[3]` -/
def digits (a b : Nat) : Text := [UInt8.ofNat (0x30 + a), UInt8.ofNat (0x30 + b)]

section Names

variable (name : Text)

def lncLookupStr (i : Fin 8) (j : Fin 9) : Text :=
  ascii "s_" ++ name ++ ascii "_lnc_" ++ digits i j

def aesLookupStr (i : Fin 4) : Text :=
  ascii "s_" ++ name ++ ascii "_aes_" ++ digits (i % 2) (i / 2)

def aegLookupStr (i : Fin 4) : Text :=
  ascii "s_" ++ name ++ ascii "_aeg_" ++ digits (i % 2) (i / 2)

/-- `AEG_LOOKUP_STR`, without the number of a table. -/
def aegInfoLookupStr : Text := ascii "s_" ++ name ++ ascii "_aeg_"

def aeWeightLookupStr : Text := ascii "s_" ++ name ++ ascii "_ae_weight_customer"

def tuneInfoLookupStr : Text := ascii "s_" ++ name ++ ascii "_tune_info"

def fixInfoLookupStr : Text := ascii "s_" ++ name ++ ascii "_fix_info"

def awbMapLookupStr : Text := ascii "s_" ++ name ++ ascii "_awb_map"

end Names

end SprdHal.Isp
