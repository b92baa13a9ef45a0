import SprdHal.Engmode.Complete

/-!
# The files of the BT and WiFi addresses (`eng_btwifiaddr.c`)

The addresses are kept as texts, two hexadecimal digits for a byte and colons between them.
`eng_btwifimac_write` writes both files whenever one address is given. The text of the other address
is what its file holds, read over an address from `mac_rand`. `write_mac2file` reports on the file
that it writes last.
-/

namespace SprdHal.Engmode

open SprdHal.Lib

/-! ## Texts of addresses -/

/-- A digit of `%02x`. -/
def hexDigit (n : Nat) : UInt8 := UInt8.ofNat (if n < 10 then 0x30 + n else 0x57 + n)

/-- `%02x` -/
def hexByte (b : UInt8) : List UInt8 := [hexDigit (b.toNat / 16), hexDigit (b.toNat % 16)]

/-- `%02x:%02x:%02x:%02x:%02x:%02x` -/
def macText (mac : List UInt8) : List UInt8 := [0x3a].intercalate (mac.map hexByte)

/-- The value of a hexadecimal digit. -/
def hexValue (b : UInt8) : Option Nat :=
  if isDigit b then some (b.toNat - 0x30)
  else if 0x41 ≤ b ∧ b ≤ 0x46 then some (b.toNat - 0x37)
  else if 0x61 ≤ b ∧ b ≤ 0x66 then some (b.toNat - 0x57)
  else none

/-- The digits of a hexadecimal number, as far as they go. -/
def hexNumber (n : Nat) : List UInt8 → Nat
  | [] => n
  | b :: s => (hexValue b).elim n fun d => hexNumber (16 * n + d) s

/-- The digits may come behind `0x`. -/
def skip0x : List UInt8 → List UInt8
  | 0x30 :: x :: d :: s =>
    if (x = 0x78 ∨ x = 0x58) ∧ (hexValue d).isSome then d :: s else 0x30 :: x :: d :: s
  | s => s

/-- `(unsigned char)strtol(s, NULL, 16)`, where `long` has 32 bits. -/
def strtolHex (s : List UInt8) : UInt8 :=
  match s.dropWhile isSpace with
  | 0x2d :: s => UInt8.ofInt (max (-2147483648) (-(hexNumber 0 (skip0x s) : Int)))
  | 0x2b :: s => UInt8.ofInt (min 2147483647 (hexNumber 0 (skip0x s) : Int))
  | s => UInt8.ofInt (min 2147483647 (hexNumber 0 (skip0x s) : Int))

theorem findByte_lt {c : UInt8} {text : List UInt8} {k : Nat} (h : findByte c text = some k) :
    k < text.length :=
  (List.getElem?_eq_some_iff.mp (findByte_spec h)).1

/-- `eng_diag_char2hex`: the bytes that it puts into `hexdata`. -/
def engDiagChar2hex (chardata : List UInt8) : List UInt8 :=
  match h : findByte 0x3a chardata with
  | some k => strtolHex (chardata.take 2) :: engDiagChar2hex (chardata.drop (k + 1))
  | none => [strtolHex chardata]
  termination_by chardata.length
  decreasing_by
    have hk := findByte_lt h
    rw [List.length_drop]
    omega

theorem engDiagChar2hex_some {chardata : List UInt8} {k : Nat}
    (h : findByte 0x3a chardata = some k) :
    engDiagChar2hex chardata =
      strtolHex (chardata.take 2) :: engDiagChar2hex (chardata.drop (k + 1)) := by
  rw [engDiagChar2hex]
  split
  · rename_i j hj
    cases hj.symm.trans h
    rfl
  · rename_i hnone
    cases hnone.symm.trans h

theorem engDiagChar2hex_none {chardata : List UInt8} (h : findByte 0x3a chardata = none) :
    engDiagChar2hex chardata = [strtolHex chardata] := by
  rw [engDiagChar2hex]
  split
  · rename_i j hj
    cases hj.symm.trans h
  · rfl

theorem strtolHex_digits : ∀ m < 16, ∀ n < 16,
    strtolHex [hexDigit m, hexDigit n] = UInt8.ofNat (16 * m + n) := by
  decide +kernel

/-- A byte is read as it was printed. -/
theorem strtolHex_hexByte (b : UInt8) : strtolHex (hexByte b) = b := by
  have hb := b.toNat_lt
  have hdiv : 16 * (b.toNat / 16) + b.toNat % 16 = b.toNat := Nat.div_add_mod _ _
  rw [hexByte, strtolHex_digits _ (by omega) _ (by omega), hdiv, UInt8.ofNat_toNat]

theorem hexDigit_ne : ∀ n < 16, hexDigit n ≠ 0x3a ∧ hexDigit n ≠ 0 := by decide

theorem findByte_hexByte (b : UInt8) (rest : List UInt8) :
    findByte 0x3a (hexByte b ++ rest) = (findByte 0x3a rest).map (· + 2) := by
  have hb := b.toNat_lt
  obtain ⟨hhigh, hhigh0⟩ := hexDigit_ne (b.toNat / 16) (by omega)
  obtain ⟨hlow, hlow0⟩ := hexDigit_ne (b.toNat % 16) (by omega)
  rw [hexByte, List.cons_append, List.cons_append, List.nil_append, findByte, if_neg hhigh,
    if_neg hhigh0, findByte, if_neg hlow, if_neg hlow0, Option.map_map]
  rfl

theorem macText_cons (b c : UInt8) (mac : List UInt8) :
    macText (b :: c :: mac) = hexByte b ++ 0x3a :: macText (c :: mac) := by
  rw [macText, List.map_cons, List.map_cons, List.intercalate_cons_cons]
  rfl

theorem macText_singleton (b : UInt8) : macText [b] = hexByte b := List.intercalate_singleton

/-- **An address is read as it was printed.** -/
theorem engDiagChar2hex_macText (b : UInt8) (mac : List UInt8) :
    engDiagChar2hex (macText (b :: mac)) = b :: mac := by
  induction mac generalizing b with
  | nil =>
    have hnone := findByte_hexByte b []
    rw [List.append_nil] at hnone
    rw [macText_singleton, engDiagChar2hex_none hnone, strtolHex_hexByte]
  | cons c mac ih =>
    have hsome := findByte_hexByte b (0x3a :: macText (c :: mac))
    rw [macText_cons, engDiagChar2hex_some hsome]
    have htake : (hexByte b ++ 0x3a :: macText (c :: mac)).take 2 = hexByte b := rfl
    have hdrop : (hexByte b ++ 0x3a :: macText (c :: mac)).drop (0 + 2 + 1) = macText (c :: mac) :=
      rfl
    rw [htake, hdrop, strtolHex_hexByte, ih]

theorem zero_not_mem_hexByte (b : UInt8) : 0 ∉ hexByte b := by
  have hb := b.toNat_lt
  have hhigh := (hexDigit_ne (b.toNat / 16) (by omega)).2
  have hlow := (hexDigit_ne (b.toNat % 16) (by omega)).2
  simp only [hexByte, List.mem_cons, List.not_mem_nil, or_false, not_or]
  exact ⟨Ne.symm hhigh, Ne.symm hlow⟩

theorem zero_not_mem_macText (b : UInt8) (mac : List UInt8) : 0 ∉ macText (b :: mac) := by
  induction mac generalizing b with
  | nil =>
    rw [macText_singleton]
    exact zero_not_mem_hexByte b
  | cons c mac ih =>
    rw [macText_cons, List.mem_append, List.mem_cons]
    rintro (h | h | h)
    · exact zero_not_mem_hexByte b h
    · cases h
    · exact ih c h

theorem length_macText (b : UInt8) (mac : List UInt8) :
    (macText (b :: mac)).length = 3 * mac.length + 2 := by
  induction mac generalizing b with
  | nil => rw [macText_singleton]; rfl
  | cons c mac ih =>
    have hlen : (hexByte b).length = 2 := rfl
    rw [macText_cons, List.length_append, List.length_cons, ih, hlen, List.length_cons]
    omega

/-! ## The files -/

/-- A text of an address, as a MAC file holds it. -/
structure MacText where
  text : List UInt8
  length_text : text.length = 17
  noNul : 0 ∉ text
  length_addr : (engDiagChar2hex text).length = 6

/-- `WIFI_MAC_FILE` and `BT_MAC_FILE` -/
structure MacFiles where
  bt : List UInt8
  wifi : List UInt8

/-- `MAC_RAND_FILE`, as `write_to_randmacfile` leaves it. -/
structure MacRandFile where
  bt : List UInt8
  wifi : List UInt8
  length_bt : bt.length = 17
  length_wifi : wifi.length = 17
  noNul_bt : 0 ∉ bt
  noNul_wifi : 0 ∉ wifi

/-- The calls of `open` and `write` on a file that is truncated when it is opened. -/
inductive MacWrite
  | noOpen
  | wrote (res : Option Nat)
  deriving DecidableEq, Repr

/-- The number of bytes that are written, if there are as many. -/
def MacWrite.count : MacWrite → Nat
  | .noOpen => 0
  | .wrote res => res.getD 0

/-- What the calls return, and the numbers of `rand`. -/
structure MacIo where
  randFile : Option MacRandFile
  randBt : UInt32 × UInt32
  randWifi : UInt32 × UInt32
  readBt : Option Nat
  readWifi : Option Nat
  writeWifi : MacWrite
  writeBt : MacWrite

/-- `MAC_ERROR_EX` and `MAC_ERROR` -/
def macErrorEx : List UInt8 := List.replicate 5 0x3a
def macError : List UInt8 := [0x3a].intercalate (List.replicate 6 [0x46, 0x46])

/-- `strstr(s, needle) != NULL` -/
def strstr (needle : List UInt8) : List UInt8 → Bool
  | [] => needle.isEmpty
  | b :: s => needle.isPrefixOf (b :: s) || strstr needle s

/-- There is no address in the text yet. -/
def macUnset (mac : List UInt8) : Bool :=
  strstr macError mac || strstr macErrorEx mac || mac.isEmpty

/-- The address that is made of two numbers of `rand`. -/
def randMac (i j : UInt32) : List UInt8 :=
  [0, (i >>> 8).toUInt8, (i >>> 16).toUInt8, j.toUInt8, (j >>> 8).toUInt8, (j >>> 16).toUInt8]

/-- `mac_rand`: `btmac` and `wifimac`. -/
def macRand (io : MacIo) (btmac wifimac : List UInt8) : List UInt8 × List UInt8 :=
  match io.randFile with
  | some f =>
    (if macUnset btmac then f.bt else btmac, if macUnset wifimac then f.wifi else wifimac)
  | none => (macText (randMac io.randBt.1 io.randBt.2), macText (randMac io.randWifi.1 io.randWifi.2))

/-- A text in a buffer of 32 bytes, and the text in a buffer. -/
def macBuf (text : List UInt8) : List UInt8 := text ++ List.replicate (32 - text.length) 0
def cString (buf : List UInt8) : List UInt8 := buf.takeWhile (· ≠ 0)

/-- `eng_btwifimac_read`: whether it returns 0, and `mac`. -/
def engBtwifimacRead (file mac : List UInt8) (res : Option Nat) : Bool × List UInt8 :=
  let data := file.take (moved res 32)
  (data ≠ [], patch mac 0 data)

/-- One file of `write_mac2file`: `ret` and the file. -/
def writeMac (file mac : List UInt8) : MacWrite → Int × List UInt8
  | .noOpen => (-1, file)
  | .wrote none => (-1, [])
  | .wrote (some n) => (min n mac.length, mac.take n)

/-- `write_mac2file`. The `ret` of the first file is overwritten. -/
def writeMac2file (files : MacFiles) (wifimac btmac : List UInt8) (io : MacIo) : Int × MacFiles :=
  let wifi := writeMac files.wifi wifimac io.writeWifi
  let bt := writeMac files.bt btmac io.writeBt
  (bt.1, ⟨bt.2, wifi.2⟩)

/-- The text that `eng_btwifimac_write` takes for an address that is not given. -/
def keptMac (file rand : List UInt8) (res : Option Nat) : List UInt8 :=
  cString (engBtwifimacRead file (macBuf rand) res).2

/-- `eng_btwifimac_write` -/
def engBtwifimacWrite (files : MacFiles) (io : MacIo) (btMac wifiMac : Option (List UInt8)) :
    Int × MacFiles :=
  let rand := macRand io [] []
  let btMac := btMac.getD (keptMac files.bt rand.1 io.readBt)
  let wifiMac := wifiMac.getD (keptMac files.wifi rand.2 io.readWifi)
  writeMac2file files wifiMac btMac io

theorem length_randMac_text (i j : UInt32) : (macText (randMac i j)).length = 17 :=
  length_macText _ _

theorem macRand_unset (io : MacIo) :
    ((macRand io [] []).1.length = 17 ∧ 0 ∉ (macRand io [] []).1) ∧
      (macRand io [] []).2.length = 17 ∧ 0 ∉ (macRand io [] []).2 := by
  have hunset : macUnset [] := rfl
  unfold macRand
  split
  · rename_i f _
    rw [if_pos hunset, if_pos hunset]
    exact ⟨⟨f.length_bt, f.noNul_bt⟩, f.length_wifi, f.noNul_wifi⟩
  · exact ⟨⟨length_randMac_text _ _, zero_not_mem_macText _ _⟩, length_randMac_text _ _,
      zero_not_mem_macText _ _⟩

theorem cString_append_zeros {text : List UInt8} (h : 0 ∉ text) (n : Nat) :
    cString (text ++ List.replicate n 0) = text := by
  have hall : ∀ b ∈ text, decide (b ≠ 0) = true := fun b hb =>
    decide_eq_true fun h0 => h (h0 ▸ hb)
  rw [cString, List.takeWhile_append_of_pos hall]
  cases n with
  | zero => rw [List.replicate_zero, List.takeWhile_nil, List.append_nil]
  | succ n => rw [List.replicate_succ, List.takeWhile_cons_of_neg (by decide), List.append_nil]

/-- What is read over a text of the same length. -/
theorem keptMac_eq (t : MacText) {rand : List UInt8} (hlen : rand.length = 17) (hnul : 0 ∉ rand)
    (res : Option Nat) :
    keptMac t.text rand res =
      t.text.take (moved res 32) ++ rand.drop (t.text.take (moved res 32)).length := by
  have hle : (t.text.take (moved res 32)).length ≤ rand.length := by
    rw [List.length_take, t.length_text, hlen]
    omega
  have hdrop : (macBuf rand).drop (t.text.take (moved res 32)).length =
      rand.drop (t.text.take (moved res 32)).length ++ List.replicate (32 - rand.length) 0 :=
    List.drop_append_of_le_length hle
  have hbuf : rand.length ≤ (macBuf rand).length := by
    rw [macBuf, List.length_append]
    omega
  rw [keptMac, engBtwifimacRead, patch_front (by omega), hdrop, ← List.append_assoc]
  refine cString_append_zeros ?_ _
  rw [List.mem_append]
  exact fun h => h.elim (fun h => t.noNul (List.mem_of_mem_take h)) fun h =>
    hnul (List.mem_of_mem_drop h)

theorem length_keptMac (t : MacText) {rand : List UInt8} (hlen : rand.length = 17)
    (hnul : 0 ∉ rand) (res : Option Nat) : (keptMac t.text rand res).length = 17 := by
  have ht := t.length_text
  rw [keptMac_eq t hlen hnul, List.length_append, List.length_drop, List.length_take]
  omega

/-- A text that is read to its end is kept. -/
theorem keptMac_complete (t : MacText) {rand : List UInt8} (hlen : rand.length = 17)
    (hnul : 0 ∉ rand) {res : Option Nat} (hres : 17 ≤ moved res 32) :
    keptMac t.text rand res = t.text := by
  have ht := t.length_text
  rw [keptMac_eq t hlen hnul, List.take_of_length_le (by omega), ht,
    List.drop_eq_nil_of_le (by omega), List.append_nil]

/-- The text of an address of six bytes. -/
def MacText.ofAddr (addr : List UInt8) (h : addr.length = 6) : MacText where
  text := macText addr
  length_text := by
    obtain ⟨b, mac, rfl⟩ := List.exists_cons_of_length_eq_add_one h
    rw [length_macText, Nat.succ.inj h]
  noNul := by
    obtain ⟨b, mac, rfl⟩ := List.exists_cons_of_length_eq_add_one h
    exact zero_not_mem_macText b mac
  length_addr := by
    obtain ⟨b, mac, rfl⟩ := List.exists_cons_of_length_eq_add_one h
    rw [engDiagChar2hex_macText, h]

/-- The address that a text is read as. -/
def MacText.addr (t : MacText) : List UInt8 := engDiagChar2hex t.text

theorem MacText.addr_ofAddr {addr : List UInt8} (h : addr.length = 6) :
    (MacText.ofAddr addr h).addr = addr := by
  obtain ⟨b, mac, rfl⟩ := List.exists_cons_of_length_eq_add_one h
  exact engDiagChar2hex_macText b mac

/-- `ret` is positive if anything is written. -/
theorem writeMac_pos_iff (file : List UInt8) {mac : List UInt8} (hlen : mac.length = 17)
    (w : MacWrite) : 0 < (writeMac file mac w).1 ↔ w.count ≠ 0 := by
  rcases w with - | - | n
  · exact (by decide : 0 < (-1 : Int) ↔ 0 ≠ 0)
  · exact (by decide : 0 < (-1 : Int) ↔ 0 ≠ 0)
  · simp only [writeMac, hlen, MacWrite.count, Option.getD_some]
    omega

/-- A file that all of a text is written to holds the text. -/
theorem writeMac_complete (file : List UInt8) {mac : List UInt8} (hlen : mac.length = 17)
    {w : MacWrite} (hw : 17 ≤ w.count) : (writeMac file mac w).2 = mac := by
  rcases w with - | - | n
  · cases hw
  · cases hw
  · exact List.take_of_length_le (Nat.le_trans (Nat.le_of_eq hlen) hw)

end SprdHal.Engmode
