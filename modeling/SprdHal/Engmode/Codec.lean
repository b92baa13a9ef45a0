import Mathlib.Data.List.Induction
import SprdHal.Lib.Bytes
import SprdHal.Lib.Escape

/-!
# The codecs of diag frames (`adc_calibration.c`, `eng_diag.c`)

A diag frame is a body between two flags 0x7e, in which 0x7d and 0x7e are escaped. The repository
has two pairs of functions for it. `translate_packet` and `untranslate_packet_header` copy from one
buffer to another; `eng_diag_encode7d7e` and `eng_diag_decode7d7e` work in place and shift the rest
of the buffer at every escaped byte. All four agree with `Escape.stuff`, and so with one another
(`diag_framing`).
-/

namespace SprdHal.Engmode

open SprdHal.Lib

/-- `(buf[i]==0x7d)||(buf[i]==0x7e)` -/
def isSpecial (b : UInt8) : Bool := b == 0x7d || b == 0x7e

theorem isSpecial_iff (b : UInt8) : isSpecial b = true ↔ b = 0x7d ∨ b = 0x7e := by
  simp [isSpecial]

def diagEscape : Escape UInt8 where
  special := isSpecial
  esc := 0x7d
  mask b := b ^^^ 0x20
  special_esc := rfl
  special_mask b hb := by rcases (isSpecial_iff b).mp hb with rfl | rfl <;> rfl
  mask_mask b hb := by rcases (isSpecial_iff b).mp hb with rfl | rfl <;> rfl

/-! ## The functions that copy -/

/-- The loop of `translate_packet`; `dest` is what has been written. -/
def translatePacketLoop (dest : List UInt8) : List UInt8 → List UInt8
  | [] => dest
  | b :: src =>
    if b = 0x7E then translatePacketLoop (dest ++ [0x7D, 0x5E]) src
    else if b = 0x7D then translatePacketLoop (dest ++ [0x7D, 0x5D]) src
    else translatePacketLoop (dest ++ [b]) src

/-- `translate_packet` -/
def translatePacket (src : List UInt8) : List UInt8 := translatePacketLoop [0x7E] src ++ [0x7E]

/-- The values 0, 1 and 2 of `status`. -/
inductive UnpackStatus
  | noFlag | flagSeen | inBody
  deriving DecidableEq, Repr

/-- A byte of the body: `flag` and `dest` after it. A byte that follows a pending 0x7d replaces it,
if it is one of the two masks. -/
def untranslateByte (flag : Bool) (dest : List UInt8) (b : UInt8) : Bool × List UInt8 :=
  if dest.getLast? = some 0x7D ∧ flag = false then
    (true,
      if b = 0x5E then dest.dropLast ++ [0x7E]
      else if b = 0x5D then dest.dropLast ++ [0x7D]
      else dest)
  else (false, dest ++ [b])

/-- The loop of `untranslate_packet_header`. -/
def untranslateLoop (unpackSize : Int) (status : UnpackStatus) (flag : Bool) (dest : List UInt8) :
    List UInt8 → List UInt8
  | [] => dest
  | b :: src =>
    match status with
    | .noFlag =>
      untranslateLoop unpackSize (if b = 0x7e then .flagSeen else .noFlag) flag dest src
    | .flagSeen =>
      if b ≠ 0x7e then untranslateLoop unpackSize .inBody flag (dest ++ [b]) src
      else untranslateLoop unpackSize .flagSeen flag dest src
    | .inBody =>
      if b = 0x7E then dest
      else
        let r := untranslateByte flag dest b
        if (r.2.length : Int) ≥ unpackSize + 1 ∧ unpackSize ≠ -1 then r.2
        else untranslateLoop unpackSize .inBody r.1 r.2 src

/-- `untranslate_packet_header`: the bytes written to `dest`, whose number is the result. -/
def untranslatePacketHeader (src : List UInt8) (unpackSize : Int) : List UInt8 :=
  untranslateLoop unpackSize .noFlag false [] src

/-! ## The functions that work in place

A buffer here is the memory from `buf` on, which goes further than `len`. -/

/-- `memcpy` within one buffer, from `src` down to `dst`. -/
def memcpyDown (buf : List UInt8) (dst src n : Nat) : List UInt8 :=
  patch buf dst ((buf.drop src).take n)

/-- The loop of `eng_diag_decode7d7e`. -/
def decode7d7eLoop (buf : List UInt8) (len i : Nat) : List UInt8 :=
  if i < len then
    if isSpecial (buf.getD i 0) then
      let tmp := buf.getD (i + 1) 0 ^^^ 0x20
      let buf := buf.set i tmp
      let buf := memcpyDown buf (i + 1) (i + 2) (len - (i + 1))
      decode7d7eLoop buf (len - 1) (i + 1)
    else decode7d7eLoop buf len (i + 1)
  else buf
termination_by len - i

/-- `eng_diag_decode7d7e` -/
def engDiagDecode7d7e (buf : List UInt8) (len : Nat) : List UInt8 := decode7d7eLoop buf len 0

/-- `for(j=len; j>i+1; j--) buf[j] = buf[j-1];` -/
def shiftUp (buf : List UInt8) (i : Nat) : Nat → List UInt8
  | 0 => buf
  | j + 1 => if j + 1 > i + 1 then shiftUp (buf.set (j + 1) (buf.getD j 0)) i j else buf

theorem not_isSpecial_mask_set (buf : List UInt8) (k : Nat) {b : UInt8} (hb : isSpecial b = true) :
    isSpecial ((buf.set k (b ^^^ 0x20)).getD k 0) = false := by
  rw [List.getD_eq_getElem?_getD, List.getElem?_set_self']
  cases buf[k]? with
  | none => rfl
  | some c => exact diagEscape.special_mask b hb

/-- What `eng_diag_encode7d7e` leaves: the buffer, its result and `*extra_len`. -/
structure Encoded where
  buf : List UInt8
  len : Nat
  extraLen : Int
  deriving DecidableEq, Repr

/-- The loop of `eng_diag_encode7d7e`. The mask put behind an escaped byte is not escaped again, so
it ends although `len` grows. -/
def encode7d7eLoop (buf : List UInt8) (len i : Nat) (extraLen : Int) : Encoded :=
  if i < len then
    if _h : isSpecial (buf.getD i 0) then
      let tmp := buf.getD i 0 ^^^ 0x20
      let buf := buf.set i 0x7d
      let buf := shiftUp buf i len
      let buf := buf.set (i + 1) tmp
      encode7d7eLoop buf (len + 1) (i + 1) (extraLen + 1)
    else encode7d7eLoop buf len (i + 1) extraLen
  else ⟨buf, len, extraLen⟩
termination_by 2 * (len - i) + (if isSpecial (buf.getD i 0) then 1 else 0)
decreasing_by
  · rw [not_isSpecial_mask_set _ _ _h, if_pos _h, if_neg Bool.false_ne_true]
    omega
  · split <;> omega

/-- `eng_diag_encode7d7e` -/
def engDiagEncode7d7e (buf : List UInt8) (len : Nat) (extraLen : Int) : Encoded :=
  encode7d7eLoop buf len 0 extraLen

/-! ## `translate_packet` -/

theorem translatePacketLoop_eq (dest src : List UInt8) :
    translatePacketLoop dest src = dest ++ diagEscape.stuff src := by
  induction src generalizing dest with
  | nil => simp [translatePacketLoop]
  | cons b src ih =>
    unfold translatePacketLoop
    cases hb : isSpecial b with
    | true =>
      rw [Escape.stuff_special (e := diagEscape) hb]
      rcases (isSpecial_iff b).mp hb with rfl | rfl
      · rw [if_neg (by decide), if_pos rfl, ih, List.append_assoc]
        rfl
      · rw [if_pos rfl, ih, List.append_assoc]
        rfl
    | false =>
      have hne : ¬ (b = 0x7d ∨ b = 0x7e) := fun h => by
        rw [(isSpecial_iff b).mpr h] at hb
        cases hb
      rw [not_or] at hne
      rw [Escape.stuff_plain (e := diagEscape) hb, if_neg hne.2, if_neg hne.1, ih,
        List.append_assoc]
      rfl

theorem translatePacket_eq (src : List UInt8) :
    translatePacket src = 0x7E :: (diagEscape.stuff src ++ [0x7E]) := by
  rw [translatePacket, translatePacketLoop_eq]
  rfl

/-! ## `untranslate_packet_header` -/

/-- The last byte of `dest` is not waiting for its mask. -/
def Settled (flag : Bool) (dest : List UInt8) : Prop := dest.getLast? = some 0x7D → flag = true

section Untranslate

variable {flag : Bool} {dest : List UInt8}

theorem untranslateByte_settled (h : Settled flag dest) (b : UInt8) :
    untranslateByte flag dest b = (false, dest ++ [b]) := by
  rw [untranslateByte, if_neg]
  rintro ⟨hlast, hflag⟩
  rw [h hlast] at hflag
  cases hflag

/-- A mask turns the pending 0x7d into the byte it stands for. -/
theorem untranslateByte_mask {b : UInt8} (hb : isSpecial b = true) :
    untranslateByte false (dest ++ [0x7D]) (diagEscape.mask b) = (true, dest ++ [b]) := by
  rw [untranslateByte, if_pos ⟨List.getLast?_concat, rfl⟩, List.dropLast_concat]
  rcases (isSpecial_iff b).mp hb with rfl | rfl <;> rfl

theorem settled_plain {b : UInt8} (hb : isSpecial b = false) : Settled flag (dest ++ [b]) := by
  intro h
  rw [List.getLast?_concat, Option.some.injEq] at h
  rw [h] at hb
  cases hb

/-- Inside the body, everything up to the closing flag is unescaped. -/
theorem untranslateLoop_body (h : Settled flag dest) (p rest : List UInt8) :
    untranslateLoop (-1) .inBody flag dest (diagEscape.stuff p ++ 0x7E :: rest) = dest ++ p := by
  induction p generalizing flag dest with
  | nil => simp [untranslateLoop]
  | cons b p ih =>
    cases hb : isSpecial b with
    | true =>
      have hmask : diagEscape.mask b ≠ 0x7E := fun he => by
        have hs := diagEscape.special_mask b hb
        rw [he] at hs
        cases hs
      rw [Escape.stuff_special (e := diagEscape) hb, List.cons_append, List.cons_append]
      rw [untranslateLoop, if_neg (by decide)]
      simp only [untranslateByte_settled h, ne_eq, not_true_eq_false, and_false, if_false]
      rw [untranslateLoop, if_neg hmask]
      have hesc : diagEscape.esc = 0x7D := rfl
      simp only [hesc, untranslateByte_mask hb, ne_eq, not_true_eq_false, and_false, if_false]
      rw [ih fun _ => rfl, List.append_assoc]
      rfl
    | false =>
      have hne : b ≠ 0x7E := fun he => by
        rw [he] at hb
        cases hb
      rw [Escape.stuff_plain (e := diagEscape) hb, List.cons_append, untranslateLoop, if_neg hne]
      simp only [untranslateByte_settled h, ne_eq, not_true_eq_false, and_false, if_false]
      rw [ih (settled_plain hb), List.append_assoc]
      rfl

end Untranslate

/-- The first byte of the body is copied in a state of its own, to the same effect. -/
theorem untranslateLoop_flagSeen {b : UInt8} (hb : b ≠ 0x7E) (src : List UInt8) :
    untranslateLoop (-1) .flagSeen false [] (b :: src) =
      untranslateLoop (-1) .inBody false [] (b :: src) := by
  have hempty : Settled false [] := fun h => by cases h
  rw [untranslateLoop, if_pos hb, untranslateLoop, if_neg hb]
  simp only [untranslateByte_settled hempty, ne_eq, not_true_eq_false, and_false, if_false]

/-- **`untranslate_packet_header` undoes `translate_packet`**, and does not look at what follows
the frame. -/
theorem untranslate_translate {p : List UInt8} (hp : p ≠ []) (rest : List UInt8) :
    untranslatePacketHeader (translatePacket p ++ rest) (-1) = p := by
  rw [translatePacket_eq, List.cons_append, List.append_assoc, untranslatePacketHeader,
    untranslateLoop, if_pos rfl]
  cases p with
  | nil => exact absurd rfl hp
  | cons b p =>
    obtain ⟨c, src, hsrc, hc⟩ : ∃ c src, diagEscape.stuff (b :: p) = c :: src ∧ c ≠ 0x7E := by
      cases hb : isSpecial b with
      | true => exact ⟨_, _, Escape.stuff_special (e := diagEscape) hb p, by decide⟩
      | false =>
        refine ⟨_, _, Escape.stuff_plain (e := diagEscape) hb p, ?_⟩
        rintro rfl
        cases hb
    have hbody := @untranslateLoop_body false [] (fun h => by cases h) (b :: p) rest
    rw [hsrc] at hbody ⊢
    rw [List.cons_append, untranslateLoop_flagSeen hc]
    exact hbody

/-! ## `eng_diag_decode7d7e` -/

theorem getD_length_append (pre : List UInt8) (b d : UInt8) (rest : List UInt8) :
    (pre ++ b :: rest).getD pre.length d = b := by
  rw [List.getD_eq_getElem?_getD, List.getElem?_append_right (Nat.le_refl _), Nat.sub_self]
  rfl

theorem set_length_append (pre : List UInt8) (b c : UInt8) (rest : List UInt8) :
    (pre ++ b :: rest).set pre.length c = pre ++ c :: rest := by
  rw [List.set_append_right _ _ (Nat.le_refl _), Nat.sub_self]
  rfl

section Decode

variable {pre : List UInt8} {b : UInt8} {rest : List UInt8} {len : Nat}

theorem decode7d7eLoop_done {buf : List UInt8} {i : Nat} (h : len ≤ i) :
    decode7d7eLoop buf len i = buf := by
  rw [decode7d7eLoop, if_neg (by omega)]

theorem decode7d7eLoop_plain (h : pre.length < len) (hb : isSpecial b = false) :
    decode7d7eLoop (pre ++ b :: rest) len pre.length =
      decode7d7eLoop (pre ++ b :: rest) len (pre.length + 1) := by
  rw [decode7d7eLoop, if_pos h, getD_length_append, hb, if_neg Bool.false_ne_true]

theorem decode7d7eLoop_special (h : pre.length < len) (hb : isSpecial b = true) :
    decode7d7eLoop (pre ++ b :: rest) len pre.length =
      decode7d7eLoop (memcpyDown (pre ++ (rest.getD 0 0 ^^^ 0x20) :: rest) (pre.length + 1)
        (pre.length + 2) (len - (pre.length + 1))) (len - 1) (pre.length + 1) := by
  have hnext : (pre ++ b :: rest).getD (pre.length + 1) 0 = rest.getD 0 0 := by
    simp [List.getD_eq_getElem?_getD, List.getElem?_append_right]
  rw [decode7d7eLoop, if_pos h, getD_length_append, if_pos hb, hnext]
  simp only [set_length_append]

end Decode

/-- The shift at an escaped byte: the tail moves down over the mask, and the byte behind it is
taken along if there is one. -/
theorem memcpyDown_append (pre : List UInt8) (m : UInt8) (tail rest : List UInt8) :
    ∃ rest', memcpyDown (pre ++ m :: (tail ++ rest)) pre.length (pre.length + 1) (tail.length + 1) =
      pre ++ (tail ++ rest') := by
  have hdrop : (pre ++ m :: (tail ++ rest)).drop (pre.length + 1) = tail ++ rest := by
    rw [← List.drop_drop, List.drop_left, List.drop_one, List.tail_cons]
  have htake : (tail ++ rest).take (tail.length + 1) = tail ++ rest.take 1 := by
    rw [List.take_append, List.take_of_length_le (by omega), Nat.add_sub_cancel_left]
  have hle : (tail ++ rest.take 1).length ≤ (m :: (tail ++ rest)).length := by
    simp only [List.length_append, List.length_cons, List.length_take]
    omega
  rw [memcpyDown, hdrop, htake, patch_length_append pre hle, List.append_assoc]
  exact ⟨_, rfl⟩

/-- The invariant of the loop: `q` is decoded, and the closing flag is the last byte of the rest. -/
theorem decode7d7eLoop_stuff (q p rest : List UInt8) :
    ∃ rest', decode7d7eLoop (q ++ (diagEscape.stuff p ++ 0x7E :: rest))
      (q.length + (diagEscape.stuff p).length + 1) q.length = q ++ (p ++ rest') := by
  induction p generalizing q rest with
  | nil =>
    -- the closing flag is taken for an escape; this changes only what lies behind `q`
    rw [Escape.stuff_nil, List.nil_append, List.length_nil,
      decode7d7eLoop_special (by omega) rfl, decode7d7eLoop_done (by omega), Nat.add_zero,
      Nat.sub_self, memcpyDown, List.take_zero, patch_nil]
    exact ⟨_, rfl⟩
  | cons b p ih =>
    cases hb : isSpecial b with
    | true =>
      have hbyte : diagEscape.mask b ^^^ 0x20 = b := diagEscape.mask_mask b hb
      obtain ⟨rest₁, hmove⟩ := memcpyDown_append (q ++ [b]) (diagEscape.mask b)
        (diagEscape.stuff p ++ [0x7E]) rest
      obtain ⟨rest₂, hdone⟩ := ih (q ++ [b]) rest₁
      simp only [List.append_assoc, List.cons_append, List.nil_append, List.length_append,
        List.length_cons, List.length_nil, Nat.zero_add] at hmove hdone
      have hlen : q.length + ((diagEscape.stuff p).length + 1 + 1) + 1 - (q.length + 1) =
          (diagEscape.stuff p).length + 1 + 1 := by omega
      have hlen' : q.length + ((diagEscape.stuff p).length + 1 + 1) + 1 - 1 =
          q.length + 1 + (diagEscape.stuff p).length + 1 := by omega
      refine ⟨rest₂, ?_⟩
      rw [Escape.stuff_special (e := diagEscape) hb, List.cons_append, List.cons_append,
        decode7d7eLoop_special (by omega) rfl]
      simp only [List.length_cons, List.getD_cons_zero, hbyte, hlen, hlen']
      rw [hmove, hdone]
      rfl
    | false =>
      obtain ⟨rest', hdone⟩ := ih (q ++ [b]) rest
      refine ⟨rest', ?_⟩
      rw [Escape.stuff_plain (e := diagEscape) hb, List.cons_append,
        decode7d7eLoop_plain (by omega) hb]
      simpa [Nat.add_assoc, Nat.add_comm] using hdone

/-- **`eng_diag_decode7d7e` undoes `translate_packet`**, whatever lies behind the frame. -/
theorem decode_translate (p rest : List UInt8) :
    (engDiagDecode7d7e ((translatePacket p).tail ++ rest) ((translatePacket p).length - 1)).take
      p.length = p := by
  obtain ⟨rest', h⟩ := decode7d7eLoop_stuff [] p rest
  have hlen : (translatePacket p).length - 1 =
      ([] : List UInt8).length + (diagEscape.stuff p).length + 1 := by
    simp [translatePacket_eq]
  rw [engDiagDecode7d7e, hlen, translatePacket_eq, List.tail_cons, List.append_assoc]
  simp only [List.nil_append, List.cons_append] at h ⊢
  rw [List.length_nil] at h
  rw [List.length_nil, h, List.take_left]

/-! ## `eng_diag_encode7d7e` -/

/-- The bytes from `i + 1` on move up by one, over the byte `c`; the caller fills the gap. -/
theorem set_shiftUp (pre mid : List UInt8) (x c : UInt8) (post : List UInt8) (tmp : UInt8) :
    (shiftUp ((pre ++ x :: mid) ++ c :: post) pre.length (pre ++ x :: mid).length).set
      (pre.length + 1) tmp = pre ++ x :: tmp :: (mid ++ post) := by
  induction mid using List.reverseRecOn generalizing c post with
  | nil =>
    have hset := set_length_append (pre ++ [x]) c tmp post
    rw [List.length_append, List.length_singleton, shiftUp, if_neg (by omega)]
    rw [List.length_append, List.length_singleton] at hset
    rw [hset]
    simp
  | append_singleton mid d ih =>
    have hsplit : ∀ tail, (pre ++ x :: (mid ++ [d])) ++ tail = (pre ++ x :: mid) ++ d :: tail := by
      simp
    have hlen : (pre ++ x :: (mid ++ [d])).length = (pre ++ x :: mid).length + 1 := by
      simp only [List.length_append, List.length_cons, List.length_nil]
      omega
    have hset := set_length_append (pre ++ x :: (mid ++ [d])) c d post
    rw [hlen, hsplit, hsplit] at hset
    rw [hlen, hsplit, shiftUp, if_pos (by simp only [List.length_append, List.length_cons]; omega),
      getD_length_append, hset, ih, List.append_assoc]
    rfl

section Encode

variable {pre : List UInt8} {b : UInt8} {rest : List UInt8} {len : Nat} {extraLen : Int}

theorem encode7d7eLoop_done {buf : List UInt8} {i : Nat} (h : len ≤ i) :
    encode7d7eLoop buf len i extraLen = ⟨buf, len, extraLen⟩ := by
  rw [encode7d7eLoop, if_neg (by omega)]

theorem encode7d7eLoop_plain (h : pre.length < len) (hb : isSpecial b = false) :
    encode7d7eLoop (pre ++ b :: rest) len pre.length extraLen =
      encode7d7eLoop (pre ++ b :: rest) len (pre.length + 1) extraLen := by
  rw [encode7d7eLoop, if_pos h, getD_length_append, dif_neg (Bool.not_eq_true _ ▸ hb)]

/-- An escaped byte takes one byte of the room behind the data. -/
theorem encode7d7eLoop_special (hb : isSpecial b = true) (mid : List UInt8) (c : UInt8)
    (post : List UInt8) :
    encode7d7eLoop (pre ++ b :: (mid ++ c :: post)) (pre ++ b :: mid).length pre.length extraLen =
      encode7d7eLoop (pre ++ 0x7d :: (diagEscape.mask b :: (mid ++ post)))
        ((pre ++ b :: mid).length + 1) (pre.length + 1) (extraLen + 1) := by
  have hlt : pre.length < (pre ++ b :: mid).length := by
    simp only [List.length_append, List.length_cons]
    omega
  have hshift := set_shiftUp pre mid 0x7d c post (diagEscape.mask b)
  have hlen : (pre ++ 0x7d :: mid).length = (pre ++ b :: mid).length := by simp
  rw [List.append_assoc, List.cons_append, hlen] at hshift
  rw [encode7d7eLoop, if_pos hlt, getD_length_append, dif_pos hb]
  simp only [set_length_append]
  exact congrArg (encode7d7eLoop · _ _ _) hshift

end Encode

/-- The invariant of the loop: the bytes before `i` are encoded and there is room for the rest. -/
theorem encode7d7eLoop_eq (pre p room : List UInt8) (extraLen : Int)
    (hroom : p.countP isSpecial ≤ room.length) :
    encode7d7eLoop (pre ++ (p ++ room)) (pre ++ p).length pre.length extraLen =
      ⟨pre ++ (diagEscape.stuff p ++ room.drop (p.countP isSpecial)),
        (pre ++ diagEscape.stuff p).length, extraLen + p.countP isSpecial⟩ := by
  induction p generalizing pre room extraLen with
  | nil =>
    rw [encode7d7eLoop_done (by simp)]
    simp
  | cons b p ih =>
    cases hb : isSpecial b with
    | true =>
      rw [List.countP_cons_of_pos hb] at hroom ⊢
      obtain ⟨c, room, rfl⟩ := List.exists_cons_of_length_pos (Nat.lt_of_lt_of_le (by omega) hroom)
      -- the byte itself and then its mask, which stays as it is
      have hmask : isSpecial (diagEscape.mask b) = false := diagEscape.special_mask b hb
      have hplain := @encode7d7eLoop_plain (pre ++ [0x7d]) _ (p ++ room)
        ((pre ++ b :: p).length + 1) (extraLen + 1) (by simp) hmask
      have hdone := ih (pre ++ [0x7d, diagEscape.mask b]) room (extraLen + 1)
        (Nat.le_of_succ_le_succ hroom)
      rw [List.cons_append, encode7d7eLoop_special hb, Escape.stuff_special (e := diagEscape) hb]
      simp only [List.append_assoc, List.cons_append, List.nil_append, List.length_append,
        List.length_cons, List.length_nil, Nat.zero_add, List.drop_succ_cons] at hplain hdone ⊢
      have hextra : extraLen + ((p.countP isSpecial + 1 : Nat) : Int) =
          extraLen + 1 + p.countP isSpecial := by
        push_cast
        omega
      rw [hplain, hextra]
      exact hdone
    | false =>
      rw [List.countP_cons_of_neg (Bool.not_eq_true _ ▸ hb)] at hroom ⊢
      have hdone := ih (pre ++ [b]) room extraLen hroom
      rw [List.cons_append, encode7d7eLoop_plain (by simp) hb,
        Escape.stuff_plain (e := diagEscape) hb]
      simpa using hdone

/-- **`eng_diag_encode7d7e` writes the body of `translate_packet`**, if the buffer has room. -/
theorem encode_eq (p room : List UInt8) (extraLen : Int)
    (hroom : p.countP isSpecial ≤ room.length) :
    engDiagEncode7d7e (p ++ room) p.length extraLen =
      ⟨diagEscape.stuff p ++ room.drop (p.countP isSpecial), (diagEscape.stuff p).length,
        extraLen + p.countP isSpecial⟩ :=
  encode7d7eLoop_eq [] p room extraLen hroom

/-- **The four codecs agree.** Both decoders give back what `translate_packet` was given, whatever
lies behind the frame, and the encoder that works in place leaves the bytes between the two flags
and counts the bytes it escaped. -/
theorem diag_framing (p : List UInt8) (hp : p ≠ []) :
    (∀ rest, untranslatePacketHeader (translatePacket p ++ rest) (-1) = p) ∧
    (∀ rest, (engDiagDecode7d7e ((translatePacket p).tail ++ rest)
      ((translatePacket p).length - 1)).take p.length = p) ∧
    (∀ room extraLen, p.countP isSpecial ≤ room.length →
      let body := (translatePacket p).tail.dropLast
      let r := engDiagEncode7d7e (p ++ room) p.length extraLen
      r.buf = body ++ room.drop (p.countP isSpecial) ∧ r.len = body.length ∧
        r.extraLen = extraLen + p.countP isSpecial) := by
  have hbody : (translatePacket p).tail.dropLast = diagEscape.stuff p := by
    rw [translatePacket_eq, List.tail_cons, List.dropLast_concat]
  refine ⟨untranslate_translate hp, decode_translate p, fun room extraLen hroom => ?_⟩
  rw [encode_eq p room extraLen hroom, hbody]
  exact ⟨rfl, rfl, rfl⟩

theorem diag_framing_escapes :
    untranslatePacketHeader (translatePacket [0x7d, 0x7d, 0x7e, 0x5d] ++ [0x7e]) (-1) =
        [0x7d, 0x7d, 0x7e, 0x5d] ∧
      (engDiagEncode7d7e ([0x7d, 0x7d, 0x7e, 0x5d] ++ [0, 0, 0]) 4 0).extraLen = 3 :=
  have h := diag_framing [0x7d, 0x7d, 0x7e, 0x5d] (by decide)
  ⟨h.1 [0x7e], (h.2.2 [0, 0, 0] 0 (by decide)).2.2⟩

end SprdHal.Engmode
