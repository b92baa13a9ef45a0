import SprdHal.Jpeg.Reading
import SprdHal.Lib.Words

/-!
# How the header is delivered (`jpegdec_bitstream.c`)

`get_char` takes the bytes of the header from memory: all of the stream, or the part of it that
`read_bitstream` returned last. It is called for every byte, so that the buffer can run out in the
middle of a word or of a table. The parser sees only what `get_char` answers
(`Prog.run_follows`), and that is the same for both (`getChar_delivered`).
-/

namespace SprdHal.Jpeg

open Lib (Prog Answers)

/-! ## The stream -/

/-- A `read_bitstream` callback: the bytes that it returns from its call number `k`, if the stream
still has as many. -/
structure ReadFn where
  size : Nat → Nat
  pos : ∀ k, 0 < size k
  le : ∀ k, size k ≤ 3072

/-- The variables of `jpegdec_bitstream.c`: the memory at `s_inter_buf_bitstream`, the place of
`s_inter_buf_ptr` in it, `s_jremain_byte_num`, `s_header_len` and `s_file_offset`; and the calls of
the callback. -/
structure Bitstream where
  buf : List UInt8
  ptr : Nat
  remain : UInt32
  headerLen : UInt32
  fileOffset : UInt32
  calls : Nat
  deriving DecidableEq

namespace Bitstream

variable (stream : List UInt8)

/-- A call of `read_bitstream`. -/
def fill (read : ReadFn) (s : Bitstream) : Bitstream :=
  let chunk := (stream.drop s.fileOffset.toNat).take (read.size s.calls)
  { s with
    buf := chunk ++ s.buf.drop chunk.length
    ptr := 0
    remain := UInt32.ofNat chunk.length
    fileOffset := s.fileOffset + UInt32.ofNat chunk.length
    calls := s.calls + 1 }

/-- The bytes that `JpegDec_InitBitream` allocates for the callback. -/
def bufferSize : Nat := 3 * 1024

/-- `JpegDec_InitBitream`, apart from the memory -/
def init : Option ReadFn → Bitstream
  | none => ⟨stream, 0, UInt32.ofNat stream.length, 0, 0, 0⟩
  | some read => fill stream read ⟨List.replicate bufferSize 0, 0, UInt32.ofNat bufferSize, 0, 0, 0⟩

/-- The start of `get_char`. -/
def refill : Option ReadFn → Bitstream → Bitstream
  | none, s => s
  | some read, s => if s.remain = 0 then fill stream read s else s

/-- `get_char` -/
def getChar (read : Option ReadFn) (s : Bitstream) : Option UInt8 × Bitstream :=
  let s := refill stream read s
  if 0 < s.remain then
    (some (s.buf.getD s.ptr 0),
      { s with ptr := s.ptr + 1, remain := s.remain - 1, headerLen := s.headerLen + 1 })
  else (none, s)

/-- The bytes from `n` calls of `get_char`. -/
def getChars (read : Option ReadFn) : Nat → Bitstream → List UInt8 × Bitstream
  | 0, s => ([], s)
  | n + 1, s =>
    let (c, s) := getChar stream read s
    let (cs, s) := getChars read n s
    (c.toList ++ cs, s)

end Bitstream

/-! ## The parser on the stream -/

/-- `JpegDec_ExtraMemAlloc` -/
def extraMemAlloc (total used size : Nat) : Option Nat :=
  let size := (size + 3) / 4 * 4
  if total - used < size then none else some (used + size)

/-- The stream and `s_used_extra_mem`. -/
abbrev Source : Type := Bitstream × Nat

variable (stream : List UInt8) (read : Option ReadFn) (total : Nat)

def answers : Answers Request.Answer Source
  | .getChar, s =>
    let (c, b) := s.1.getChar stream read
    some (c, (b, s.2))
  | .alloc size, s => (extraMemAlloc total s.2 size).map fun used => ((), (s.1, used))

/-- `JpegDec_InitBitream` -/
def initBitream (used : Nat) : Option Source :=
  match read with
  | none => some (Bitstream.init stream none, used)
  | some read =>
    (extraMemAlloc total used Bitstream.bufferSize).map (Bitstream.init stream (some read), ·)

/-- `JpegDec_InitBitream` and `ParseHead`, if the memory is enough. -/
def parseHeadFrom (used rounds : Nat) (head : Head) :
    Option ((Except Stop (Option Unit) × Head) × Source) :=
  (initBitream stream read total used).bind fun s =>
    (Reading.parseHead rounds head).run (answers stream read total) s

/-! ## What has been consumed -/

/-- `k` bytes of the stream have been consumed. -/
structure Delivered (k : Nat) (s : Bitstream) : Prop where
  headerLen : s.headerLen.toNat = k
  inside : k + s.remain.toNat ≤ stream.length
  buffered : ∀ i < s.remain.toNat, s.buf[s.ptr + i]? = stream[k + i]?
  whole : read = none → k + s.remain.toNat = stream.length ∧ s.fileOffset = 0
  fetched : read.isSome → s.fileOffset.toNat = k + s.remain.toNat

variable {stream read total} {k : Nat} {s : Bitstream}

theorem toNat_ofNat_length {l : List UInt8} (h : l.length < 2 ^ 32) :
    (UInt32.ofNat l.length).toNat = l.length := by
  rw [UInt32.toNat_ofNat']
  exact Nat.mod_eq_of_lt h

/-- A refill goes on where the buffer ended. -/
theorem delivered_fill (hlen : stream.length < 2 ^ 32) (r : ReadFn)
    (hheader : s.headerLen.toNat = k) (hoffset : s.fileOffset.toNat = k) (hk : k ≤ stream.length) :
    Delivered stream (some r) k (s.fill stream r) ∧
      ((s.fill stream r).remain = 0 → k = stream.length) := by
  set chunk := (stream.drop k).take (r.size s.calls) with hchunk
  have hfill : s.fill stream r =
      { s with
        buf := chunk ++ s.buf.drop chunk.length
        ptr := 0
        remain := UInt32.ofNat chunk.length
        fileOffset := s.fileOffset + UInt32.ofNat chunk.length
        calls := s.calls + 1 } := by
    rw [hchunk, ← hoffset]
    rfl
  have hsize : chunk.length = min (r.size s.calls) (stream.length - k) := by
    rw [hchunk, List.length_take, List.length_drop]
  have hremain : (UInt32.ofNat chunk.length).toNat = chunk.length :=
    toNat_ofNat_length (by omega)
  rw [hfill]
  constructor
  · constructor
    · exact hheader
    · show k + (UInt32.ofNat chunk.length).toNat ≤ stream.length
      omega
    · intro i hi
      replace hi : i < chunk.length := hremain ▸ hi
      show (chunk ++ _)[0 + i]? = _
      rw [Nat.zero_add, List.getElem?_append_left hi, hchunk, List.getElem?_take_of_lt (by omega),
        List.getElem?_drop]
    · exact nofun
    · intro _
      show (s.fileOffset + UInt32.ofNat chunk.length).toNat = _
      rw [Lib.toNat_add_of_lt (by omega), hoffset]
  · intro hzero
    have hnil : chunk.length = 0 := by
      rw [← hremain]
      exact congrArg UInt32.toNat hzero
    have hpos := r.pos s.calls
    omega

theorem delivered_init (hlen : stream.length < 2 ^ 32) :
    Delivered stream read 0 (Bitstream.init stream read) := by
  cases read with
  | none =>
    have hremain := toNat_ofNat_length hlen
    exact
      { headerLen := rfl
        inside := by
          show 0 + (UInt32.ofNat stream.length).toNat ≤ stream.length
          omega
        buffered := fun _ _ => rfl
        whole := fun _ => ⟨by
          show 0 + (UInt32.ofNat stream.length).toNat = stream.length
          omega, rfl⟩
        fetched := nofun }
  | some r => exact (delivered_fill (s := ⟨_, _, _, 0, 0, _⟩) hlen r rfl rfl (Nat.zero_le _)).1

/-- After the start of `get_char` the buffer is empty only at the end of the stream. -/
theorem delivered_refill (hlen : stream.length < 2 ^ 32) (h : Delivered stream read k s) :
    Delivered stream read k (s.refill stream read) ∧
      ((s.refill stream read).remain = 0 → k = stream.length) := by
  cases read with
  | none =>
    refine ⟨h, fun hzero => ?_⟩
    have hwhole := (h.whole rfl).1
    rw [show s.remain = 0 from hzero] at hwhole
    exact hwhole
  | some r =>
    by_cases hzero : s.remain = 0
    · have hoffset := h.fetched rfl
      have hinside := h.inside
      rw [hzero] at hoffset hinside
      rw [Bitstream.refill, if_pos hzero]
      exact delivered_fill hlen r h.headerLen hoffset hinside
    · rw [Bitstream.refill, if_neg hzero]
      exact ⟨h, fun h0 => absurd h0 hzero⟩

/-- **`get_char` returns the next byte of the stream.** -/
theorem getChar_delivered (hlen : stream.length < 2 ^ 32) (h : Delivered stream read k s) :
    ∃ s', s.getChar stream read = (stream[k]?, s') ∧
      Delivered stream read (min (k + 1) stream.length) s' := by
  obtain ⟨hrefill, hend⟩ := delivered_refill hlen h
  unfold Bitstream.getChar
  generalize s.refill stream read = t at hrefill hend
  simp only
  have hinside := hrefill.inside
  by_cases hpos : 0 < t.remain
  · have hremain : 0 < t.remain.toNat := hpos
    have hlt : k < stream.length := by omega
    have hpred : (t.remain - 1).toNat = t.remain.toNat - 1 := by
      rw [UInt32.toNat_sub_of_le _ _ (by exact UInt32.le_iff_toNat_le.2 hremain)]
      rfl
    have hget : t.buf[t.ptr]? = some stream[k] := by
      rw [← List.getElem?_eq_getElem hlt]
      exact hrefill.buffered 0 hremain
    rw [if_pos hpos]
    refine ⟨_, Prod.ext ?_ rfl, ?_⟩
    · rw [List.getD_eq_getElem?_getD, hget, List.getElem?_eq_getElem hlt]
      rfl
    rw [Nat.min_eq_left hlt]
    constructor
    · show (t.headerLen + 1).toNat = k + 1
      rw [Lib.toNat_add_of_lt (by rw [hrefill.headerLen]; show k + 1 < _; omega), hrefill.headerLen]
      rfl
    · show k + 1 + (t.remain - 1).toNat ≤ stream.length
      omega
    · intro i hi
      show t.buf[t.ptr + 1 + i]? = stream[k + 1 + i]?
      replace hi : i < (t.remain - 1).toNat := hi
      rw [Nat.add_right_comm, Nat.add_assoc, Nat.add_right_comm k, Nat.add_assoc k]
      exact hrefill.buffered (i + 1) (by omega)
    · intro hnone
      obtain ⟨hall, hoffset⟩ := hrefill.whole hnone
      refine ⟨?_, hoffset⟩
      show k + 1 + (t.remain - 1).toNat = stream.length
      omega
    · intro hsome
      show t.fileOffset.toNat = k + 1 + (t.remain - 1).toNat
      rw [hrefill.fetched hsome]
      omega
  · have hzero : t.remain = 0 := by
      have := UInt32.not_lt.1 hpos
      exact UInt32.le_zero_iff.1 this
    have hk := hend hzero
    rw [if_neg hpos]
    refine ⟨t, ?_, ?_⟩
    · rw [List.getElem?_eq_none (by omega)]
    · rw [Nat.min_eq_right (by omega), ← hk]
      exact hrefill

theorem take_succ_toList (l : List UInt8) (k n : Nat) :
    l[k]?.toList ++ (l.drop (min (k + 1) l.length)).take n = (l.drop k).take (n + 1) := by
  by_cases hlt : k < l.length
  · rw [List.getElem?_eq_getElem hlt, Nat.min_eq_left hlt, List.drop_eq_getElem_cons hlt]
    rfl
  · have hnil (m : Nat) (hm : l.length ≤ m) : l.drop m = [] := List.drop_eq_nil_of_le hm
    rw [List.getElem?_eq_none (by omega), hnil k (by omega), hnil _ (by omega)]
    simp

/-- `n` calls of `get_char` return the next `n` bytes. -/
theorem getChars_delivered (hlen : stream.length < 2 ^ 32) (n : Nat)
    (h : Delivered stream read k s) :
    (s.getChars stream read n).1 = (stream.drop k).take n ∧
      Delivered stream read (min (k + n) stream.length) (s.getChars stream read n).2 := by
  induction n generalizing k s with
  | zero =>
    have hk : k ≤ stream.length := Nat.le_trans (Nat.le_add_right _ _) h.inside
    refine ⟨by rw [List.take_zero]; rfl, ?_⟩
    rw [Nat.add_zero, Nat.min_eq_left hk]
    exact h
  | succ n ih =>
    obtain ⟨s', hget, h'⟩ := getChar_delivered hlen h
    obtain ⟨hbytes, hafter⟩ := ih h'
    rw [Bitstream.getChars, hget]
    simp only
    refine ⟨by rw [hbytes, take_succ_toList], ?_⟩
    rwa [show min (k + (n + 1)) stream.length =
      min (min (k + 1) stream.length + n) stream.length by omega]

theorem getChars_add (n m : Nat) (s : Bitstream) :
    (s.getChars stream read (n + m)).2 =
      ((s.getChars stream read n).2.getChars stream read m).2 := by
  induction n generalizing s with
  | zero => rw [Nat.zero_add]; rfl
  | succ n ih =>
    rw [Nat.add_right_comm]
    exact ih (s.getChar stream read).2

/-! ## The same for both -/

/-- The same bytes have been consumed, and the first has not taken less memory. -/
def SameConsumed (stream : List UInt8) (read read' : Option ReadFn) (s t : Source) : Prop :=
  (∃ k, Delivered stream read k s.1 ∧ Delivered stream read' k t.1) ∧ t.2 ≤ s.2

theorem follows_answers (hlen : stream.length < 2 ^ 32) (read read' : Option ReadFn)
    (total : Nat) :
    Prog.Follows (SameConsumed stream read read') (answers stream read total)
      (answers stream read' total) := by
  intro r s t b s' hR hs
  obtain ⟨⟨k, hdelivered, hdelivered'⟩, hused⟩ := hR
  cases r with
  | getChar =>
    obtain ⟨b₁, hget, h₁⟩ := getChar_delivered hlen hdelivered
    obtain ⟨b₂, hget', h₂⟩ := getChar_delivered hlen hdelivered'
    simp only [answers, hget, Option.some.injEq] at hs
    obtain ⟨rfl, rfl⟩ := hs
    refine ⟨(b₂, t.2), ?_, ⟨_, h₁, h₂⟩, hused⟩
    simp only [answers, hget']
  | alloc size =>
    simp only [answers, extraMemAlloc] at hs ⊢
    split at hs
    · cases hs
    · next hfits =>
      cases hs
      rw [if_neg (by omega)]
      exact ⟨_, rfl, ⟨k, hdelivered, hdelivered'⟩, Nat.add_le_add_right hused _⟩

/-- A run only calls `get_char` and takes memory. -/
theorem run_getChars {α : Type} (p : Prog Request.Answer α) {s s' : Source} {a : α}
    (hrun : p.run (answers stream read total) s = some (a, s')) :
    ∃ n, s'.1 = (s.1.getChars stream read n).2 := by
  refine Prog.run_moves (M := fun s s' => ∃ n, s'.1 = (s.1.getChars stream read n).2)
    (fun _ => ⟨0, rfl⟩) ?_ ?_ p hrun
  · rintro s s₁ s₂ ⟨n, hn⟩ ⟨m, hm⟩
    exact ⟨n + m, by rw [getChars_add, ← hn, hm]⟩
  · intro r s b s' hs
    cases r with
    | getChar =>
      cases hs
      exact ⟨1, rfl⟩
    | alloc size =>
      simp only [answers, Option.map_eq_some_iff] at hs
      obtain ⟨used, -, hs⟩ := hs
      cases hs
      exact ⟨0, rfl⟩

/-- Enough memory for a run. -/
theorem exists_need {α : Type} (stream : List UInt8) (read : Option ReadFn)
    (p : Prog Request.Answer α) (b : Bitstream) :
    ∃ need, ∀ total used, used + need ≤ total →
      ∃ x, p.run (answers stream read total) (b, used) = some x := by
  induction p generalizing b with
  | done a => exact ⟨0, fun _ _ _ => ⟨_, rfl⟩⟩
  | request r next ih =>
    cases r with
    | getChar =>
      obtain ⟨need, hneed⟩ := ih (b.getChar stream read).1 (b.getChar stream read).2
      exact ⟨need, fun total used hle => hneed total used hle⟩
    | alloc size =>
      obtain ⟨need, hneed⟩ := ih () b
      refine ⟨(size + 3) / 4 * 4 + need, fun total used hle => ?_⟩
      obtain ⟨x, hx⟩ := hneed total (used + (size + 3) / 4 * 4) (by omega)
      refine ⟨x, ?_⟩
      simp only [Prog.run, answers, extraMemAlloc]
      rw [if_neg (by omega)]
      exact hx

/-! ## Enough rounds -/

/-- A stream that is there at once, and memory without end. -/
def bytes : Answers Request.Answer (List UInt8)
  | .getChar, rest => some (rest.head?, rest.tail)
  | .alloc _, rest => some ((), rest)

theorem follows_bytes (hlen : stream.length < 2 ^ 32) (read : Option ReadFn) (total : Nat) :
    Prog.Follows (fun s rest => ∃ k, Delivered stream read k s.1 ∧ rest = stream.drop k)
      (answers stream read total) bytes := by
  rintro r s - b s' ⟨k, hdelivered, rfl⟩ hs
  cases r with
  | getChar =>
    obtain ⟨b₁, hget, h₁⟩ := getChar_delivered hlen hdelivered
    simp only [answers, hget, Option.some.injEq] at hs
    obtain ⟨rfl, rfl⟩ := hs
    refine ⟨_, by rw [bytes, List.head?_drop], _, h₁, ?_⟩
    rw [List.tail_drop]
    by_cases hlt : k < stream.length
    · rw [Nat.min_eq_left hlt]
    · rw [List.drop_eq_nil_of_le (by omega), List.drop_eq_nil_of_le (by omega)]
  | alloc size =>
    simp only [answers, Option.map_eq_some_iff] at hs
    obtain ⟨used, -, hs⟩ := hs
    cases hs
    exact ⟨_, rfl, k, hdelivered, rfl⟩

namespace Reading

variable {α β : Type} {σ : Type} {h : Answers Request.Answer σ} {m : Reading α} {f : α → Reading β}
  {x x'' : Head} {t t'' : σ} {b : β}

/-- A part of the parser that goes on has gone through both of its steps. -/
theorem bind_ok (hrun : ((m >>= f) x).run h t = some ((.ok b, x''), t'')) :
    ∃ a x' t', (m x).run h t = some ((.ok a, x'), t') ∧
      (f a x').run h t' = some ((.ok b, x''), t'') := by
  change (Reading.bind m f x).run h t = _ at hrun
  unfold Reading.bind at hrun
  rw [Prog.run_bind, Option.bind_eq_some_iff] at hrun
  obtain ⟨⟨⟨e, x'⟩, t'⟩, hm, hf⟩ := hrun
  cases e with
  | error e => cases hf
  | ok a => exact ⟨a, x', t', hm, hf⟩

theorem pure_ok {a b : α} (hrun : ((pure a : Reading α) x).run h t = some ((.ok b, x''), t'')) :
    a = b ∧ x = x'' ∧ t = t'' := by
  change some ((Except.ok a, x), t) = _ at hrun
  cases hrun
  exact ⟨rfl, rfl, rfl⟩

theorem stop_ok {e : Stop} {a : α} :
    ¬((stop e : Reading α) x).run h t = some ((.ok a, x''), t'') := nofun

variable {rest rest' : List UInt8}

theorem getChar_ok {c : UInt8} (hrun : (getChar x).run bytes rest = some ((.ok c, x''), rest')) :
    rest = c :: rest' ∧ x = x'' := by
  cases rest with
  | nil => cases hrun
  | cons b rest =>
    cases hrun
    exact ⟨rfl, rfl⟩

/-- No part of the parser puts bytes back. -/
theorem run_bytes_le {p : Prog Request.Answer α} {a : α}
    (hrun : p.run bytes rest = some (a, rest')) : rest'.length ≤ rest.length := by
  refine Prog.run_moves (M := fun s s' => s'.length ≤ s.length) (fun _ => Nat.le_refl _)
    (fun _ _ _ h h' => Nat.le_trans h' h) ?_ p hrun
  intro r s b s' hs
  cases r with
  | getChar =>
    cases hs
    rw [List.length_tail]
    exact Nat.sub_le _ _
  | alloc size =>
    cases hs
    exact Nat.le_refl _

/-- A marker is found while there are bytes, and takes some. -/
theorem getNextMarker_ok {n : Nat} {seen : Bool} {c? : Option UInt8} (hn : rest.length < n)
    (hrun : (getNextMarker n seen x).run bytes rest = some ((.ok c?, x''), rest')) :
    c? ≠ none ∧ rest'.length < rest.length := by
  induction n generalizing seen rest x with
  | zero => exact absurd hn (Nat.not_lt_zero _)
  | succ n ih =>
    rw [getNextMarker] at hrun
    obtain ⟨c, x₁, rest₁, hget, hnext⟩ := bind_ok hrun
    obtain ⟨rfl, -⟩ := getChar_ok hget
    have hlt : rest₁.length < n := by
      rw [List.length_cons] at hn
      omega
    rw [List.length_cons]
    split at hnext
    · exact ⟨(ih hlt hnext).1, Nat.lt_succ_of_lt (ih hlt hnext).2⟩
    split at hnext
    · exact ⟨(ih hlt hnext).1, Nat.lt_succ_of_lt (ih hlt hnext).2⟩
    split at hnext
    · exact ⟨(ih hlt hnext).1, Nat.lt_succ_of_lt (ih hlt hnext).2⟩
    · obtain ⟨rfl, -, rfl⟩ := pure_ok hnext
      exact ⟨nofun, Nat.lt_succ_self _⟩

variable {rounds : Nat}

/-- Every round of `ProcessTables` reads a marker. -/
theorem processTables_ok {n : Nat} {c? : Option UInt8} (hrounds : rest.length < rounds)
    (hn : rest.length < n)
    (hrun : (processTables rounds n x).run bytes rest = some ((.ok c?, x''), rest')) :
    c? ≠ none := by
  induction n generalizing rest x with
  | zero => exact absurd hn (Nat.not_lt_zero _)
  | succ n ih =>
    rw [processTables] at hrun
    obtain ⟨m, x₁, rest₁, hmarker, hnext⟩ := bind_ok hrun
    obtain ⟨hsome, hlt⟩ := getNextMarker_ok hrounds hmarker
    cases m with
    | none => exact absurd rfl hsome
    | some c =>
      simp only at hnext
      cases haction : actionOf c with
      | stop =>
        simp only [haction] at hnext
        obtain ⟨rfl, -⟩ := pure_ok hnext
        exact nofun
      | error =>
        simp only [haction] at hnext
        exact absurd hnext stop_ok
      | handle hd =>
        simp only [haction] at hnext
        obtain ⟨_, x₂, rest₂, hhandle, hloop⟩ := bind_ok hnext
        have hle := run_bytes_le hhandle
        exact ih (by omega) (by omega) hloop

theorem findSOI_ok {n : Nat} {u? : Option Unit} (hrounds : rest.length < rounds)
    (hn : rest.length < n)
    (hrun : (findSOI rounds n x).run bytes rest = some ((.ok u?, x''), rest')) : u? ≠ none := by
  induction n generalizing rest x with
  | zero => exact absurd hn (Nat.not_lt_zero _)
  | succ n ih =>
    rw [findSOI] at hrun
    obtain ⟨m, x₁, rest₁, hmarker, hnext⟩ := bind_ok hrun
    obtain ⟨hsome, hlt⟩ := getNextMarker_ok hrounds hmarker
    cases m with
    | none => exact absurd rfl hsome
    | some c =>
      simp only at hnext
      split at hnext
      · exact absurd hnext stop_ok
      split at hnext
      · obtain ⟨rfl, -⟩ := pure_ok hnext
        exact nofun
      · exact ih (by omega) (by omega) hnext

/-- **More rounds than bytes are enough.** -/
theorem parseHead_ok {u? : Option Unit} (hrounds : rest.length < rounds)
    (hrun : (parseHead rounds x).run bytes rest = some ((.ok u?, x''), rest')) : u? ≠ none := by
  rw [parseHead] at hrun
  obtain ⟨u, x₁, rest₁, hsoi, hnext⟩ := bind_ok hrun
  cases u with
  | none => exact absurd rfl (findSOI_ok hrounds hrounds hsoi)
  | some u =>
    have hle := run_bytes_le hsoi
    obtain ⟨c?, x₂, rest₂, htables, hend⟩ := bind_ok hnext
    have hsome := processTables_ok (by omega) (by omega) htables
    cases c? with
    | none => exact absurd rfl hsome
    | some c =>
      simp only at hend
      split at hend
      · obtain ⟨_, _, _, _, hpure⟩ := bind_ok hend
        obtain ⟨rfl, -⟩ := pure_ok hpure
        exact nofun
      · exact absurd hend stop_ok

end Reading

/-! ## The header -/

theorem sub_eq_ofNat {x y : UInt32} {k : Nat} (h : x.toNat = k + y.toNat) :
    x - y = UInt32.ofNat k := by
  have hx := x.toNat_lt
  rw [← UInt32.toNat_inj, UInt32.toNat_sub_of_le _ _ (UInt32.le_iff_toNat_le.2 (by omega)),
    UInt32.toNat_ofNat', Nat.mod_eq_of_lt (by omega)]
  omega

/-- The bytes from `n` calls of `get_char`, and where the variables then are. -/
structure Counted (stream : List UInt8) (read : Option ReadFn) (got : List UInt8) (n : Nat)
    (s : Bitstream) : Prop where
  bytes : got = stream.take n
  headerLen : s.headerLen = UInt32.ofNat got.length
  fetched : read.isSome → s.fileOffset - s.remain = UInt32.ofNat got.length
  whole : read = none →
    s.fileOffset = 0 ∧ UInt32.ofNat stream.length - s.remain = UInt32.ofNat got.length

theorem counted_getChars (hlen : stream.length < 2 ^ 32) (read : Option ReadFn) (n : Nat) :
    Counted stream read ((Bitstream.init stream read).getChars stream read n).1 n
      ((Bitstream.init stream read).getChars stream read n).2 := by
  have hinit : Delivered stream read 0 (Bitstream.init stream read) := delivered_init hlen
  obtain ⟨hbytes, h⟩ := getChars_delivered hlen n hinit
  generalize (Bitstream.init stream read).getChars stream read n = out at hbytes h
  rw [List.drop_zero] at hbytes
  have hlength : out.1.length = min (0 + n) stream.length := by
    rw [hbytes, List.length_take, Nat.zero_add]
  rw [← hlength] at h
  constructor
  · exact hbytes
  · rw [← UInt32.toNat_inj, h.headerLen, toNat_ofNat_length (by omega)]
  · exact fun hsome => sub_eq_ofNat (h.fetched hsome)
  · intro hnone
    obtain ⟨hall, hoffset⟩ := h.whole hnone
    exact ⟨hoffset, sub_eq_ofNat (by rw [toNat_ofNat_length hlen, hall])⟩

theorem same_start (hlen : stream.length < 2 ^ 32) {r : ReadFn} {used : Nat} {src : Source}
    (hstart : initBitream stream (some r) total used = some src) :
    ∃ src', initBitream stream none total used = some src' ∧
      SameConsumed stream (some r) none src src' := by
  simp only [initBitream, extraMemAlloc, Option.map_eq_some_iff] at hstart
  obtain ⟨used', halloc, rfl⟩ := hstart
  split at halloc
  · cases halloc
  · cases halloc
    exact ⟨_, rfl, ⟨0, delivered_init hlen, delivered_init hlen⟩, Nat.le_add_right _ _⟩

/-- **The delivery of the stream makes no difference to `ParseHead`**, while there is memory. -/
theorem parseHead_delivery {stream : List UInt8} (hlen : stream.length < 2 ^ 32) (read : ReadFn)
    (rounds : Nat) (head : Head) :
    (∀ total used result head' src,
      parseHeadFrom stream (some read) total used rounds head = some ((result, head'), src) →
      (stream.length < rounds → result ≠ .ok none) ∧
      (∃ src', parseHeadFrom stream none total used rounds head = some ((result, head'), src') ∧
        src'.1.headerLen = src.1.headerLen) ∧
      ∃ n, src.1 =
        ((Bitstream.init stream (some read)).getChars stream (some read) n).2) ∧
    (∃ need, ∀ total used, used + need ≤ total →
      ∃ out, parseHeadFrom stream (some read) total used rounds head = some out) ∧
    ∀ (read? : Option ReadFn) (n : Nat),
      Counted stream read? ((Bitstream.init stream read?).getChars stream read? n).1 n
        ((Bitstream.init stream read?).getChars stream read? n).2 := by
  refine ⟨fun total used result head' src hrun => ?_, ?_, counted_getChars hlen⟩
  · unfold parseHeadFrom at hrun
    rw [Option.bind_eq_some_iff] at hrun
    obtain ⟨start, hstart, hrun⟩ := hrun
    obtain ⟨start', hstart', hsame⟩ := same_start hlen hstart
    refine ⟨fun hrounds => ?_, ?_, ?_⟩
    · obtain ⟨k, hdelivered, -⟩ := hsame.1
      obtain ⟨rest, hbytes, -⟩ :=
        Prog.run_follows (follows_bytes hlen (some read) total) _ ⟨k, hdelivered, rfl⟩ hrun
      rintro rfl
      have hle : (stream.drop k).length ≤ stream.length := by
        rw [List.length_drop]
        exact Nat.sub_le _ _
      exact absurd rfl (Reading.parseHead_ok (Nat.lt_of_le_of_lt hle hrounds) hbytes)
    · obtain ⟨src', hrun', ⟨k, h, h'⟩, -⟩ :=
        Prog.run_follows (follows_answers hlen (some read) none total) _ hsame hrun
      refine ⟨src', ?_, ?_⟩
      · rw [parseHeadFrom, hstart']
        exact hrun'
      · rw [← UInt32.toNat_inj, h.headerLen, h'.headerLen]
    · obtain ⟨n, hn⟩ := run_getChars _ hrun
      simp only [initBitream, Option.map_eq_some_iff] at hstart
      obtain ⟨used', -, rfl⟩ := hstart
      exact ⟨n, hn⟩
  · obtain ⟨need, hneed⟩ := exists_need stream (some read) (Reading.parseHead rounds head)
      (Bitstream.init stream (some read))
    refine ⟨Bitstream.bufferSize + need, fun total used hle => ?_⟩
    obtain ⟨out, hout⟩ := hneed total (used + Bitstream.bufferSize) (by omega)
    refine ⟨out, ?_⟩
    have hfits : ¬total - used < (Bitstream.bufferSize + 3) / 4 * 4 := by
      rw [show (Bitstream.bufferSize + 3) / 4 * 4 = Bitstream.bufferSize from rfl]
      omega
    rw [parseHeadFrom, initBitream, extraMemAlloc, if_neg hfits]
    exact hout

/-- `JPEG_FWParseHead` before the stream is looked at. -/
def Head.init : Head where
  codec := { Codec.init with restartInterval := 0x3FFFF, restartToGo := 0x3FFFF }
  usingDefaultHuffTab := true
  usingDefaultQuantTab := true
  huffTblMalloced := false

/-- A callback that returns one byte at a time. -/
def oneByOne : ReadFn := ⟨fun _ => 1, fun _ => Nat.one_pos, fun _ => by decide⟩

/-- SOI, SOF0 and SOS for a grey picture. -/
def grey : List UInt8 :=
  [0xFF, 0xD8, 0xFF, 0xC0, 0, 11, 8, 0, 16, 0, 16, 1, 1, 0x11, 0, 0xFF, 0xDA, 0, 8, 1, 1, 0, 0, 63,
    0]

/-- The header of the picture is accepted, also when every word of it is split. -/
theorem parseHead_delivery_grey :
    ∃ head src src',
      parseHeadFrom grey (some oneByOne) 4096 0 26 Head.init =
        some ((.ok (some ()), head), src) ∧
      parseHeadFrom grey none 4096 0 26 Head.init = some ((.ok (some ()), head), src') ∧
      src'.1.headerLen = src.1.headerLen := by
  have haccepted : (parseHeadFrom grey (some oneByOne) 4096 0 26 Head.init).bind
      (fun out => out.1.1.toOption) = some (some ()) := by decide +kernel
  rw [Option.bind_eq_some_iff] at haccepted
  obtain ⟨⟨⟨result, head⟩, src⟩, hrun, hresult⟩ := haccepted
  cases result with
  | error e => cases hresult
  | ok u =>
    cases hresult
    obtain ⟨src', hplain, hheader⟩ :=
      ((parseHead_delivery (by decide) oneByOne 26 Head.init).1 _ _ _ _ _ hrun).2.1
    exact ⟨head, src, src', hrun, hplain, hheader⟩

/-- SOI and the start of DQT. -/
def dqtStart : List UInt8 := [0xFF, 0xD8, 0xFF, 0xDB, 0, 67, 0]

/-- Without a callback `s_file_offset` stays 0; and the buffer of the callback can take the last of
the memory. -/
theorem not_delivery_whole :
    (Bitstream.init [0xFF] none).fileOffset - (Bitstream.init [0xFF] none).remain ≠
      UInt32.ofNat ((Bitstream.init [0xFF] none).getChars [0xFF] none 0).1.length ∧
    (parseHeadFrom dqtStart none 3072 0 8 Head.init).isSome = true ∧
    parseHeadFrom dqtStart (some oneByOne) 3072 0 8 Head.init = none := by
  decide +kernel

end SprdHal.Jpeg
