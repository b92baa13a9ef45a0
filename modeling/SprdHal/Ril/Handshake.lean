import SprdHal.Lib.OnePass
import SprdHal.Lib.Search

/-!
# The handshake with the modem (`modemd.c`)

`start_service` writes a command to the modem and reads until the bytes received contain the answer
`OK` or `ERROR`, which `findInBuf` looks for in the whole buffer. A modem sends garbage before the
first answer, and `findInBuf` does not look back: it misses an answer that begins inside a
beginning of the answer, the `OK` of `OOK`.
-/

namespace SprdHal.Ril

open SprdHal.Lib

/-- A string to be found, without the NUL at its end. -/
structure Needle where
  text : List UInt8
  ne_nil : text ≠ []
  nul_free : (0 : UInt8) ∉ text

/-- `findInBuf`; the needle is not empty. -/
def findInBuf (buf : List UInt8) (len : Nat) (needle : Needle) : Nat :=
  if onePass needle.text 0 (buf.take len) then 1 else 0

inductive Answer
  | ok | error
  deriving DecidableEq, Repr

def Answer.needle : Answer → Needle
  | .ok => ⟨[0x4f, 0x4b], nofun, by decide⟩
  | .error => ⟨[0x45, 0x52, 0x52, 0x4f, 0x52], nofun, by decide⟩

/-- `sizeof(buffer)` -/
def handshakeSize : Nat := 50

/-- `buffer`, which was cleared before the first read. -/
def handshakeBuf (received : List UInt8) : List UInt8 :=
  received ++ List.replicate (handshakeSize - received.length) 0

/-- The two calls of `findInBuf` after a read. -/
def lookAt (received : List UInt8) : Option Answer :=
  if findInBuf (handshakeBuf received) handshakeSize Answer.ok.needle = 1 then some .ok
  else if findInBuf (handshakeBuf received) handshakeSize Answer.error.needle = 1 then some .error
  else none

/-- What a read that succeeds returns. -/
abbrev Fragment := { bs : List UInt8 // bs ≠ [] }

/-- A read returns data, or it fails and the command is written again, with success or not. -/
inductive ModemRead
  | data (bs : Fragment)
  | fails (rewritten : Bool)

/-- How a round of the handshake ends; it waits on when the reads are used up. -/
inductive Outcome
  | answer (a : Answer)
  | writeFailed
  | noResponse
  | waiting
  deriving DecidableEq, Repr

/-- The end of a round, the number of its reads, and the commands written again so far
(`count`). -/
structure Round where
  outcome : Outcome
  reads : Nat
  count : Nat
  deriving DecidableEq, Repr

def Round.next (r : Round) : Round := { r with reads := r.reads + 1 }

/-- The loop of `start_service` that waits for an answer. -/
def awaitAnswer (received : List UInt8) (count : Nat) : List ModemRead → Round
  | [] => ⟨.waiting, 0, count⟩
  | .data bs :: rest =>
    match lookAt (received ++ bs) with
    | some a => ⟨.answer a, 1, count⟩
    | none =>
      if 5 < count then ⟨.noResponse, 1, count⟩
      else (awaitAnswer (received ++ bs) count rest).next
  | .fails rewritten :: rest =>
    if ¬rewritten then ⟨.writeFailed, 1, count⟩
    else if 5 < count + 1 then ⟨.noResponse, 1, count + 1⟩
    else (awaitAnswer received (count + 1) rest).next

/-- The two rounds of `start_service`: after the first `OK` the buffer is cleared and `AT+CMUX=0`
written. -/
def handshake (reads : List ModemRead) : Round × Option Round :=
  let first := awaitAnswer [] 0 reads
  match first.outcome with
  | .answer .ok => (first, some (awaitAnswer [] first.count (reads.drop first.reads)))
  | _ => (first, none)

/-! ## What the handshake is meant to do -/

/-- The answer in the bytes received: `OK` or, failing that, `ERROR`. -/
def answerIn (received : List UInt8) : Option Answer :=
  if occurs Answer.ok.needle.text received then some .ok
  else if occurs Answer.error.needle.text received then some .error
  else none

/-- Reads that fit the buffer. -/
structure Fragments where
  reads : List Fragment
  fits : (reads.map Subtype.val).flatten.length ≤ handshakeSize

/-- The bytes of the first `n` reads. -/
def Fragments.bytes (fs : Fragments) (n : Nat) : List UInt8 :=
  ((fs.reads.take n).map Subtype.val).flatten

/-- `h` has its first value at `n`. -/
def FirstAt {β : Type} (last : Nat) (h : Nat → Option β) (b : β) (n : Nat) : Prop :=
  n ≤ last ∧ h n = some b ∧ ∀ k < n, h k = none

/-- After `n` reads the bytes received contain an answer for the first time. -/
def Fragments.Answered (fs : Fragments) (a : Answer) (n : Nat) : Prop :=
  FirstAt fs.reads.length (fun k => answerIn (fs.bytes k)) a n

/-- A round with `count` commands written again before it ends with the first read after which the
bytes received contain an answer, and with that answer. -/
def StopsAtAnswer (count : Nat) (fs : Fragments) : Prop :=
  ∀ a n, (awaitAnswer [] count (fs.reads.map .data)).outcome = .answer a ∧
    (awaitAnswer [] count (fs.reads.map .data)).reads = n ↔ fs.Answered a n

/-! ## Proof -/

theorem findInBuf_eq_one {buf : List UInt8} {len : Nat} {needle : Needle} :
    findInBuf buf len needle = 1 ↔ OccursApart needle.text (buf.take len) := by
  rw [← onePass_iff needle.ne_nil]
  unfold findInBuf
  split
  · rename_i h
    exact iff_of_true rfl h
  · rename_i h
    exact iff_of_false (by decide) h

/-- The zeros behind the bytes received do not matter. -/
theorem findInBuf_handshakeBuf {received : List UInt8} (h : received.length ≤ handshakeSize)
    (needle : Needle) :
    findInBuf (handshakeBuf received) handshakeSize needle = 1 ↔
      OccursApart needle.text received := by
  have hlen : (handshakeBuf received).length = handshakeSize := by
    unfold handshakeBuf
    rw [List.length_append, List.length_replicate]
    omega
  rw [findInBuf_eq_one, List.take_of_length_le (Nat.le_of_eq hlen), ← onePass_iff needle.ne_nil,
    handshakeBuf, onePass_append_foreign needle.nul_free, onePass_iff needle.ne_nil]

theorem lookAt_nil : lookAt [] = none := by decide

section FirstAt

variable {β : Type} {last : Nat} {f g : Nat → Option β}

theorem FirstAt.unique {b b' : β} {n n' : Nat} (h : FirstAt last f b n) (h' : FirstAt last f b' n') :
    b = b' ∧ n = n' := by
  obtain ⟨-, hb, hmin⟩ := h
  obtain ⟨-, hb', hmin'⟩ := h'
  obtain hlt | rfl | hlt := Nat.lt_trichotomy n n'
  · rw [hmin' n hlt] at hb
    exact nomatch hb
  · rw [hb] at hb'
    exact ⟨Option.some.inj hb', rfl⟩
  · rw [hmin n' hlt] at hb'
    exact nomatch hb'

theorem exists_firstAt {b : β} {n : Nat} (hn : n ≤ last) (h : f n = some b) :
    ∃ b' n', n' ≤ n ∧ FirstAt last f b' n' := by
  induction n using Nat.strongRecOn generalizing b with
  | _ n ih =>
    by_cases hall : ∀ k < n, f k = none
    · exact ⟨b, n, Nat.le_refl n, hn, h, hall⟩
    · push Not at hall
      obtain ⟨k, hk, hne⟩ := hall
      obtain ⟨c, hc⟩ := Option.ne_none_iff_exists'.mp hne
      obtain ⟨b', n', hle, hfirst⟩ := ih k hk (by omega) hc
      exact ⟨b', n', by omega, hfirst⟩

/-- Where `f` has values only where `g` has them, both have the same first value exactly if `f` has
the first value of `g`. -/
theorem firstAt_congr_iff (hsound : ∀ k, g k = none → f k = none) :
    (∀ b n, FirstAt last f b n ↔ FirstAt last g b n) ↔
      ∀ b n, FirstAt last g b n → f n = some b := by
  constructor
  · exact fun h b n hg => ((h b n).mpr hg).2.1
  · intro h
    have hof : ∀ b n, FirstAt last g b n → FirstAt last f b n :=
      fun b n hg => ⟨hg.1, h b n hg, fun k hk => hsound k (hg.2.2 k hk)⟩
    intro b n
    refine ⟨fun hf => ?_, hof b n⟩
    have hne : g n ≠ none := fun hg => nomatch (hsound n hg).symm.trans hf.2.1
    obtain ⟨c, hc⟩ := Option.ne_none_iff_exists'.mp hne
    obtain ⟨b', n', -, hg⟩ := exists_firstAt hf.1 hc
    obtain ⟨rfl, rfl⟩ := hf.unique (hof b' n' hg)
    exact hg

end FirstAt

/-- The loop stops at the first read after which `findInBuf` finds an answer. -/
theorem awaitAnswer_iff (frags : List Fragment) {received : List UInt8} {count : Nat}
    (hcount : count ≤ 5) (hnone : lookAt received = none) (a : Answer) (n : Nat) :
    (awaitAnswer received count (frags.map .data)).outcome = .answer a ∧
      (awaitAnswer received count (frags.map .data)).reads = n ↔
    FirstAt frags.length
      (fun k => lookAt (received ++ ((frags.take k).map Subtype.val).flatten)) a n := by
  induction frags generalizing received n with
  | nil =>
    constructor
    · exact fun h => nomatch h.1
    · rintro ⟨-, h, -⟩
      simp only [List.take_nil, List.map_nil, List.flatten_nil, List.append_nil, hnone] at h
      exact nomatch h
  | cons bs frags ih =>
    have hzero : lookAt (received ++ (((bs :: frags).take 0).map Subtype.val).flatten) = none := by
      simpa using hnone
    have hsucc : ∀ k, received ++ (((bs :: frags).take (k + 1)).map Subtype.val).flatten =
        received ++ bs.1 ++ ((frags.take k).map Subtype.val).flatten := by
      intro k
      simp
    cases hlook : lookAt (received ++ bs.1) with
    | some a' =>
      have hstop : awaitAnswer received count ((bs :: frags).map .data) = ⟨.answer a', 1, count⟩ := by
        simp only [List.map_cons, awaitAnswer, hlook]
      have hfirst : FirstAt (bs :: frags).length
          (fun k => lookAt (received ++ (((bs :: frags).take k).map Subtype.val).flatten)) a' 1 := by
        refine ⟨Nat.succ_le_succ (Nat.zero_le _), ?_, fun k hk => ?_⟩
        · simpa using hlook
        · obtain rfl := Nat.lt_one_iff.mp hk
          exact hzero
      rw [hstop]
      constructor
      · rintro ⟨h, rfl⟩
        obtain rfl := Outcome.answer.inj h
        exact hfirst
      · intro h
        obtain ⟨rfl, rfl⟩ := h.unique hfirst
        exact ⟨rfl, rfl⟩
    | none =>
      have hgo : awaitAnswer received count ((bs :: frags).map .data) =
          (awaitAnswer (received ++ bs.1) count (frags.map .data)).next := by
        simp only [List.map_cons, awaitAnswer, hlook]
        rw [if_neg (by omega)]
      rw [hgo]
      cases n with
      | zero =>
        constructor
        · exact fun h => nomatch h.2
        · exact fun h => nomatch hzero.symm.trans h.2.1
      | succ n =>
        have ih := ih hlook n
        simp only [Round.next, Nat.add_right_cancel_iff]
        rw [ih]
        unfold FirstAt
        simp only [hsucc, List.length_cons, Nat.add_le_add_iff_right]
        refine and_congr_right fun _ => and_congr_right fun _ => ⟨fun h k hk => ?_, fun h k hk => ?_⟩
        · cases k with
          | zero => exact hzero
          | succ k =>
            rw [hsucc]
            exact h k (by omega)
        · have := h (k + 1) (by omega)
          rwa [hsucc] at this

theorem length_bytes_le (fs : Fragments) (n : Nat) : (fs.bytes n).length ≤ handshakeSize := by
  refine Nat.le_trans ?_ fs.fits
  have hsplit : (fs.reads.map Subtype.val).flatten =
      fs.bytes n ++ ((fs.reads.drop n).map Subtype.val).flatten := by
    rw [Fragments.bytes, ← List.flatten_append, ← List.map_append, List.take_append_drop]
  rw [hsplit, List.length_append]
  exact Nat.le_add_right _ _

theorem lookAt_of_answerIn_none {received : List UInt8} (h : received.length ≤ handshakeSize)
    (hnone : answerIn received = none) : lookAt received = none := by
  unfold answerIn at hnone
  split at hnone
  · cases hnone
  rename_i hok
  split at hnone
  · cases hnone
  rename_i herror
  rw [occurs_iff] at hok herror
  unfold lookAt
  rw [if_neg fun hc => hok ((findInBuf_handshakeBuf h _).mp hc).isInfix,
    if_neg fun hc => herror ((findInBuf_handshakeBuf h _).mp hc).isInfix]

theorem lookAt_eq_some_iff {received : List UInt8} (h : received.length ≤ handshakeSize)
    {a : Answer} (ha : answerIn received = some a) :
    lookAt received = some a ↔ OccursApart a.needle.text received := by
  rw [← findInBuf_handshakeBuf h]
  unfold lookAt
  unfold answerIn at ha
  split at ha
  · obtain rfl := Option.some.inj ha
    split
    · rename_i hok
      exact iff_of_true rfl hok
    · rename_i hok
      refine iff_of_false (fun hc => ?_) hok
      split at hc
      · cases hc
      · cases hc
  · rename_i hok
    rw [occurs_iff] at hok
    rw [if_neg fun hc => hok ((findInBuf_handshakeBuf h _).mp hc).isInfix]
    split at ha
    · obtain rfl := Option.some.inj ha
      split
      · rename_i herror
        exact iff_of_true rfl herror
      · rename_i herror
        exact iff_of_false (by simp) herror
    · cases ha

/-- **Recognising an answer.** `findInBuf` finds what occurs exactly if it occurs behind pieces that
break off a beginning of it, and the handshake stops at the first read with an answer exactly if
that answer does. -/
theorem handshake_recognises_iff (buf : List UInt8) (len : Nat) (needle : Needle) (count : Fin 6)
    (fs : Fragments) :
    ((findInBuf buf len needle = 1 ↔ needle.text <:+: buf.take len) ↔
      (needle.text <:+: buf.take len → OccursApart needle.text (buf.take len))) ∧
    (StopsAtAnswer count fs ↔
      ∀ a n, fs.Answered a n → OccursApart a.needle.text (fs.bytes n)) := by
  constructor
  · rw [findInBuf_eq_one]
    exact ⟨fun h => h.mpr, fun h => ⟨OccursApart.isInfix, h⟩⟩
  · have hcode : ∀ a n, (awaitAnswer [] count (fs.reads.map .data)).outcome = .answer a ∧
        (awaitAnswer [] count (fs.reads.map .data)).reads = n ↔
        FirstAt fs.reads.length (fun k => lookAt (fs.bytes k)) a n :=
      fun a n => awaitAnswer_iff fs.reads (Nat.lt_succ_iff.mp count.isLt) lookAt_nil a n
    unfold StopsAtAnswer
    simp only [hcode]
    unfold Fragments.Answered
    rw [firstAt_congr_iff fun k => lookAt_of_answerIn_none (length_bytes_le fs k)]
    refine forall_congr' fun a => forall_congr' fun n => forall_congr' fun hfirst => ?_
    exact lookAt_eq_some_iff (length_bytes_le fs n) hfirst.2.1

/-- In `OOK` no `OK` is found, and the handshake does not stop. -/
theorem answer_missed :
    (¬∀ (buf : List UInt8) (len : Nat) (needle : Needle),
      findInBuf buf len needle = 1 ↔ needle.text <:+: buf.take len) ∧
    ¬∀ (count : Fin 6) (fs : Fragments), StopsAtAnswer count fs := by
  constructor
  · intro hfind
    have h := (hfind [0x4f, 0x4f, 0x4b] 3 Answer.ok.needle).mpr ⟨[0x4f], [], rfl⟩
    exact absurd h (by decide)
  · intro hstop
    have hfirst : Fragments.Answered ⟨[⟨[0x4f, 0x4f, 0x4b], nofun⟩], by decide⟩ .ok 1 :=
      ⟨Nat.le_refl 1, by decide, by decide⟩
    have h := (hstop 0 _ .ok 1).mpr hfirst
    exact absurd h.1 (by decide)

end SprdHal.Ril
