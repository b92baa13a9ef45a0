import Mathlib.Data.List.Infix
import SprdHal.Audio.MuxPcm

/-!
# The reads of `mux_read`

`mux_read` keeps the result of `read` in an unsigned variable. A result of -1 is larger than 0 and is
added to the pointer and taken from the count like any other: the pointer goes back by one byte and
the count grows by one.

`muxReadEvents` records what the loop does beside its result, and `ReadInv` is what the loop keeps as
long as no `read` fails.
-/

namespace SprdHal.Audio

/-! ## What the loop does -/

/-- A test of the loop's condition with the count it sees, a `read` with the place it writes to, as
the offset from the buffer in 32-bit addresses, and the outcome of a `read` of so many bytes. -/
inductive ReadEvent
  | test (bytes : Nat)
  | read (offset bytes : Nat)
  | result (requested : Nat) (rd : Outcome)

/-- What the loop of `mux_read` does. -/
def muxReadEvents (pos : Int) (bytes : Nat) : List Outcome → List ReadEvent
  | [] => [.test bytes]
  | sel :: o =>
    if bytes = 0 ∨ sel.ret ≤ 0 then
      [.test bytes]
    else if sel.isSet = false then
      .test bytes :: muxReadEvents pos bytes o
    else
      match o with
      | [] => [.test bytes, .read (pos % 2 ^ 32).toNat bytes]
      | rd :: o =>
        let bytesRead : Nat := Int.toNat (rd.ret % 2 ^ 32)
        .test bytes :: .read (pos % 2 ^ 32).toNat bytes :: .result bytes rd ::
          if 0 < bytesRead then
            muxReadEvents (Int.bmod (pos + bytesRead) (2 ^ 32))
              ((bytes + 2 ^ 32 - bytesRead) % 2 ^ 32) o
          else if rd.again = false ∨ bytesRead = 0 then []
          else muxReadEvents pos bytes o

/-- The bytes that were received. -/
def received : List ReadEvent → List UInt8
  | [] => []
  | .test _ :: events => received events
  | .read _ _ :: events => received events
  | .result _ rd :: events => rd.data ++ received events

/-- `mux_read` into a buffer with the given contents. -/
def muxReadInto (mem : Memory) (fd : Int) (bytes : Nat) (o : List Outcome) :
    Option (Int × Memory × List Outcome) :=
  if fd < 0 then some (0, mem, o) else muxReadLoop bytes mem 0 bytes o

theorem muxRead_eq (fd : Int) (bytes : Nat) (o : List Outcome) :
    muxRead fd bytes o = muxReadInto (fun _ => 0) fd bytes o := rfl

/-- What a device returns to a `read` of so many bytes: an error, or a number of bytes with the
bytes. -/
def Outcome.Honest (rd : Outcome) (requested : Nat) : Prop :=
  -1 ≤ rd.ret ∧ rd.ret ≤ requested ∧ rd.data.length = rd.ret.toNat

/-- The reads stay inside the buffer, the count does not exceed the first one, what is returned is
the number of bytes received, which are at the start of the buffer, and after an error there is
nothing but the return of -1. -/
structure ReadSound (mem : Memory) (fd : Int) (bytes : Nat) (o : List Outcome) : Prop where
  read_le : ∀ offset n, .read offset n ∈ muxReadEvents 0 bytes o → offset + n ≤ bytes
  test_le : ∀ n, .test n ∈ muxReadEvents 0 bytes o → n ≤ bytes
  returned : ∀ ret mem' rest, muxReadInto mem fd bytes o = some (ret, mem', rest) → 0 ≤ ret →
    (received (muxReadEvents 0 bytes o)).length = ret ∧
      mem' = mem.store 0 (received (muxReadEvents 0 bytes o))
  error : ∀ pre n rd post, muxReadEvents 0 bytes o = pre ++ .result n rd :: post →
    rd.ret < 0 → rd.again = false →
      post = [] ∧ ∃ mem' rest, muxReadInto mem fd bytes o = some (-1, mem', rest)

/-- No `read` of the call fails. -/
def NoReadFails (bytes : Nat) (o : List Outcome) : Prop :=
  ∀ n rd, .result n rd ∈ muxReadEvents 0 bytes o → rd.ret ≠ -1

/-- A `select` that fails. -/
def selectFailed : Outcome := ⟨-1, false, false, []⟩

/-! ## The branches of the loop -/

section

variable (bytes : Nat) (mem : Memory) (pos : Int) {left : Nat} {sel : Outcome} (o : List Outcome)

theorem muxReadLoop_zero :
    muxReadLoop bytes mem pos 0 o = some (Int.bmod bytes (2 ^ 32), mem, o) := by
  rcases o with _ | ⟨sel, _ | ⟨rd, o⟩⟩ <;> rfl

theorem muxReadLoop_nil (h : left ≠ 0) : muxReadLoop bytes mem pos left [] = none := by
  rw [muxReadLoop, if_neg h]

theorem muxReadLoop_select (h : left ≠ 0) (hsel : sel.ret ≤ 0) :
    muxReadLoop bytes mem pos left (sel :: o) =
      some (if sel.ret < 0 then Int.bmod (bytes - left) (2 ^ 32) else -1, mem, o) := by
  by_cases hneg : sel.ret < 0
  · rcases o with _ | ⟨rd, o⟩ <;> simp [muxReadLoop, h, hneg]
  · have hz : sel.ret = 0 := by omega
    rcases o with _ | ⟨rd, o⟩ <;> simp [muxReadLoop, h, hz]

theorem muxReadLoop_unset (h : ¬ (left = 0 ∨ sel.ret ≤ 0)) (hset : sel.isSet = false) :
    muxReadLoop bytes mem pos left (sel :: o) = muxReadLoop bytes mem pos left o := by
  obtain ⟨hleft, hpos⟩ := not_or.mp h
  have hneg : ¬ sel.ret < 0 := by omega
  have hz : ¬ sel.ret = 0 := by omega
  rcases o with _ | ⟨rd, o⟩ <;> simp only [muxReadLoop, hleft, hneg, hz, hset, if_true, if_false]

theorem muxReadLoop_waits (h : ¬ (left = 0 ∨ sel.ret ≤ 0)) (hset : ¬ sel.isSet = false) :
    muxReadLoop bytes mem pos left [sel] = none := by
  obtain ⟨hleft, hpos⟩ := not_or.mp h
  have hneg : ¬ sel.ret < 0 := by omega
  have hz : ¬ sel.ret = 0 := by omega
  simp only [muxReadLoop, hleft, hneg, hz, hset, Bool.true_eq_false, if_false]

theorem muxReadLoop_read (h : ¬ (left = 0 ∨ sel.ret ≤ 0)) (hset : ¬ sel.isSet = false)
    (rd : Outcome) :
    muxReadLoop bytes mem pos left (sel :: rd :: o) =
      if 0 < Int.toNat (rd.ret % 2 ^ 32) then
        muxReadLoop bytes (mem.store pos rd.data)
          (Int.bmod (pos + Int.toNat (rd.ret % 2 ^ 32)) (2 ^ 32))
          ((left + 2 ^ 32 - Int.toNat (rd.ret % 2 ^ 32)) % 2 ^ 32) o
      else if rd.again = false ∨ Int.toNat (rd.ret % 2 ^ 32) = 0 then
        some (-1, mem.store pos rd.data, o)
      else muxReadLoop bytes (mem.store pos rd.data) pos left o := by
  obtain ⟨hleft, hpos⟩ := not_or.mp h
  have hneg : ¬ sel.ret < 0 := by omega
  have hz : ¬ sel.ret = 0 := by omega
  simp only [muxReadLoop, hleft, hneg, hz, hset, Bool.true_eq_false, if_false]

end

/-! ## Without a failed read -/

theorem Memory.store_nil (m : Memory) (pos : Int) : m.store pos [] = m := by
  funext k
  simp [Memory.store]

theorem Memory.store_store (m : Memory) (pos : Int) (a b : List UInt8) :
    (m.store pos a).store (pos + a.length) b = m.store pos (a ++ b) := by
  funext k
  unfold Memory.store
  by_cases hpos : pos ≤ k
  · by_cases ha : pos + a.length ≤ k
    · have hlen : a.length ≤ (k - pos).toNat := by omega
      have hsub : (k - (pos + a.length)).toNat = (k - pos).toNat - a.length := by omega
      simp only [hpos, ha, if_true, List.getD_eq_getElem?_getD, List.getElem?_append_right hlen,
        List.getElem?_eq_none hlen, hsub, Option.getD_none]
    · have hlen : (k - pos).toNat < a.length := by omega
      simp only [hpos, ha, if_true, if_false, List.getD_eq_getElem?_getD,
        List.getElem?_append_left hlen]
  · have ha : ¬ pos + a.length ≤ k := by omega
    simp only [hpos, ha, if_false]

/-- The state of the loop with `bytes` bytes asked for, of which `left` are missing, in a memory that
was `mem₀`. The pointer is behind the bytes received. -/
structure ReadInv (mem₀ : Memory) (bytes : Nat) (mem : Memory) (pos : Int) (left : Nat)
    (got : List UInt8) : Prop where
  le : left ≤ bytes
  length_eq : got.length = bytes - left
  pos_eq : pos = Int.bmod (bytes - left) (2 ^ 32)
  mem_eq : bytes - left < 2 ^ 31 → mem = mem₀.store 0 got

theorem ReadInv.start (mem : Memory) (bytes : Nat) : ReadInv mem bytes mem 0 bytes [] where
  le := Nat.le_refl _
  length_eq := by simp
  pos_eq := by simp
  mem_eq := fun _ => (mem.store_nil 0).symm

namespace ReadInv

variable {mem₀ mem : Memory} {bytes left : Nat} {pos : Int} {got : List UInt8}

theorem pos_small (h : ReadInv mem₀ bytes mem pos left got) (hs : bytes - left < 2 ^ 31) :
    pos = ↑(bytes - left) := by
  have hle := h.le
  have hpos := h.pos_eq
  rw [Int.bmod_def] at hpos
  omega

theorem offset_eq (h : ReadInv mem₀ bytes mem pos left got) (hw : bytes < 2 ^ 32) :
    (pos % 2 ^ 32).toNat = bytes - left := by
  have hle := h.le
  have hpos := h.pos_eq
  rw [Int.bmod_def] at hpos
  omega

/-- What an honest `read` that does not fail does to the state. -/
theorem read (h : ReadInv mem₀ bytes mem pos left got) (hw : bytes < 2 ^ 32) {rd : Outcome}
    (hk : rd.Honest left) (hrd : 0 < rd.ret) :
    ReadInv mem₀ bytes (mem.store pos rd.data) (Int.bmod (pos + rd.ret) (2 ^ 32))
      (left - rd.ret.toNat) (got ++ rd.data) where
  le := Nat.le_trans (Nat.sub_le _ _) h.le
  length_eq := by
    have hle := h.le
    have hlen := h.length_eq
    obtain ⟨-, hret, hdata⟩ := hk
    rw [List.length_append]
    omega
  pos_eq := by
    have hle := h.le
    obtain ⟨-, hret, -⟩ := hk
    have hsum : (bytes : Int) - ((left - rd.ret.toNat : Nat) : Int) = bytes - left + rd.ret := by
      omega
    rw [h.pos_eq, Int.bmod_add_bmod, hsum]
  mem_eq := by
    intro hs
    have hle := h.le
    have hlen := h.length_eq
    obtain ⟨-, hret, -⟩ := hk
    have hpos : pos = 0 + (got.length : Int) := by
      rw [h.pos_small (by omega), hlen]
      omega
    rw [h.mem_eq (by omega), hpos, Memory.store_store]

/-- The return of what is there, `bytes - left` of them. -/
theorem returns (h : ReadInv mem₀ bytes mem pos left got) (hw : bytes < 2 ^ 32) {ret : Int}
    (hret : Int.bmod (bytes - left) (2 ^ 32) = ret) (hnonneg : 0 ≤ ret) :
    got.length = ret ∧ mem = mem₀.store 0 got := by
  have hle := h.le
  have hlen := h.length_eq
  rw [Int.bmod_def] at hret
  exact ⟨by omega, h.mem_eq (by omega)⟩

end ReadInv

/-- The unsigned result of an honest `read` that does not fail. -/
theorem Outcome.Honest.toNat_eq {rd : Outcome} {left : Nat} (hk : rd.Honest left)
    (hne : rd.ret ≠ -1) (hw : left < 2 ^ 32) :
    Int.toNat (rd.ret % 2 ^ 32) = rd.ret.toNat ∧ (rd.ret.toNat : Int) = rd.ret := by
  obtain ⟨hlow, hhigh, -⟩ := hk
  omega

/-- What the loop does after an honest `read` that does not fail. -/
theorem afterRead_eq {α : Type} {rd : Outcome} {pos : Int} {left : Nat} (hk : rd.Honest left)
    (hne : rd.ret ≠ -1) (hw : left < 2 ^ 32) (next : Int → Nat → α) (stop again : α) :
    (if 0 < Int.toNat (rd.ret % 2 ^ 32) then
        next (Int.bmod (pos + Int.toNat (rd.ret % 2 ^ 32)) (2 ^ 32))
          ((left + 2 ^ 32 - Int.toNat (rd.ret % 2 ^ 32)) % 2 ^ 32)
      else if rd.again = false ∨ Int.toNat (rd.ret % 2 ^ 32) = 0 then stop else again) =
      if 0 < rd.ret then next (Int.bmod (pos + rd.ret) (2 ^ 32)) (left - rd.ret.toNat) else stop := by
  obtain ⟨hnat, hint⟩ := hk.toNat_eq hne hw
  obtain ⟨-, hhigh, -⟩ := hk
  rw [hnat]
  by_cases hpos : 0 < rd.ret
  · have hleft : (left + 2 ^ 32 - rd.ret.toNat) % 2 ^ 32 = left - rd.ret.toNat := by omega
    rw [if_pos (by omega), if_pos hpos, hint, hleft]
  · have hzero : rd.ret.toNat = 0 := by omega
    rw [if_neg (by omega), if_neg hpos, if_pos (.inr hzero)]

/-- An event of a loop whose reads are honest and do not fail. -/
def ReadEvent.Fine : ReadEvent → Prop
  | .result n rd => rd.Honest n ∧ rd.ret ≠ -1
  | _ => True

/-- The places of the loop's reads and its counts. -/
theorem ReadInv.places {mem₀ : Memory} {bytes : Nat} (hw : bytes < 2 ^ 32) (pos : Int) (left : Nat)
    (o : List Outcome) :
    ∀ (mem : Memory) (got : List UInt8), ReadInv mem₀ bytes mem pos left got →
      (∀ e ∈ muxReadEvents pos left o, e.Fine) →
      (∀ offset n, .read offset n ∈ muxReadEvents pos left o → offset + n ≤ bytes) ∧
        ∀ n, .test n ∈ muxReadEvents pos left o → n ≤ bytes := by
  fun_induction muxReadEvents pos left o with
  | case1 pos left =>
    intro mem got h _
    simpa using h.le
  | case2 pos left sel o hstop =>
    intro mem got h _
    simpa using h.le
  | case3 pos left sel o hgo hset ih =>
    intro mem got h hfine
    obtain ⟨hread, htest⟩ := ih mem got h (List.forall_mem_cons.mp hfine).2
    refine ⟨by simpa using hread, fun n hn => ?_⟩
    rcases List.mem_cons.mp hn with hn | hn
    · cases hn
      exact h.le
    · exact htest n hn
  | case4 pos left sel hgo hset =>
    intro mem got h _
    have hoff := h.offset_eq hw
    have hle := h.le
    constructor
    · intro offset n hn
      simp only [List.mem_cons, reduceCtorEq, ReadEvent.read.injEq, List.not_mem_nil, false_or,
        or_false] at hn
      omega
    · intro n hn
      simp only [List.mem_cons, reduceCtorEq, ReadEvent.test.injEq, List.not_mem_nil,
        or_false] at hn
      omega
  | case5 pos left sel hgo hset rd o bytesRead ih1 ih2 =>
    intro mem got h hfine
    have hoff := h.offset_eq hw
    have hle := h.le
    obtain ⟨-, -, ⟨hk, hne⟩, hrest⟩ := by simpa only [List.forall_mem_cons] using hfine
    obtain ⟨hnat, hint⟩ := hk.toNat_eq hne (by omega)
    have hleft : 0 < rd.ret → (left + 2 ^ 32 - rd.ret.toNat) % 2 ^ 32 = left - rd.ret.toNat := by
      obtain ⟨-, hhigh, -⟩ := hk
      omega
    rw [afterRead_eq hk hne (by omega) (fun p l => muxReadEvents p l o)] at hrest ⊢
    simp only [List.mem_cons, reduceCtorEq, ReadEvent.read.injEq, ReadEvent.test.injEq, false_or]
    by_cases hpos : 0 < rd.ret
    · rw [if_pos hpos] at hrest ⊢
      simp only [bytesRead, hnat, hint, hleft hpos] at ih1
      obtain ⟨hread, htest⟩ := ih1 _ _ (h.read hw hk hpos) hrest
      refine ⟨fun offset n hn => ?_, fun n hn => ?_⟩
      · rcases hn with ⟨rfl, rfl⟩ | hn
        · omega
        · exact hread offset n hn
      · rcases hn with rfl | hn
        · exact hle
        · exact htest n hn
    · rw [if_neg hpos]
      refine ⟨fun offset n hn => ?_, fun n hn => ?_⟩
      · rcases hn with ⟨rfl, rfl⟩ | hn
        · omega
        · cases hn
      · rcases hn with rfl | hn
        · exact hle
        · cases hn

/-- What the loop returns. -/
theorem ReadInv.returned {mem₀ : Memory} {bytes : Nat} (hw : bytes < 2 ^ 32) (pos : Int)
    (left : Nat) (o : List Outcome) :
    ∀ (mem : Memory) (got : List UInt8), ReadInv mem₀ bytes mem pos left got →
      (∀ e ∈ muxReadEvents pos left o, e.Fine) →
      ∀ ret mem' rest, muxReadLoop bytes mem pos left o = some (ret, mem', rest) → 0 ≤ ret →
        (got ++ received (muxReadEvents pos left o)).length = ret ∧
          mem' = mem₀.store 0 (got ++ received (muxReadEvents pos left o)) := by
  fun_induction muxReadEvents pos left o with
  | case1 pos left =>
    intro mem got h _ ret mem' rest heq hret
    rw [received, received, List.append_nil]
    by_cases hz : left = 0
    · subst hz
      rw [muxReadLoop_zero] at heq
      obtain ⟨hr, rfl, -⟩ : _ ∧ _ ∧ _ := by simpa using heq
      exact h.returns hw (by simpa using hr) hret
    · rw [muxReadLoop_nil _ _ _ hz] at heq
      cases heq
  | case2 pos left sel o hstop =>
    intro mem got h _ ret mem' rest heq hret
    rw [received, received, List.append_nil]
    by_cases hz : left = 0
    · subst hz
      rw [muxReadLoop_zero] at heq
      obtain ⟨hr, rfl, -⟩ : _ ∧ _ ∧ _ := by simpa using heq
      exact h.returns hw (by simpa using hr) hret
    · rw [muxReadLoop_select _ _ _ _ hz (hstop.resolve_left hz)] at heq
      obtain ⟨hr, rfl, -⟩ : _ ∧ _ ∧ _ := by simpa only [Option.some.injEq, Prod.mk.injEq] using heq
      split at hr
      · exact h.returns hw hr hret
      · omega
  | case3 pos left sel o hgo hset ih =>
    intro mem got h hfine ret mem' rest heq hret
    rw [muxReadLoop_unset _ _ _ _ hgo hset] at heq
    exact ih mem got h (List.forall_mem_cons.mp hfine).2 ret mem' rest heq hret
  | case4 pos left sel hgo hset =>
    intro mem got h _ ret mem' rest heq hret
    rw [muxReadLoop_waits _ _ _ hgo hset] at heq
    cases heq
  | case5 pos left sel hgo hset rd o bytesRead ih1 ih2 =>
    intro mem got h hfine ret mem' rest heq hret
    have hle := h.le
    obtain ⟨-, -, ⟨hk, hne⟩, hrest⟩ := by simpa only [List.forall_mem_cons] using hfine
    obtain ⟨hnat, hint⟩ := hk.toNat_eq hne (by omega)
    have hleft : 0 < rd.ret → (left + 2 ^ 32 - rd.ret.toNat) % 2 ^ 32 = left - rd.ret.toNat := by
      obtain ⟨-, hhigh, -⟩ := hk
      omega
    rw [muxReadLoop_read _ _ _ _ hgo hset, afterRead_eq hk hne (by omega)
      (fun p l => muxReadLoop bytes (mem.store pos rd.data) p l o)] at heq
    rw [afterRead_eq hk hne (by omega) (fun p l => muxReadEvents p l o)] at hrest ⊢
    simp only [received]
    by_cases hpos : 0 < rd.ret
    · rw [if_pos hpos] at hrest heq ⊢
      simp only [bytesRead, hnat, hint, hleft hpos] at ih1
      rw [← List.append_assoc]
      exact ih1 _ _ (h.read hw hk hpos) hrest ret mem' rest heq hret
    · rw [if_neg hpos] at heq
      obtain ⟨rfl, -⟩ : _ ∧ _ := by simpa only [Option.some.injEq, Prod.mk.injEq] using heq
      omega

/-! ## With failed reads -/

/-- The number of reads that failed. -/
def failures : List ReadEvent → Nat
  | [] => 0
  | .test _ :: events => failures events
  | .read _ _ :: events => failures events
  | .result _ rd :: events => (if rd.ret = -1 then 1 else 0) + failures events

theorem failures_eq_zero {events : List ReadEvent} (h : failures events = 0) {n : Nat}
    {rd : Outcome} (hmem : .result n rd ∈ events) : rd.ret ≠ -1 := by
  induction events with
  | nil => cases hmem
  | cons e events ih =>
    rcases List.mem_cons.mp hmem with rfl | hrest
    · intro hret
      rw [failures, if_pos hret] at h
      omega
    · cases e with
      | test n => exact ih h hrest
      | read offset n => exact ih h hrest
      | result n rd =>
        rw [failures] at h
        exact ih (by omega) hrest

theorem returned_eq {bytes left : Nat} {ret : Int} (hle : left ≤ bytes) (hw : bytes < 2 ^ 31)
    (h : Int.bmod (bytes - left) (2 ^ 32) = ret) :
    (bytes - left : Int) + (received [.test left]).length = ret + failures [.test left] := by
  rw [Int.bmod_def] at h
  simp only [received, failures, List.length_nil]
  omega

/-- A failed read lengthens what is waited for, so that a call that does not see a count above the
first one has received a byte more than it returns for each of them. -/
theorem length_received {bytes : Nat} (hw : bytes < 2 ^ 31) (pos : Int) (left : Nat)
    (o : List Outcome) :
    ∀ mem : Memory, (∀ n rd, .result n rd ∈ muxReadEvents pos left o → rd.Honest n) →
      (∀ n, .test n ∈ muxReadEvents pos left o → n ≤ bytes) →
      ∀ ret mem' rest, muxReadLoop bytes mem pos left o = some (ret, mem', rest) → 0 ≤ ret →
        (bytes - left : Int) + (received (muxReadEvents pos left o)).length =
          ret + failures (muxReadEvents pos left o) := by
  fun_induction muxReadEvents pos left o with
  | case1 pos left =>
    intro mem _ htest ret mem' rest heq hret
    by_cases hz : left = 0
    · subst hz
      rw [muxReadLoop_zero] at heq
      obtain ⟨hr, -⟩ : _ ∧ _ := by simpa only [Option.some.injEq, Prod.mk.injEq] using heq
      exact returned_eq (Nat.zero_le _) hw (by simpa using hr)
    · rw [muxReadLoop_nil _ _ _ hz] at heq
      cases heq
  | case2 pos left sel o hstop =>
    intro mem _ htest ret mem' rest heq hret
    have hle := htest left List.mem_cons_self
    by_cases hz : left = 0
    · subst hz
      rw [muxReadLoop_zero] at heq
      obtain ⟨hr, -⟩ : _ ∧ _ := by simpa only [Option.some.injEq, Prod.mk.injEq] using heq
      exact returned_eq (Nat.zero_le _) hw (by simpa using hr)
    · rw [muxReadLoop_select _ _ _ _ hz (hstop.resolve_left hz)] at heq
      obtain ⟨hr, -⟩ : _ ∧ _ := by simpa only [Option.some.injEq, Prod.mk.injEq] using heq
      split at hr
      · exact returned_eq hle hw hr
      · omega
  | case3 pos left sel o hgo hset ih =>
    intro mem hk htest ret mem' rest heq hret
    rw [muxReadLoop_unset _ _ _ _ hgo hset] at heq
    exact ih mem (fun n rd h => hk n rd (List.mem_cons_of_mem _ h))
      (fun n h => htest n (List.mem_cons_of_mem _ h)) ret mem' rest heq hret
  | case4 pos left sel hgo hset =>
    intro mem _ htest ret mem' rest heq hret
    rw [muxReadLoop_waits _ _ _ hgo hset] at heq
    cases heq
  | case5 pos left sel hgo hset rd o bytesRead ih1 ih2 =>
    intro mem hk htest ret mem' rest heq hret
    obtain ⟨hlow, hhigh, hdata⟩ := hk left rd (by simp)
    have hle := htest left List.mem_cons_self
    rw [muxReadLoop_read _ _ _ _ hgo hset] at heq
    by_cases hpos : 0 < Int.toNat (rd.ret % 2 ^ 32)
    · rw [if_pos hpos] at heq hk htest ⊢
      have hmem : ∀ {e a b c : ReadEvent} {l : List ReadEvent}, e ∈ l → e ∈ a :: b :: c :: l :=
        fun h => List.mem_cons_of_mem _ (List.mem_cons_of_mem _ (List.mem_cons_of_mem _ h))
      have hih := ih1 _ (fun n rd h => hk n rd (hmem h)) (fun n h => htest n (hmem h))
        ret mem' rest heq hret
      have hnext : ((left + 2 ^ 32 - bytesRead) % 2 ^ 32 : Nat) = (left : Int) - rd.ret := by omega
      rw [hnext] at hih
      simp only [received, failures, List.length_append]
      split <;> omega
    · have hzero : Int.toNat (rd.ret % 2 ^ 32) = 0 := by omega
      rw [if_neg hpos, if_pos (.inr hzero)] at heq
      obtain ⟨rfl, -⟩ : _ ∧ _ := by simpa only [Option.some.injEq, Prod.mk.injEq] using heq
      omega

/-! ## `mux_read` -/

/-- A call none of whose reads fails is sound. Of the calls that return a number of bytes, the others
are not. -/
theorem muxRead_sound_iff (mem : Memory) (fd : Int) (bytes : Nat) (o : List Outcome) (hfd : 0 ≤ fd)
    (hw : bytes < 2 ^ 32)
    (hk : ∀ n rd, .result n rd ∈ muxReadEvents 0 bytes o → rd.Honest n) :
    (NoReadFails bytes o → ReadSound mem fd bytes o) ∧
      (bytes < 2 ^ 31 → ∀ ret mem' rest, muxReadInto mem fd bytes o = some (ret, mem', rest) →
        0 ≤ ret → (ReadSound mem fd bytes o ↔ NoReadFails bytes o)) := by
  have hloop : muxReadInto mem fd bytes o = muxReadLoop bytes mem 0 bytes o :=
    if_neg (Int.not_lt.mpr hfd)
  have hsound : NoReadFails bytes o → ReadSound mem fd bytes o := by
    intro hno
    have hfine : ∀ e ∈ muxReadEvents 0 bytes o, e.Fine := by
      intro e he
      cases e with
      | test n => trivial
      | read offset n => trivial
      | result n rd => exact ⟨hk n rd he, hno n rd he⟩
    obtain ⟨hread, htest⟩ := (ReadInv.start mem bytes).places hw 0 bytes o mem [] hfine
    refine ⟨hread, htest, ?_, ?_⟩
    · intro ret mem' rest heq hret
      rw [hloop] at heq
      exact (ReadInv.start mem bytes).returned hw 0 bytes o mem [] hfine ret mem' rest heq hret
    · intro pre n rd post heq hneg _
      have hmem : .result n rd ∈ muxReadEvents 0 bytes o := by simp [heq]
      have hlow := (hk n rd hmem).1
      have hne := hno n rd hmem
      omega
  refine ⟨hsound, fun hs ret mem' rest heq hret => ⟨fun h n rd hmem => ?_, hsound⟩⟩
  have hlen := (h.returned ret mem' rest heq hret).1
  rw [hloop] at heq
  have hcount := length_received hs 0 bytes o mem hk h.test_le ret mem' rest heq hret
  exact failures_eq_zero (by omega) hmem

/-- Two reads that bring three bytes. -/
def twoReads : List Outcome :=
  [⟨1, false, true, []⟩, ⟨2, false, false, [7, 8]⟩, ⟨1, false, true, []⟩, ⟨1, false, false, [9]⟩]

theorem results_twoReads {n : Nat} {rd : Outcome}
    (h : .result n rd ∈ muxReadEvents 0 3 twoReads) :
    n = 3 ∧ rd = ⟨2, false, false, [7, 8]⟩ ∨ n = 1 ∧ rd = ⟨1, false, false, [9]⟩ := by
  have heq : muxReadEvents 0 3 twoReads =
      [.test 3, .read 0 3, .result 3 ⟨2, false, false, [7, 8]⟩, .test 1, .read 2 1,
        .result 1 ⟨1, false, false, [9]⟩, .test 0] := rfl
  simpa [heq] using h

theorem readSound_twoReads : ReadSound (fun _ => 0) 5 3 twoReads := by
  refine (muxRead_sound_iff (fun _ => 0) 5 3 twoReads (by decide) (by decide) ?_).1 ?_
  · intro n rd h
    rcases results_twoReads h with ⟨rfl, rfl⟩ | ⟨rfl, rfl⟩
    · exact ⟨by decide, by decide, rfl⟩
    · exact ⟨by decide, by decide, rfl⟩
  · intro n rd h
    rcases results_twoReads h with ⟨rfl, rfl⟩ | ⟨rfl, rfl⟩
    · decide
    · decide

/-- An interrupted `read` of one byte, after which two are waited for. -/
theorem not_readSound_interrupted :
    (∀ n rd, .result n rd ∈ muxReadEvents 0 1 [⟨1, false, true, []⟩, ⟨-1, true, false, []⟩] →
        rd.Honest n) ∧
      ¬ ReadSound (fun _ => 0) 5 1 [⟨1, false, true, []⟩, ⟨-1, true, false, []⟩] := by
  have heq : muxReadEvents 0 1 [⟨1, false, true, []⟩, ⟨-1, true, false, []⟩] =
      [.test 1, .read 0 1, .result 1 ⟨-1, true, false, []⟩, .test 2] := rfl
  constructor
  · intro n rd h
    obtain ⟨rfl, rfl⟩ : n = 1 ∧ rd = ⟨-1, true, false, []⟩ := by simpa [heq] using h
    exact ⟨by decide, by decide, rfl⟩
  · intro h
    exact absurd (h.test_le 2 (by simp [heq])) (by decide)

end SprdHal.Audio
