import Mathlib.Data.List.Basic
import Mathlib.Tactic.Common

/-!
# Buffers and little-endian words

A buffer is a list of fixed length. `patch` is `memcpy` into the middle of one: it keeps the
length, and whatever would land past the end is dropped. Two patches side by side are one patch
of the concatenation (`patch_append`), so data that arrives in pieces may be treated as if it had
arrived at once.

Words are read with `leWord` and written with `leBytes`, least significant byte first. A length
that is kept in a word does not wrap while it is bounded by another one (`ofNat_length_toNat`).
-/

namespace SprdHal.Lib

/-! ## Patching a buffer -/

section Patch

variable {α : Type}

/-- `memcpy(dst + start, src, src.length)`. -/
def patch (dst : List α) (start : Nat) (src : List α) : List α :=
  dst.mapIdx fun k b => if start ≤ k then src.getD (k - start) b else b

@[simp] theorem length_patch (dst : List α) (start : Nat) (src : List α) :
    (patch dst start src).length = dst.length := by
  simp [patch]

theorem getElem?_patch (dst : List α) (start : Nat) (src : List α) (k : Nat) :
    (patch dst start src)[k]? =
      dst[k]?.map fun b => if start ≤ k then src.getD (k - start) b else b := by
  simp [patch, List.getElem?_mapIdx]

/-- Outside the patched range nothing changes. -/
theorem getElem?_patch_of_out (dst : List α) (start : Nat) (src : List α) {k : Nat}
    (h : k < start ∨ start + src.length ≤ k) : (patch dst start src)[k]? = dst[k]? := by
  rw [getElem?_patch]
  rcases h with h | h
  · simp [Nat.not_le.mpr h]
  · have hk : start ≤ k := by omega
    have hs : src.length ≤ k - start := by omega
    simp [hk, List.getD_eq_getElem?_getD, List.getElem?_eq_none hs]

@[simp] theorem patch_nil (dst : List α) (start : Nat) : patch dst start [] = dst := by
  apply List.ext_getElem?
  intro k
  rw [getElem?_patch]
  cases dst[k]? <;> simp

/-- Two patches side by side are one patch. -/
theorem patch_append (dst : List α) (start : Nat) (a b : List α) :
    patch (patch dst start a) (start + a.length) b = patch dst start (a ++ b) := by
  apply List.ext_getElem?
  intro k
  rw [getElem?_patch, getElem?_patch, getElem?_patch, Option.map_map]
  congr 1
  funext x
  simp only [Function.comp, List.getD_eq_getElem?_getD]
  by_cases h1 : start ≤ k
  · by_cases h2 : start + a.length ≤ k
    · have e : k - start - a.length = k - (start + a.length) := by omega
      rw [if_pos h2, if_pos h1, if_pos h1, List.getElem?_append_right (by omega), e,
        List.getElem?_eq_none (l := a) (by omega)]
      rfl
    · rw [if_neg h2, if_pos h1, if_pos h1, List.getElem?_append_left (by omega)]
  · rw [if_neg (by omega), if_neg h1, if_neg h1]

/-- A patch where the buffer is cut. -/
theorem patch_length_append (pre : List α) {dst src : List α} (h : src.length ≤ dst.length) :
    patch (pre ++ dst) pre.length src = pre ++ (src ++ dst.drop src.length) := by
  apply List.ext_getElem?
  intro k
  by_cases h1 : k < pre.length
  · rw [getElem?_patch_of_out _ _ _ (Or.inl h1), List.getElem?_append_left h1,
      List.getElem?_append_left h1]
  · have hright : (pre ++ (src ++ dst.drop src.length))[k]? =
        (src ++ dst.drop src.length)[k - pre.length]? := List.getElem?_append_right (by omega)
    rw [hright]
    by_cases h2 : k - pre.length < src.length
    · have hk : k - pre.length < dst.length := by omega
      rw [getElem?_patch, List.getElem?_append_right (by omega), List.getElem?_append_left h2,
        List.getElem?_eq_getElem hk, List.getElem?_eq_getElem h2, Option.map_some,
        if_pos (by omega), List.getD_eq_getElem?_getD, List.getElem?_eq_getElem h2]
      rfl
    · have e : src.length + (k - pre.length - src.length) = k - pre.length := by omega
      rw [getElem?_patch_of_out _ _ _ (Or.inr (by omega)), List.getElem?_append_right (by omega),
        List.getElem?_append_right (by omega), List.getElem?_drop, e]

theorem patch_front {dst src : List α} (h : src.length ≤ dst.length) :
    patch dst 0 src = src ++ dst.drop src.length :=
  patch_length_append [] h

/-- Copying the first `n` bytes over a buffer that agrees from `n` on copies everything. -/
theorem patch_take_eq {dst src : List α} {n : Nat} (hlen : src.length = dst.length)
    (h : ∀ k, n ≤ k → src[k]? = dst[k]?) : patch dst 0 (src.take n) = src := by
  apply List.ext_getElem?
  intro k
  rw [getElem?_patch]
  by_cases hk : k < dst.length
  · have hks : k < src.length := by omega
    rw [List.getElem?_eq_getElem hk, List.getElem?_eq_getElem hks]
    by_cases hn : k < n
    · simp [List.getD_eq_getElem?_getD, hn, List.getElem?_eq_getElem hks]
    · have hagree := h k (by omega)
      rw [List.getElem?_eq_getElem hk, List.getElem?_eq_getElem hks] at hagree
      have hout : (src.take n)[k]? = none := List.getElem?_eq_none (by simp; omega)
      simpa [List.getD_eq_getElem?_getD, hout] using (Option.some.inj hagree).symm
  · rw [List.getElem?_eq_none (by omega), List.getElem?_eq_none (by omega)]
    rfl

/-- The first `n` bytes of a copy of the first `n` bytes. -/
theorem take_patch_take {dst src : List α} {n : Nat} (hlen : src.length = dst.length) :
    (patch dst 0 (src.take n)).take n = src.take n := by
  apply List.ext_getElem?
  intro k
  by_cases hn : k < n
  · rw [List.getElem?_take_of_lt hn, List.getElem?_take_of_lt hn, getElem?_patch]
    by_cases hk : k < dst.length
    · have hks : k < src.length := by omega
      rw [List.getElem?_eq_getElem hk, List.getElem?_eq_getElem hks]
      simp [List.getD_eq_getElem?_getD, hn, List.getElem?_eq_getElem hks]
    · rw [List.getElem?_eq_none (by omega), List.getElem?_eq_none (by omega)]
      rfl
  · rw [List.getElem?_eq_none (by simp; omega), List.getElem?_eq_none (by simp; omega)]

/-- A buffer up to the element that was written last. -/
theorem take_succ_set {l : List α} {n : Nat} (h : n < l.length) (a : α) :
    (l.set n a).take (n + 1) = l.take n ++ [a] := by
  rw [List.take_add_one, List.take_set_of_le (Nat.le_refl _), List.getElem?_set_self h]
  rfl

end Patch

/-! ## Overlays: a list of writes over a buffer -/

section Overlay

variable {α : Type}

/-- The buffer after the writes, each a position and its data, the first one first. -/
def overlay (base : List α) (ws : List (Nat × List α)) : List α :=
  ws.foldl (fun b w => patch b w.1 w.2) base

@[simp] theorem overlay_nil (base : List α) : overlay base [] = base := rfl

theorem overlay_snoc (base : List α) (ws : List (Nat × List α)) (start : Nat) (d : List α) :
    overlay base (ws ++ [(start, d)]) = patch (overlay base ws) start d := by
  simp [overlay, List.foldl_append]

@[simp] theorem length_overlay (base : List α) (ws : List (Nat × List α)) :
    (overlay base ws).length = base.length := by
  induction ws generalizing base with
  | nil => rfl
  | cons w ws ih =>
    show (overlay (patch base w.1 w.2) ws).length = base.length
    rw [ih, length_patch]

/-- Data that continues the last write extends it. -/
theorem overlay_extend (base : List α) (ws : List (Nat × List α)) (start : Nat) (a b : List α) :
    patch (overlay base (ws ++ [(start, a)])) (start + a.length) b =
      overlay base (ws ++ [(start, a ++ b)]) := by
  rw [overlay_snoc, overlay_snoc, patch_append]

/-- Writes that end before `n` leave the buffer alone from `n` on. -/
theorem getElem?_overlay_of_out (base : List α) {ws : List (Nat × List α)} {n : Nat}
    (h : ∀ w ∈ ws, w.1 + w.2.length ≤ n) {k : Nat} (hk : n ≤ k) :
    (overlay base ws)[k]? = base[k]? := by
  induction ws generalizing base with
  | nil => rfl
  | cons w ws ih =>
    have hw := h w List.mem_cons_self
    show (overlay (patch base w.1 w.2) ws)[k]? = base[k]?
    rw [ih _ fun w' hw' => h w' (List.mem_cons_of_mem _ hw'),
      getElem?_patch_of_out _ _ _ (Or.inr (by omega))]

end Overlay

/-! ## Little-endian words -/

/-- The 32-bit word stored at byte offset `i`; bytes past the end read as zero. -/
def leWord (bs : List UInt8) (i : Nat) : UInt32 :=
  UInt32.ofNat ((bs.getD i 0).toNat + 256 * (bs.getD (i + 1) 0).toNat +
    65536 * (bs.getD (i + 2) 0).toNat + 16777216 * (bs.getD (i + 3) 0).toNat)

/-- The four bytes of a 32-bit word. -/
def leBytes (w : UInt32) : List UInt8 :=
  [UInt8.ofNat w.toNat, UInt8.ofNat (w.toNat / 256), UInt8.ofNat (w.toNat / 65536),
    UInt8.ofNat (w.toNat / 16777216)]

@[simp] theorem length_leBytes (w : UInt32) : (leBytes w).length = 4 := rfl

/-- A word is read back as it was written. -/
theorem leWord_leBytes (a : List UInt8) (w : UInt32) (b : List UInt8) :
    leWord (a ++ leBytes w ++ b) a.length = w := by
  have hw : w.toNat < 4294967296 := w.toNat_lt
  simp only [leWord, leBytes, List.getD_eq_getElem?_getD, List.append_assoc,
    List.getElem?_append_right (Nat.le_refl _), List.getElem?_append_right (Nat.le_add_right _ _),
    Nat.sub_self, Nat.add_sub_cancel_left, List.cons_append, List.nil_append,
    List.getElem?_cons_zero, List.getElem?_cons_succ, Option.getD_some]
  apply UInt32.toNat_inj.mp
  simp only [UInt32.toNat_ofNat', UInt8.toNat_ofNat']
  omega

/-- A word inside a prefix does not see what follows. -/
theorem leWord_append {a : List UInt8} (b : List UInt8) {i : Nat} (h : i + 4 ≤ a.length) :
    leWord (a ++ b) i = leWord a i := by
  simp only [leWord, List.getD_eq_getElem?_getD]
  rw [List.getElem?_append_left (by omega), List.getElem?_append_left (by omega),
    List.getElem?_append_left (by omega), List.getElem?_append_left (by omega)]

/-- The 16-bit word stored at byte offset `i`. -/
def leHalf (bs : List UInt8) (i : Nat) : UInt16 :=
  UInt16.ofNat ((bs.getD i 0).toNat + 256 * (bs.getD (i + 1) 0).toNat)

/-- The two bytes of a 16-bit word. -/
def leHalfBytes (w : UInt16) : List UInt8 :=
  [UInt8.ofNat w.toNat, UInt8.ofNat (w.toNat / 256)]

@[simp] theorem length_leHalfBytes (w : UInt16) : (leHalfBytes w).length = 2 := rfl

/-! ## Reads and writes of files -/

/-- The bytes that a `read` or `write` of `n` bytes moves. `none` is an error, of `open` as well. -/
def moved (res : Option Nat) (n : Nat) : Nat := min (res.getD 0) n

theorem moved_le (res : Option Nat) (n : Nat) : moved res n ≤ n := Nat.min_le_right _ _

/-! ## Lengths kept in words -/

/-- A piece of data that is no longer than a counter says, and what the counter says after it. -/
theorem ofNat_length_toNat {α : Type} {d : List α} {len : UInt32} (hl : d.length ≤ len.toNat) :
    (UInt32.ofNat d.length).toNat = d.length ∧
      (len - UInt32.ofNat d.length).toNat = len.toNat - d.length := by
  have hlt := len.toNat_lt
  have hd : (UInt32.ofNat d.length).toNat = d.length := by
    rw [UInt32.toNat_ofNat']
    omega
  refine ⟨hd, ?_⟩
  rw [UInt32.toNat_sub_of_le _ _ (UInt32.le_iff_toNat_le.mpr (by omega)), hd]

end SprdHal.Lib
