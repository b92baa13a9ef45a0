import Mathlib.Data.List.Basic
import Mathlib.Tactic.Common

/-!
# A flat memory

Memory is a function from addresses to bytes, so that buffers may lie inside of each other. What is
stored at one place is there afterwards (`bytes_store_self`) and leaves the other places alone
(`bytes_store_of_apart`); neighbouring places make one place (`bytes_add`).
-/

namespace SprdHal.Lib

/-- Memory of bytes. -/
abbrev Mem := Nat → UInt8

namespace Mem

variable {m m' : Mem} {a b n k : Nat} {bs : List UInt8}

/-- The `n` bytes from address `a` on. -/
def bytes (m : Mem) (a n : Nat) : List UInt8 := (List.range n).map fun i => m (a + i)

/-- The memory with the bytes `bs` from address `a` on. -/
def store (m : Mem) (a : Nat) (bs : List UInt8) : Mem := fun x =>
  if a ≤ x ∧ x < a + bs.length then bs.getD (x - a) 0 else m x

@[simp] theorem length_bytes (m : Mem) (a n : Nat) : (m.bytes a n).length = n := by
  simp [bytes]

theorem bytes_congr (h : ∀ x, a ≤ x → x < a + n → m x = m' x) : m.bytes a n = m'.bytes a n := by
  refine List.map_congr_left fun i hi => ?_
  have hi : i < n := List.mem_range.mp hi
  exact h (a + i) (Nat.le_add_right a i) (Nat.add_lt_add_left hi a)

theorem bytes_add (m : Mem) (a n k : Nat) : m.bytes a (n + k) = m.bytes a n ++ m.bytes (a + n) k := by
  simp [bytes, List.range_add, Nat.add_assoc]

theorem drop_bytes (m : Mem) (a n k : Nat) : (m.bytes a (n + k)).drop n = m.bytes (a + n) k := by
  rw [bytes_add, List.drop_left' (length_bytes m a n)]

/-- What lies in the middle of some bytes. -/
theorem bytes_middle {a c d : List UInt8} {p : Nat} (h : m.bytes p n = a ++ c ++ d) :
    m.bytes (p + a.length) c.length = c := by
  have hlen := congrArg List.length h
  rw [length_bytes, List.length_append, List.length_append] at hlen
  rw [hlen, bytes_add, bytes_add] at h
  have hleft := (List.append_inj h (by simp)).1
  exact (List.append_inj hleft (by simp)).2

theorem store_of_out (m : Mem) (bs : List UInt8) {x : Nat} (h : x < a ∨ a + bs.length ≤ x) :
    m.store a bs x = m x := by
  unfold store
  rw [if_neg (by omega)]

theorem bytes_store_self (m : Mem) (a : Nat) (bs : List UInt8) :
    (m.store a bs).bytes a bs.length = bs := by
  refine List.ext_getElem (length_bytes _ _ _) fun i h hi => ?_
  simp only [bytes, List.getElem_map, List.getElem_range, store]
  rw [if_pos ⟨Nat.le_add_right a i, Nat.add_lt_add_left hi a⟩, Nat.add_sub_cancel_left,
    List.getD_eq_getElem?_getD, List.getElem?_eq_getElem hi]
  rfl

theorem bytes_store_of_apart (m : Mem) (bs : List UInt8)
    (h : b + n ≤ a ∨ a + bs.length ≤ b) : (m.store a bs).bytes b n = m.bytes b n :=
  bytes_congr fun x h1 h2 => store_of_out m bs (by omega)

end Mem

end SprdHal.Lib
