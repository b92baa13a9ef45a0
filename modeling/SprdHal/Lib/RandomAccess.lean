import SprdHal.Lib.Memory

/-!
# Files with a position

A file is a size and the bytes below it, all other bytes being 0, and a cursor is a file with a
position. Two writes one after the other are one write (`Cursor.write_append`).
-/

namespace SprdHal.Lib

/-- The contents of a file. -/
structure DataFile where
  size : Nat
  mem : Mem

namespace DataFile

variable {f g : DataFile} {offset x : Nat} {data : List UInt8}

theorem ext' (hsize : ∀ x, x < f.size ↔ x < g.size) (hmem : ∀ x, f.mem x = g.mem x) : f = g := by
  obtain ⟨n, m⟩ := f
  obtain ⟨n', m'⟩ := g
  have hn : n = n' := by
    have h := hsize n
    have h' := hsize n'
    simp only at h h'
    omega
  have hm : m = m' := funext hmem
  rw [hn, hm]

def empty : DataFile := ⟨0, fun _ => 0⟩

/-- The file after a write; one of no bytes does not make it longer. -/
def write (f : DataFile) (offset : Nat) (data : List UInt8) : DataFile :=
  if data = [] then f else ⟨max f.size (offset + data.length), f.mem.store offset data⟩

@[simp] theorem write_nil (f : DataFile) (offset : Nat) : f.write offset [] = f := if_pos rfl

theorem lt_size_write : x < (f.write offset data).size ↔
    x < f.size ∨ data ≠ [] ∧ x < offset + data.length := by
  unfold write
  by_cases h : data = []
  · simp [h]
  · rw [if_neg h]
    simp only [ne_eq, h, not_false_eq_true, true_and]
    omega

theorem mem_write_of_out (h : x < offset ∨ offset + data.length ≤ x) :
    (f.write offset data).mem x = f.mem x := by
  unfold write
  by_cases hd : data = []
  · rw [if_pos hd]
  · rw [if_neg hd]
    exact f.mem.store_of_out data h

theorem mem_write_of_in (h : x < data.length) :
    (f.write offset data).mem (offset + x) = data.getD x 0 := by
  have hd : data ≠ [] := by
    rintro rfl
    exact absurd h (Nat.not_lt_zero x)
  have hin : offset ≤ offset + x ∧ offset + x < offset + data.length := ⟨by omega, by omega⟩
  rw [write, if_neg hd]
  show (if _ then _ else _) = _
  rw [if_pos hin, Nat.add_sub_cancel_left]

theorem write_append (f : DataFile) (offset : Nat) (a b : List UInt8) :
    f.write offset (a ++ b) = (f.write offset a).write (offset + a.length) b := by
  apply ext'
  · intro x
    simp only [lt_size_write, List.append_eq_nil_iff, List.length_append, ne_eq]
    by_cases ha : a = []
    · subst ha
      simp
    · by_cases hb : b = []
      · subst hb
        simp [ha]
      · simp only [ha, hb, false_and, not_false_eq_true, true_and]
        omega
  · intro x
    by_cases hlow : x < offset
    · rw [mem_write_of_out (.inl hlow), mem_write_of_out (.inl (by omega)),
        mem_write_of_out (.inl hlow)]
    · obtain ⟨k, rfl⟩ := Nat.exists_eq_add_of_le (Nat.not_lt.mp hlow)
      by_cases ha : k < a.length
      · have hab : k < (a ++ b).length := by
          rw [List.length_append]
          omega
        rw [mem_write_of_in hab, mem_write_of_out (.inl (by omega)), mem_write_of_in ha]
        simp only [List.getD_eq_getElem?_getD, List.getElem?_append_left ha]
      · obtain ⟨j, rfl⟩ := Nat.exists_eq_add_of_le (Nat.not_lt.mp ha)
        by_cases hb : j < b.length
        · have hab : a.length + j < (a ++ b).length := by
            rw [List.length_append]
            omega
          rw [mem_write_of_in hab, ← Nat.add_assoc, mem_write_of_in hb]
          simp only [List.getD_eq_getElem?_getD,
            List.getElem?_append_right (Nat.le_add_right a.length j), Nat.add_sub_cancel_left]
        · rw [mem_write_of_out (.inr (by rw [List.length_append]; omega)),
            mem_write_of_out (.inr (by omega)), mem_write_of_out (.inr (by omega))]

end DataFile

/-- A file with a position. -/
structure Cursor where
  file : DataFile
  pos : Nat

namespace Cursor

def write (c : Cursor) (data : List UInt8) : Cursor :=
  ⟨c.file.write c.pos data, c.pos + data.length⟩

def seek (c : Cursor) (offset : Nat) : Cursor := { c with pos := offset }

theorem write_append (c : Cursor) (a b : List UInt8) :
    c.write (a ++ b) = (c.write a).write b := by
  simp only [write, DataFile.write_append, List.length_append, Nat.add_assoc]

end Cursor

end SprdHal.Lib
