import SprdHal.Lib.Overflow

/-!
# A list cut into pieces

A list goes out in pieces of `size` elements, the last of which is what is left; their number is the
length divided by `size`, rounded up. The pieces up to one of them are a prefix of the list
(`take_append_piece`), and all of them are the list (`take_pieceCount`).
-/

namespace SprdHal.Lib

variable {α : Type}

/-- How many pieces of `size` elements `n` elements make. -/
def pieceCount (size n : Nat) : Nat := (n + (size - 1)) / size

/-- The piece with number `i`, from 0 on. -/
def piece (size : Nat) (l : List α) (i : Nat) : List α := (l.drop (size * i)).take size

section Count

variable {size n i : Nat} (hs : 0 < size)

include hs

theorem le_mul_pieceCount : n ≤ size * pieceCount size n := by
  rw [Nat.mul_comm]
  exact le_alignUp hs n

/-- A piece begins before the end. -/
theorem mul_lt_of_lt_pieceCount (hi : i < pieceCount size n) : size * i < n := by
  have hend : pieceCount size n * size < n + size := alignUp_lt hs n
  have hstep : size * (i + 1) ≤ size * pieceCount size n := Nat.mul_le_mul_left _ hi
  rw [Nat.mul_succ, Nat.mul_comm size (pieceCount size n)] at hstep
  omega

theorem pieceCount_le : pieceCount size n ≤ n / size + 1 := by
  rw [← Nat.add_div_right n hs]
  exact Nat.div_le_div_right (by omega)

end Count

section Piece

variable {size i : Nat} (l : List α)

/-- The pieces so far and the next one. -/
theorem take_append_piece : l.take (size * i) ++ piece size l i = l.take (size * (i + 1)) := by
  rw [Nat.mul_succ, List.take_add]
  rfl

theorem length_piece_le : (piece size l i).length ≤ size := by
  rw [piece, List.length_take]
  exact Nat.min_le_left _ _

/-- A piece before the last one is full, the last one is what is left. -/
theorem length_piece (hs : 0 < size) (hi : i < pieceCount size l.length) :
    (piece size l i).length =
      if i + 1 < pieceCount size l.length then size else l.length - size * i := by
  rw [piece, List.length_take, List.length_drop]
  split
  · next hnext =>
    have hlt := mul_lt_of_lt_pieceCount hs hnext
    rw [Nat.mul_succ] at hlt
    omega
  · next hlast =>
    have hend : pieceCount size l.length = i + 1 := by omega
    have hle := le_mul_pieceCount (n := l.length) hs
    rw [hend, Nat.mul_succ] at hle
    omega

theorem length_piece_pos (hs : 0 < size) (hi : i < pieceCount size l.length) :
    0 < (piece size l i).length := by
  have hlt := mul_lt_of_lt_pieceCount hs hi
  rw [length_piece l hs hi]
  split <;> omega

/-- All pieces. -/
theorem take_pieceCount (hs : 0 < size) : l.take (size * pieceCount size l.length) = l :=
  List.take_of_length_le (le_mul_pieceCount hs)

end Piece

/-- Pieces of one size that are put together: an element is in its piece. -/
theorem getElem?_flatMap_pieces {β γ : Type} {l : List β} {f : β → List γ} {size k s : Nat}
    (hf : ∀ a, (f a).length = size) (hs : s < size) :
    (l.flatMap f)[size * k + s]? = l[k]?.bind fun a => (f a)[s]? := by
  induction l generalizing k with
  | nil => simp
  | cons a l ih =>
    rw [List.flatMap_cons]
    cases k with
    | zero =>
      rw [Nat.mul_zero, Nat.zero_add, List.getElem?_append_left (by rw [hf]; exact hs)]
      rfl
    | succ k =>
      have hle : (f a).length ≤ size * (k + 1) + s := by
        rw [hf, Nat.mul_succ]
        omega
      have hsub : size * (k + 1) + s - (f a).length = size * k + s := by
        rw [hf, Nat.mul_succ]
        omega
      rw [List.getElem?_append_right hle, hsub, ih]
      rfl

end SprdHal.Lib
