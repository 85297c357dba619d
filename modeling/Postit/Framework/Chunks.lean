import Mathlib.Data.List.Range
import Mathlib.Data.List.TakeDrop

/-!
# A list cut into pieces of one size

All pieces but the last have the size, and the last is not empty.  A piece is settled as soon as
enough of the list is there for it (`piece_append`).
-/

namespace Postit.Framework

variable {α : Type} {size : ℕ} {l t : List α} {i : ℕ}

/-- The piece of this number. -/
def piece (size : ℕ) (l : List α) (i : ℕ) : List α := (l.drop (i * size)).take size

/-- How many pieces there are. -/
def pieceCount (size : ℕ) (l : List α) : ℕ := (l.length + (size - 1)) / size

/-- The pieces of a list. -/
def pieces (size : ℕ) (l : List α) : List (List α) :=
  (List.range (pieceCount size l)).map (piece size l)

lemma lt_pieceCount_iff (hsize : 0 < size) : i < pieceCount size l ↔ i * size < l.length := by
  rw [pieceCount, Nat.lt_iff_add_one_le, Nat.le_div_iff_mul_le hsize, Nat.succ_mul]
  omega

/-- The number of pieces is known by where the last one begins. -/
lemma pieceCount_eq (hsize : 0 < size) {n : ℕ} (hle : l.length ≤ n * size)
    (hlt : ∀ i < n, i * size < l.length) : pieceCount size l = n := by
  refine Nat.le_antisymm ?_ ?_
  · by_contra hmore
    have := (lt_pieceCount_iff hsize).mp (Nat.lt_of_not_le hmore)
    omega
  · cases n with
    | zero => exact Nat.zero_le _
    | succ n => exact (lt_pieceCount_iff hsize).mpr (hlt n (Nat.lt_succ_self n))

lemma length_piece_le : (piece size l i).length ≤ size := List.length_take_le _ _

/-- A piece that another one follows has the size. -/
lemma length_piece (h : (i + 1) * size ≤ l.length) : (piece size l i).length = size := by
  rw [Nat.succ_mul] at h
  rw [piece, List.length_take, List.length_drop]
  omega

/-- No piece is empty. -/
lemma piece_ne_nil (hsize : 0 < size) (h : i < pieceCount size l) : piece size l i ≠ [] := by
  have hlt := (lt_pieceCount_iff hsize).mp h
  rw [← List.length_pos_iff, piece, List.length_take, List.length_drop]
  omega

/-- More of the list does not change a piece that is there. -/
lemma piece_append (h : (i + 1) * size ≤ l.length) : piece size (l ++ t) i = piece size l i := by
  rw [Nat.succ_mul] at h
  rw [piece, piece, List.drop_append_of_le_length (by omega), List.take_append_of_le_length]
  rw [List.length_drop]
  omega

/-- The first pieces are the beginning of the list. -/
lemma flatten_map_piece (n : ℕ) :
    ((List.range n).map (piece size l)).flatten = l.take (n * size) := by
  induction n with
  | zero => simp
  | succ n ih => simp [List.range_succ, ih, piece, Nat.succ_mul, List.take_add]

/-- The pieces are the list. -/
lemma flatten_pieces (hsize : 0 < size) (l : List α) : (pieces size l).flatten = l := by
  rw [pieces, flatten_map_piece, List.take_of_length_le]
  have := mt (lt_pieceCount_iff (l := l) hsize).mpr (Nat.lt_irrefl _)
  omega

end Postit.Framework
