/-
A list cut into pieces of one length, and the pieces collected again in any order.

`piece k l i` is the `i`-th of them, the last one possibly shorter.
-/
import Mathlib.Algebra.BigOperators.Fin
import Mathlib.Algebra.Order.BigOperators.Group.Finset

namespace ForwardX

variable {α β : Type*}

/-! ## Pieces -/

/-- Piece `i` of `l`, `k` long unless it is the last. -/
def piece (k : ℕ) (l : List α) (i : ℕ) : List α := (l.drop (i * k)).take k

theorem length_piece (k : ℕ) (l : List α) (i : ℕ) : (piece k l i).length = min k (l.length - i * k) := by
  rw [piece, List.length_take, List.length_drop]

theorem flatten_pieces (k : ℕ) (l : List α) (n : ℕ) :
    ((List.range n).map (piece k l)).flatten = l.take (n * k) := by
  induction n with
  | zero => simp
  | succ n ih =>
    rw [List.range_succ, List.map_append, List.flatten_append, ih, List.map_singleton,
      List.flatten_singleton, piece, Nat.succ_mul, List.take_add]

section

variable {k n : ℕ} {l : List α} (h : l.length ≤ n * k)

include h

theorem flatten_pieces_of_le : ((List.range n).map (piece k l)).flatten = l := by
  rw [flatten_pieces, List.take_of_length_le h]

theorem sum_length_pieces : ∑ i ∈ Finset.range n, (piece k l i).length = l.length := by
  have hflat := congrArg List.length (flatten_pieces_of_le h)
  rw [List.length_flatten, List.map_map] at hflat
  rw [← hflat]
  rfl

theorem sum_length_pieces_le {seen : Finset ℕ}
    (hseen : seen ⊆ Finset.range n) : ∑ i ∈ seen, (piece k l i).length ≤ l.length := by
  rw [← sum_length_pieces h]
  exact Finset.sum_le_sum_of_subset hseen

end

/-! ## The buffer -/

/-- `n` slots for the values of `c`, filled at the indices in `seen`. -/
def collected (n : ℕ) (c : ℕ → β) (seen : Finset ℕ) : List (Option β) :=
  (List.range n).map fun i => if i ∈ seen then some (c i) else none

theorem collected_empty (n : ℕ) (c : ℕ → β) : collected n c ∅ = List.replicate n none := by
  simp [collected, List.map_const']

theorem collected_getD {n : ℕ} (c : ℕ → β) (seen : Finset ℕ) {i : ℕ} (hi : i < n) :
    (collected n c seen).getD i none = if i ∈ seen then some (c i) else none := by
  rw [List.getD_eq_getElem?_getD, collected, List.getElem?_map, List.getElem?_range hi]
  rfl

theorem collected_set (n : ℕ) (c : ℕ → β) (seen : Finset ℕ) (i : ℕ) :
    (collected n c seen).set i (some (c i)) = collected n c (insert i seen) := by
  refine List.ext_getElem? fun j => ?_
  rw [List.getElem?_set, collected, collected, List.length_map, List.length_range,
    List.getElem?_map, List.getElem?_map]
  by_cases hij : i = j
  · rw [if_pos hij, ← hij]
    by_cases hi : i < n
    · rw [if_pos hi, List.getElem?_range hi]
      simp
    · rw [if_neg hi, List.getElem?_eq_none (by rw [List.length_range]; omega)]
      rfl
  · rw [if_neg hij]
    have hmem : j ∈ insert i seen ↔ j ∈ seen := by
      rw [Finset.mem_insert, or_iff_right (Ne.symm hij)]
    by_cases hj : j < n
    · rw [List.getElem?_range hj, Option.map_some, Option.map_some]
      simp only [hmem]
    · rw [List.getElem?_eq_none (by rw [List.length_range]; omega)]
      rfl

theorem flatten_collected {k n : ℕ} {l : List α} (h : l.length ≤ n * k) :
    ((collected n (piece k l) (Finset.range n)).map fun (chunk : Option (List α)) =>
      chunk.getD []).flatten = l := by
  rw [collected, List.map_map]
  refine Eq.trans (congrArg List.flatten (List.map_congr_left fun i hi => ?_))
    (flatten_pieces_of_le h)
  rw [Function.comp_apply, if_pos (Finset.mem_range.mpr (List.mem_range.mp hi))]
  rfl

end ForwardX
