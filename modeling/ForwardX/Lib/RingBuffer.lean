/-
Circular buffers: an array, a start and a length.

What a ring holds is a window of its array, read from the start and wrapping around at the end.
-/
import Mathlib.Data.List.Range
import Mathlib.Data.Fin.Basic
import Mathlib.Data.Nat.ModEq

namespace ForwardX.RingBuffer

variable {α β : Type*} {cap : ℕ} [NeZero cap]

/-- The slot `i` places behind `head`, around the end of the array. -/
def slotAt (head : Fin cap) (i : ℕ) : Fin cap := Fin.ofNat cap (head + i)

/-- The `size` elements from `head` on. -/
def window (slots : Fin cap → α) (head : Fin cap) (size : ℕ) : List α :=
  (List.range size).map fun i => slots (slotAt head i)

variable {slots : Fin cap → α} {head : Fin cap} {size : ℕ}

@[simp] theorem window_zero : window slots head 0 = [] := rfl

@[simp] theorem length_window : (window slots head size).length = size := by
  rw [window, List.length_map, List.length_range]

@[simp] theorem slotAt_zero : slotAt head 0 = head := Fin.ext (Nat.mod_eq_of_lt head.isLt)

theorem slotAt_slotAt (i j : ℕ) : slotAt (slotAt head i) j = slotAt head (i + j) := by
  refine Fin.ext ?_
  show ((head + i) % cap + j) % cap = (head + (i + j)) % cap
  rw [Nat.mod_add_mod, Nat.add_assoc]

theorem slotAt_injective {i j : ℕ} (hi : i < cap) (hj : j < cap)
    (h : slotAt head i = slotAt head j) : i = j := by
  have hmod : (head + i) % cap = (head + j) % cap := congrArg Fin.val h
  have hij : i % cap = j % cap := Nat.ModEq.add_left_cancel' _ hmod
  rwa [Nat.mod_eq_of_lt hi, Nat.mod_eq_of_lt hj] at hij

theorem window_succ : window slots head (size + 1) = slots head :: window slots (slotAt head 1) size := by
  rw [window, List.range_succ_eq_map, List.map_cons, List.map_map, slotAt_zero]
  refine congrArg (slots head :: ·) (List.map_congr_left fun i _ => ?_)
  show slots (slotAt head (i + 1)) = slots (slotAt (slotAt head 1) i)
  rw [slotAt_slotAt, Nat.add_comm]

theorem window_succ_back :
    window slots head (size + 1) = window slots head size ++ [slots (slotAt head size)] := by
  rw [window, List.range_succ, List.map_append]
  rfl

theorem window_update {k : Fin cap} {v : α} (h : ∀ i < size, slotAt head i ≠ k) :
    window (Function.update slots k v) head size = window slots head size :=
  List.map_congr_left fun i hi => Function.update_of_ne (h i (List.mem_range.mp hi)) v slots

theorem window_push {v : α} (h : size < cap) :
    window (Function.update slots (slotAt head size) v) head (size + 1)
      = window slots head size ++ [v] := by
  rw [window_succ_back, Function.update_self]
  refine congrArg (· ++ [v]) (window_update fun i hi heq => ?_)
  exact absurd (slotAt_injective (hi.trans h) h heq) hi.ne

theorem window_pop {v : α} (h : size < cap) :
    window (Function.update slots head v) (slotAt head 1) size
      = window slots (slotAt head 1) size := by
  refine window_update fun i hi heq => ?_
  rw [slotAt_slotAt] at heq
  have hzero : 1 + i = 0 :=
    slotAt_injective (by omega) (Nat.pos_of_neZero cap) (heq.trans slotAt_zero.symm)
  omega

end ForwardX.RingBuffer
