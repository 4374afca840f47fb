/-
A list of writes that is carried out one after the other, and may be cut after any of them.
-/
import Mathlib.Data.Nat.Notation

namespace ForwardX.Writes

variable {σ ω : Type*} {allowed : ω → Prop} {write : σ → ω → σ} {P Q : σ → Prop}

/-- No write is refused, `P` holds before and after each, and `Q` in the end. -/
def Through (allowed : ω → Prop) (write : σ → ω → σ) (P Q : σ → Prop) : σ → List ω → Prop
  | s, [] => P s ∧ Q s
  | s, op :: ops => P s ∧ allowed op ∧ Through allowed write P Q (write s op) ops

variable {ops : List ω}

theorem Through.here {s : σ} (h : Through allowed write P Q s ops) : P s := by
  cases ops with
  | nil => exact h.1
  | cons op ops => exact h.1

theorem Through.head {s : σ} {op : ω} (h : Through allowed write P Q s (op :: ops)) : allowed op :=
  h.2.1

theorem Through.tail {s : σ} {op : ω} (h : Through allowed write P Q s (op :: ops)) :
    Through allowed write P Q (write s op) ops := h.2.2

theorem Through.done {s : σ} (h : Through allowed write P Q s ops) : Q (ops.foldl write s) := by
  induction ops generalizing s with
  | nil => exact h.2
  | cons op ops ih => exact ih h.tail

end ForwardX.Writes
