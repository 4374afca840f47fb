/-
A ledger of increments on their way into acknowledged reports.
-/
import Mathlib.Algebra.BigOperators.Group.List.Basic
import Mathlib.Algebra.GroupWithZero.Nat

namespace ForwardX.Ledger

variable {κ ι ID : Type*} [DecidableEq κ] [DecidableEq ID]

/-! ## Increments and their status -/

inductive Status (ID : Type*) where
  | waiting
  | inReport (id : ID)
  | acknowledged (id : ID)
  deriving DecidableEq

def Status.report? : Status ID → Option ID
  | .waiting => none
  | .inReport id => some id
  | .acknowledged id => some id

def Status.isOpen : Status ID → Bool
  | .acknowledged _ => false
  | _ => true

/-- An increment: whose it is, how much it adds to each counted quantity, and
where it stands. -/
structure Entry (κ ι ID : Type*) where
  owner : κ
  amount : ι → ℕ
  status : Status ID

/-- The increments of `k` with status `old` take status `new`. -/
def advance (k : κ) (old new : Status ID) (L : List (Entry κ ι ID)) : List (Entry κ ι ID) :=
  L.map fun e => if e.owner = k ∧ e.status = old then { e with status := new } else e

/-- Every waiting increment of `k` goes into report `id`. -/
abbrev cut (k : κ) (id : ID) (L : List (Entry κ ι ID)) : List (Entry κ ι ID) :=
  advance k .waiting (.inReport id) L

/-- Report `id` of `k` is acknowledged. -/
abbrev acknowledge (k : κ) (id : ID) (L : List (Entry κ ι ID)) : List (Entry κ ι ID) :=
  advance k (.inReport id) (.acknowledged id) L

def increments (L : List (Entry κ ι ID)) : List (κ × (ι → ℕ)) :=
  L.map fun e => (e.owner, e.amount)

/-! ## Tallies -/

/-- What the increments of `k` whose status satisfies `p` add to quantity `i`. -/
def tally (p : Status ID → Bool) (k : κ) (i : ι) (L : List (Entry κ ι ID)) : ℕ :=
  (L.map fun e => if e.owner = k ∧ p e.status = true then e.amount i else 0).sum

/-- All increments, those of unacknowledged and of acknowledged reports, and
those of one report. -/
abbrev total (k : κ) (i : ι) (L : List (Entry κ ι ID)) : ℕ := tally (fun _ => true) k i L
@[inherit_doc total] abbrev outstanding (k : κ) (i : ι) (L : List (Entry κ ι ID)) : ℕ :=
  tally Status.isOpen k i L
@[inherit_doc total] abbrev settled (k : κ) (i : ι) (L : List (Entry κ ι ID)) : ℕ :=
  tally (fun s => !s.isOpen) k i L
@[inherit_doc total] abbrev reported (id : ID) (k : κ) (i : ι) (L : List (Entry κ ι ID)) : ℕ :=
  tally (fun s => decide (s.report? = some id)) k i L

omit [DecidableEq ID] in
theorem tally_append (p : Status ID → Bool) (k : κ) (i : ι) (L L' : List (Entry κ ι ID)) :
    tally p k i (L ++ L') = tally p k i L + tally p k i L' := by
  simp only [tally, List.map_append, List.sum_append]

omit [DecidableEq ID] in
theorem tally_congr {p q : Status ID → Bool} {k : κ} (i : ι) {L : List (Entry κ ι ID)}
    (h : ∀ e ∈ L, e.owner = k → p e.status = q e.status) : tally p k i L = tally q k i L := by
  unfold tally
  refine congrArg _ (List.map_congr_left fun e he => ?_)
  by_cases hk : e.owner = k
  · rw [h e he hk]
  · rw [if_neg fun hbad => hk hbad.1, if_neg fun hbad => hk hbad.1]

variable {p : Status ID → Bool}

omit [DecidableEq ID] in
theorem tally_eq_zero {k : κ} (i : ι) {L : List (Entry κ ι ID)}
    (h : ∀ e ∈ L, e.owner = k → p e.status = false) : tally p k i L = 0 := by
  rw [tally_congr (q := fun _ => false) i h]
  simp [tally]

omit [DecidableEq ID] in
theorem outstanding_add_settled (k : κ) (i : ι) (L : List (Entry κ ι ID)) :
    outstanding k i L + settled k i L = total k i L := by
  unfold outstanding settled total tally
  rw [← List.sum_map_add]
  refine congrArg _ (List.map_congr_left fun e _ => ?_)
  by_cases hk : e.owner = k
  · cases hp : e.status.isOpen <;> simp [hk, hp]
  · simp [hk]

omit [DecidableEq ID] in
theorem total_eq_sum (k : κ) (i : ι) (L : List (Entry κ ι ID)) :
    total k i L = ((increments L).map fun x => if x.1 = k then x.2 i else 0).sum := by
  simp only [total, tally, increments, List.map_map, and_true]
  rfl

/-! ## What the operations do to the tallies -/

variable {k : κ} {old new : Status ID} {L : List (Entry κ ι ID)}

theorem increments_advance : increments (advance k old new L) = increments L := by
  unfold increments advance
  rw [List.map_map]
  refine List.map_congr_left fun e _ => ?_
  rw [Function.comp_apply]
  split_ifs <;> rfl

theorem mem_advance {e : Entry κ ι ID} (he : e ∈ advance k old new L) :
    ∃ e₀ ∈ L, e₀.owner = e.owner ∧
      ((e₀.owner = k ∧ e₀.status = old ∧ e.status = new) ∨
        (¬ (e₀.owner = k ∧ e₀.status = old) ∧ e.status = e₀.status)) := by
  obtain ⟨e₀, hmem, rfl⟩ := List.mem_map.mp he
  refine ⟨e₀, hmem, ?_⟩
  by_cases hsel : e₀.owner = k ∧ e₀.status = old
  · rw [if_pos hsel]; exact ⟨rfl, .inl ⟨hsel.1, hsel.2, rfl⟩⟩
  · rw [if_neg hsel]; exact ⟨rfl, .inr ⟨hsel, rfl⟩⟩

theorem tally_advance_of_ne (p : Status ID → Bool) {k' : κ} (hk : k' ≠ k) (i : ι) :
    tally p k' i (advance k old new L) = tally p k' i L := by
  unfold tally advance
  rw [List.map_map]
  refine congrArg _ (List.map_congr_left fun e _ => ?_)
  rw [Function.comp_apply]
  by_cases hsel : e.owner = k ∧ e.status = old
  · rw [if_pos hsel, if_neg fun hbad => hk (hbad.1.symm.trans hsel.1),
      if_neg fun hbad => hk (hbad.1.symm.trans hsel.1)]
  · rw [if_neg hsel]

theorem tally_advance_of_eq (hp : p old = p new) (k' : κ) (i : ι) :
    tally p k' i (advance k old new L) = tally p k' i L := by
  unfold tally advance
  rw [List.map_map]
  refine congrArg _ (List.map_congr_left fun e _ => ?_)
  rw [Function.comp_apply]
  by_cases hsel : e.owner = k ∧ e.status = old
  · rw [if_pos hsel, ← hp, ← hsel.2]
  · rw [if_neg hsel]

theorem tally_advance_gain (hold : p old = false) (hnew : p new = true)
    (i : ι) : tally p k i (advance k old new L)
      = tally p k i L + tally (fun s => decide (s = old)) k i L := by
  unfold tally advance
  rw [List.map_map, ← List.sum_map_add]
  refine congrArg _ (List.map_congr_left fun e _ => ?_)
  rw [Function.comp_apply]
  by_cases hsel : e.owner = k ∧ e.status = old
  · simp [hsel.1, hsel.2, hold, hnew]
  · rw [if_neg hsel, if_neg (c := e.owner = k ∧ decide (e.status = old) = true)
      (by simpa using hsel), Nat.add_zero]

theorem tally_advance_loss (hold : p old = true) (hnew : p new = false)
    (i : ι) : tally p k i (advance k old new L) + tally (fun s => decide (s = old)) k i L
      = tally p k i L := by
  unfold tally advance
  rw [List.map_map, ← List.sum_map_add]
  refine congrArg _ (List.map_congr_left fun e _ => ?_)
  rw [Function.comp_apply]
  by_cases hsel : e.owner = k ∧ e.status = old
  · simp [hsel.1, hsel.2, hold, hnew]
  · rw [if_neg hsel, if_neg (c := e.owner = k ∧ decide (e.status = old) = true)
      (by simpa using hsel), Nat.add_zero]

end ForwardX.Ledger
