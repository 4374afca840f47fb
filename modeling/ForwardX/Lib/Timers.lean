/-
Timers of an event loop: `setTimeout` and `clearTimeout`.
-/
import ForwardX.Lib.JsMap
import Mathlib.Data.Rat.Defs

namespace ForwardX

structure Timer (α : Type*) where
  job : α
  delayMs : ℚ

structure Timers (α : Type*) where
  table : JsMap ℕ (Timer α)
  next : ℕ
  fresh : ∀ h, table.has h → h < next

namespace Timers

variable {α : Type*}

instance : EmptyCollection (Timers α) := ⟨⟨∅, 0, by simp⟩⟩

def job (ts : Timers α) (h : ℕ) : Option α := (ts.table.get h).map Timer.job

/-- The handle of the new timer is `ts.next`. -/
def setTimer (ts : Timers α) (a : α) (delayMs : ℚ) : Timers α where
  table := ts.table.set ts.next ⟨a, delayMs⟩
  next := ts.next + 1
  fresh := by
    intro h hhas
    rcases JsMap.has_set_iff.mp hhas with rfl | hold
    · exact Nat.lt_succ_self _
    · exact Nat.lt_succ_of_lt (ts.fresh h hold)

def clearTimer (ts : Timers α) (h : ℕ) : Timers α where
  table := ts.table.delete h
  next := ts.next
  fresh h' hhas := ts.fresh h' (JsMap.has_delete_iff.mp hhas).2

/-- `if (timer) clearTimer(timer)`. -/
def clear (ts : Timers α) : Option ℕ → Timers α
  | none => ts
  | some h => ts.clearTimer h

/-! ## Reads -/

@[simp] theorem job_empty (h : ℕ) : (∅ : Timers α).job h = none := rfl

theorem lt_next_of_job {ts : Timers α} {h : ℕ} {a : α} (hjob : ts.job h = some a) : h < ts.next := by
  obtain ⟨t, ht, -⟩ := Option.map_eq_some_iff.mp hjob
  exact ts.fresh h (JsMap.has_of_mem_get ht)

@[simp] theorem job_setTimer (ts : Timers α) (a : α) (delayMs : ℚ) (h : ℕ) :
    (ts.setTimer a delayMs).job h = if h = ts.next then some a else ts.job h := by
  rw [job, setTimer, JsMap.get_set]
  split
  · rfl
  · rfl

@[simp] theorem job_clearTimer (ts : Timers α) (h h' : ℕ) :
    (ts.clearTimer h).job h' = if h' = h then none else ts.job h' := by
  rw [job, clearTimer, JsMap.get_delete]
  split
  · rfl
  · rfl

@[simp] theorem job_clear (ts : Timers α) (slot : Option ℕ) (h : ℕ) :
    (ts.clear slot).job h = if slot = some h then none else ts.job h := by
  cases slot with
  | none => rfl
  | some own => simp [clear, eq_comm]

/-! ## Slots -/

/-- The slot has the one timer of the kind `P`. -/
def Owned (ts : Timers α) (P : α → Prop) (slot : Option ℕ) : Prop :=
  ∀ h, (∃ a, ts.job h = some a ∧ P a) ↔ slot = some h

variable {ts : Timers α} {P : α → Prop} {slot : Option ℕ}

theorem owned_empty (P : α → Prop) : Owned ∅ P none := by
  intro h
  simp

section

variable (howned : Owned ts P slot)

include howned

theorem Owned.eq_some {h : ℕ} {a : α} (hjob : ts.job h = some a) (ha : P a) : slot = some h :=
  (howned h).mp ⟨a, hjob, ha⟩

theorem Owned.ne_some {h : ℕ} {a : α} (hjob : ts.job h = some a) (ha : ¬ P a) : slot ≠ some h := by
  intro hslot
  obtain ⟨a', hjob', ha'⟩ := (howned h).mpr hslot
  obtain rfl := Option.some.inj (hjob.symm.trans hjob')
  exact ha ha'

theorem Owned.existsUnique (hsome : slot.isSome) : ∃! h, ∃ a, ts.job h = some a ∧ P a := by
  obtain ⟨h, rfl⟩ := Option.isSome_iff_exists.mp hsome
  refine ⟨h, (howned h).mpr rfl, ?_⟩
  intro h' hjob
  exact (Option.some.inj ((howned h').mp hjob)).symm

theorem Owned.setTimer_other {a : α} (ha : ¬ P a) (delayMs : ℚ) : Owned (ts.setTimer a delayMs) P slot := by
  intro h
  rw [← howned h, job_setTimer]
  split
  · rename_i hnext
    subst hnext
    constructor
    · rintro ⟨a', heq, ha'⟩
      obtain rfl := Option.some.inj heq
      exact absurd ha' ha
    · rintro ⟨a', hjob, -⟩
      exact absurd (lt_next_of_job hjob) (Nat.lt_irrefl _)
  · rfl

end

theorem Owned.setTimer (howned : Owned ts P none) {a : α} (ha : P a) (delayMs : ℚ) :
    Owned (ts.setTimer a delayMs) P (some ts.next) := by
  intro h
  rw [job_setTimer]
  split
  · rename_i hnext
    simp [hnext, ha]
  · rename_i hnext
    rw [howned h]
    constructor
    · exact nofun
    · intro heq
      exact absurd (Option.some.inj heq).symm hnext

theorem Owned.clearTimer_other (howned : Owned ts P slot) {h : ℕ} (hne : slot ≠ some h) :
    Owned (ts.clearTimer h) P slot := by
  intro h'
  rw [job_clearTimer]
  split
  · rename_i heq
    subst heq
    simp [hne]
  · exact howned h'

theorem Owned.clear (howned : Owned ts P slot) : Owned (ts.clear slot) P none := by
  intro h
  rw [job_clear]
  split
  · simp
  · rename_i hne
    simp [howned h, hne]

theorem Owned.clear_other {Q : α → Prop} {other : Option ℕ} (howned : Owned ts P slot)
    (hother : Owned ts Q other) (hPQ : ∀ a, Q a → ¬ P a) : Owned (ts.clear other) P slot := by
  cases other with
  | none => exact howned
  | some h =>
    obtain ⟨a, hjob, ha⟩ := (hother h).mpr rfl
    exact howned.clearTimer_other (howned.ne_some hjob (hPQ a ha))

end Timers

end ForwardX
