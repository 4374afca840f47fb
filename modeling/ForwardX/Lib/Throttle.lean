/-
A counter of failures that blocks for a while.
-/
import Mathlib.Algebra.Order.Ring.Int
import Mathlib.Data.List.Basic

namespace ForwardX.Throttle

structure FailureEntry where
  count : ℕ
  lastFailAt : ℤ

/-- An entry counts until `window` after its last failure. -/
def active (window : ℤ) (e : Option FailureEntry) (now : ℤ) : Option FailureEntry :=
  e.filter fun e => now - e.lastFailAt < window

def recorded (window : ℤ) (e : Option FailureEntry) (now : ℤ) : FailureEntry :=
  match active window e now with
  | some e => ⟨e.count + 1, now⟩
  | none => ⟨1, now⟩

def Blocks (window block : ℤ) (threshold : ℕ) (e : Option FailureEntry) (now : ℤ) : Prop :=
  ∃ a ∈ active window e now, threshold ≤ a.count ∧ now < a.lastFailAt + block

/-- How many of the times are in the span of length `block` from `t`. -/
def inSpan (block t : ℤ) (times : List ℤ) : ℕ := times.countP fun x => t ≤ x ∧ x < t + block

structure Paced (window block : ℤ) (threshold : ℕ) (times : List ℤ) (e : Option FailureEntry)
    (now : ℤ) : Prop where
  spans : ∀ t, inSpan block t times ≤ threshold
  past : ∀ x ∈ times, x ≤ now
  last : ∀ a ∈ e, a.lastFailAt ≤ now ∧ ∀ x ∈ times, x ≤ a.lastFailAt
  counted : ∀ a ∈ e, ∀ t, a.lastFailAt < t + block → times.countP (fun x => t ≤ x) ≤ a.count
  forgotten : e = none → ∀ x ∈ times, x + window ≤ now

section

variable {window block : ℤ} {threshold : ℕ} {times : List ℤ} {e : Option FailureEntry} {now : ℤ}

theorem paced_nil (window block : ℤ) (threshold : ℕ) (now : ℤ) :
    Paced window block threshold [] none now where
  spans _ := Nat.zero_le _
  past := List.forall_mem_nil _
  last := nofun
  counted := nofun
  forgotten _ := List.forall_mem_nil _

theorem Paced.later (h : Paced window block threshold times e now) {now' : ℤ} (hnow : now ≤ now') :
    Paced window block threshold times e now' where
  spans := h.spans
  past x hx := (h.past x hx).trans hnow
  last a ha := ⟨(h.last a ha).1.trans hnow, (h.last a ha).2⟩
  counted := h.counted
  forgotten hnone x hx := (h.forgotten hnone x hx).trans hnow

theorem mem_active {a : FailureEntry} : a ∈ active window e now ↔ a ∈ e ∧ now - a.lastFailAt < window := by
  rw [active, Option.mem_def, Option.filter_eq_some_iff, decide_eq_true_eq, Option.mem_def]

theorem active_active : active window (active window e now) now = active window e now := by
  ext a
  rw [← Option.mem_def, ← Option.mem_def, mem_active, mem_active, and_assoc, and_self]

theorem Paced.active (h : Paced window block threshold times e now) :
    Paced window block threshold times (Throttle.active window e now) now where
  spans := h.spans
  past := h.past
  last a ha := h.last a (mem_active.mp ha).1
  counted a ha := h.counted a (mem_active.mp ha).1
  forgotten := by
    intro hnone x hx
    cases e with
    | none => exact h.forgotten rfl x hx
    | some a =>
      have hold : ¬ now - a.lastFailAt < window := by simpa [Throttle.active] using hnone
      have hlast := (h.last a rfl).2 x hx
      omega

theorem inSpan_append (t x : ℤ) :
    inSpan block t (times ++ [x]) = inSpan block t times + if t ≤ x ∧ x < t + block then 1 else 0 := by
  simp [inSpan, List.countP_append, List.countP_cons]

theorem inSpan_le (t : ℤ) : inSpan block t times ≤ times.countP fun x => t ≤ x :=
  List.countP_mono_left fun _ _ hx => decide_eq_true (of_decide_eq_true hx).1

theorem countP_append_le (t x : ℤ) :
    (times ++ [x]).countP (fun y => t ≤ y) ≤ times.countP (fun y => t ≤ y) + 1 := by
  rw [List.countP_append, List.countP_cons, List.countP_nil]
  split <;> omega

theorem spans_append (h : Paced window block threshold times e now)
    (hin : ∀ t, t ≤ now → now < t + block → times.countP (fun x => t ≤ x) + 1 ≤ threshold) (t : ℤ) :
    inSpan block t (times ++ [now]) ≤ threshold := by
  rw [inSpan_append]
  split
  · rename_i hnow
    have hspan := hin t hnow.1 hnow.2
    have hle : inSpan block t times ≤ times.countP fun x => t ≤ x := inSpan_le t
    omega
  · exact h.spans t

theorem Paced.record (h : Paced window block threshold times e now) (hblock : block ≤ window)
    (hthreshold : 1 ≤ threshold) (hgo : ¬ Blocks window block threshold e now) :
    Paced window block threshold (times ++ [now]) (some (recorded window e now)) now := by
  have hactive := h.active
  have hpast : ∀ x ∈ times ++ [now], x ≤ now := by
    intro x hx
    rcases List.mem_append.mp hx with hx | hx
    · exact h.past x hx
    · exact (List.mem_singleton.mp hx).le
  rw [recorded]
  cases ha : Throttle.active window e now with
  | none =>
    rw [ha] at hactive
    -- no failure before is in a span with this one
    have hout : ∀ t, now < t + block → times.countP (fun x => t ≤ x) = 0 := by
      intro t ht
      rw [List.countP_eq_zero]
      intro x hx
      have hforgotten := hactive.forgotten rfl x hx
      simp only [decide_eq_true_eq]
      omega
    refine ⟨spans_append h fun t _ ht => ?_, hpast, ?_, ?_, nofun⟩
    · rw [hout t ht]
      exact hthreshold
    · rintro a ⟨⟩
      exact ⟨le_rfl, hpast⟩
    · rintro a ⟨⟩ t ht
      have hle : (times ++ [now]).countP (fun y => t ≤ y) ≤ times.countP (fun y => t ≤ y) + 1 :=
        countP_append_le t now
      rw [hout t ht] at hle
      exact hle
  | some a =>
    rw [ha] at hactive
    obtain ⟨hlast, hall⟩ := hactive.last a rfl
    refine ⟨spans_append h fun t hnow ht => ?_, hpast, ?_, ?_, nofun⟩
    · by_cases hcount : a.count < threshold
      · have hcounted := hactive.counted a rfl t (by omega)
        omega
      · -- the block is over, so the last failure is out of the span, and all others with it
        have hover : a.lastFailAt + block ≤ now := by
          by_contra hearly
          exact hgo ⟨a, ha, not_lt.mp hcount, not_le.mp hearly⟩
        have hout : times.countP (fun x => t ≤ x) = 0 := by
          rw [List.countP_eq_zero]
          intro x hx
          have hle := hall x hx
          simp only [decide_eq_true_eq]
          omega
        rw [hout]
        exact hthreshold
    · rintro b ⟨⟩
      exact ⟨le_rfl, hpast⟩
    · rintro b ⟨⟩ t ht
      dsimp only at ht
      have hcounted := hactive.counted a rfl t (by omega)
      exact (countP_append_le t now).trans (Nat.add_le_add_right hcounted 1)

end

end ForwardX.Throttle
