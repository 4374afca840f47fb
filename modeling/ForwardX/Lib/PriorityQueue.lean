/-
Priority queues, as their documentation promises them.

A queue holds a multiset of items; `pop` takes out an item of least priority.
-/
import Mathlib.Data.Multiset.Basic
import Mathlib.Data.List.Sort

namespace ForwardX

/-- A priority queue of `α`, least `priority` first. -/
structure PriorityQueue (α : Type*) (priority : α → ℤ) where
  Queue : Type
  empty : Queue
  push : Queue → α → Queue
  pop : Queue → Option (α × Queue)
  items : Queue → Multiset α
  items_empty : items empty = 0
  items_push : ∀ q a, items (push q a) = a ::ₘ items q
  pop_none : ∀ q, pop q = none → items q = 0
  pop_some : ∀ q a q', pop q = some (a, q') →
    items q = a ::ₘ items q' ∧ ∀ b ∈ items q, priority a ≤ priority b

namespace PriorityQueue

variable {α : Type*} {priority : α → ℤ} (P : PriorityQueue α priority)

/-! ## Draining -/

/-- Pop items while `continue?` allows it, at most `fuel` of them, and feed each
to `f`. -/
def drain {σ : Type*} (continue? : σ → α → Bool) (f : σ → α → σ) :
    ℕ → σ → P.Queue → σ × P.Queue
  | 0, s, q => (s, q)
  | fuel + 1, s, q =>
    match P.pop q with
    | none => (s, q)
    | some (a, q') =>
      if continue? s a then drain continue? f fuel (f s a) q' else (s, q)

/-- **The draining rule.** What holds of the accumulated state and the items left
is preserved by every pop of a least item. -/
theorem drain_invariant {σ : Type*} (continue? : σ → α → Bool) (f : σ → α → σ) {I : σ → Multiset α → Prop}
    (hstep : ∀ s a m, I s (a ::ₘ m) → (∀ b ∈ m, priority a ≤ priority b) →
      continue? s a = true → I (f s a) m) (fuel : ℕ) :
    ∀ s q, I s (P.items q) → I (P.drain continue? f fuel s q).1
      (P.items (P.drain continue? f fuel s q).2) := by
  induction fuel with
  | zero => intro s q h; exact h
  | succ fuel ih =>
    intro s q h
    unfold drain
    rcases hpop : P.pop q with _ | ⟨a, q'⟩
    · exact h
    · obtain ⟨hitems, hleast⟩ := P.pop_some q a q' hpop
      rw [hitems] at h hleast
      dsimp only
      split_ifs with hgo
      · exact ih _ _ (hstep s a _ h (fun b hb => hleast b (Multiset.mem_cons_of_mem hb)) hgo)
      -- the loop looked at `a` and left it where it was
      · rw [hitems]; exact h

theorem drain_stops {σ : Type*} (continue? : σ → α → Bool) (f : σ → α → σ) (fuel : ℕ) :
    ∀ s q, (P.items q).card ≤ fuel →
      P.items (P.drain continue? f fuel s q).2 = 0 ∨
      ∃ a ∈ P.items (P.drain continue? f fuel s q).2,
        continue? (P.drain continue? f fuel s q).1 a = false ∧
        ∀ b ∈ P.items (P.drain continue? f fuel s q).2, priority a ≤ priority b := by
  -- each round takes one item out, so the fuel outlasts the queue
  induction fuel with
  | zero =>
    intro s q hcard
    exact .inl (Multiset.card_eq_zero.mp (Nat.le_zero.mp hcard))
  | succ fuel ih =>
    intro s q hcard
    unfold drain
    rcases hpop : P.pop q with _ | ⟨a, q'⟩
    · exact .inl (P.pop_none q hpop)
    · obtain ⟨hitems, hleast⟩ := P.pop_some q a q' hpop
      dsimp only
      split_ifs with hgo
      · refine ih _ _ ?_
        rw [hitems, Multiset.card_cons] at hcard
        omega
      · exact .inr ⟨a, by rw [hitems]; exact Multiset.mem_cons_self _ _, by simpa using hgo, hleast⟩

theorem drain_of_stop {σ : Type*} {continue? : σ → α → Bool} (f : σ → α → σ) {s : σ}
    (hstop : ∀ a, continue? s a = false) (fuel : ℕ) (q : P.Queue) :
    P.drain continue? f fuel s q = (s, q) := by
  cases fuel with
  | zero => rfl
  | succ fuel =>
    unfold drain
    cases P.pop q with
    | none => rfl
    | some top =>
      dsimp only
      rw [hstop, if_neg Bool.false_ne_true]

end PriorityQueue

/-! ## A sorted list -/

theorem pairwise_orderedInsert {α : Type} (priority : α → ℤ) (a : α) {l : List α}
    (h : l.Pairwise fun a b => priority a ≤ priority b) :
    (l.orderedInsert (fun a b => priority a ≤ priority b) a).Pairwise
      fun a b => priority a ≤ priority b := by
  have : Std.Total fun a b : α => priority a ≤ priority b := ⟨fun a b => le_total _ _⟩
  have : IsTrans α fun a b => priority a ≤ priority b := ⟨fun _ _ _ => le_trans⟩
  exact h.orderedInsert a l

/-- The priority queue whose state is a list in order of priority. -/
def sortedQueue (α : Type) (priority : α → ℤ) : PriorityQueue α priority where
  Queue := { l : List α // l.Pairwise fun a b => priority a ≤ priority b }
  empty := ⟨[], List.Pairwise.nil⟩
  push q a := ⟨_, pairwise_orderedInsert priority a q.2⟩
  pop q := match q with
    | ⟨[], _⟩ => none
    | ⟨a :: l, h⟩ => some (a, ⟨l, (List.pairwise_cons.mp h).2⟩)
  items q := q.1
  items_empty := rfl
  items_push := by
    intro q a
    exact Multiset.coe_eq_coe.mpr (List.perm_orderedInsert _ _ _)
  pop_none := by
    rintro ⟨_ | ⟨a, l⟩, h⟩ hpop
    · rfl
    · cases hpop
  pop_some := by
    rintro ⟨_ | ⟨a, l⟩, h⟩ b q' hpop
    · cases hpop
    · cases hpop
      refine ⟨rfl, fun c hc => ?_⟩
      rcases List.mem_cons.mp (Multiset.mem_coe.mp hc) with rfl | hc
      · exact le_refl _
      · exact (List.pairwise_cons.mp h).1 c hc

end ForwardX
