/-
Threads that share a state.

A thread is what it has left to do; a step of it changes the shared state and the thread, and may
spawn another one.
-/
import ForwardX.Lib.Chain

namespace ForwardX.Threads

open Chain

variable {σ τ : Type*}

structure World (σ τ : Type*) where
  shared : σ
  threads : List τ

/-- What a step of the thread `t` comes to. -/
def World.move (w : World σ τ) (t : ℕ) (after : σ × τ × Option τ) : World σ τ where
  shared := after.1
  threads := w.threads.set t after.2.1 ++ after.2.2.toList

def World.spawn (w : World σ τ) (shared : σ) (thread : τ) : World σ τ where
  shared := shared
  threads := w.threads ++ [thread]

/-! ## Reads -/

theorem getElem?_move_iff {w : World σ τ} {t : ℕ} {after : σ × τ × Option τ} {before : τ}
    (ht : w.threads[t]? = some before) {u : ℕ} {x : τ} : (w.move t after).threads[u]? = some x ↔
      (u = t ∧ x = after.2.1) ∨ (u ≠ t ∧ w.threads[u]? = some x) ∨
        (u = w.threads.length ∧ after.2.2 = some x) := by
  have hlt := lt_length_of_getElem? ht
  rw [World.move]
  dsimp only
  by_cases hu : u < w.threads.length
  · rw [List.getElem?_append_left (by simpa using hu), List.getElem?_set]
    split
    · rename_i heq
      subst heq
      simp [hlt, Nat.ne_of_lt hlt, eq_comm]
    · rename_i hne
      simp [Ne.symm hne, Nat.ne_of_lt hu]
  · rw [List.getElem?_append_right (by simpa using hu), List.length_set]
    have hnone : w.threads[u]? = none := List.getElem?_eq_none (by omega)
    have hut : u ≠ t := by omega
    cases after.2.2 with
    | none => simp [hnone, hut]
    | some spawned =>
      rw [Option.toList_some, List.getElem?_singleton]
      by_cases hlast : u = w.threads.length
      · simp [hlast, (Nat.ne_of_lt hlt).symm, eq_comm]
      · have hbeyond : ¬ u - w.threads.length = 0 := by omega
        simp [hbeyond, hnone, hut, hlast]

/-! ## Invariants -/

/-- `holds` may name the thread, as locks do; `apart` is about two threads. -/
structure Kept (Inv : σ → Prop) (Holds : σ → ℕ → τ → Prop) (Apart : τ → τ → Prop) (w : World σ τ) : Prop where
  inv : Inv w.shared
  holds : ∀ (t : ℕ) (x : τ), w.threads[t]? = some x → Holds w.shared t x
  apart : ∀ (t u : ℕ) (x y : τ), t ≠ u → w.threads[t]? = some x → w.threads[u]? = some y → Apart x y

variable {Inv : σ → Prop} {Holds : σ → ℕ → τ → Prop} {Apart : τ → τ → Prop} {w : World σ τ}

theorem Kept.move (h : Kept Inv Holds Apart w) (hsymm : ∀ x y, Apart x y → Apart y x) {t : ℕ} {before : τ}
    (ht : w.threads[t]? = some before) {after : σ × τ × Option τ} (hinv : Inv after.1)
    (hown : Holds after.1 t after.2.1)
    (hothers : ∀ (u : ℕ) (y : τ), u ≠ t → w.threads[u]? = some y → Holds w.shared u y → Apart before y →
      Holds after.1 u y ∧ Apart after.2.1 y ∧ ∀ z ∈ after.2.2, Apart z y)
    (hspawned : ∀ z ∈ after.2.2, Holds after.1 w.threads.length z ∧ Apart z after.2.1) :
    Kept Inv Holds Apart (w.move t after) where
  inv := hinv
  holds u x hu := by
    rcases (getElem?_move_iff ht).mp hu with ⟨rfl, rfl⟩ | ⟨hne, hold⟩ | ⟨rfl, hnew⟩
    · exact hown
    · exact (hothers u x hne hold (h.holds u x hold) (h.apart t u before x hne.symm ht hold)).1
    · exact (hspawned x hnew).1
  apart u v x y huv hu hv := by
    have hother : ∀ (k : ℕ) (z : τ), k ≠ t → w.threads[k]? = some z →
        Apart after.2.1 z ∧ ∀ new ∈ after.2.2, Apart new z := fun k z hne hold =>
      (hothers k z hne hold (h.holds k z hold) (h.apart t k before z hne.symm ht hold)).2
    rcases (getElem?_move_iff ht).mp hu with ⟨rfl, rfl⟩ | ⟨hne, hold⟩ | ⟨rfl, hnew⟩
    · rcases (getElem?_move_iff ht).mp hv with ⟨rfl, -⟩ | ⟨hne', hold'⟩ | ⟨-, hnew'⟩
      · exact absurd rfl huv
      · exact (hother v y hne' hold').1
      · exact hsymm _ _ (hspawned y hnew').2
    · rcases (getElem?_move_iff ht).mp hv with ⟨rfl, rfl⟩ | ⟨-, hold'⟩ | ⟨-, hnew'⟩
      · exact hsymm _ _ (hother u x hne hold).1
      · exact h.apart u v x y huv hold hold'
      · exact hsymm _ _ ((hother u x hne hold).2 y hnew')
    · rcases (getElem?_move_iff ht).mp hv with ⟨rfl, rfl⟩ | ⟨hne', hold'⟩ | ⟨rfl, -⟩
      · exact (hspawned x hnew).2
      · exact (hother v y hne' hold').2 x hnew
      · exact absurd rfl huv

theorem Kept.spawn (h : Kept Inv Holds Apart w) (hsymm : ∀ x y, Apart x y → Apart y x) {shared : σ} {thread : τ}
    (hinv : Inv shared) (hown : Holds shared w.threads.length thread)
    (hothers : ∀ (u : ℕ) (y : τ), w.threads[u]? = some y → Holds w.shared u y → Holds shared u y ∧ Apart thread y) :
    Kept Inv Holds Apart (w.spawn shared thread) where
  inv := hinv
  holds u x hu := by
    rcases getElem?_concat_iff.mp hu with hold | ⟨rfl, rfl⟩
    · exact (hothers u x hold (h.holds u x hold)).1
    · exact hown
  apart u v x y huv hu hv := by
    rcases getElem?_concat_iff.mp hu with hold | ⟨rfl, rfl⟩
    · rcases getElem?_concat_iff.mp hv with hold' | ⟨rfl, rfl⟩
      · exact h.apart u v x y huv hold hold'
      · exact hsymm _ _ (hothers u x hold (h.holds u x hold)).2
    · rcases getElem?_concat_iff.mp hv with hold' | ⟨rfl, rfl⟩
      · exact (hothers v y hold' (h.holds v y hold')).2
      · exact absurd rfl huv

theorem Kept.change (h : Kept Inv Holds Apart w) {shared : σ} (hinv : Inv shared)
    (hothers : ∀ (u : ℕ) (y : τ), w.threads[u]? = some y → Holds w.shared u y → Holds shared u y) :
    Kept Inv Holds Apart { w with shared } where
  inv := hinv
  holds u x hu := hothers u x hu (h.holds u x hu)
  apart := h.apart

end ForwardX.Threads
