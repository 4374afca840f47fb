/-
Accounts with a journal.

A book holds a balance for each key and a journal of postings; a posting names its key, its amount
and the balance it leaves.
-/
import ForwardX.Lib.Table
import Mathlib.Algebra.BigOperators.Group.List.Basic

namespace ForwardX.Accounts

open Table

variable {κ M : Type*} [DecidableEq κ] [AddCommGroup M]

structure Entry (κ M : Type*) where
  owner : κ
  amount : M
  after : M

structure Book (κ M : Type*) where
  accounts : List (κ × M)
  journal : List (Entry κ M)

def total (k : κ) (es : List (Entry κ M)) : M :=
  ((es.filter fun e => e.owner = k).map Entry.amount).sum

def Book.balance (b : Book κ M) (k : κ) : Option M := (byKey Prod.fst k b.accounts).map Prod.snd

/-- The account takes the balance that the entry names. -/
def Book.post (b : Book κ M) (e : Entry κ M) : Book κ M where
  accounts := updateWhere (fun a => a.1 = e.owner) (fun a => (a.1, e.after)) b.accounts
  journal := b.journal ++ [e]

/-- Balances and journal agree, from the opening balances on. -/
structure Reconciled (opening : κ → M) (b : Book κ M) : Prop where
  keys : (b.accounts.map Prod.fst).Nodup
  balances : ∀ a ∈ b.accounts, a.2 = opening a.1 + total a.1 b.journal
  running : ∀ i e, b.journal[i]? = some e →
    e.after = opening e.owner + total e.owner (b.journal.take (i + 1))

/-- The entry was computed from the balance of its account. -/
def Follows (b : Book κ M) (e : Entry κ M) : Prop :=
  ∃ balance, b.balance e.owner = some balance ∧ e.after = balance + e.amount

section

variable {opening : κ → M} {b : Book κ M} {e : Entry κ M}

theorem total_append_self (es : List (Entry κ M)) (e : Entry κ M) :
    total e.owner (es ++ [e]) = total e.owner es + e.amount := by
  simp [total]

theorem total_append_other {k : κ} (hk : e.owner ≠ k) (es : List (Entry κ M)) :
    total k (es ++ [e]) = total k es := by
  simp [total, hk]

omit [AddCommGroup M] in
theorem balance_post (b : Book κ M) (e : Entry κ M) (k : κ) :
    (b.post e).balance k = (b.balance k).map fun m => if k = e.owner then e.after else m := by
  unfold Book.balance Book.post
  simp only
  rw [byKey_updateWhere_key Prod.fst (fun a => (a.1, e.after)) _ (fun _ h => h), Option.map_map,
    Option.map_map]
  congr 1
  funext a
  simp only [Function.comp_apply]
  split
  · rfl
  · rfl

theorem Reconciled.post (h : Reconciled opening b) (he : Follows b e) : Reconciled opening (b.post e) := by
  obtain ⟨balance, hbalance, hafter⟩ := he
  -- the balance that the entry was computed from is the running sum so far
  have hnew : e.after = opening e.owner + total e.owner (b.journal ++ [e]) := by
    obtain ⟨a, ha, rfl⟩ := Option.map_eq_some_iff.mp hbalance
    have hbooks := h.balances a (byKey_mem ha)
    rw [byKey_key ha] at hbooks
    rw [hafter, hbooks, total_append_self, add_assoc]
  refine
    { keys := ?_
      balances := ?_
      running := ?_ }
  · have hcolumn := map_updateWhere (p := fun a => decide (a.1 = e.owner))
      (f := fun a => (a.1, e.after)) Prod.fst (fun _ _ => rfl) b.accounts
    exact hcolumn ▸ h.keys
  · intro a' ha'
    obtain ⟨a, ha, heq⟩ := mem_updateWhere.mp ha'
    by_cases hk : a.1 = e.owner
    · rw [if_pos (decide_eq_true hk)] at heq
      subst heq
      simp only [Book.post, hk]
      exact hnew
    · rw [if_neg (by simpa using hk)] at heq
      subst heq
      rw [Book.post, total_append_other (Ne.symm hk)]
      exact h.balances a ha
  · intro i e' hi
    simp only [Book.post] at hi ⊢
    by_cases hlt : i < b.journal.length
    · rw [List.getElem?_append_left hlt] at hi
      rw [List.take_append_of_le_length (by omega)]
      exact h.running i e' hi
    · rw [List.getElem?_append_right (by omega), List.getElem?_singleton] at hi
      split at hi
      · rename_i hzero
        obtain rfl := Option.some.inj hi
        rw [List.take_of_length_le (by simp; omega)]
        exact hnew
      · cases hi

end

end ForwardX.Accounts
