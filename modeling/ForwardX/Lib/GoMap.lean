/-
Go maps, as association lists without duplicate keys.

`AList` has assignment (`insert`), `delete` (`erase`) and the comma-ok read (`lookup`).
-/
import Mathlib.Data.List.AList
import Mathlib.Algebra.BigOperators.Group.List.Basic

namespace ForwardX

abbrev GoMap (α β : Type*) := AList fun _ : α => β

namespace GoMap

variable {α β M : Type*}

/-! ## Copying a part of a map, and adding one up -/

/-- The entries of `m` that satisfy `p`. -/
def filter (p : α → β → Bool) (m : GoMap α β) : GoMap α β where
  entries := m.entries.filter fun e => p e.1 e.2
  nodupKeys := m.nodupKeys.sublist List.filter_sublist

/-- The sum of `f` over the entries of a map. -/
def sumOver [AddCommMonoid M] (f : α → β → M) (m : GoMap α β) : M :=
  (m.entries.map fun e => f e.1 e.2).sum

theorem sumOver_filter_add [AddCommMonoid M] (f : α → β → M) (p : α → β → Bool) (m : GoMap α β) :
    sumOver f (filter p m) + sumOver f (filter (fun k v => !p k v) m) = sumOver f m := by
  show ((m.entries.filter fun e => p e.1 e.2).map fun e => f e.1 e.2).sum
      + ((m.entries.filter fun e => !p e.1 e.2).map fun e => f e.1 e.2).sum
    = (m.entries.map fun e => f e.1 e.2).sum
  rw [← List.sum_append, ← List.map_append]
  exact ((List.filter_append_perm _ _).map _).sum_eq

variable [DecidableEq α]

/-! ## Reads -/

theorem lookup_eq_some_iff {m : GoMap α β} {k : α} {v : β} :
    m.lookup k = some v ↔ (⟨k, v⟩ : Sigma fun _ => β) ∈ m.entries :=
  AList.mem_lookup_iff

theorem lookup_insert_eq_some {m : GoMap α β} {k k' : α} {v x : β} (h : (m.insert k v).lookup k' = some x) :
    (k' = k ∧ x = v) ∨ (k' ≠ k ∧ m.lookup k' = some x) := by
  by_cases hk : k' = k
  · rw [hk, AList.lookup_insert] at h
    exact .inl ⟨hk, (Option.some.inj h).symm⟩
  · rw [AList.lookup_insert_ne hk] at h
    exact .inr ⟨hk, h⟩

theorem lookup_erase_eq_some {m : GoMap α β} {k k' : α} {x : β}
    (h : (m.erase k).lookup k' = some x) : k' ≠ k ∧ m.lookup k' = some x := by
  by_cases hk : k' = k
  · rw [hk, AList.lookup_erase] at h
    cases h
  · rw [AList.lookup_erase_ne hk] at h
    exact ⟨hk, h⟩

theorem lookup_filter (p : α → β → Bool) (m : GoMap α β) (k : α) :
    (filter p m).lookup k = (m.lookup k).filter (p k) := by
  ext v
  rw [lookup_eq_some_iff, filter, List.mem_filter, ← lookup_eq_some_iff,
    Option.filter_eq_some_iff]

theorem entries_perm_of_lookup {m : GoMap α β} {k : α} {v : β} (h : m.lookup k = some v) :
    m.entries.Perm (⟨k, v⟩ :: (m.erase k).entries) := by
  have hmem := lookup_eq_some_iff.mp h
  have hkey : k ∈ m.entries.keys := List.mem_keys_of_mem hmem
  obtain ⟨w, l₁, l₂, -, hsplit, herase⟩ := List.exists_of_kerase hkey
  have hw : w = v := by
    have hw' : (⟨k, w⟩ : Sigma fun _ => β) ∈ m.entries := by rw [hsplit]; simp
    exact m.nodupKeys.eq_of_mk_mem hw' hmem
  show m.entries.Perm (⟨k, v⟩ :: m.entries.kerase k)
  rw [herase, hsplit, hw]
  exact List.perm_middle

/-! ## Two maps that list the same values

A value is listed in `m` under `key` and in `n` under `id`. Half of "the two list
the same" is: what `m` lists, it lists under its own key, and `n` lists it too.
The other half is the same with the maps exchanged, so each lemma serves both. -/

section

variable {γ : Type*} [DecidableEq γ] {key : β → α} {id : β → γ} {m : GoMap α β} {n : GoMap γ β}
  {x : β}

section

variable (h : ∀ k y, m.lookup k = some y → key y = k ∧ n.lookup (id y) = some y)

include h

theorem index_insert
    (hfree : n.lookup (id x) = none) (k : α) (y : β) (hy : (m.insert (key x) x).lookup k = some y) :
    key y = k ∧ (n.insert (id x) x).lookup (id y) = some y := by
  obtain ⟨rfl, rfl⟩ | ⟨-, hold⟩ := lookup_insert_eq_some hy
  · exact ⟨rfl, AList.lookup_insert _⟩
  · obtain ⟨hkey, hidy⟩ := h k y hold
    have hne : id y ≠ id x := by
      intro heq
      rw [heq, hfree] at hidy
      cases hidy
    exact ⟨hkey, (AList.lookup_insert_ne hne).trans hidy⟩

theorem index_erase (hlisted : n.lookup (id x) = some x) (k : α) (y : β)
    (hy : (m.erase (key x)).lookup k = some y) :
    key y = k ∧ (n.erase (id x)).lookup (id y) = some y := by
  obtain ⟨hk, hold⟩ := lookup_erase_eq_some hy
  obtain ⟨hkey, hidy⟩ := h k y hold
  have hne : id y ≠ id x := by
    intro heq
    rw [heq, hlisted] at hidy
    cases hidy
    exact hk hkey.symm
  exact ⟨hkey, (AList.lookup_erase_ne hne).trans hidy⟩

end

end

/-! ## Ranging over a map to update another one -/

theorem lookup_foldl {γ : Type*} {body : GoMap α γ → α → β → GoMap α γ}
    {g : β → Option γ → Option γ} (hself : ∀ m k v, (body m k v).lookup k = g v (m.lookup k))
    (hother : ∀ m k v k', k' ≠ k → (body m k v).lookup k' = m.lookup k')
    (src : GoMap α β) (dst : GoMap α γ) (k : α) :
    (src.foldl body dst).lookup k = match src.lookup k with
      | none => dst.lookup k
      | some v => g v (dst.lookup k) := by
  obtain ⟨es, hnodup⟩ := src
  show (es.foldl (fun m e => body m e.1 e.2) dst).lookup k = match es.dlookup k with
      | none => dst.lookup k
      | some v => g v (dst.lookup k)
  induction es generalizing dst with
  | nil => rfl
  | cons e es ih =>
    rw [List.foldl_cons, ih _ (List.nodupKeys_of_nodupKeys_cons hnodup)]
    by_cases hk : k = e.1
    -- the rest of the loop does not come back to this key
    · subst hk
      rw [List.dlookup_eq_none.mpr (List.notMem_keys_of_nodupKeys_cons hnodup)]
      rw [show e = ⟨e.1, e.2⟩ from rfl, List.dlookup_cons_eq]
      exact hself dst e.1 e.2
    · rw [List.dlookup_cons_ne _ _ hk, hother dst e.1 e.2 k hk]

/-! ## A map as an index

Items are listed under a key each, several of them perhaps under one; the map
keeps one item for every key that some item has. -/

/-- `m` indexes the items that satisfy `items` by `key`. -/
structure Indexes (m : GoMap α β) (key : β → α) (items : β → Prop) : Prop where
  sound : ∀ {k x}, m.lookup k = some x → items x ∧ key x = k
  complete : ∀ {x}, items x → (m.lookup (key x)).isSome

namespace Indexes

variable {m : GoMap α β} {key : β → α} {items : β → Prop}

theorem insert (h : Indexes m key items) (x : β) :
    Indexes (m.insert (key x) x) key (fun y => items y ∨ y = x) where
  sound := by
    intro k y hy
    obtain ⟨rfl, rfl⟩ | ⟨-, hold⟩ := lookup_insert_eq_some hy
    · exact ⟨.inr rfl, rfl⟩
    · exact ⟨.inl (h.sound hold).1, (h.sound hold).2⟩
  complete := by
    intro y hy
    by_cases hk : key y = key x
    · rw [hk, AList.lookup_insert]
      rfl
    · rw [AList.lookup_insert_ne hk]
      exact hy.elim h.complete fun heq => absurd (congrArg key heq) hk

theorem represented (h : Indexes m key items) {x : β} (hx : (m.lookup (key x)).isSome) :
    Indexes m key (fun y => items y ∨ y = x) where
  sound := fun hy => ⟨.inl (h.sound hy).1, (h.sound hy).2⟩
  complete := fun hy => hy.elim h.complete fun heq => heq ▸ hx

theorem congr (h : Indexes m key items) {items' : β → Prop} (hiff : ∀ x, items x ↔ items' x) :
    Indexes m key items' where
  sound := fun hy => ⟨(hiff _).mp (h.sound hy).1, (h.sound hy).2⟩
  complete := fun hy => h.complete ((hiff _).mpr hy)

end Indexes

theorem indexes_empty (key : β → α) : Indexes (∅ : GoMap α β) key (fun _ => False) :=
  ⟨nofun, nofun⟩

section

variable [AddCommMonoid M]

theorem sumOver_insert (f : α → β → M) (m : GoMap α β) (k : α) (v : β) :
    sumOver f (m.insert k v) = f k v + sumOver f (m.erase k) := rfl

theorem erase_of_lookup_none {m : GoMap α β} {k : α} (h : m.lookup k = none) : m.erase k = m :=
  AList.ext (List.kerase_of_notMem_keys (AList.lookup_eq_none.mp h))

theorem sumOver_of_lookup (f : α → β → M) {m : GoMap α β} {k : α} {v : β}
    (h : m.lookup k = some v) : sumOver f m = f k v + sumOver f (m.erase k) := by
  show (m.entries.map fun e => f e.1 e.2).sum
    = f k v + ((m.erase k).entries.map fun e => f e.1 e.2).sum
  rw [((entries_perm_of_lookup h).map fun e => f e.1 e.2).sum_eq, List.map_cons, List.sum_cons]

end

end GoMap

end ForwardX
