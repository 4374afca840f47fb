/-
JavaScript's `Map`: entries in the order of their first insertion, one for a key.
-/
import ForwardX.Lib.Totals
import Mathlib.Data.List.Induction
import Mathlib.Data.List.Nodup

namespace ForwardX

open ForwardX.Table

structure JsMap (κ ν : Type*) where
  entries : List (κ × ν)
  nodup : (entries.map Prod.fst).Nodup

namespace JsMap

variable {κ ν : Type*}

def empty : JsMap κ ν := ⟨[], List.nodup_nil⟩

instance : EmptyCollection (JsMap κ ν) := ⟨empty⟩

instance : Inhabited (JsMap κ ν) := ⟨empty⟩

def size (m : JsMap κ ν) : ℕ := m.entries.length

/-- The loop that deletes the entries it does not want to keep. -/
def filter (p : κ → ν → Bool) (m : JsMap κ ν) : JsMap κ ν where
  entries := m.entries.filter fun e => p e.1 e.2
  nodup := m.nodup.sublist (List.filter_sublist.map Prod.fst)

variable [DecidableEq κ]

def get (m : JsMap κ ν) (k : κ) : Option ν := (byKey Prod.fst k m.entries).map Prod.snd

def has (m : JsMap κ ν) (k : κ) : Bool := (m.get k).isSome

theorem nodup_upsert {row : κ × ν} {t : List (κ × ν)} (h : (t.map Prod.fst).Nodup) :
    ((upsert Prod.fst row t).map Prod.fst).Nodup :=
  Totals.nodup_absorb (fun _ _ _ => rfl) row h

def set (m : JsMap κ ν) (k : κ) (v : ν) : JsMap κ ν where
  entries := upsert Prod.fst (k, v) m.entries
  nodup := nodup_upsert m.nodup

def delete (m : JsMap κ ν) (k : κ) : JsMap κ ν := m.filter fun k' _ => k' ≠ k

/-! ## Reads -/

@[simp] theorem get_empty (k : κ) : (∅ : JsMap κ ν).get k = none := rfl

theorem get_eq_some_iff {m : JsMap κ ν} {k : κ} {v : ν} : m.get k = some v ↔ (k, v) ∈ m.entries := by
  rw [get, Option.map_eq_some_iff]
  constructor
  · rintro ⟨⟨k', v'⟩, hread, rfl⟩
    have hkey := byKey_key hread
    exact hkey ▸ byKey_mem hread
  · intro hmem
    exact ⟨(k, v), byKey_of_mem m.nodup hmem, rfl⟩

theorem get_set (m : JsMap κ ν) (k k' : κ) (v : ν) :
    (m.set k v).get k' = if k' = k then some v else m.get k' := by
  simp only [get, set, byKey_upsert]
  split <;> rfl

theorem get_filter (p : κ → ν → Bool) (m : JsMap κ ν) (k : κ) :
    (m.filter p).get k = (m.get k).filter (p k) := by
  ext v
  rw [get_eq_some_iff, filter, List.mem_filter, ← get_eq_some_iff, Option.filter_eq_some_iff]

theorem get_delete (m : JsMap κ ν) (k k' : κ) : (m.delete k).get k' = if k' = k then none else m.get k' := by
  rw [delete, get_filter]
  by_cases hk : k' = k
  · simp [hk]
  · rw [if_neg hk]
    ext v
    simp [Option.filter_eq_some_iff, hk]

/-! `has`, as a question about keys -/

@[simp] theorem has_empty (k : κ) : (∅ : JsMap κ ν).has k = false := rfl

theorem has_set_iff {m : JsMap κ ν} {k k' : κ} {v : ν} : (m.set k v).has k' ↔ k' = k ∨ m.has k' := by
  rw [has, has, get_set]
  split
  · rename_i hk
    simp [hk]
  · rename_i hk
    simp [hk]

theorem has_delete_iff {m : JsMap κ ν} {k k' : κ} : (m.delete k).has k' ↔ k' ≠ k ∧ m.has k' := by
  rw [has, has, get_delete]
  split
  · rename_i hk
    simp [hk]
  · rename_i hk
    simp [hk]

theorem has_of_mem_get {m : JsMap κ ν} {k : κ} {v : ν} (h : v ∈ m.get k) : m.has k := by
  rw [has, Option.isSome_iff_exists]
  exact ⟨v, h⟩

/-- The map of a loop that sets every row under its key. -/
def index {ρ : Type*} (key : ρ → κ) (rows : List ρ) : JsMap κ ρ :=
  rows.foldl (fun m row => m.set (key row) row) ∅

section

variable {ρ : Type*} {key : ρ → κ} {rows : List ρ} (h : (rows.map key).Nodup)

include h

theorem entries_index : (index key rows).entries = rows.map fun row => (key row, row) := by
  have hloop : ∀ (rows : List ρ) (m : JsMap κ ρ), (rows.map key).Nodup →
      (∀ row ∈ rows, m.get (key row) = none) →
      (rows.foldl (fun m row => m.set (key row) row) m).entries
        = m.entries ++ rows.map fun row => (key row, row) := by
    intro rows
    induction rows with
    | nil => intro m _ _; simp
    | cons row rows ih =>
      intro m hnodup hnone
      rw [List.map_cons, List.nodup_cons] at hnodup
      have hset : (m.set (key row) row).entries = m.entries ++ [(key row, row)] := by
        have hread : byKey Prod.fst (key row) m.entries = none := by
          simpa [get] using hnone row List.mem_cons_self
        simp [set, upsert, hread]
      rw [List.foldl_cons, ih _ hnodup.2, hset]
      · simp
      · intro other hother
        have hne : key other ≠ key row := by
          intro heq
          exact hnodup.1 (heq ▸ List.mem_map_of_mem hother)
        rw [get_set, if_neg hne, hnone other (List.mem_cons_of_mem _ hother)]
  rw [index, hloop rows ∅ h (fun _ _ => rfl)]
  rfl

theorem get_index_eq_some_iff
    {k : κ} {row : ρ} : (index key rows).get k = some row ↔ row ∈ rows ∧ key row = k := by
  rw [get_eq_some_iff, entries_index h, List.mem_map]
  constructor
  · rintro ⟨row', hrow', heq⟩
    obtain ⟨hkey, rfl⟩ := Prod.mk.injEq .. ▸ heq
    exact ⟨hrow', hkey⟩
  · rintro ⟨hrow, rfl⟩
    exact ⟨row, hrow, rfl⟩

end

/-- The map of a loop that pushes every row to the list under its key. -/
def group {ρ : Type*} (key : ρ → κ) (rows : List ρ) : JsMap κ (List ρ) :=
  rows.foldl (fun m row => m.set (key row) ((m.get (key row)).getD [] ++ [row])) ∅

theorem get_group {ρ : Type*} (key : ρ → κ) (rows : List ρ) (k : κ) :
    (group key rows).get k =
      if rows.filter (fun row => key row = k) = [] then none
      else some (rows.filter fun row => key row = k) := by
  induction rows using List.reverseRecOn with
  | nil => rfl
  | append_singleton rows row ih =>
    have hlast : group key (rows ++ [row]) = (group key rows).set (key row)
        (((group key rows).get (key row)).getD [] ++ [row]) := by
      simp [group, List.foldl_append]
    rw [hlast, get_set]
    by_cases hk : k = key row
    · subst hk
      have hgetD : ((group key rows).get (key row)).getD []
          = rows.filter fun other => key other = key row := by
        rw [ih]
        split
        · rename_i hnone
          rw [hnone, Option.getD_none]
        · rfl
      simp [List.filter_append, hgetD]
    · simp [hk, Ne.symm hk, List.filter_append, ih]

theorem perm_group {ρ : Type*} (key : ρ → κ) {rows : List ρ} (h : rows.Nodup) :
    ((group key rows).entries.flatMap Prod.snd).Perm rows := by
  have hentry : ∀ e ∈ (group key rows).entries, e.2 = rows.filter fun row => key row = e.1 := by
    intro e he
    have hget := get_eq_some_iff.2 he
    rw [get_group] at hget
    split at hget
    · cases hget
    · exact (Option.some.inj hget).symm
  have hnodup : ((group key rows).entries.flatMap Prod.snd).Nodup := by
    rw [List.nodup_flatMap]
    refine ⟨fun e he => hentry e he ▸ h.filter _, ?_⟩
    refine (List.pairwise_map.1 (group key rows).nodup).imp_of_mem fun {e e'} he he' hne => ?_
    intro row hrow hrow'
    rw [hentry e he, List.mem_filter] at hrow
    rw [hentry e' he', List.mem_filter] at hrow'
    exact hne (by simpa using (of_decide_eq_true hrow.2).symm.trans (of_decide_eq_true hrow'.2))
  rw [List.perm_ext_iff_of_nodup hnodup h]
  intro row
  rw [List.mem_flatMap]
  constructor
  · rintro ⟨e, he, hrow⟩
    rw [hentry e he] at hrow
    exact List.mem_of_mem_filter hrow
  · intro hrow
    have hmem : row ∈ rows.filter fun other => key other = key row := by simpa using hrow
    refine ⟨(key row, rows.filter fun other => key other = key row), get_eq_some_iff.1 ?_, hmem⟩
    rw [get_group, if_neg (List.ne_nil_of_mem hmem)]

theorem size_eq_zero_iff {m : JsMap κ ν} : m.size = 0 ↔ ∀ k, m.get k = none := by
  rw [size, List.length_eq_zero_iff, List.eq_nil_iff_forall_not_mem]
  constructor
  · intro hnil k
    rw [Option.eq_none_iff_forall_ne_some]
    intro v hv
    exact hnil (k, v) (get_eq_some_iff.mp hv)
  · rintro hnone ⟨k, v⟩ hmem
    rw [← get_eq_some_iff, hnone k] at hmem
    cases hmem

end JsMap

/-! ## Sets -/

namespace JsSet

variable {α : Type*} [DecidableEq α]

def add (s : List α) (a : α) : List α := if a ∈ s then s else s ++ [a]

/-- `new Set(values)`. -/
def ofList (values : List α) : List α := values.foldl add []

@[simp] theorem mem_add {s : List α} {a b : α} : b ∈ add s a ↔ b ∈ s ∨ b = a := by
  rw [add]
  split
  · rename_i hmem
    constructor
    · exact .inl
    · rintro (hold | rfl)
      · exact hold
      · exact hmem
  · simp

theorem mem_foldl_add {values : List α} {b : α} : ∀ s : List α, b ∈ values.foldl add s ↔ b ∈ s ∨ b ∈ values := by
  induction values with
  | nil => intro s; simp
  | cons value rest ih =>
    intro s
    rw [List.foldl_cons, ih, mem_add, List.mem_cons, or_assoc]

@[simp] theorem mem_ofList {values : List α} {b : α} : b ∈ ofList values ↔ b ∈ values := by
  rw [ofList, mem_foldl_add]
  simp

theorem nodup_add {s : List α} (h : s.Nodup) (a : α) : (add s a).Nodup := by
  rw [add]
  split_ifs with hmem
  · exact h
  · exact List.nodup_append.mpr ⟨h, List.nodup_singleton a, fun x hx y hy heq =>
      hmem (List.mem_singleton.mp hy ▸ heq ▸ hx)⟩

theorem nodup_ofList (values : List α) : (ofList values).Nodup := by
  have hloop : ∀ s : List α, s.Nodup → (values.foldl add s).Nodup := by
    induction values with
    | nil => exact fun s h => h
    | cons value rest ih => exact fun s h => ih _ (nodup_add h value)
  exact hloop [] List.nodup_nil

end JsSet

end ForwardX
