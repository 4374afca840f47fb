/-
Totals of rows by class, and tables of counters that keep them.
-/
import ForwardX.Lib.Table
import Mathlib.Algebra.BigOperators.Group.List.Basic

namespace ForwardX.Totals

open Table

variable {ρ κ γ M : Type*} [DecidableEq κ] [DecidableEq γ] [AddCommMonoid M]

/-! ## Totals -/

/-- What the rows of class `g` add up to. -/
def totalAt (cls : ρ → γ) (amount : ρ → M) (rows : List ρ) (g : γ) : M :=
  (rows.map fun r => if cls r = g then amount r else 0).sum

section

variable {cls : ρ → γ} {amount : ρ → M}

@[simp] theorem totalAt_nil (g : γ) : totalAt cls amount [] g = 0 := rfl

@[simp] theorem totalAt_cons (r : ρ) (rows : List ρ) (g : γ) :
    totalAt cls amount (r :: rows) g
      = (if cls r = g then amount r else 0) + totalAt cls amount rows g := by
  simp [totalAt]

@[simp] theorem totalAt_append (rows rows' : List ρ) (g : γ) :
    totalAt cls amount (rows ++ rows') g
      = totalAt cls amount rows g + totalAt cls amount rows' g := by
  simp [totalAt]

theorem totalAt_map {ρ' : Type*} (f : ρ' → ρ) (rows : List ρ') (g : γ) :
    totalAt cls amount (rows.map f) g = totalAt (cls ∘ f) (amount ∘ f) rows g := by
  simp [totalAt, Function.comp_def]

theorem totalAt_eq_zero {rows : List ρ} {g : γ} (h : ∀ r ∈ rows, cls r = g → amount r = 0) :
    totalAt cls amount rows g = 0 := by
  induction rows with
  | nil => rfl
  | cons r rows ih =>
    have hrest := ih fun r' hr' => h r' (List.mem_cons_of_mem r hr')
    rw [totalAt_cons, hrest, add_zero]
    split
    · rename_i hr
      exact h r List.mem_cons_self hr
    · rfl

theorem totalAt_congr {δ : Type*} [DecidableEq δ] {cls' : ρ → δ} {rows : List ρ} {g : γ} {d : δ}
    (h : ∀ r ∈ rows, amount r ≠ 0 → (cls r = g ↔ cls' r = d)) :
    totalAt cls amount rows g = totalAt cls' amount rows d := by
  induction rows with
  | nil => rfl
  | cons r rows ih =>
    rw [totalAt_cons, totalAt_cons, ih fun r' hr' => h r' (List.mem_cons_of_mem r hr')]
    congr 1
    by_cases hzero : amount r = 0
    · simp [hzero]
    · simp only [h r List.mem_cons_self hzero]

theorem totalAt_key {key : ρ → κ} {t : List ρ} (hnodup : (t.map key).Nodup) (k : κ) :
    totalAt key amount t k = ((byKey key k t).map amount).getD 0 := by
  induction t with
  | nil => rfl
  | cons r t ih =>
    rw [List.map_cons, List.nodup_cons] at hnodup
    rw [totalAt_cons]
    by_cases hr : key r = k
    · -- no row after this one has the key
      have hrest : totalAt key amount t k = 0 := by
        apply totalAt_eq_zero
        intro r' hr' hk
        exact absurd (hr ▸ hk ▸ List.mem_map_of_mem hr') hnodup.1
      simp [hr, hrest, byKey]
    · rw [if_neg hr, zero_add, ih hnodup.2]
      simp [byKey, hr]

end

/-! ## Absorbing rows -/

/-- The row joins the one with its key, if there is one. -/
def absorb (key : ρ → κ) (join : ρ → ρ → ρ) (t : List ρ) (row : ρ) : List ρ :=
  if (byKey key (key row) t).isNone then t ++ [row]
  else updateWhere (fun r => key r = key row) (fun r => join r row) t

section

variable {key : ρ → κ} {join : ρ → ρ → ρ} {amount : ρ → M} {cls : ρ → γ}
  (hkey : ∀ a r, key a = key r → key (join a r) = key r)

variable {t : List ρ}

omit [DecidableEq κ] in
theorem mem_keys_iff {k : κ} : k ∈ t.map key ↔ ∃ r ∈ t, key r = k := List.mem_map

theorem not_mem_keys_of_isNone {k : κ} (h : (byKey key k t).isNone) : k ∉ t.map key := by
  rw [mem_keys_iff]
  rintro ⟨r, hr, rfl⟩
  simp only [byKey, Option.isNone_iff_eq_none, List.find?_eq_none, decide_eq_true_eq] at h
  exact h r hr rfl

include hkey in
theorem keys_join (t : List ρ) (row : ρ) :
    (updateWhere (fun r => key r = key row) (fun r => join r row) t).map key = t.map key := by
  apply map_updateWhere
  intro r hr
  rw [decide_eq_true_eq] at hr
  rw [hkey r row hr, hr]

include hkey in
theorem nodup_absorb (row : ρ) (h : (t.map key).Nodup) : ((absorb key join t row).map key).Nodup := by
  unfold absorb
  split
  · rename_i hnone
    rw [List.map_append, List.nodup_append]
    refine ⟨h, by simp, ?_⟩
    intro k hk k' hk'
    rw [List.map_singleton, List.mem_singleton] at hk'
    rintro rfl
    exact not_mem_keys_of_isNone hnone (hk' ▸ hk)
  · rw [keys_join hkey]
    exact h

include hkey in
theorem mem_keys_absorb {row : ρ} {k : κ} :
    k ∈ (absorb key join t row).map key ↔ k ∈ t.map key ∨ k = key row := by
  unfold absorb
  split
  · simp
  · rename_i hsome
    rw [keys_join hkey]
    refine ⟨.inl, ?_⟩
    rintro (hk | rfl)
    · exact hk
    · obtain ⟨old, hold⟩ := Option.ne_none_iff_exists'.mp (Option.isNone_iff_eq_none.not.mp hsome)
      rw [mem_keys_iff]
      exact ⟨old, byKey_mem hold, byKey_key hold⟩

/-- `cls` is a function of the key. -/
def Classed (key : ρ → κ) (cls : ρ → γ) (f : κ → γ) (t : List ρ) : Prop := ∀ r ∈ t, cls r = f (key r)

omit [DecidableEq κ] [DecidableEq γ] in
theorem classed_key (t : List ρ) : Classed key key id t := fun _ _ => rfl

omit [DecidableEq γ] in
theorem exists_classed [Inhabited γ]
    (h : ∀ r ∈ t, ∀ r' ∈ t, key r = key r' → cls r = cls r') : ∃ f, Classed key cls f t := by
  refine ⟨fun k => ((byKey key k t).map cls).getD default, ?_⟩
  intro r hr
  cases hread : byKey key (key r) t with
  | none =>
    exact absurd (List.mem_map_of_mem hr) (not_mem_keys_of_isNone (by rw [hread]; rfl))
  | some r' =>
    have hsame := h r hr r' (byKey_mem hread) (byKey_key hread).symm
    simpa only [hread, Option.map_some, Option.getD_some] using hsame

omit [DecidableEq κ] [DecidableEq γ] in
theorem Classed.mem_map_iff {f : κ → γ} (h : Classed key cls f t) (g : γ) :
    g ∈ t.map cls ↔ ∃ k ∈ t.map key, f k = g := by
  simp only [List.mem_map]
  constructor
  · rintro ⟨r, hr, rfl⟩
    exact ⟨key r, ⟨r, hr, rfl⟩, (h r hr).symm⟩
  · rintro ⟨k, ⟨r, hr, rfl⟩, rfl⟩
    exact ⟨r, hr, h r hr⟩

section

variable {f : κ → γ} (hcls : ∀ a r, key a = key r → cls a = cls r → cls (join a r) = cls r)

omit [DecidableEq γ] in
include hkey hcls in
theorem Classed.absorb {t : List ρ} {row : ρ} (h : Classed key cls f t) (hrow : cls row = f (key row)) :
    Classed key cls f (absorb key join t row) := by
  unfold Totals.absorb
  split
  · intro r hr
    rw [List.mem_append, List.mem_singleton] at hr
    rcases hr with hr | rfl
    · exact h r hr
    · exact hrow
  · intro r hr
    obtain ⟨old, hold, rfl⟩ := mem_updateWhere.mp hr
    split
    · rename_i hhit
      rw [decide_eq_true_eq] at hhit
      rw [hkey old row hhit, hcls old row hhit (by rw [h old hold, hrow, hhit]), hrow]
    · exact h old hold

variable (hamount : ∀ a r, key a = key r → amount (join a r) = amount a + amount r)

include hcls hamount in
theorem totalAt_join {t : List ρ} {row old : ρ} (hnodup : (t.map key).Nodup)
    (h : Classed key cls f t) (hrow : cls row = f (key row)) (hold : byKey key (key row) t = some old) (g : γ) :
    totalAt cls amount (updateWhere (fun r => key r = key row) (fun r => join r row) t) g
      = totalAt cls amount t g + if cls row = g then amount row else 0 := by
  induction t with
  | nil => cases hold
  | cons r t ih =>
    rw [List.map_cons, List.nodup_cons] at hnodup
    have hhead := h r List.mem_cons_self
    have htail : Classed key cls f t := fun r' hr' => h r' (List.mem_cons_of_mem r hr')
    simp only [updateWhere, List.map_cons, totalAt_cons] at ih ⊢
    by_cases hr : key r = key row
    · -- the keys are unique: the rest of the table stays as it is
      have hrest : t.map (fun a => if key a = key row then join a row else a) = t := by
        conv_rhs => rw [← List.map_id t]
        apply List.map_congr_left
        intro a ha
        have hne : key a ≠ key row := by
          intro heq
          exact hnodup.1 (hr ▸ heq ▸ List.mem_map_of_mem ha)
        simp [hne]
      have hsame : cls r = cls row := by rw [hhead, hrow, hr]
      simp only [hr, decide_true, if_true, decide_eq_true_eq, hrest, hcls r row hr hsame, hsame,
        hamount r row hr]
      split
      · rw [add_right_comm]
      · simp
    · have hread : byKey key (key row) t = some old := by simpa [byKey, hr] using hold
      have hind := ih hnodup.2 htail hread
      simp only [hr, decide_false, Bool.false_eq_true, if_false]
      rw [hind, add_assoc]

include hcls hamount in
theorem totalAt_absorb {t : List ρ} {row : ρ} (hnodup : (t.map key).Nodup)
    (h : Classed key cls f t) (hrow : cls row = f (key row)) (g : γ) :
    totalAt cls amount (absorb key join t row) g
      = totalAt cls amount t g + if cls row = g then amount row else 0 := by
  unfold absorb
  split
  · simp
  · rename_i hsome
    obtain ⟨old, hold⟩ := Option.ne_none_iff_exists'.mp (Option.isNone_iff_eq_none.not.mp hsome)
    exact totalAt_join hcls hamount hnodup h hrow hold g

end

/-! ## Many rows -/

include hkey in
theorem nodup_foldl_absorb (rows : List ρ) {t : List ρ} (h : (t.map key).Nodup) :
    ((rows.foldl (absorb key join) t).map key).Nodup := by
  induction rows generalizing t with
  | nil => exact h
  | cons row rows ih => exact ih (nodup_absorb hkey row h)

include hkey in
theorem mem_keys_foldl_absorb (rows t : List ρ) (k : κ) :
    k ∈ (rows.foldl (absorb key join) t).map key ↔ k ∈ t.map key ∨ k ∈ rows.map key := by
  induction rows generalizing t with
  | nil => simp
  | cons row rows ih =>
    rw [List.foldl_cons, ih, mem_keys_absorb hkey, List.map_cons, List.mem_cons, or_assoc]

section

variable {f : κ → γ} (hcls : ∀ a r, key a = key r → cls a = cls r → cls (join a r) = cls r)

omit [DecidableEq γ] in
include hkey hcls in
theorem Classed.foldl_absorb {rows t : List ρ} (h : Classed key cls f t)
    (hrows : Classed key cls f rows) : Classed key cls f (rows.foldl (Totals.absorb key join) t) := by
  induction rows generalizing t with
  | nil => exact h
  | cons row rows ih =>
    refine ih (h.absorb hkey hcls (hrows row List.mem_cons_self)) ?_
    exact fun r hr => hrows r (List.mem_cons_of_mem row hr)

variable (hamount : ∀ a r, key a = key r → amount (join a r) = amount a + amount r)

include hkey hcls hamount in
theorem totalAt_foldl_absorb {rows t : List ρ} (hnodup : (t.map key).Nodup)
    (h : Classed key cls f t) (hrows : Classed key cls f rows) (g : γ) :
    totalAt cls amount (rows.foldl (absorb key join) t) g
      = totalAt cls amount t g + totalAt cls amount rows g := by
  induction rows generalizing t with
  | nil => simp
  | cons row rows ih =>
    have hrow := hrows row List.mem_cons_self
    have hrest : Classed key cls f rows := fun r hr => hrows r (List.mem_cons_of_mem row hr)
    rw [List.foldl_cons, ih (nodup_absorb hkey row hnodup) (h.absorb hkey hcls hrow) hrest,
      totalAt_absorb hcls hamount hnodup h hrow, totalAt_cons, add_assoc]

include hkey hcls hamount in
theorem totalAt_merged {rows : List ρ} (hrows : Classed key cls f rows) (g : γ) :
    totalAt cls amount (rows.foldl (absorb key join) []) g = totalAt cls amount rows g := by
  have hnil : Classed key cls f [] := by
    intro r hr
    cases hr
  rw [totalAt_foldl_absorb hkey hcls hamount (by simp) hnil hrows, totalAt_nil, zero_add]

end

include hkey in
theorem totalAt_foldl_key {rows t : List ρ} (hnodup : (t.map key).Nodup)
    (hamount : ∀ a r, key a = key r → amount (join a r) = amount a + amount r) (k : κ) :
    totalAt key amount (rows.foldl (absorb key join) t) k
      = totalAt key amount t k + totalAt key amount rows k :=
  totalAt_foldl_absorb hkey (fun a r h _ => hkey a r h) hamount hnodup (classed_key t)
    (classed_key rows) k

end

end ForwardX.Totals
