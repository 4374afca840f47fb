/-
Tables of a database as lists of rows, in the order of their ids.
-/
import Mathlib.Data.Int.Basic
import Mathlib.Data.List.Basic

namespace ForwardX.Table

variable {ρ κ : Type*}

/-- `UPDATE t SET f WHERE p`. -/
def updateWhere (p : ρ → Bool) (f : ρ → ρ) (t : List ρ) : List ρ :=
  t.map fun r => if p r then f r else r

theorem filter_updateWhere {p q : ρ → Bool} {f : ρ → ρ} (hf : ∀ r, q r → p (f r) = p r)
    (t : List ρ) : (updateWhere q f t).filter p = updateWhere q f (t.filter p) := by
  have hside : ∀ r, p (if q r then f r else r) = p r := by
    intro r
    split
    · rename_i hr
      exact hf r hr
    · rfl
  induction t with
  | nil => rfl
  | cons r t ih =>
    simp only [updateWhere, List.map_cons, List.filter_cons, hside] at ih ⊢
    split
    · simp only [ih, List.map_cons]
    · exact ih

theorem mem_updateWhere {p : ρ → Bool} {f : ρ → ρ} {t : List ρ} {r' : ρ} :
    r' ∈ updateWhere p f t ↔ ∃ r ∈ t, (if p r then f r else r) = r' := by
  rw [updateWhere, List.mem_map]

theorem map_updateWhere {p : ρ → Bool} {f : ρ → ρ} (g : ρ → κ) (hf : ∀ r, p r → g (f r) = g r)
    (t : List ρ) : (updateWhere p f t).map g = t.map g := by
  rw [updateWhere, List.map_map]
  apply List.map_congr_left
  intro r _
  rw [Function.comp_apply]
  split
  · rename_i hr
    exact hf r hr
  · rfl

theorem countP_updateWhere {p q : ρ → Bool} {f : ρ → ρ} (hf : ∀ r, q r → p (f r) = p r)
    (t : List ρ) : (updateWhere q f t).countP p = t.countP p := by
  have hcolumn : (updateWhere q f t).map p = t.map p := map_updateWhere p hf t
  have hcount := congrArg (List.countP id) hcolumn
  rwa [List.countP_map, List.countP_map] at hcount

section

variable [DecidableEq κ] {key : ρ → κ}

def byKey (key : ρ → κ) (k : κ) (t : List ρ) : Option ρ := t.find? fun r => key r = k

variable {t : List ρ}

theorem byKey_key {k : κ} {r : ρ} (h : byKey key k t = some r) : key r = k := by
  simpa using List.find?_some h

theorem byKey_mem {k : κ} {r : ρ} (h : byKey key k t = some r) : r ∈ t :=
  List.mem_of_find?_eq_some h

theorem byKey_of_mem {r : ρ} (hnodup : (t.map key).Nodup) (hr : r ∈ t) : byKey key (key r) t = some r := by
  induction t with
  | nil => cases hr
  | cons x t ih =>
    rw [List.map_cons, List.nodup_cons] at hnodup
    rw [List.mem_cons] at hr
    rcases hr with rfl | hr
    · simp [byKey]
    · have hne : key x ≠ key r := by
        intro heq
        exact hnodup.1 (heq ▸ List.mem_map_of_mem hr)
      simpa [byKey, hne] using ih hnodup.2 hr

theorem eq_of_key_eq (hnodup : (t.map key).Nodup) {r r' : ρ} (hr : r ∈ t) (hr' : r' ∈ t)
    (h : key r = key r') : r = r' := by
  have hread := byKey_of_mem hnodup hr
  rw [h, byKey_of_mem hnodup hr'] at hread
  exact (Option.some.inj hread).symm

theorem byKey_congr {γ : Type*} {g : ρ → γ} (hkey : ∀ r r', g r = g r' → key r = key r')
    {t t' : List ρ} (h : t'.map g = t.map g) {k : κ} {r : ρ} (hr : byKey key k t = some r) :
    ∃ r', byKey key k t' = some r' ∧ g r' = g r := by
  induction t generalizing t' with
  | nil => cases hr
  | cons x t ih =>
    cases t' with
    | nil => cases h
    | cons x' t' =>
      rw [List.map_cons, List.map_cons, List.cons.injEq] at h
      simp only [byKey, List.find?_cons, hkey x' x h.1] at hr ⊢
      by_cases hx : key x = k
      · simp only [hx, decide_true, Option.some.injEq] at hr ⊢
        obtain rfl := hr
        exact ⟨x', rfl, h.1⟩
      · simp only [hx, decide_false] at hr ⊢
        exact ih h.2 hr

theorem byKey_filter {p : ρ → Bool} {k : κ} (hp : ∀ r, key r = k → p r) (t : List ρ) :
    byKey key k (t.filter p) = byKey key k t := by
  simp only [byKey, List.find?_filter]
  congr 1
  funext r
  by_cases hr : key r = k
  · simp [hr, hp r hr]
  · simp [hr]

theorem byKey_updateWhere {p : ρ → Bool} {f : ρ → ρ} (hf : ∀ r, p r → key (f r) = key r) (t : List ρ) (k : κ) :
    byKey key k (updateWhere p f t) = (byKey key k t).map fun r => if p r then f r else r := by
  have hkey : ∀ r, key (if p r then f r else r) = key r := by
    intro r
    split
    · rename_i hr
      exact hf r hr
    · rfl
  induction t with
  | nil => rfl
  | cons r t ih =>
    simp only [byKey, updateWhere, List.map_cons, List.find?_cons, hkey] at ih ⊢
    by_cases hr : key r = k
    · simp only [hr, decide_true, Option.map_some]
    · simp only [hr, decide_false, ih]

theorem byKey_updateWhere_key (key : ρ → κ) (f : ρ → ρ) (k : κ)
    (hf : ∀ r, key r = k → key (f r) = k) (t : List ρ) (k' : κ) :
    byKey key k' (updateWhere (fun r => key r = k) f t)
      = (byKey key k' t).map fun r => if k' = k then f r else r := by
  rw [byKey_updateWhere]
  · cases hr : byKey key k' t with
    | none => rfl
    | some r => simp [byKey_key hr]
  · intro r hr
    rw [decide_eq_true_eq] at hr
    rw [hf r hr, hr]

theorem countP_updateWhere_key {p : ρ → Bool} {f : ρ → ρ} {k : κ} {r : ρ}
    (hnodup : (t.map key).Nodup) (hr : byKey key k t = some r) :
    (updateWhere (fun x => key x = k) f t).countP p + (if p r then 1 else 0)
      = t.countP p + (if p (f r) then 1 else 0) := by
  induction t with
  | nil => cases hr
  | cons x t ih =>
    rw [List.map_cons, List.nodup_cons] at hnodup
    simp only [updateWhere, List.map_cons, List.countP_cons] at ih ⊢
    by_cases hx : key x = k
    · -- the row is here, and no row after it has the key
      obtain rfl : x = r := by simpa [byKey, hx] using hr
      have hrest : t.map (fun y => if key y = k then f y else y) = t := by
        conv_rhs => rw [← List.map_id t]
        apply List.map_congr_left
        intro y hy
        have hne : key y ≠ k := by
          intro heq
          exact hnodup.1 (hx ▸ heq ▸ List.mem_map_of_mem hy)
        simp [hne]
      simp only [hx, decide_true, if_true, decide_eq_true_eq, hrest]
      omega
    · have hread : byKey key k t = some r := by simpa [byKey, hx] using hr
      have hind := ih hnodup.2 hread
      simp only [hx, decide_false, Bool.false_eq_true, if_false]
      omega

omit [DecidableEq κ] in
theorem countP_eq_one_of_key {p : ρ → Bool} (hnodup : (t.map key).Nodup) {r : ρ} (hr : r ∈ t)
    (hp : p r) (hkey : ∀ r', p r' → key r' = key r) : t.countP p = 1 := by
  induction t with
  | nil => cases hr
  | cons x t ih =>
    rw [List.map_cons, List.nodup_cons] at hnodup
    rw [List.countP_cons]
    rcases List.mem_cons.mp hr with rfl | hrt
    · have hrest : t.countP p = 0 := by
        rw [List.countP_eq_zero]
        intro y hy hpy
        exact hnodup.1 (hkey y hpy ▸ List.mem_map_of_mem hy)
      rw [hrest, if_pos hp]
    · have hx : ¬ p x := by
        intro hpx
        exact hnodup.1 (hkey x hpx ▸ List.mem_map_of_mem hrt)
      rw [ih hnodup.2 hrt, if_neg hx]

theorem byKey_append_singleton (key : ρ → κ) (row : ρ) (t : List ρ) (k : κ) :
    byKey key k (t ++ [row]) = (byKey key k t).or (if key row = k then some row else none) := by
  simp only [byKey, List.find?_append, List.find?_cons, List.find?_nil]
  congr 1
  split <;> simp_all

/-- `INSERT`, or `UPDATE` of the row with the same key when there is one. -/
def upsert (key : ρ → κ) (row : ρ) (t : List ρ) : List ρ :=
  if (byKey key (key row) t).isNone then t ++ [row]
  else updateWhere (fun r => key r = key row) (fun _ => row) t

theorem byKey_upsert (key : ρ → κ) (row : ρ) (t : List ρ) (k : κ) :
    byKey key k (upsert key row t) = if k = key row then some row else byKey key k t := by
  unfold upsert
  split
  · rename_i hnone
    rw [Option.isNone_iff_eq_none] at hnone
    rw [byKey_append_singleton]
    by_cases hk : k = key row
    · simp [hk, hnone]
    · simp [hk, Ne.symm hk]
  · rename_i hsome
    rw [byKey_updateWhere_key key _ _ (fun _ _ => rfl)]
    by_cases hk : k = key row
    · obtain ⟨old, hold⟩ := Option.ne_none_iff_exists'.mp (Option.isNone_iff_eq_none.not.mp hsome)
      simp [hk, hold]
    · simp [hk]

end

section

variable (key : ρ → ℤ)

/-- The id of the next insert: above every id that is there. -/
def nextKey (t : List ρ) : ℤ := (t.map key).foldr max 0 + 1

theorem lt_nextKey {t : List ρ} {r : ρ} (hr : r ∈ t) : key r < nextKey key t := by
  induction t with
  | nil => cases hr
  | cons x t ih =>
    simp only [nextKey, List.map_cons, List.foldr_cons] at ih ⊢
    rw [List.mem_cons] at hr
    rcases hr with rfl | hr
    · omega
    · have hlt := ih hr
      omega

theorem nextKey_pos (t : List ρ) : 0 < nextKey key t := by
  unfold nextKey
  induction t with
  | nil => simp
  | cons x t ih =>
    rw [List.map_cons, List.foldr_cons]
    omega

theorem nextKey_le {t : List ρ} {b : ℤ} (hb : 0 ≤ b) (ht : ∀ r ∈ t, key r ≤ b) : nextKey key t ≤ b + 1 := by
  induction t with
  | nil =>
    simp only [nextKey, List.map_nil, List.foldr_nil]
    omega
  | cons x t ih =>
    have hx := ht x List.mem_cons_self
    have hrest := ih fun r hr => ht r (List.mem_cons_of_mem _ hr)
    simp only [nextKey, List.map_cons, List.foldr_cons] at hrest ⊢
    omega

end

end ForwardX.Table
