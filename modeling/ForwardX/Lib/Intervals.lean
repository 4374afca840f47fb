/-
Intervals with both ends, in order.

A set of values that comes in stretches is a list of intervals.
-/
import Mathlib.Data.List.Sort

namespace ForwardX.Intervals

open List

/-! ## Intervals -/

section

variable {α : Type*} [LinearOrder α]

structure Interval (α : Type*) where
  start : α
  stop : α
  deriving DecidableEq

def Interval.Has (i : Interval α) (x : α) : Prop := i.start ≤ x ∧ x ≤ i.stop

instance (i : Interval α) (x : α) : Decidable (i.Has x) := inferInstanceAs (Decidable (_ ∧ _))

def Covers (l : List (Interval α)) (x : α) : Prop := ∃ i ∈ l, i.Has x

@[simp] theorem covers_nil (x : α) : ¬ Covers [] x := by simp [Covers]

@[simp] theorem covers_cons {i : Interval α} {l : List (Interval α)} {x : α} :
    Covers (i :: l) x ↔ i.Has x ∨ Covers l x := by
  simp [Covers]

@[simp] theorem covers_append {l l' : List (Interval α)} {x : α} :
    Covers (l ++ l') x ↔ Covers l x ∨ Covers l' x := by
  simp [Covers, or_and_right, exists_or]

theorem covers_iff_of_mem_iff {l l' : List (Interval α)} (h : ∀ i, i ∈ l ↔ i ∈ l') (x : α) :
    Covers l x ↔ Covers l' x := by
  simp only [Covers, h]

/-- The intervals are not empty, and each ends before the next one starts. -/
structure Separate (l : List (Interval α)) : Prop where
  proper : ∀ i ∈ l, i.start ≤ i.stop
  before : l.Pairwise fun i j => i.stop < j.start

theorem Separate.nil : Separate ([] : List (Interval α)) := ⟨forall_mem_nil _, List.Pairwise.nil⟩

theorem Separate.sublist {l l' : List (Interval α)} (h : Separate l) (hsub : l'.Sublist l) : Separate l' :=
  ⟨fun i hi => h.proper i (hsub.subset hi), h.before.sublist hsub⟩

theorem Separate.tail {i : Interval α} {l : List (Interval α)} (h : Separate (i :: l)) : Separate l :=
  h.sublist (sublist_cons_self i l)

theorem Separate.past {i : Interval α} {l : List (Interval α)} (h : Separate (i :: l)) {x : α}
    (hx : Covers l x) : i.stop < x := by
  obtain ⟨j, hj, hx⟩ := hx
  exact (rel_of_pairwise_cons h.before hj).trans_le hx.1

/-! ## The common part -/

def meet (i j : Interval α) : Interval α := ⟨max i.start j.start, min i.stop j.stop⟩

theorem has_meet {i j : Interval α} {x : α} : (meet i j).Has x ↔ i.Has x ∧ j.Has x := by
  simp only [meet, Interval.Has, sup_le_iff, le_inf_iff]
  exact and_and_and_comm

def overlap (i j : Interval α) : List (Interval α) :=
  if (meet i j).start ≤ (meet i j).stop then [meet i j] else []

theorem covers_overlap {i j : Interval α} {x : α} : Covers (overlap i j) x ↔ i.Has x ∧ j.Has x := by
  rw [← has_meet, overlap]
  split_ifs with hproper
  · rw [covers_cons, or_iff_left (covers_nil x)]
  · exact iff_of_false (covers_nil x) fun hx => hproper (hx.1.trans hx.2)

theorem mem_overlap {i j k : Interval α} : k ∈ overlap i j ↔ k.start ≤ k.stop ∧ k = meet i j := by
  rw [overlap]
  split_ifs with hproper
  · rw [mem_singleton]
    exact ⟨fun h => ⟨h ▸ hproper, h⟩, And.right⟩
  · exact iff_of_false not_mem_nil fun h => hproper (h.2 ▸ h.1)

/-- The common part of two lists: of the two intervals at the front, the one that ends
first is done. -/
def intersect : List (Interval α) → List (Interval α) → List (Interval α)
  | i :: l, j :: r =>
    if i.stop < j.stop then overlap i j ++ intersect l (j :: r)
    else overlap i j ++ intersect (i :: l) r
  | [], _ => []
  | _ :: _, [] => []
  termination_by l r => l.length + r.length

@[simp] theorem intersect_nil_left (r : List (Interval α)) : intersect [] r = [] := by
  rw [intersect]

theorem covers_intersect {l r : List (Interval α)} (hl : Separate l) (hr : Separate r) (x : α) :
    Covers (intersect l r) x ↔ Covers l x ∧ Covers r x := by
  induction l, r using intersect.induct with
  | case1 i l j r hends ih =>
    -- `i` is done: past its end there is nothing of it
    rw [intersect, if_pos hends, covers_append, covers_overlap, ih hl.tail hr, covers_cons, covers_cons]
    constructor
    · rintro (⟨hi, hj⟩ | ⟨hl', hr'⟩)
      · exact ⟨.inl hi, .inl hj⟩
      · exact ⟨.inr hl', hr'⟩
    · rintro ⟨hi | hl', hj | hr'⟩
      · exact .inl ⟨hi, hj⟩
      · exact absurd (hends.trans (hr.past hr')) hi.2.not_gt
      · exact .inr ⟨hl', .inl hj⟩
      · exact .inr ⟨hl', .inr hr'⟩
  | case2 i l j r hends ih =>
    rw [intersect, if_neg hends, covers_append, covers_overlap, ih hl hr.tail, covers_cons, covers_cons]
    constructor
    · rintro (⟨hi, hj⟩ | ⟨hl', hr'⟩)
      · exact ⟨.inl hi, .inl hj⟩
      · exact ⟨hl', .inr hr'⟩
    · rintro ⟨hi | hl', hj | hr'⟩
      · exact .inl ⟨hi, hj⟩
      · exact .inr ⟨.inl hi, hr'⟩
      · exact absurd ((not_lt.mp hends).trans_lt (hl.past hl')) hj.2.not_gt
      · exact .inr ⟨.inr hl', hr'⟩
  | case3 r => simp
  | case4 i l => simp [intersect]

theorem mem_intersect {l r : List (Interval α)} {k : Interval α} (hk : k ∈ intersect l r) :
    ∃ i ∈ l, ∃ j ∈ r, k ∈ overlap i j := by
  induction l, r using intersect.induct with
  | case1 i l j r hends ih =>
    rw [intersect, if_pos hends, mem_append] at hk
    obtain hk | hk := hk
    · exact ⟨i, mem_cons_self, j, mem_cons_self, hk⟩
    · obtain ⟨i', hi', hj'⟩ := ih hk
      exact ⟨i', mem_cons_of_mem i hi', hj'⟩
  | case2 i l j r hends ih =>
    rw [intersect, if_neg hends, mem_append] at hk
    obtain hk | hk := hk
    · exact ⟨i, mem_cons_self, j, mem_cons_self, hk⟩
    · obtain ⟨i', hi', j', hj', hk⟩ := ih hk
      exact ⟨i', hi', j', mem_cons_of_mem j hj', hk⟩
  | case3 r => simp at hk
  | case4 i l => simp [intersect] at hk

theorem separate_intersect {l r : List (Interval α)} (hl : Separate l) (hr : Separate r) :
    Separate (intersect l r) := by
  refine ⟨fun k hk => ?_, ?_⟩
  · obtain ⟨i, -, j, -, hk⟩ := mem_intersect hk
    exact (mem_overlap.mp hk).1
  have hshared (i j : Interval α) : (overlap i j).Pairwise fun i j => i.stop < j.start := by
    rw [overlap]
    split_ifs
    · exact pairwise_singleton _ _
    · exact List.Pairwise.nil
  induction l, r using intersect.induct with
  | case1 i l j r hends ih =>
    rw [intersect, if_pos hends, pairwise_append]
    refine ⟨hshared i j, ih hl.tail hr, fun k hk k' hk' => ?_⟩
    obtain ⟨i', hi', j', -, hk'⟩ := mem_intersect hk'
    rw [(mem_overlap.mp hk).2, (mem_overlap.mp hk').2]
    exact (min_le_left _ _).trans_lt
      ((rel_of_pairwise_cons hl.before hi').trans_le (le_max_left _ _))
  | case2 i l j r hends ih =>
    rw [intersect, if_neg hends, pairwise_append]
    refine ⟨hshared i j, ih hl hr.tail, fun k hk k' hk' => ?_⟩
    obtain ⟨i', -, j', hj', hk'⟩ := mem_intersect hk'
    rw [(mem_overlap.mp hk).2, (mem_overlap.mp hk').2]
    exact (min_le_right _ _).trans_lt
      ((rel_of_pairwise_cons hr.before hj').trans_le (le_max_right _ _))
  | case3 r => simp
  | case4 i l => simp [intersect]

end

/-! ## Merging -/

/-- The list with the interval before it, which takes in what touches it. -/
def mergeFrom (previous : Interval ℤ) : List (Interval ℤ) → List (Interval ℤ)
  | [] => [previous]
  | i :: rest =>
    if i.start ≤ previous.stop + 1 then mergeFrom ⟨previous.start, max previous.stop i.stop⟩ rest
    else previous :: mergeFrom i rest

def mergeTouching : List (Interval ℤ) → List (Interval ℤ)
  | [] => []
  | i :: rest => mergeFrom i rest

/-- In order of the starts, none of them empty. -/
structure Ordered (l : List (Interval ℤ)) : Prop where
  proper : ∀ i ∈ l, i.start ≤ i.stop
  starts : l.Pairwise fun i j => i.start ≤ j.start

theorem Ordered.merged {previous i : Interval ℤ} {rest : List (Interval ℤ)}
    (h : Ordered (previous :: i :: rest)) :
    Ordered (⟨previous.start, max previous.stop i.stop⟩ :: rest) where
  proper k hk := by
    obtain rfl | hk := mem_cons.mp hk
    · exact (h.proper previous mem_cons_self).trans (le_max_left _ _)
    · exact h.proper k (mem_cons_of_mem _ (mem_cons_of_mem _ hk))
  starts := by
    obtain ⟨hfirst, hrest⟩ := pairwise_cons.mp h.starts
    exact pairwise_cons.mpr
      ⟨fun k hk => hfirst k (mem_cons_of_mem _ hk), (pairwise_cons.mp hrest).2⟩

variable {l : List (Interval ℤ)}

theorem Ordered.tail {i : Interval ℤ} (h : Ordered (i :: l)) : Ordered l :=
  ⟨fun k hk => h.proper k (mem_cons_of_mem i hk), (pairwise_cons.mp h.starts).2⟩

theorem covers_mergeFrom {previous : Interval ℤ} (h : Ordered (previous :: l))
    (x : ℤ) : Covers (mergeFrom previous l) x ↔ Covers (previous :: l) x := by
  induction l generalizing previous with
  | nil => rfl
  | cons i rest ih =>
    rw [mergeFrom]
    split_ifs with htouch
    · -- where they touch, the two together are one interval
      have hproper := h.proper previous mem_cons_self
      have hstart := rel_of_pairwise_cons h.starts (mem_cons_self (a := i) (l := rest))
      rw [ih h.merged, covers_cons, covers_cons, covers_cons, ← or_assoc]
      refine or_congr_left ?_
      simp only [Interval.Has]
      omega
    · rw [covers_cons, ih h.tail, covers_cons (i := previous)]

theorem le_start_of_mem_mergeFrom {previous : Interval ℤ} {start : ℤ}
    (hprevious : start ≤ previous.start) (hl : ∀ i ∈ l, start ≤ i.start) :
    ∀ k ∈ mergeFrom previous l, start ≤ k.start := by
  induction l generalizing previous with
  | nil => simpa [mergeFrom] using hprevious
  | cons i rest ih =>
    rw [mergeFrom]
    obtain ⟨hi, hrest⟩ := forall_mem_cons.mp hl
    split_ifs
    · exact ih hprevious hrest
    · exact forall_mem_cons.mpr ⟨hprevious, ih hi hrest⟩

theorem separate_mergeFrom {previous : Interval ℤ} (h : Ordered (previous :: l)) :
    Separate (mergeFrom previous l) := by
  induction l generalizing previous with
  | nil => exact ⟨by simpa [mergeFrom] using h.proper, pairwise_singleton _ _⟩
  | cons i rest ih =>
    rw [mergeFrom]
    split_ifs with htouch
    · exact ih h.merged
    · have hrest := ih h.tail
      have hstarts := (pairwise_cons.mp (pairwise_cons.mp h.starts).2).1
      refine ⟨forall_mem_cons.mpr ⟨h.proper previous mem_cons_self, hrest.proper⟩,
        pairwise_cons.mpr ⟨fun k hk => ?_, hrest.before⟩⟩
      have := le_start_of_mem_mergeFrom le_rfl hstarts k hk
      omega

theorem covers_mergeTouching (h : Ordered l) (x : ℤ) : Covers (mergeTouching l) x ↔ Covers l x := by
  cases l with
  | nil => rfl
  | cons i rest => exact covers_mergeFrom h x

theorem separate_mergeTouching (h : Ordered l) : Separate (mergeTouching l) := by
  cases l with
  | nil => exact Separate.nil
  | cons i rest => exact separate_mergeFrom h

/-! ## Searching by halves -/

section

variable {β : Type*}

/-- Search between `low` and `high` for a value that `side` calls equal; a value that is
less is before the place looked for. -/
def bisect (side : β → Ordering) (values : List β) (low high : ℤ) : Bool :=
  if low ≤ high then
    match (values[((low + high) / 2).toNat]?).map side with
    | some .eq => true
    | some .lt => bisect side values ((low + high) / 2 + 1) high
    | some .gt => bisect side values low ((low + high) / 2 - 1)
    | none => false
  else false
  termination_by (high + 1 - low).toNat

/-- Before a value that comes before the place, all do; after one that comes after it, all do. -/
def InOrder (side : β → Ordering) (values : List β) : Prop :=
  values.Pairwise fun v w => (side w = .lt → side v = .lt) ∧ (side v = .gt → side w = .gt)

variable {side : β → Ordering}

section

variable {values : List β} (h : InOrder side values)

include h

theorem InOrder.side_lt {i j : ℕ}
    (hij : i ≤ j) (hj : (values[j]?).map side = some .lt) {v : β} (hv : values[i]? = some v) :
    side v = .lt := by
  obtain ⟨w, hw, hlt⟩ := Option.map_eq_some_iff.mp hj
  obtain rfl | hij := hij.eq_or_lt
  · rw [hv, Option.some.injEq] at hw
    rwa [hw]
  · obtain ⟨hi, rfl⟩ := List.getElem?_eq_some_iff.mp hv
    obtain ⟨hj, rfl⟩ := List.getElem?_eq_some_iff.mp hw
    exact (pairwise_iff_getElem.mp h i j hi hj hij).1 hlt

theorem InOrder.side_gt {i j : ℕ}
    (hij : i ≤ j) (hi : (values[i]?).map side = some .gt) {v : β} (hv : values[j]? = some v) :
    side v = .gt := by
  obtain ⟨w, hw, hgt⟩ := Option.map_eq_some_iff.mp hi
  obtain rfl | hij := hij.eq_or_lt
  · rw [hv, Option.some.injEq] at hw
    rwa [hw]
  · obtain ⟨hj, rfl⟩ := List.getElem?_eq_some_iff.mp hv
    obtain ⟨hi, rfl⟩ := List.getElem?_eq_some_iff.mp hw
    exact (pairwise_iff_getElem.mp h i j hi hj hij).2 hgt

theorem bisect_part (low high : ℤ) (hlow : 0 ≤ low) (hhigh : high < values.length)
    (hbefore : ∀ (i : ℕ) v, (i : ℤ) < low → values[i]? = some v → side v = .lt)
    (hafter : ∀ (i : ℕ) v, high < (i : ℤ) → values[i]? = some v → side v = .gt) :
    bisect side values low high = true ↔ ∃ v ∈ values, side v = .eq := by
  induction low, high using bisect.induct side values with
  | case1 low high hle heq =>
    rw [bisect, if_pos hle, heq]
    obtain ⟨v, hv, heq⟩ := Option.map_eq_some_iff.mp heq
    exact ⟨fun _ => ⟨v, mem_of_getElem? hv, heq⟩, fun _ => rfl⟩
  | case2 low high hle hlt ih =>
    rw [bisect, if_pos hle, hlt]
    refine ih (by omega) hhigh (fun i v hi hv => ?_) hafter
    exact h.side_lt (by omega) hlt hv
  | case3 low high hle hgt ih =>
    rw [bisect, if_pos hle, hgt]
    refine ih hlow (by omega) hbefore (fun i v hi hv => ?_)
    exact h.side_gt (by omega) hgt hv
  | case4 low high hle hnone =>
    rw [Option.map_eq_none_iff, getElem?_eq_none_iff] at hnone
    omega
  | case5 low high hempty =>
    rw [bisect, if_neg hempty]
    refine ⟨nofun, ?_⟩
    rintro ⟨v, hv, heq⟩
    obtain ⟨i, hi⟩ := mem_iff_getElem?.mp hv
    obtain hlt | hgt : (i : ℤ) < low ∨ high < (i : ℤ) := by omega
    · rw [hbefore i v hlt hi] at heq
      exact absurd heq nofun
    · rw [hafter i v hgt hi] at heq
      exact absurd heq nofun

theorem bisect_iff : bisect side values 0 (values.length - 1) = true ↔ ∃ v ∈ values, side v = .eq := by
  refine bisect_part h _ _ le_rfl (by omega) (fun i v hi _ => by omega) (fun i v hi hv => ?_)
  have := (List.getElem?_eq_some_iff.mp hv).1
  omega

end

end

end ForwardX.Intervals
