/-
What `selectPanelClockConsensus` of `server/panelClock.ts` selects.

Offsets within a tolerance of one another agree. The theorem compares the search of the code with
the definition by pairs, and so does not depend on the order of the samples.
-/
import ForwardX.Panel.PanelClock
import Mathlib.Data.Finset.Max
import Mathlib.Data.List.GetD

namespace ForwardX.Panel

open List

/-! ## Clusters -/

abbrev OffsetSample : Type := ℚ × PanelClockSample

def clusterMedian (c : List OffsetSample) : ℚ := median (c.map Prod.fst)

/-- Some of the samples, spanning at most the tolerance. -/
structure IsCluster (toleranceMs : ℚ) (valid c : List OffsetSample) : Prop where
  chosen : c.Subperm valid
  spans : ∀ a ∈ c, ∀ b ∈ c, a.1 - b.1 ≤ toleranceMs

structure IsLargest (toleranceMs : ℚ) (valid c : List OffsetSample) : Prop where
  cluster : IsCluster toleranceMs valid c
  largest : ∀ c', IsCluster toleranceMs valid c' → c'.length ≤ c.length

/-- No two samples lie within the tolerance. -/
def AllApart (toleranceMs : ℚ) (valid : List OffsetSample) : Prop :=
  ∀ a b, [a, b].Subperm valid → toleranceMs < |a.1 - b.1|

def Disagree (toleranceMs : ℚ) (valid : List OffsetSample) : Prop :=
  ∃ c c', IsLargest toleranceMs valid c ∧ IsLargest toleranceMs valid c' ∧
    toleranceMs < |clusterMedian c - clusterMedian c'|

section

variable {toleranceMs : ℚ} {valid valid' c c' : List OffsetSample}

theorem IsCluster.perm (h : IsCluster toleranceMs valid c) (hperm : valid.Perm valid') :
    IsCluster toleranceMs valid' c := ⟨h.chosen.trans hperm.subperm, h.spans⟩

theorem IsLargest.perm (h : IsLargest toleranceMs valid c) (hperm : valid.Perm valid') :
    IsLargest toleranceMs valid' c :=
  ⟨h.cluster.perm hperm, fun c' hc' => h.largest c' (hc'.perm hperm.symm)⟩

theorem allApart_perm (hperm : valid.Perm valid') : AllApart toleranceMs valid ↔ AllApart toleranceMs valid' :=
  forall₂_congr fun _ _ => imp_congr_left (hperm.subperm_left)

theorem disagree_perm (hperm : valid.Perm valid') :
    Disagree toleranceMs valid ↔ Disagree toleranceMs valid' := by
  constructor
  · rintro ⟨c, c', hc, hc', hfar⟩
    exact ⟨c, c', hc.perm hperm, hc'.perm hperm, hfar⟩
  · rintro ⟨c, c', hc, hc', hfar⟩
    exact ⟨c, c', hc.perm hperm.symm, hc'.perm hperm.symm, hfar⟩

theorem median_perm {v v' : List ℚ} (h : v.Perm v') : median v = median v' := by
  have hsorted : v.insertionSort (· ≤ ·) = v'.insertionSort (· ≤ ·) :=
    ((perm_insertionSort _ v).trans (h.trans (perm_insertionSort _ v').symm)).eq_of_pairwise'
      (pairwise_insertionSort _ v) (pairwise_insertionSort _ v')
  rw [median, median, hsorted]

theorem clusterMedian_perm (h : c.Perm c') : clusterMedian c = clusterMedian c' := median_perm (h.map Prod.fst)

end

/-! ## Medians -/

theorem median_le_median {v v' : List ℚ} (hv : v.Pairwise (· ≤ ·)) (hv' : v'.Pairwise (· ≤ ·))
    (hlen : v.length = v'.length) (h : ∀ i, v.getD i 0 ≤ v'.getD i 0) : median v ≤ median v' := by
  rw [median, median, hv.insertionSort_eq, hv'.insertionSort_eq, hlen]
  split_ifs
  · have hlow := h (v'.length / 2 - 1)
    have hhigh := h (v'.length / 2)
    linarith
  · exact h _

/-! ## Windows -/

def Sorted (l : List OffsetSample) : Prop := l.Pairwise fun a b => a.1 ≤ b.1

/-- The samples from the first one on, as far as the tolerance goes. -/
def window (toleranceMs : ℚ) : List OffsetSample → List OffsetSample
  | [] => []
  | first :: rest => first :: rest.takeWhile fun s => s.1 - first.1 ≤ toleranceMs

theorem window_isPrefix (toleranceMs : ℚ) (t : List OffsetSample) : window toleranceMs t <+: t := by
  cases t with
  | nil => exact prefix_rfl
  | cons first rest => exact (prefix_cons_inj first).mpr (List.takeWhile_prefix _)

section

variable {toleranceMs : ℚ} {l t : List OffsetSample}

theorem mem_window {first s : OffsetSample} {rest : List OffsetSample} (htol : 0 ≤ toleranceMs)
    (hsorted : Sorted (first :: rest)) (hs : s ∈ window toleranceMs (first :: rest)) :
    first.1 ≤ s.1 ∧ s.1 - first.1 ≤ toleranceMs := by
  obtain rfl | hs := mem_cons.mp hs
  · exact ⟨le_rfl, by rwa [sub_self]⟩
  · have hwithin := mem_takeWhile_imp hs
    exact ⟨rel_of_pairwise_cons hsorted (takeWhile_subset _ hs), by simpa using hwithin⟩

theorem isCluster_window (htol : 0 ≤ toleranceMs) (hl : Sorted l) (ht : t <:+ l) :
    IsCluster toleranceMs l (window toleranceMs t) where
  chosen := ((window_isPrefix toleranceMs t).sublist.trans ht.sublist).subperm
  spans := by
    cases t with
    | nil => exact forall_mem_nil _
    | cons first rest =>
      have hsorted : Sorted (first :: rest) := hl.sublist ht.sublist
      intro a ha b hb
      have hwithin := (mem_window htol hsorted ha).2
      have hlow := (mem_window htol hsorted hb).1
      linarith

theorem takeWhile_eq_filter (hl : Sorted l) (m : ℚ) (hm : ∀ s ∈ l, m ≤ s.1) :
    (l.takeWhile fun s => s.1 - m ≤ toleranceMs) =
      l.filter fun s => m ≤ s.1 ∧ s.1 - m ≤ toleranceMs := by
  induction l with
  | nil => rfl
  | cons first rest ih =>
    obtain ⟨hfirst, hrest⟩ := pairwise_cons.mp hl
    obtain ⟨hmfirst, hmrest⟩ := forall_mem_cons.mp hm
    by_cases hnear : first.1 - m ≤ toleranceMs
    · rw [takeWhile_cons_of_pos (by simpa using hnear), filter_cons_of_pos (by simp [hmfirst, hnear]),
        ih hrest hmrest]
    · rw [takeWhile_cons_of_neg (by simpa using hnear), filter_cons_of_neg (by simp [hnear])]
      refine (filter_eq_nil_iff.mpr fun s hs => ?_).symm
      have hle := hfirst s hs
      rw [decide_eq_true_eq]
      rintro ⟨-, hs⟩
      exact hnear (by linarith)

theorem exists_window_eq_filter (htol : 0 ≤ toleranceMs) (hl : Sorted l) {a : OffsetSample} (ha : a ∈ l) :
    ∃ t, t <:+ l ∧ window toleranceMs t = l.filter fun s => a.1 ≤ s.1 ∧ s.1 - a.1 ≤ toleranceMs := by
  induction l with
  | nil => exact absurd ha not_mem_nil
  | cons first rest ih =>
    obtain ⟨hfirst, hrest⟩ := pairwise_cons.mp hl
    by_cases hbefore : first.1 < a.1
    · have hmem : a ∈ rest := by
        obtain rfl | hmem := mem_cons.mp ha
        · exact absurd hbefore (lt_irrefl _)
        · exact hmem
      obtain ⟨t, ht, hwindow⟩ := ih hrest hmem
      refine ⟨t, ht.trans (suffix_cons first rest), ?_⟩
      rw [hwindow, filter_cons_of_neg (by simp [hbefore])]
    · have heq : first.1 = a.1 := by
        obtain rfl | hmem := mem_cons.mp ha
        · rfl
        · exact le_antisymm (hfirst a hmem) (not_lt.mp hbefore)
      refine ⟨first :: rest, suffix_rfl, ?_⟩
      have hall : ∀ s ∈ first :: rest, a.1 ≤ s.1 := by
        refine forall_mem_cons.mpr ⟨heq.ge, fun s hs => heq ▸ hfirst s hs⟩
      rw [← takeWhile_eq_filter hl a.1 hall, window, heq, takeWhile_cons_of_pos]
      simpa [heq] using htol

theorem IsCluster.exists_window (htol : 0 ≤ toleranceMs) (hl : Sorted l) {c : List OffsetSample}
    (h : IsCluster toleranceMs l c) :
    ∃ t, t <:+ l ∧ c.length ≤ (window toleranceMs t).length ∧
      ((window toleranceMs t).length ≤ c.length → clusterMedian c = clusterMedian (window toleranceMs t)) := by
  classical
  by_cases hnil : c = []
  · subst hnil
    exact ⟨[], nil_suffix, le_rfl, fun _ => rfl⟩
  · obtain ⟨a, ha, hleast⟩ := c.toFinset.exists_min_image Prod.fst
      (toFinset_nonempty_iff c |>.mpr hnil)
    rw [mem_toFinset] at ha
    obtain ⟨t, ht, hwindow⟩ := exists_window_eq_filter htol hl (h.chosen.subset ha)
    have hnear : (c.filter fun s => a.1 ≤ s.1 ∧ s.1 - a.1 ≤ toleranceMs) = c := by
      refine filter_eq_self.mpr fun s hs => ?_
      rw [decide_eq_true_eq]
      exact ⟨hleast s (mem_toFinset.mpr hs), h.spans s hs a ha⟩
    have hsub : c.Subperm (window toleranceMs t) := by
      rw [hwindow, ← hnear]
      exact h.chosen.filter _
    exact ⟨t, ht, hsub.length_le, fun hle => clusterMedian_perm (hsub.perm_of_length_le hle)⟩

theorem clusterMedian_window_le {t' : List OffsetSample} (ht : Sorted t) (ht' : t' <:+ t)
    (hlen : (window toleranceMs t).length = (window toleranceMs t').length) :
    clusterMedian (window toleranceMs t) ≤ clusterMedian (window toleranceMs t') := by
  have hprefix := window_isPrefix toleranceMs t
  have hprefix' := window_isPrefix toleranceMs t'
  have hsorted : ∀ w : List OffsetSample, w.Sublist t → (w.map Prod.fst).Pairwise (· ≤ ·) := fun w hw =>
    pairwise_map.mpr (ht.sublist hw)
  refine median_le_median (hsorted _ hprefix.sublist) (hsorted _ (hprefix'.sublist.trans ht'.sublist))
    (by rw [length_map, length_map, hlen]) fun i => ?_
  by_cases hi : i < (window toleranceMs t).length
  · obtain ⟨before, rfl⟩ := ht'
    have hi' := hlen ▸ hi
    have hlt := hi.trans_le hprefix.length_le
    have hlt' := hi'.trans_le hprefix'.length_le
    rw [getD_eq_getElem _ _ (by rwa [length_map]),
      getD_eq_getElem _ _ (by rwa [length_map]), getElem_map, getElem_map, hprefix.getElem hi, hprefix'.getElem hi']
    have hbound : before.length + i < (before ++ t').length := by
      rw [length_append]
      omega
    have hlater : t'[i] = (before ++ t')[before.length + i] := by
      rw [getElem_append_right (by omega)]
      simp
    rw [hlater]
    by_cases hzero : before.length = 0
    · rw [length_eq_zero_iff] at hzero
      subst hzero
      simp
    · exact pairwise_iff_getElem.mp ht i (before.length + i) hlt _ (by omega)
  · rw [getD_eq_default _ _ (by rw [length_map]; omega),
      getD_eq_default _ _ (by rw [length_map]; omega)]

end

/-! ## The loop -/

/-- What the loop knows once it has seen the windows of `ts`: the first of the largest, and
whether another one of that size is far from it. -/
structure Scanned (toleranceMs : ℚ) (ts : List (List OffsetSample)) (acc : List OffsetSample × Bool) :
    Prop where
  found : acc.1 = [] ∨ ∃ t ∈ ts, acc.1 = window toleranceMs t
  longest : ∀ t ∈ ts, (window toleranceMs t).length ≤ acc.1.length
  least : ∀ t ∈ ts, (window toleranceMs t).length = acc.1.length →
    clusterMedian acc.1 ≤ clusterMedian (window toleranceMs t)
  ambiguous : acc.2 = true ↔ ∃ t ∈ ts, (window toleranceMs t).length = acc.1.length ∧
    toleranceMs < |clusterMedian acc.1 - clusterMedian (window toleranceMs t)|

section

variable {toleranceMs : ℚ} {ts : List (List OffsetSample)} {acc : List OffsetSample × Bool}
  {t : List OffsetSample}

theorem Scanned.keep (h : Scanned toleranceMs ts acc) (hle : (window toleranceMs t).length ≤ acc.1.length)
    (hmedian : (window toleranceMs t).length = acc.1.length →
      clusterMedian acc.1 ≤ clusterMedian (window toleranceMs t)) {far : Bool}
    (hfar : far = true ↔ acc.2 = true ∨ (window toleranceMs t).length = acc.1.length ∧
      toleranceMs < |clusterMedian acc.1 - clusterMedian (window toleranceMs t)|) :
    Scanned toleranceMs (ts ++ [t]) (acc.1, far) where
  found := h.found.imp_right fun ⟨t', ht', heq⟩ => ⟨t', mem_append_left _ ht', heq⟩
  longest := forall_mem_append.mpr ⟨h.longest, forall_mem_singleton.mpr hle⟩
  least := forall_mem_append.mpr ⟨h.least, forall_mem_singleton.mpr hmedian⟩
  ambiguous := by
    rw [hfar, h.ambiguous]
    simp only [mem_append, mem_singleton, or_and_right, exists_or, exists_eq_left]

theorem Scanned.larger (htol : 0 ≤ toleranceMs) (h : Scanned toleranceMs ts acc)
    (hlt : acc.1.length < (window toleranceMs t).length) :
    Scanned toleranceMs (ts ++ [t]) (window toleranceMs t, false) := by
  have hshorter : ∀ t' ∈ ts, (window toleranceMs t').length < (window toleranceMs t).length := fun t' ht' =>
    (h.longest t' ht').trans_lt hlt
  refine ⟨.inr ⟨t, by simp, rfl⟩, ?_, ?_, iff_of_false nofun ?_⟩
  · exact forall_mem_append.mpr ⟨fun t' ht' => (hshorter t' ht').le, by simp⟩
  · exact forall_mem_append.mpr ⟨fun t' ht' heq => absurd heq (hshorter t' ht').ne, by simp⟩
  · rintro ⟨t', ht', heq, hfar⟩
    obtain ht' | ht' := mem_append.mp ht'
    · exact absurd heq (hshorter t' ht').ne
    · rw [mem_singleton.mp ht', sub_self, abs_zero] at hfar
      exact absurd htol hfar.not_ge

theorem Scanned.step (htol : 0 ≤ toleranceMs) (h : Scanned toleranceMs ts acc)
    (hmedian : ∀ t' ∈ ts, (window toleranceMs t').length = (window toleranceMs t).length →
      clusterMedian (window toleranceMs t') ≤ clusterMedian (window toleranceMs t)) :
    Scanned toleranceMs (ts ++ [t]) (consensusStep toleranceMs acc t) := by
  have hbest (heq : (window toleranceMs t).length = acc.1.length) :
      clusterMedian acc.1 ≤ clusterMedian (window toleranceMs t) := by
    obtain hnil | ⟨t', ht', hwindow⟩ := h.found
    · rw [hnil, length_nil, length_eq_zero_iff] at heq
      rw [hnil, heq]
    · rw [hwindow] at heq ⊢
      exact hmedian t' ht' heq.symm
  cases t with
  | nil =>
    refine h.keep (Nat.zero_le _) hbest ?_
    refine (or_iff_left ?_).symm
    rintro ⟨heq, hfar⟩
    have hnil : acc.1 = window toleranceMs [] := length_eq_zero_iff.mp heq.symm
    rw [hnil, sub_self, abs_zero] at hfar
    exact absurd htol hfar.not_ge
  | cons first rest =>
    show Scanned toleranceMs (ts ++ [first :: rest])
      (if acc.1.length < (window toleranceMs (first :: rest)).length then
        (window toleranceMs (first :: rest), false)
      else if (window toleranceMs (first :: rest)).length = acc.1.length ∧ 0 < acc.1.length then
        (acc.1, acc.2 || decide
          (toleranceMs < |clusterMedian acc.1 - clusterMedian (window toleranceMs (first :: rest))|))
      else (acc.1, acc.2))
    have hpos : 0 < (window toleranceMs (first :: rest)).length := length_pos_of_ne_nil nofun
    split_ifs with hlarger hequal
    · exact h.larger htol hlarger
    · refine h.keep (not_lt.mp hlarger) hbest ?_
      rw [Bool.or_eq_true, decide_eq_true_eq, and_iff_right hequal.1]
    · refine h.keep (not_lt.mp hlarger) hbest (or_iff_left ?_).symm
      rintro ⟨heq, -⟩
      exact hequal ⟨heq, heq ▸ hpos⟩

theorem pairwise_tails (l : List OffsetSample) : l.tails.Pairwise fun t t' => t' <:+ t := by
  induction l with
  | nil => exact pairwise_singleton _ _
  | cons first rest ih =>
    rw [tails_cons]
    exact pairwise_cons.mpr
      ⟨fun t ht => ((mem_tails t rest).mp ht).trans (suffix_cons first rest), ih⟩

theorem scanned_tails (htol : 0 ≤ toleranceMs) {l : List OffsetSample} (hl : Sorted l) :
    Scanned toleranceMs l.tails (l.tails.foldl (consensusStep toleranceMs) ([], false)) := by
  have hloop : ∀ ts : List (List OffsetSample), ts.Pairwise (fun t t' => t' <:+ t) → (∀ t ∈ ts, Sorted t) →
      Scanned toleranceMs ts (ts.foldl (consensusStep toleranceMs) ([], false)) := by
    intro ts
    induction ts using List.reverseRecOn with
    | nil =>
      intro _ _
      exact ⟨.inl rfl, forall_mem_nil _, forall_mem_nil _, iff_of_false nofun (by simp)⟩
    | append_singleton ts t ih =>
      intro hsuffix hsorted
      rw [pairwise_append] at hsuffix
      obtain ⟨hsorted, -⟩ := forall_mem_append.mp hsorted
      rw [foldl_append]
      refine (ih hsuffix.1 hsorted).step htol fun t' ht' heq => ?_
      exact clusterMedian_window_le (hsorted t' ht') (hsuffix.2.2 t' ht' t mem_cons_self) heq
  exact hloop _ (pairwise_tails l) fun t ht => hl.sublist ((mem_tails t l).mp ht).sublist

end

/-! ## The consensus -/

variable (samples : List PanelClockSample)

/-- The samples that may be used, by their offsets. -/
def sortedSamples : List OffsetSample :=
  (samples.filterMap usableSample).insertionSort fun l r => l.1 ≤ r.1

theorem sorted_sortedSamples : Sorted (sortedSamples samples) := by
  have : Std.Total fun l r : OffsetSample => l.1 ≤ r.1 := ⟨fun l r => le_total l.1 r.1⟩
  have : IsTrans OffsetSample fun l r => l.1 ≤ r.1 := ⟨fun _ _ _ => le_trans⟩
  exact pairwise_insertionSort _ _

theorem perm_sortedSamples :
    (sortedSamples samples).Perm (samples.filterMap usableSample) := perm_insertionSort _ _

def scan (toleranceMs : ℚ) (valid : List OffsetSample) : List OffsetSample × Bool :=
  valid.tails.foldl (consensusStep toleranceMs) ([], false)

theorem selectPanelClockConsensus_eq (toleranceMs : ℚ) :
    selectPanelClockConsensus samples toleranceMs false =
      if (scan toleranceMs (sortedSamples samples)).1.length < 2 ∨
          (scan toleranceMs (sortedSamples samples)).2 = true then none
      else some ⟨clusterMedian (scan toleranceMs (sortedSamples samples)).1,
        (scan toleranceMs (sortedSamples samples)).1.map Prod.snd, false⟩ := by
  have hsort : (samples.filterMap usableSample).insertionSort (fun l r => l.1 ≤ r.1) = sortedSamples samples :=
    rfl
  rw [selectPanelClockConsensus, hsort]
  rcases sortedSamples samples with _ | ⟨first, _ | ⟨second, rest⟩⟩
  · rfl
  · exact (if_pos (Or.inl (by simp [scan, consensusStep]))).symm
  · rfl

section

variable {toleranceMs : ℚ} {l : List OffsetSample}

section

variable (htol : 0 ≤ toleranceMs) (hl : Sorted l)

include htol hl

theorem scan_largest :
    IsLargest toleranceMs l (scan toleranceMs l).1 ∧
      ∀ c, IsLargest toleranceMs l c → clusterMedian (scan toleranceMs l).1 ≤ clusterMedian c := by
  have hscan := scanned_tails htol hl
  have hcluster : IsCluster toleranceMs l (scan toleranceMs l).1 := by
    obtain hnil | ⟨t, ht, hwindow⟩ := hscan.found
    · rw [scan, hnil]
      exact ⟨nil_subperm, forall_mem_nil _⟩
    · rw [scan, hwindow]
      exact isCluster_window htol hl ((mem_tails t l).mp ht)
  have hlargest : IsLargest toleranceMs l (scan toleranceMs l).1 := by
    refine ⟨hcluster, fun c hc => ?_⟩
    obtain ⟨t, ht, hlen, -⟩ := hc.exists_window htol hl
    exact hlen.trans (hscan.longest t ((mem_tails t l).mpr ht))
  refine ⟨hlargest, fun c hc => ?_⟩
  obtain ⟨t, ht, hlen, hmedian⟩ := hc.cluster.exists_window htol hl
  have hlong := hscan.longest t ((mem_tails t l).mpr ht)
  have hsize : (scan toleranceMs l).1.length ≤ c.length := hc.largest _ hcluster
  rw [hmedian (hlong.trans hsize)]
  exact hscan.least t ((mem_tails t l).mpr ht) (le_antisymm hlong (hsize.trans hlen))

theorem scan_ambiguous : (scan toleranceMs l).2 = true ↔ Disagree toleranceMs l := by
  have hscan := scanned_tails htol hl
  obtain ⟨hbest, hleast⟩ := scan_largest htol hl
  refine hscan.ambiguous.trans ⟨?_, ?_⟩
  · rintro ⟨t, ht, hlen, hfar⟩
    have hcluster := isCluster_window htol hl ((mem_tails t l).mp ht)
    exact ⟨_, _, hbest, ⟨hcluster, fun c hc => (hbest.largest c hc).trans_eq hlen.symm⟩, hfar⟩
  · rintro ⟨c, c', hc, hc', hfar⟩
    -- of the two, the one of the greater median is far from the first
    obtain ⟨far, hlargest, hfar⟩ : ∃ far, IsLargest toleranceMs l far ∧
        toleranceMs < clusterMedian far - clusterMedian (scan toleranceMs l).1 := by
      have hlow := hleast c hc
      have hlow' := hleast c' hc'
      obtain hfar | hfar := lt_abs.mp hfar
      · exact ⟨c, hc, by linarith⟩
      · exact ⟨c', hc', by linarith⟩
    obtain ⟨t, ht, hlen, hmedian⟩ := hlargest.cluster.exists_window htol hl
    have hmem := (mem_tails t l).mpr ht
    have hsize := hlargest.largest _ hbest.cluster
    have hlong := hscan.longest t hmem
    refine ⟨t, hmem, le_antisymm hlong (hsize.trans hlen), ?_⟩
    rw [hmedian (hlong.trans hsize)] at hfar
    rw [abs_sub_comm]
    exact hfar.trans_le (le_abs_self _)

theorem scan_small : (scan toleranceMs l).1.length < 2 ↔ AllApart toleranceMs l := by
  obtain ⟨hbest, -⟩ := scan_largest htol hl
  constructor
  · intro hsmall a b hab
    by_contra hnear
    obtain ⟨hhigh, hlow⟩ := abs_le.mp (not_lt.mp hnear)
    have hpair : IsCluster toleranceMs l [a, b] := by
      refine ⟨hab, ?_⟩
      simp only [forall_mem_cons, not_mem_nil, false_imp_iff, implies_true, and_true, sub_self]
      exact ⟨⟨htol, hlow⟩, by linarith, htol⟩
    exact absurd (hbest.largest _ hpair) hsmall.not_ge
  · intro hapart
    by_contra hlarge
    generalize (scan toleranceMs l).1 = best at hbest hlarge
    rcases best with _ | ⟨a, _ | ⟨b, rest⟩⟩
    · exact hlarge (by simp)
    · exact hlarge (by simp)
    · have hpair : [a, b].Subperm l :=
        (List.Sublist.subperm (((nil_sublist rest).cons_cons b).cons_cons a)).trans hbest.cluster.chosen
      have hab := hbest.cluster.spans a (by simp) b (by simp)
      have hba := hbest.cluster.spans b (by simp) a (by simp)
      exact absurd (hapart a b hpair) (abs_le.mpr ⟨by linarith, hab⟩).not_gt

end

theorem scan_of_neg (htol : toleranceMs < 0) (hl : Sorted l) : (scan toleranceMs l).1.length < 2 := by
  have hwindow : ∀ t, Sorted t → ∀ acc : List OffsetSample × Bool, acc.1.length < 2 →
      (consensusStep toleranceMs acc t).1.length < 2 := by
    intro t ht acc hacc
    cases t with
    | nil => exact hacc
    | cons first rest =>
      have halone : (rest.takeWhile fun s => s.1 - first.1 ≤ toleranceMs) = [] := by
        cases rest with
        | nil => rfl
        | cons second rest =>
          have hle : first.1 ≤ second.1 := rel_of_pairwise_cons ht mem_cons_self
          exact takeWhile_cons_of_neg (by simp; linarith)
      simp only [consensusStep, halone]
      split_ifs
      · simp
      · exact hacc
      · exact hacc
  have hloop : ∀ (ts : List (List OffsetSample)) (acc : List OffsetSample × Bool), (∀ t ∈ ts, Sorted t) →
      acc.1.length < 2 → (ts.foldl (consensusStep toleranceMs) acc).1.length < 2 := by
    intro ts
    induction ts with
    | nil => exact fun _ _ hacc => hacc
    | cons t ts ih =>
      intro acc hsorted hacc
      obtain ⟨ht, hts⟩ := forall_mem_cons.mp hsorted
      exact ih _ hts (hwindow t ht acc hacc)
  exact hloop _ _ (fun t ht => hl.sublist ((mem_tails t l).mp ht).sublist) (by simp)

end

theorem scan_refused_iff (samples : List PanelClockSample) (toleranceMs : ℚ) :
    (scan toleranceMs (sortedSamples samples)).1.length < 2 ∨
        (scan toleranceMs (sortedSamples samples)).2 = true ↔
      AllApart toleranceMs (samples.filterMap usableSample) ∨
        Disagree toleranceMs (samples.filterMap usableSample) := by
  have hl := sorted_sortedSamples samples
  have hperm := perm_sortedSamples samples
  by_cases htol : 0 ≤ toleranceMs
  · exact or_congr ((scan_small htol hl).trans (allApart_perm hperm))
      ((scan_ambiguous htol hl).trans (disagree_perm hperm))
  · refine iff_of_true (.inl (scan_of_neg (not_le.mp htol) hl)) (.inl fun a b _ => ?_)
    exact (not_le.mp htol).trans_le (abs_nonneg _)

theorem consensus_spec {samples : List PanelClockSample} {toleranceMs : ℚ} {consensus : PanelClockConsensus}
    (h : selectPanelClockConsensus samples toleranceMs false = some consensus) :
    ∃ c, IsLargest toleranceMs (samples.filterMap usableSample) c ∧ consensus.offsetMs = clusterMedian c ∧
      ∀ c', IsLargest toleranceMs (samples.filterMap usableSample) c' → clusterMedian c ≤ clusterMedian c' := by
  have hl := sorted_sortedSamples samples
  have hperm := perm_sortedSamples samples
  rw [selectPanelClockConsensus_eq, Option.ite_none_left_eq_some, Option.some.injEq] at h
  obtain ⟨hfound, rfl⟩ := h
  have htol : 0 ≤ toleranceMs := by
    by_contra hneg
    exact hfound (.inl (scan_of_neg (not_le.mp hneg) hl))
  obtain ⟨hlargest, hleast⟩ := scan_largest htol hl
  exact ⟨_, hlargest.perm hperm, rfl, fun c' hc' => hleast c' (hc'.perm hperm.symm)⟩

/-- **The consensus on the clock.** There is none exactly if no two valid samples lie within the
tolerance or two largest clusters disagree. -/
theorem panel_clock_consensus (samples : List PanelClockSample) (toleranceMs : ℚ) :
    (selectPanelClockConsensus samples toleranceMs false = none ↔
      AllApart toleranceMs (samples.filterMap usableSample) ∨
        Disagree toleranceMs (samples.filterMap usableSample)) ∧
    (∀ consensus ∈ selectPanelClockConsensus samples toleranceMs false,
      ∃ c, IsLargest toleranceMs (samples.filterMap usableSample) c ∧ consensus.offsetMs = clusterMedian c) ∧
    ∀ samples', samples'.Perm samples →
      (selectPanelClockConsensus samples' toleranceMs false).map PanelClockConsensus.offsetMs =
        (selectPanelClockConsensus samples toleranceMs false).map PanelClockConsensus.offsetMs := by
  have hnone (samples : List PanelClockSample) : selectPanelClockConsensus samples toleranceMs false = none ↔
      AllApart toleranceMs (samples.filterMap usableSample) ∨
        Disagree toleranceMs (samples.filterMap usableSample) := by
    rw [← scan_refused_iff, selectPanelClockConsensus_eq]
    split_ifs with hrefused
    · exact iff_of_true rfl hrefused
    · exact iff_of_false nofun hrefused
  refine ⟨hnone samples, fun consensus hconsensus => ?_, fun samples' hperm => ?_⟩
  · obtain ⟨c, hlargest, heq, -⟩ := consensus_spec hconsensus
    exact ⟨c, hlargest, heq⟩
  · have hvalid := hperm.filterMap usableSample
    have hsame : selectPanelClockConsensus samples' toleranceMs false = none ↔
        selectPanelClockConsensus samples toleranceMs false = none := by
      rw [hnone, hnone, allApart_perm hvalid, disagree_perm hvalid]
    cases hfound : selectPanelClockConsensus samples toleranceMs false with
    | none => rw [hsame.mpr hfound]
    | some consensus =>
      cases hfound' : selectPanelClockConsensus samples' toleranceMs false with
      | none => exact absurd (hsame.mp hfound') (by rw [hfound]; exact nofun)
      | some consensus' =>
        obtain ⟨c, hc, heq, hleast⟩ := consensus_spec hfound
        obtain ⟨c', hc', heq', hleast'⟩ := consensus_spec hfound'
        rw [Option.map_some, Option.map_some, heq, heq']
        exact congrArg some (le_antisymm (hleast' c (hc.perm hvalid.symm)) (hleast c' (hc'.perm hvalid)))

/-- Two samples a second apart, in either order. -/
theorem panel_clock_consensus_pair :
    let sample (offset : ℚ) : PanelClockSample := ⟨js "a", .finite offset, .finite 10, 0, 0⟩
    (selectPanelClockConsensus [sample 1000, sample 0] 5000 false).map PanelClockConsensus.offsetMs =
      (selectPanelClockConsensus [sample 0, sample 1000] 5000 false).map PanelClockConsensus.offsetMs := by
  intro sample
  exact (panel_clock_consensus [sample 0, sample 1000] 5000).2.2 _ (List.Perm.swap _ _ _)

end ForwardX.Panel
