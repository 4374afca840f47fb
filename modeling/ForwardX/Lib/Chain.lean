/-
Queues that nothing holds: tasks that wait for the task before them.
-/
import Mathlib.Data.List.Basic
import Mathlib.Data.Nat.Find

namespace ForwardX.Chain

structure View (κ τ : Type*) where
  key : τ → κ
  previous : τ → Option ℕ
  Waiting : τ → Prop
  Over : τ → Prop
  not_waiting_of_over : ∀ t, Over t → ¬ Waiting t

variable {κ τ : Type*}

/-! ## Lists of tasks -/

variable {l : List τ} {t : τ} {i : ℕ} {f : τ → τ} {c : ℕ}

theorem getElem?_concat_iff {new : τ} :
    (l ++ [new])[i]? = some t ↔ l[i]? = some t ∨ (i = l.length ∧ t = new) := by
  rw [List.getElem?_append]
  split
  · rename_i hlt
    constructor
    · exact .inl
    · rintro (hold | ⟨rfl, -⟩)
      · exact hold
      · omega
  · rename_i hge
    have hnone : l[i]? = none := List.getElem?_eq_none (by omega)
    rw [hnone, List.getElem?_singleton]
    constructor
    · intro hlast
      split at hlast
      · exact .inr ⟨by omega, (Option.some.inj hlast).symm⟩
      · cases hlast
    · rintro (hold | ⟨rfl, rfl⟩)
      · cases hold
      · simp

theorem getElem?_concat_of_some {new : τ} (h : l[i]? = some t) : (l ++ [new])[i]? = some t :=
  getElem?_concat_iff.mpr (.inl h)

theorem lt_length_of_getElem? (h : l[i]? = some t) : i < l.length :=
  (List.getElem?_eq_some_iff.mp h).1

theorem getElem?_modify_iff {t' : τ} :
    (l.modify c f)[i]? = some t' ↔ ∃ t, l[i]? = some t ∧ t' = if i = c then f t else t := by
  rw [List.getElem?_modify]
  constructor
  · intro h
    obtain ⟨t, ht, rfl⟩ := Option.map_eq_some_iff.mp h
    refine ⟨t, ht, ?_⟩
    simp only [eq_comm]
  · rintro ⟨t, ht, rfl⟩
    rw [ht]
    simp only [eq_comm]
    rfl

theorem forall_mem_modify {P : τ → Prop} (ht : l[c]? = some t)
    (h : ∀ u ∈ l, P u) (hf : P (f t)) : ∀ u ∈ l.modify c f, P u := by
  intro u hmem
  obtain ⟨i, hi⟩ := List.mem_iff_getElem?.mp hmem
  obtain ⟨old, hold, rfl⟩ := getElem?_modify_iff.mp hi
  split
  · rename_i hic
    subst hic
    obtain rfl := Option.some.inj (ht.symm.trans hold)
    exact hf
  · exact h old (List.mem_of_getElem? hold)

theorem countP_modify (p : τ → Bool) (ht : l[c]? = some t) :
    (l.modify c f).countP p + (if p t then 1 else 0) = l.countP p + (if p (f t) then 1 else 0) := by
  induction l generalizing c with
  | nil => cases ht
  | cons a l ih =>
    cases c with
    | zero =>
      obtain rfl := Option.some.inj ht
      rw [List.modify_zero_cons, List.countP_cons, List.countP_cons]
      omega
    | succ c =>
      have hrest := ih (c := c) ht
      rw [List.modify_succ_cons, List.countP_cons, List.countP_cons]
      omega

/-! ## Chains -/

variable (v : View κ τ)

/-- What the task waits for, if anything, is over. -/
def Ready (l : List τ) (t : τ) : Prop := ∀ p ∈ v.previous t, ∃ before, l[p]? = some before ∧ v.Over before

structure Chained (l : List τ) : Prop where
  /-- A task waits for one of its key. -/
  behind : ∀ (c : ℕ) (t : τ), l[c]? = some t → v.Waiting t → ∀ p ∈ v.previous t,
    p < c ∧ ∃ before, l[p]? = some before ∧ v.key before = v.key t
  /-- What is left of the key before a waiting task ends with the one that it waits for. -/
  between : ∀ (j c : ℕ) (u t : τ), j < c → l[j]? = some u → l[c]? = some t → v.key u = v.key t →
    v.Waiting t → v.Over u ∨ ∃ p ∈ v.previous t, j ≤ p
  inOrder : ∀ (i j : ℕ) (a b : τ), i < j → l[i]? = some a → l[j]? = some b → v.key a = v.key b →
    ¬ v.Waiting b → v.Over a

/-- The table has the last task of a key unless all are over. -/
structure Listed (last : κ → Option ℕ) (l : List τ) : Prop where
  some_last : ∀ k c, last k = some c → (∃ t, l[c]? = some t ∧ v.key t = k ∧ ¬ v.Over t) ∧
    ∀ (j : ℕ) (u : τ), l[j]? = some u → v.key u = k → j ≤ c
  none_over : ∀ k, last k = none → ∀ (i : ℕ) (t : τ), l[i]? = some t → v.key t = k → v.Over t

/-- A task moves on: after its waiting only when it is ready. -/
structure Moves (l : List τ) (t t' : τ) : Prop where
  key : v.key t' = v.key t
  previous : v.previous t' = v.previous t
  not_over : ¬ v.Over t
  waiting : v.Waiting t' → v.Waiting t
  ready : v.Waiting t → ¬ v.Waiting t' → Ready v l t

variable {v}

theorem chained_nil : Chained v [] where
  behind _ _ h := by cases h
  between _ _ _ _ _ h := by cases h
  inOrder _ _ _ _ _ h := by cases h

theorem listed_nil : Listed v (fun _ => none) [] where
  some_last _ _ h := by cases h
  none_over _ _ _ _ h := by cases h

theorem Chained.over_of_ready (h : Chained v l) {i c : ℕ} {u t : τ} (hic : i < c)
    (hu : l[i]? = some u) (ht : l[c]? = some t) (hkey : v.key u = v.key t) (hwaiting : v.Waiting t)
    (hready : Ready v l t) : v.Over u := by
  rcases h.between i c u t hic hu ht hkey hwaiting with hover | ⟨p, hp, hip⟩
  · exact hover
  · obtain ⟨-, before, hbefore, hbeforekey⟩ := h.behind c t ht hwaiting p hp
    obtain ⟨before', hbefore', hover⟩ := hready p hp
    obtain rfl := Option.some.inj (hbefore.symm.trans hbefore')
    rcases Nat.lt_or_eq_of_le hip with hlt | rfl
    · exact h.inOrder i p u before hlt hu hbefore (hkey.trans hbeforekey.symm)
        (v.not_waiting_of_over before hover)
    · obtain rfl := Option.some.inj (hbefore.symm.trans hu)
      exact hover

theorem Chained.concat {last : κ → Option ℕ} (h : Chained v l) (hlast : Listed v last l)
    {new : τ} (hprevious : v.previous new = last (v.key new)) (hstart : ¬ v.Waiting new → last (v.key new) = none) :
    Chained v (l ++ [new]) where
  behind := by
    intro c t ht hwaiting p hp
    rcases getElem?_concat_iff.mp ht with ht | ⟨rfl, rfl⟩
    · obtain ⟨hlt, before, hbefore, hkey⟩ := h.behind c t ht hwaiting p hp
      exact ⟨hlt, before, getElem?_concat_of_some hbefore, hkey⟩
    · obtain ⟨⟨before, hbefore, hkey, -⟩, -⟩ := hlast.some_last _ p (hprevious ▸ hp)
      exact ⟨lt_length_of_getElem? hbefore, before, getElem?_concat_of_some hbefore, hkey⟩
  between := by
    intro j c u t hjc hu ht hkey hwaiting
    rcases getElem?_concat_iff.mp ht with ht | ⟨rfl, rfl⟩
    · have hlt := lt_length_of_getElem? ht
      rcases getElem?_concat_iff.mp hu with hu | ⟨rfl, -⟩
      · exact h.between j c u t hjc hu ht hkey hwaiting
      · omega
    · rcases getElem?_concat_iff.mp hu with hu | ⟨rfl, -⟩
      · cases hget : last (v.key t) with
        | none => exact .inl (hlast.none_over _ hget j u hu hkey)
        | some p => exact .inr ⟨p, hprevious.trans hget, (hlast.some_last _ p hget).2 j u hu hkey⟩
      · omega
  inOrder := by
    intro i j a b hij ha hb hkey hb'
    rcases getElem?_concat_iff.mp hb with hb | ⟨rfl, rfl⟩
    · have hlt := lt_length_of_getElem? hb
      rcases getElem?_concat_iff.mp ha with ha | ⟨rfl, -⟩
      · exact h.inOrder i j a b hij ha hb hkey hb'
      · omega
    · rcases getElem?_concat_iff.mp ha with ha | ⟨rfl, -⟩
      · exact hlast.none_over _ (hstart hb') i a ha hkey
      · omega

theorem Moves.before (hmove : Moves v l t (f t))
    (ht : l[c]? = some t) {t' : τ} (ht' : (l.modify c f)[i]? = some t') :
    ∃ old, l[i]? = some old ∧ v.key t' = v.key old ∧ v.previous t' = v.previous old ∧
      (v.Waiting t' → v.Waiting old) ∧ (i = c ∧ old = t ∧ t' = f t ∨ i ≠ c ∧ t' = old) := by
  obtain ⟨old, hold, rfl⟩ := getElem?_modify_iff.mp ht'
  refine ⟨old, hold, ?_⟩
  by_cases hic : i = c
  · subst hic
    obtain rfl := Option.some.inj (ht.symm.trans hold)
    rw [if_pos rfl]
    exact ⟨hmove.key, hmove.previous, hmove.waiting, .inl ⟨rfl, rfl, rfl⟩⟩
  · rw [if_neg hic]
    exact ⟨rfl, rfl, id, .inr ⟨hic, rfl⟩⟩

theorem Moves.after (hmove : Moves v l t (f t)) (ht : l[c]? = some t) {old : τ} (hold : l[i]? = some old) :
    ∃ t', (l.modify c f)[i]? = some t' ∧ v.key t' = v.key old ∧
      (i = c ∧ old = t ∧ t' = f t ∨ i ≠ c ∧ t' = old) := by
  refine ⟨_, getElem?_modify_iff.mpr ⟨old, hold, rfl⟩, ?_⟩
  by_cases hic : i = c
  · subst hic
    obtain rfl := Option.some.inj (ht.symm.trans hold)
    rw [if_pos rfl]
    exact ⟨hmove.key, .inl ⟨rfl, rfl, rfl⟩⟩
  · rw [if_neg hic]
    exact ⟨rfl, .inr ⟨hic, rfl⟩⟩

theorem Chained.modify (h : Chained v l) (ht : l[c]? = some t)
    (hmove : Moves v l t (f t)) : Chained v (l.modify c f) where
  behind := by
    intro i t' ht' hwaiting p hp
    obtain ⟨old, hold, hkey, hprevious, hwaited, -⟩ := hmove.before ht ht'
    obtain ⟨hlt, before, hbefore, hbeforekey⟩ := h.behind i old hold (hwaited hwaiting) p (hprevious ▸ hp)
    obtain ⟨before', hbefore', hsame, -⟩ := hmove.after ht hbefore
    exact ⟨hlt, before', hbefore', by rw [hsame, hbeforekey, hkey]⟩
  between := by
    intro j i u' t' hji hu' ht' hkey hwaiting
    obtain ⟨old, hold, holdkey, hprevious, hwaited, -⟩ := hmove.before ht ht'
    obtain ⟨u, hu, hukey, -, -, hcases⟩ := hmove.before ht hu'
    rw [hprevious]
    rcases h.between j i u old hji hu hold (hukey ▸ holdkey ▸ hkey) (hwaited hwaiting) with hover | hlater
    · rcases hcases with ⟨-, rfl, -⟩ | ⟨-, rfl⟩
      · exact absurd hover hmove.not_over
      · exact .inl hover
    · exact .inr hlater
  inOrder := by
    intro i j a' b' hij ha' hb' hkey hstarted
    obtain ⟨a, ha, hakey, -, -, hacases⟩ := hmove.before ht ha'
    obtain ⟨b, hb, hbkey, -, -, hbcases⟩ := hmove.before ht hb'
    have hsame : v.key a = v.key b := hakey ▸ hbkey ▸ hkey
    have hover : v.Over a := by
      by_cases hwaiting : v.Waiting b
      · rcases hbcases with ⟨-, rfl, rfl⟩ | ⟨-, rfl⟩
        · exact h.over_of_ready hij ha hb hsame hwaiting (hmove.ready hwaiting hstarted)
        · exact absurd hwaiting hstarted
      · exact h.inOrder i j a b hij ha hb hsame hwaiting
    rcases hacases with ⟨-, rfl, -⟩ | ⟨-, rfl⟩
    · exact absurd hover hmove.not_over
    · exact hover

/-! ## The table -/

theorem Listed.concat [DecidableEq κ] {last last' : κ → Option ℕ} (h : Listed v last l) {new : τ}
    (hopen : ¬ v.Over new)
    (hlast : ∀ k, last' k = if k = v.key new then some l.length else last k) : Listed v last' (l ++ [new]) where
  some_last := by
    intro k c hc
    rw [hlast] at hc
    split at hc
    · rename_i hk
      obtain rfl := Option.some.inj hc
      refine ⟨⟨new, getElem?_concat_iff.mpr (.inr ⟨rfl, rfl⟩), hk.symm, hopen⟩, ?_⟩
      intro j u hu _
      have hlt := lt_length_of_getElem? hu
      rw [List.length_append, List.length_singleton] at hlt
      omega
    · rename_i hk
      obtain ⟨⟨t, ht, hkey, hlive⟩, hafter⟩ := h.some_last k c hc
      refine ⟨⟨t, getElem?_concat_of_some ht, hkey, hlive⟩, ?_⟩
      intro j u hu hukey
      rcases getElem?_concat_iff.mp hu with hu | ⟨-, rfl⟩
      · exact hafter j u hu hukey
      · exact absurd hukey.symm hk
  none_over := by
    intro k hnone i t ht hkey
    rw [hlast] at hnone
    split at hnone
    · cases hnone
    · rename_i hk
      rcases getElem?_concat_iff.mp ht with ht | ⟨-, rfl⟩
      · exact h.none_over k hnone i t ht hkey
      · exact absurd hkey.symm hk

theorem Listed.modify {last : κ → Option ℕ} (h : Listed v last l)
    (ht : l[c]? = some t) (hmove : Moves v l t (f t)) (hlive : ¬ v.Over (f t)) :
    Listed v last (l.modify c f) where
  some_last := by
    intro k i hi
    obtain ⟨⟨end', hend, hkey, hopen⟩, hafter⟩ := h.some_last k i hi
    obtain ⟨t', ht', hsame, hcases⟩ := hmove.after ht hend
    refine ⟨⟨t', ht', hsame.trans hkey, ?_⟩, ?_⟩
    · rcases hcases with ⟨-, -, rfl⟩ | ⟨-, rfl⟩
      · exact hlive
      · exact hopen
    · intro j u' hu' hukey
      obtain ⟨u, hu, husame, -⟩ := hmove.before ht hu'
      exact hafter j u hu (husame ▸ hukey)
  none_over := by
    intro k hnone i t' ht' hkey
    obtain ⟨old, hold, hsame, -, -, hcases⟩ := hmove.before ht ht'
    have hover := h.none_over k hnone i old hold (hsame ▸ hkey)
    rcases hcases with ⟨-, rfl, -⟩ | ⟨-, rfl⟩
    · exact absurd hover hmove.not_over
    · exact hover

theorem Listed.finish [DecidableEq κ] {last last' : κ → Option ℕ} (h : Listed v last l)
    (hchain : Chained v l) (ht : l[c]? = some t) (hmove : Moves v l t (f t))
    (hstarted : ¬ v.Waiting t) (hover : v.Over (f t))
    (hlast : ∀ k, last' k = if k = v.key t ∧ last k = some c then none else last k) :
    Listed v last' (l.modify c f) where
  some_last := by
    intro k i hi
    rw [hlast] at hi
    split at hi
    · cases hi
    · rename_i hown
      obtain ⟨⟨end', hend, hkey, hopen⟩, hafter⟩ := h.some_last k i hi
      obtain ⟨t', ht', hsame, hcases⟩ := hmove.after ht hend
      refine ⟨⟨t', ht', hsame.trans hkey, ?_⟩, ?_⟩
      · rcases hcases with ⟨rfl, rfl, -⟩ | ⟨-, rfl⟩
        · exact absurd ⟨hkey.symm, hi⟩ hown
        · exact hopen
      · intro j u' hu' hukey
        obtain ⟨u, hu, husame, -⟩ := hmove.before ht hu'
        exact hafter j u hu (husame ▸ hukey)
  none_over := by
    intro k hnone i t' ht' hkey
    obtain ⟨old, hold, hsame, -, -, hcases⟩ := hmove.before ht ht'
    rcases hcases with ⟨-, -, rfl⟩ | ⟨hic, rfl⟩
    · exact hover
    · rw [hlast] at hnone
      split at hnone
      · -- the entry was the task's own: no task of the key is after it
        rename_i hown
        have hic' := (h.some_last k c hown.2).2 i t' hold hkey
        exact hchain.inOrder i c t' t (by omega) hold ht (hkey.trans hown.1) hstarted
      · exact h.none_over k hnone i t' hold hkey

/-! ## What follows -/

theorem Chained.exclusive (h : Chained v l) {i j : ℕ} {a b : τ} (ha : l[i]? = some a)
    (hb : l[j]? = some b) (hkey : v.key a = v.key b) (ha' : ¬ v.Waiting a ∧ ¬ v.Over a)
    (hb' : ¬ v.Waiting b ∧ ¬ v.Over b) : i = j := by
  rcases Nat.lt_trichotomy i j with hij | hij | hji
  · exact absurd (h.inOrder i j a b hij ha hb hkey hb'.1) ha'.2
  · exact hij
  · exact absurd (h.inOrder j i b a hji hb ha hkey.symm ha'.1) hb'.2

theorem Chained.first_ready (h : Chained v l) (ht : l[i]? = some t)
    (hopen : ¬ v.Over t) : ∃ (c : ℕ) (first : τ), l[c]? = some first ∧ v.key first = v.key t ∧
      ¬ v.Over first ∧ (v.Waiting first → Ready v l first) := by
  classical
  have hex : ∃ c : ℕ, ∃ first, l[c]? = some first ∧ v.key first = v.key t ∧ ¬ v.Over first :=
    ⟨i, t, ht, rfl, hopen⟩
  obtain ⟨first, hfirst, hkey, hlive⟩ := Nat.find_spec hex
  refine ⟨Nat.find hex, first, hfirst, hkey, hlive, ?_⟩
  intro hwaiting p hp
  obtain ⟨hlt, before, hbefore, hbeforekey⟩ := h.behind _ first hfirst hwaiting p hp
  refine ⟨before, hbefore, ?_⟩
  by_contra hlive'
  exact Nat.find_min hex hlt ⟨before, hbefore, hbeforekey.trans hkey, hlive'⟩

theorem Listed.eq_none_iff {last : κ → Option ℕ} (h : Listed v last l) (k : κ) : last k = none ↔
    ∀ (i : ℕ) (t : τ), l[i]? = some t → v.key t = k → v.Over t := by
  constructor
  · exact h.none_over k
  · intro hover
    rw [Option.eq_none_iff_forall_ne_some]
    intro c hc
    obtain ⟨⟨t, ht, hkey, hlive⟩, -⟩ := h.some_last k c hc
    exact hlive (hover c t ht hkey)

end ForwardX.Chain
