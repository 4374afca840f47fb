/-
The byte budgets of `forwardx-fxp/udp_queue_budget.go`: one process budget and, below it, one budget
per rule, updated together under the process lock.
-/
import ForwardX.Lib.GoMap
import Mathlib.Tactic.Linarith
import Mathlib.Tactic.Ring

namespace ForwardX.Fxp

/-! ## Budgets -/

structure FxpUDPQueueProcessBudget where
  limit : ℤ
  used : ℤ

structure FxpUDPQueueRuleBudget where
  limit : ℤ
  used : ℤ

def newFXPUDPQueueProcessBudget (limit : ℤ) : FxpUDPQueueProcessBudget :=
  ⟨if limit < 0 then 0 else limit, 0⟩

def newFXPUDPQueueRuleBudget (limit : ℤ) : FxpUDPQueueRuleBudget :=
  ⟨if limit < 0 then 0 else limit, 0⟩

/-- The process budget with its rule budgets, addressed by pointer. -/
structure Budgets where
  process : FxpUDPQueueProcessBudget
  rules : GoMap ℕ FxpUDPQueueRuleBudget
  clamped : ℕ

def Budgets.reserve (b : Budgets) (rule : ℕ) (bytes : ℤ) : Budgets × Bool :=
  match b.rules.lookup rule with
  | none => (b, false)
  | some r =>
    if bytes < 0 then (b, false)
    else if bytes = 0 then (b, true)
    else if bytes > r.limit - r.used ∨ bytes > b.process.limit - b.process.used then (b, false)
    else
      ({ b with
          process := { b.process with used := b.process.used + bytes }
          rules := b.rules.insert rule { r with used := r.used + bytes } }, true)

def Budgets.replace (b : Budgets) (rule : ℕ) (releaseBytes reserveBytes : ℤ) : Budgets × Bool :=
  match b.rules.lookup rule with
  | none => (b, false)
  | some r =>
    if releaseBytes < 0 ∨ reserveBytes < 0 then (b, false)
    else if releaseBytes > r.used ∨ releaseBytes > b.process.used then (b, false)
    else
      let ruleBase := r.used - releaseBytes
      let processBase := b.process.used - releaseBytes
      if reserveBytes > r.limit - ruleBase ∨ reserveBytes > b.process.limit - processBase then
        (b, false)
      else
        ({ b with
            process := { b.process with used := processBase + reserveBytes }
            rules := b.rules.insert rule { r with used := ruleBase + reserveBytes } }, true)

def Budgets.release (b : Budgets) (rule : ℕ) (bytes : ℤ) : Budgets :=
  match b.rules.lookup rule with
  | none => b
  | some r =>
    if bytes ≤ 0 then b
    else
      -- the source clamps silently; `clamped` counts how often it had to
      let n := if bytes > r.used then r.used else bytes
      { process := { b.process with used := b.process.used - n }
        rules := b.rules.insert rule { r with used := r.used - n }
        clamped := if bytes > r.used then b.clamped + 1 else b.clamped }

/-- Operations through a pointer that may be nil: the callers skip a nil budget. -/
def Budgets.reserve? (b : Budgets) (rule : Option ℕ) (bytes : ℤ) : Budgets × Bool :=
  match rule with
  | none => (b, true)
  | some rule => b.reserve rule bytes

@[inherit_doc Budgets.reserve?]
def Budgets.replace? (b : Budgets) (rule : Option ℕ) (releaseBytes reserveBytes : ℤ) : Budgets × Bool :=
  match rule with
  | none => (b, true)
  | some rule => b.replace rule releaseBytes reserveBytes

@[inherit_doc Budgets.reserve?]
def Budgets.release? (b : Budgets) (rule : Option ℕ) (bytes : ℤ) : Budgets :=
  match rule with
  | none => b
  | some rule => b.release rule bytes

/-! ## Balanced budgets -/

/-- The budgets record the charges `f`, stay within their limits, and `release`
has never been asked for more than was in use. -/
structure Budgets.Balanced (b : Budgets) (f : ℕ → ℤ) : Prop where
  rule : ∀ i r, b.rules.lookup i = some r → r.used = f i
  rule_limit : ∀ i r, b.rules.lookup i = some r → r.used ≤ r.limit
  process : b.process.used = GoMap.sumOver (fun _ r => r.used) b.rules
  process_limit : b.process.used ≤ b.process.limit
  unclamped : b.clamped = 0

variable {b : Budgets} {f : ℕ → ℤ}

theorem Budgets.Balanced.congr {f g : ℕ → ℤ} (h : b.Balanced f)
    (hfg : ∀ i ∈ b.rules, f i = g i) : b.Balanced g where
  rule i r hr := (h.rule i r hr).trans (hfg i (AList.lookup_isSome.mp (by rw [hr]; rfl)))
  rule_limit := h.rule_limit
  process := h.process
  process_limit := h.process_limit
  unclamped := h.unclamped

theorem Budgets.Balanced.move (h : b.Balanced f) {i : ℕ}
    {r : FxpUDPQueueRuleBudget} (hr : b.rules.lookup i = some r) {d u p : ℤ}
    (hu : u = r.used + d) (hp : p = b.process.used + d) (hrule : u ≤ r.limit) (hprocess : p ≤ b.process.limit) :
    Budgets.Balanced ⟨{ b.process with used := p }, b.rules.insert i { r with used := u }, b.clamped⟩
      (fun j => if j = i then f j + d else f j) := by
  refine ⟨fun j r' hr' => ?_, fun j r' hr' => ?_, ?_, hprocess, h.unclamped⟩
  · obtain ⟨rfl, rfl⟩ | ⟨hj, hold⟩ := GoMap.lookup_insert_eq_some hr'
    · rw [if_pos rfl, ← h.rule j r hr, hu]
    · rw [if_neg hj, h.rule j r' hold]
  · obtain ⟨-, rfl⟩ | ⟨-, hold⟩ := GoMap.lookup_insert_eq_some hr'
    · exact hrule
    · exact h.rule_limit j r' hold
  · show p = _
    rw [GoMap.sumOver_insert, hp, h.process, GoMap.sumOver_of_lookup _ hr, hu]
    ring

/-- The rule budgets an operation touches stay where they are. -/
def Budgets.SameRules (b b' : Budgets) : Prop := ∀ i, i ∈ b'.rules ↔ i ∈ b.rules

theorem Budgets.SameRules.refl (b : Budgets) : b.SameRules b := fun _ => Iff.rfl

theorem Budgets.SameRules.trans {b b' b'' : Budgets} (h : b.SameRules b') (h' : b'.SameRules b'') :
    b.SameRules b'' := fun i => (h' i).trans (h i)

theorem sameRules_insert {i : ℕ} {r r' : FxpUDPQueueRuleBudget}
    (hr : b.rules.lookup i = some r) (p : FxpUDPQueueProcessBudget) (n : ℕ) :
    b.SameRules ⟨p, b.rules.insert i r', n⟩ := by
  intro j
  rw [AList.mem_insert]
  refine ⟨?_, .inr⟩
  rintro (rfl | hj)
  · exact AList.lookup_isSome.mp (by rw [hr]; rfl)
  · exact hj

/-- A booking fails and changes nothing, or the budgets balance with `g`. -/
def Budgets.Booked (b : Budgets) (result : Budgets × Bool) (g : ℕ → ℤ) : Prop :=
  b.SameRules result.1 ∧ ((result.2 = false ∧ result.1 = b) ∨ (result.2 = true ∧ result.1.Balanced g))

variable {bytes : ℤ}

theorem Budgets.reserve_spec (h : b.Balanced f) (rule : ℕ) (hbytes : 0 ≤ bytes) :
    b.Booked (b.reserve rule bytes) fun i => if i = rule then f i + bytes else f i := by
  unfold Budgets.reserve
  rcases hr : b.rules.lookup rule with _ | r
  · exact ⟨.refl b, .inl ⟨rfl, rfl⟩⟩
  dsimp only
  rw [if_neg (not_lt.mpr hbytes)]
  by_cases hzero : bytes = 0
  · rw [if_pos hzero]
    refine ⟨.refl b, .inr ⟨rfl, h.congr fun i _ => ?_⟩⟩
    rw [hzero, add_zero, ite_self]
  rw [if_neg hzero]
  by_cases hfull : bytes > r.limit - r.used ∨ bytes > b.process.limit - b.process.used
  · rw [if_pos hfull]; exact ⟨.refl b, .inl ⟨rfl, rfl⟩⟩
  · rw [if_neg hfull]
    rw [not_or, not_lt, not_lt] at hfull
    exact ⟨sameRules_insert hr _ _, .inr ⟨rfl, h.move hr rfl rfl (by linarith [hfull.1])
      (by linarith [hfull.2])⟩⟩

theorem Budgets.replace_spec (h : b.Balanced f) (rule : ℕ) (releaseBytes reserveBytes : ℤ) :
    b.Booked (b.replace rule releaseBytes reserveBytes)
      fun i => if i = rule then f i + (reserveBytes - releaseBytes) else f i := by
  unfold Budgets.replace
  rcases hr : b.rules.lookup rule with _ | r
  · exact ⟨.refl b, .inl ⟨rfl, rfl⟩⟩
  dsimp only
  split_ifs with hneg hover hfull
  · exact ⟨.refl b, .inl ⟨rfl, rfl⟩⟩
  · exact ⟨.refl b, .inl ⟨rfl, rfl⟩⟩
  · exact ⟨.refl b, .inl ⟨rfl, rfl⟩⟩
  · rw [not_or, not_lt, not_lt] at hfull
    exact ⟨sameRules_insert hr _ _, .inr ⟨rfl, h.move hr (by ring) (by ring)
      (by linarith [hfull.1]) (by linarith [hfull.2])⟩⟩

theorem Budgets.release_spec (h : b.Balanced f) {rule : ℕ}
    (hmem : rule ∈ b.rules) (hbytes : 0 ≤ bytes) (hcharged : bytes ≤ f rule) :
    b.SameRules (b.release rule bytes) ∧
      (b.release rule bytes).Balanced fun i => if i = rule then f i - bytes else f i := by
  obtain ⟨r, hr⟩ := Option.isSome_iff_exists.mp (AList.lookup_isSome.mpr hmem)
  unfold Budgets.release
  rw [hr]
  dsimp only
  by_cases hzero : bytes ≤ 0
  · rw [if_pos hzero]
    refine ⟨.refl b, h.congr fun i _ => ?_⟩
    rw [le_antisymm hzero hbytes, sub_zero, ite_self]
  have hused : ¬ bytes > r.used := by rw [h.rule rule r hr]; exact not_lt.mpr hcharged
  rw [if_neg hzero, if_neg hused, if_neg hused]
  have hlimit := h.rule_limit rule r hr
  have hprocess := h.process_limit
  exact ⟨sameRules_insert hr _ _,
    h.move hr (sub_eq_add_neg _ _) (sub_eq_add_neg _ _) (by linarith) (by linarith)⟩

/-! ## Through a pointer that may be nil -/

/-- What `bytes` held by an owner with budget pointer `rule` charge to budget `i`. -/
def share (rule : Option ℕ) (bytes : ℤ) (i : ℕ) : ℤ := if rule = some i then bytes else 0

@[simp] theorem share_zero (rule : Option ℕ) (i : ℕ) : share rule 0 i = 0 := ite_self 0

theorem share_add (rule : Option ℕ) (m n : ℤ) (i : ℕ) :
    share rule (m + n) i = share rule m i + share rule n i := by
  unfold share; split_ifs <;> simp

theorem share_nonneg (rule : Option ℕ) {n : ℤ} (h : 0 ≤ n) (i : ℕ) : 0 ≤ share rule n i := by
  unfold share; split_ifs <;> omega

def Budgets.Knows (b : Budgets) (rule : Option ℕ) : Prop := ∀ i, rule = some i → i ∈ b.rules

theorem Budgets.Knows.mono {b b' : Budgets} {rule : Option ℕ} (h : b.Knows rule)
    (hsame : b.SameRules b') : b'.Knows rule := fun i hi => (hsame i).mpr (h i hi)

theorem Budgets.Booked.of_share {result : Budgets × Bool} {rule : ℕ}
    (h : b.Booked result fun i => if i = rule then f i + bytes else f i) :
    b.Booked result fun i => f i + share (some rule) bytes i := by
  obtain ⟨hsame, hfail | ⟨hok, hbal⟩⟩ := h
  · exact ⟨hsame, .inl hfail⟩
  · refine ⟨hsame, .inr ⟨hok, hbal.congr fun i _ => ?_⟩⟩
    simp only [share, Option.some.injEq, eq_comm (a := rule)]
    split_ifs <;> simp

theorem Budgets.reserve?_spec (h : b.Balanced f) (rule : Option ℕ) (hbytes : 0 ≤ bytes) :
    b.Booked (b.reserve? rule bytes) fun i => f i + share rule bytes i := by
  cases rule with
  | none => exact ⟨.refl b, .inr ⟨rfl, h.congr fun i _ => (add_zero _).symm⟩⟩
  | some rule => exact (b.reserve_spec h rule hbytes).of_share

theorem Budgets.replace?_spec (h : b.Balanced f) (rule : Option ℕ) (releaseBytes reserveBytes : ℤ) :
    b.Booked (b.replace? rule releaseBytes reserveBytes)
      fun i => f i + share rule (reserveBytes - releaseBytes) i := by
  cases rule with
  | none => exact ⟨.refl b, .inr ⟨rfl, h.congr fun i _ => (add_zero _).symm⟩⟩
  | some rule => exact (b.replace_spec h rule releaseBytes reserveBytes).of_share

theorem Budgets.release?_spec (h : b.Balanced f) {rule : Option ℕ}
    (hknows : b.Knows rule) (hbytes : 0 ≤ bytes) (hcharged : ∀ i, share rule bytes i ≤ f i) :
    b.SameRules (b.release? rule bytes) ∧
      (b.release? rule bytes).Balanced fun i => f i - share rule bytes i := by
  cases rule with
  | none => exact ⟨.refl b, h.congr fun i _ => (sub_zero _).symm⟩
  | some rule =>
    have hle : bytes ≤ f rule := by
      have := hcharged rule
      rwa [share, if_pos rfl] at this
    obtain ⟨hsame, hbal⟩ := Budgets.release_spec h (hknows rule rfl) hbytes hle
    refine ⟨hsame, hbal.congr fun i _ => ?_⟩
    simp only [share, Option.some.injEq, eq_comm (a := rule)]
    split_ifs <;> simp

/-- A loop that releases one holding after the other. -/
def Budgets.releaseAll (b : Budgets) (rule : Option ℕ) (holdings : List ℕ) : Budgets :=
  holdings.foldl (fun b n => b.release? rule n) b

theorem Budgets.releaseAll_spec (rule : Option ℕ) (holdings : List ℕ) :
    ∀ {b : Budgets} {f : ℕ → ℤ}, b.Balanced f → b.Knows rule →
      (∀ i, share rule (holdings.sum : ℕ) i ≤ f i) →
      b.SameRules (b.releaseAll rule holdings) ∧
        (b.releaseAll rule holdings).Balanced fun i => f i - share rule (holdings.sum : ℕ) i := by
  induction holdings with
  | nil =>
    intro b f h _ _
    exact ⟨.refl b, h.congr fun i _ => by simp⟩
  | cons n ns ih =>
    intro b f h hknows hcharged
    simp only [List.sum_cons, Nat.cast_add] at hcharged ⊢
    obtain ⟨hsame, hbal⟩ := Budgets.release?_spec h hknows (Int.natCast_nonneg n)
      fun i => by
        have := hcharged i
        have := share_nonneg rule (Int.natCast_nonneg ns.sum) i
        rw [share_add] at *
        linarith
    obtain ⟨hsame', hbal'⟩ := ih hbal (hknows.mono hsame) fun i => by
      have := hcharged i
      rw [share_add] at this
      linarith
    refine ⟨hsame.trans hsame', hbal'.congr fun i _ => ?_⟩
    rw [share_add]
    ring

end ForwardX.Fxp
