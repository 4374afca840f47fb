/-
What `authRateLimitState` promises with `retryAfterSeconds`.

A refusal names the time after which the next attempt is let in. Blocks of the account, the address
and the pair may overlap, and the time is that of the first; the equivalence says when the others
are over by then.
-/
import ForwardX.Panel.AuthRateLimit

namespace ForwardX.Panel.RetryAfter

open Run Throttle RateLimit Option List

/-! ## What happens in between -/

section

variable (lower : JsString → JsString)

variable (stores : FailureStores)

def clearAuthAccountFailures (ip username : JsString) : FailureStores where
  login := stores.login.delete (getAuthAttemptKey lower ip username)
  account := stores.account.delete (normalizeUsername lower username)
  ip := stores.ip

/-- What the panel does with the counters when nobody fails; each comes with its time. -/
inductive QuietEvent where
  | check (ip username : JsString) (now : ℤ)
  | clear (ip username : JsString)
  | prune (now : ℤ)

def stepQuiet : QuietEvent → FailureStores
  | .check ip username now => (authRateLimitState lower stores ip username now).2
  | .clear ip username => clearAuthAccountFailures lower stores ip username
  | .prune now => pruneAuthRateLimitState stores now

/-! ## Blocks -/

/-- The three counters of an attempt, and from where on they block, in the order of the checks. -/
def scopes (ip username : JsString) : List (Option FailureEntry × ℕ) :=
  [(stores.login.get (getAuthAttemptKey lower ip username), loginBlockThresholdPerAccount),
    (stores.account.get (normalizeUsername lower username), loginBlockThresholdPerAccount),
    (stores.ip.get (normalizeIp lower ip), loginBlockThresholdPerIp)]

/-- Until when a counter blocks, if it does at `now`. -/
def blockedUntil (now : ℤ) (scope : Option FailureEntry × ℕ) : Option ℤ :=
  ((active loginFailWindowMs scope.1 now).filter fun entry =>
    scope.2 ≤ entry.count ∧ now < entry.lastFailAt + loginBlockMs).map fun entry => entry.lastFailAt + loginBlockMs

/-- The seconds from `now` until `retryAt`, begun ones included. -/
def secondsUntil (now retryAt : ℤ) : ℤ := ⌈((retryAt - now : ℤ) : ℚ) / 1000⌉

/-- No block lasts into a later second than the first one. -/
def FirstOutlastsOthers (now : ℤ) (blocks : List ℤ) : Prop :=
  ∀ first ∈ blocks.head?, ∀ retryAt ∈ blocks, secondsUntil now retryAt ≤ secondsUntil now first

/-- A caller that is told to come back after some seconds is let through from then on,
if nobody fails in the meantime. -/
def Honest (ip username : JsString) (now : ℤ) : Prop :=
  (authRateLimitState lower stores ip username now).1.limited = true →
    ∀ (es : List QuietEvent) (t : ℤ),
      now + 1000 * (authRateLimitState lower stores ip username now).1.retryAfterSeconds ≤ t →
      (authRateLimitState lower (run (stepQuiet lower) (authRateLimitState lower stores ip username now).2 es)
        ip username t).1.limited = false

end

/-! ## One counter -/

theorem blockedUntil_eq_some_iff {now retryAt : ℤ} {scope : Option FailureEntry × ℕ} :
    blockedUntil now scope = some retryAt ↔
      ∃ entry, scope.1 = some entry ∧ now - entry.lastFailAt < loginFailWindowMs ∧ scope.2 ≤ entry.count ∧
        now < entry.lastFailAt + loginBlockMs ∧ entry.lastFailAt + loginBlockMs = retryAt := by
  simp only [blockedUntil, active, map_eq_some_iff, filter_eq_some_iff, decide_eq_true_eq]
  constructor
  · rintro ⟨entry, ⟨⟨hentry, hactive⟩, hcount, hearly⟩, hretry⟩
    exact ⟨entry, hentry, hactive, hcount, hearly, hretry⟩
  · rintro ⟨entry, hentry, hactive, hcount, hearly, hretry⟩
    exact ⟨entry, ⟨⟨hentry, hactive⟩, hcount, hearly⟩, hretry⟩

theorem blockedFor_active (entry : Option FailureEntry) (threshold : ℕ) (now : ℤ) :
    blockedFor (active loginFailWindowMs entry now) threshold now
      = (blockedUntil now (entry, threshold)).map (secondsUntil now) := by
  unfold blockedUntil
  dsimp only
  cases active loginFailWindowMs entry now with
  | none => rfl
  | some e =>
    unfold blockedFor
    dsimp only
    by_cases hcount : e.count < threshold
    · rw [if_pos hcount, filter_some_neg (by simp; omega)]
      rfl
    · rw [if_neg hcount]
      by_cases hearly : now < e.lastFailAt + loginBlockMs
      · rw [if_pos hearly, filter_some_pos (by simpa using ⟨Nat.not_lt.mp hcount, hearly⟩), map_some,
          map_some, secondsUntil]
        congr 1
        refine max_eq_right (Int.one_le_ceil_iff.mpr ?_)
        have hpos : (0 : ℚ) < ((e.lastFailAt + loginBlockMs - now : ℤ) : ℚ) := by
          exact_mod_cast (by omega : 0 < e.lastFailAt + loginBlockMs - now)
        positivity
      · rw [if_neg hearly, filter_some_neg (by simp; omega)]
        rfl

theorem secondsUntil_le_iff {now retryAt seconds : ℤ} :
    secondsUntil now retryAt ≤ seconds ↔ retryAt ≤ now + 1000 * seconds := by
  rw [secondsUntil, Int.ceil_le, div_le_iff₀ (by norm_num)]
  constructor
  · intro h
    have h' : retryAt - now ≤ seconds * 1000 := by exact_mod_cast h
    omega
  · intro h
    have h' : retryAt - now ≤ seconds * 1000 := by omega
    exact_mod_cast h'

/-! ## A check -/

section

variable {lower : JsString → JsString}

theorem authRateLimitState_fst (stores : FailureStores) (ip username : JsString) (now : ℤ) :
    (authRateLimitState lower stores ip username now).1 =
      match ((scopes lower stores ip username).filterMap (blockedUntil now)).head? with
      | some retryAt => ⟨true, secondsUntil now retryAt⟩
      | none => ⟨false, 0⟩ := by
  simp only [authRateLimitState, activeFailureEntry_fst, blockedFor_active, scopes]
  cases hlogin : blockedUntil now
      (stores.login.get (getAuthAttemptKey lower ip username), loginBlockThresholdPerAccount) with
  | some retryAt => simp [hlogin]
  | none =>
    cases haccount : blockedUntil now
        (stores.account.get (normalizeUsername lower username), loginBlockThresholdPerAccount) with
    | some retryAt => simp [hlogin, haccount]
    | none =>
      cases hip : blockedUntil now (stores.ip.get (normalizeIp lower ip), loginBlockThresholdPerIp) with
      | some retryAt => simp [hlogin, haccount, hip]
      | none => simp [hlogin, haccount, hip]

theorem not_limited_iff {stores : FailureStores} {ip username : JsString} {t : ℤ} :
    (authRateLimitState lower stores ip username t).1.limited = false ↔
      ∀ scope ∈ scopes lower stores ip username, blockedUntil t scope = none := by
  rw [authRateLimitState_fst]
  cases hblocks : (scopes lower stores ip username).filterMap (blockedUntil t) with
  | nil => simpa using filterMap_eq_nil_iff.mp hblocks
  | cons retryAt rest =>
    have hmem : retryAt ∈ (scopes lower stores ip username).filterMap (blockedUntil t) := by
      rw [hblocks]
      exact mem_cons_self
    obtain ⟨scope, hscope, hblock⟩ := mem_filterMap.mp hmem
    simp only [head?_cons, Bool.true_eq_false, false_iff]
    intro hnone
    rw [hnone scope hscope] at hblock
    cases hblock

end

/-! ## Entries are only forgotten -/

/-- Every counter is what it was, or gone. -/
structure Remains (stores stores' : FailureStores) : Prop where
  login : ∀ key, stores'.login.get key = stores.login.get key ∨ stores'.login.get key = none
  account : ∀ key, stores'.account.get key = stores.account.get key ∨ stores'.account.get key = none
  ip : ∀ key, stores'.ip.get key = stores.ip.get key ∨ stores'.ip.get key = none

section

theorem Remains.refl (stores : FailureStores) : Remains stores stores :=
  ⟨fun _ => .inl rfl, fun _ => .inl rfl, fun _ => .inl rfl⟩

theorem same_or_none_trans {a b c : Option FailureEntry} (h : b = a ∨ b = none) (h' : c = b ∨ c = none) :
    c = a ∨ c = none := by
  rcases h' with rfl | hnone
  · exact h
  · exact .inr hnone

theorem Remains.trans {a b c : FailureStores} (h : Remains a b) (h' : Remains b c) : Remains a c :=
  ⟨fun key => same_or_none_trans (h.login key) (h'.login key),
    fun key => same_or_none_trans (h.account key) (h'.account key),
    fun key => same_or_none_trans (h.ip key) (h'.ip key)⟩

theorem filter_same_or_none (p : FailureEntry → Bool) (entry : Option FailureEntry) :
    entry.filter p = entry ∨ entry.filter p = none := by
  cases entry with
  | none => exact .inl rfl
  | some e =>
    rw [filter_some]
    split
    · exact .inl rfl
    · exact .inr rfl

theorem get_activeFailureEntry_same_or_none (store : FailureStore) (key : JsString) (now : ℤ) (key' : JsString) :
    (activeFailureEntry store key now).2.get key' = store.get key' ∨
      (activeFailureEntry store key now).2.get key' = none := by
  rw [get_activeFailureEntry]
  split
  · rename_i hkey
    rw [hkey]
    exact filter_same_or_none _ _
  · exact .inl rfl

theorem get_delete_same_or_none (store : FailureStore) (key key' : JsString) :
    (store.delete key).get key' = store.get key' ∨ (store.delete key).get key' = none := by
  rw [JsMap.get_delete]
  split
  · exact .inr rfl
  · exact .inl rfl

theorem remains_check (lower : JsString → JsString) (stores : FailureStores) (ip username : JsString) (now : ℤ) :
    Remains stores (authRateLimitState lower stores ip username now).2 :=
  ⟨get_activeFailureEntry_same_or_none _ _ _, get_activeFailureEntry_same_or_none _ _ _,
    get_activeFailureEntry_same_or_none _ _ _⟩

theorem remains_stepQuiet (lower : JsString → JsString) (stores : FailureStores) (e : QuietEvent) :
    Remains stores (stepQuiet lower stores e) := by
  cases e with
  | check ip username now => exact remains_check lower stores ip username now
  | clear ip username =>
    exact ⟨get_delete_same_or_none _ _, get_delete_same_or_none _ _, fun _ => .inl rfl⟩
  | prune now =>
    have hprune : ∀ (store : FailureStore) (p : FailureEntry → Bool) (key : JsString),
        (pruneMapEntries store p).get key = store.get key ∨ (pruneMapEntries store p).get key = none := by
      intro store p key
      rw [pruneMapEntries, JsMap.get_filter]
      exact filter_same_or_none _ _
    exact ⟨hprune _ _, hprune _ _, hprune _ _⟩

theorem remains_run (lower : JsString → JsString) (es : List QuietEvent) :
    ∀ stores : FailureStores, Remains stores (run (stepQuiet lower) stores es) := by
  induction es with
  | nil => exact Remains.refl
  | cons e es ih => exact fun stores => (remains_stepQuiet lower stores e).trans (ih _)

theorem exists_blockedUntil_of_remains {lower : JsString → JsString} {stores stores' : FailureStores}
    (h : Remains stores stores') {ip username : JsString} {now t retryAt : ℤ} (ht : now ≤ t)
    {scope : Option FailureEntry × ℕ} (hscope : scope ∈ scopes lower stores' ip username)
    (hblock : blockedUntil t scope = some retryAt) :
    t < retryAt ∧ ∃ scope' ∈ scopes lower stores ip username, blockedUntil now scope' = some retryAt := by
  obtain ⟨entry, hentry, hactive, hcount, hearly, rfl⟩ := blockedUntil_eq_some_iff.mp hblock
  -- the entry was there before, under the same key
  have hbefore : ∃ scope' ∈ scopes lower stores ip username, scope'.1 = some entry ∧ scope'.2 = scope.2 := by
    simp only [scopes, mem_cons, not_mem_nil, or_false] at hscope ⊢
    have hread : ∀ {x y : Option FailureEntry}, x = y ∨ x = none → x = some entry → y = some entry := by
      rintro x y (rfl | rfl) hx
      · exact hx
      · cases hx
    rcases hscope with rfl | rfl | rfl
    · exact ⟨_, .inl rfl, hread (h.login _) hentry, rfl⟩
    · exact ⟨_, .inr (.inl rfl), hread (h.account _) hentry, rfl⟩
    · exact ⟨_, .inr (.inr rfl), hread (h.ip _) hentry, rfl⟩
  obtain ⟨scope', hscope', hentry', hthreshold⟩ := hbefore
  exact ⟨hearly, scope', hscope', blockedUntil_eq_some_iff.mpr ⟨entry, hentry', by omega, by omega, by omega, rfl⟩⟩

end

/-! ## Retry after -/

/-- **The answer of a check can be relied on exactly if the first block outlasts the
others**, up to the second. -/
theorem retryAfter_honest_iff (lower : JsString → JsString) (stores : FailureStores) (ip username : JsString)
    (now : ℤ) :
    Honest lower stores ip username now ↔
      FirstOutlastsOthers now ((scopes lower stores ip username).filterMap (blockedUntil now)) := by
  unfold Honest
  rw [authRateLimitState_fst]
  cases hblocks : ((scopes lower stores ip username).filterMap (blockedUntil now)).head? with
  | none => simp [FirstOutlastsOthers, hblocks]
  | some first =>
    have hfirst := List.mem_of_head? hblocks
    obtain ⟨scope, hscope, hblock⟩ := List.mem_filterMap.mp hfirst
    obtain ⟨entry, -, -, -, hearly, hretry⟩ := blockedUntil_eq_some_iff.mp hblock
    have hpos : 0 < secondsUntil now first := by
      rw [← not_le, secondsUntil_le_iff]
      omega
    dsimp only
    constructor
    · intro hhonest first' hfirst' retryAt hretryAt
      rw [hblocks, Option.mem_def, Option.some.injEq] at hfirst'
      subst hfirst'
      by_contra hlater
      rw [secondsUntil_le_iff, not_le] at hlater
      -- nothing happens, and the later block is still there
      have hlet := hhonest rfl [] (now + 1000 * secondsUntil now first) le_rfl
      rw [not_limited_iff] at hlet
      obtain ⟨scope', hscope', hblock'⟩ := List.mem_filterMap.mp hretryAt
      obtain ⟨entry', hentry', hactive', hcount', -, hretry'⟩ := blockedUntil_eq_some_iff.mp hblock'
      have hkept : (active loginFailWindowMs scope'.1 now, scope'.2) ∈
          scopes lower (authRateLimitState lower stores ip username now).2 ip username := by
        simp only [scopes, List.mem_cons, List.not_mem_nil, or_false, authRateLimitState,
          get_activeFailureEntry, if_true] at hscope' ⊢
        rcases hscope' with rfl | rfl | rfl
        · exact .inl rfl
        · exact .inr (.inl rfl)
        · exact .inr (.inr rfl)
      have hnone := hlet _ hkept
      have hblocked : blockedUntil (now + 1000 * secondsUntil now first)
          (active loginFailWindowMs scope'.1 now, scope'.2) = some retryAt := by
        refine blockedUntil_eq_some_iff.mpr ⟨entry', ?_, ?_, hcount', by omega, hretry'⟩
        · rw [hentry', active, Option.filter_some_pos (by simpa using hactive')]
        · have hwindow : loginBlockMs < loginFailWindowMs := by decide
          omega
      rw [hblocked] at hnone
      cases hnone
    · intro houtlasts _ es t ht
      rw [not_limited_iff]
      intro scope' hscope'
      rw [Option.eq_none_iff_forall_ne_some]
      intro retryAt hlater
      obtain ⟨hlate, scope'', hscope'', hblock''⟩ := exists_blockedUntil_of_remains
        ((remains_check lower stores ip username now).trans (remains_run lower es _))
        (show now ≤ t by omega) hscope' hlater
      have hle := houtlasts first hblocks retryAt (List.mem_filterMap.mpr ⟨scope'', hscope'', hblock''⟩)
      rw [secondsUntil_le_iff] at hle
      omega

/-- The pair failed eight times until 0, and the address forty times until fourteen minutes later. -/
def overlapping : FailureStores where
  login := (∅ : FailureStore).set (js "203.0.113.10:admin") ⟨8, 0⟩
  ip := (∅ : FailureStore).set (js "203.0.113.10") ⟨40, 840000⟩

/-- **The address is blocked for longer than the pair**: a caller that waits the 60
seconds it was told to is refused again. -/
theorem retryAfter_too_early :
    (authRateLimitState id overlapping (js "203.0.113.10") (js "admin") 840001).1 = ⟨true, 60⟩ ∧
      (authRateLimitState id (authRateLimitState id overlapping (js "203.0.113.10") (js "admin") 840001).2
        (js "203.0.113.10") (js "admin") 900001).1.limited = true := by
  decide +kernel

end ForwardX.Panel.RetryAfter
