/-
The timer that prunes the counters of `server/authRateLimit.ts`.

A loop over a `Map` sees the keys that are set while it runs. `Lib/MapLoop` says when such a loop
ends; here it ends unless an entry is set again in every round, and then leaves the failures of
`Panel/AuthRateLimit`.
-/
import ForwardX.Lib.MapLoop
import ForwardX.Panel.AuthRateLimit

namespace ForwardX.Panel.RateLimitPrune

open Throttle Option List
open MapData
open RateLimit (FailureStore authRateLimitMaxKeys loginFailWindowMs)

section

variable {κ ν : Type} [DecidableEq κ]

/-! ## `server/boundedCache.ts`, for a map that a loop is walking over -/

def dropOldest (m : MapData κ ν) : MapData κ ν :=
  match m.oldestKey with
  | some oldestKey => m.delete oldestKey
  | none => m

def setBoundedMapValue (m : MapData κ ν) (key : κ) (value : ν) (maxSize : ℕ) : MapData κ ν :=
  let m := if m.has key then m.delete key else m
  (dropOldest^[m.size + 1 - max 1 maxSize] m).set key value

def pruneMapEntries (shouldDelete : ν → Bool) (fuel : ℕ) (map : JsMap κ ν) : Option (JsMap κ ν) :=
  ((MapData.ofMap map).loop (fun map key value => if shouldDelete value then map.delete key else map) fuel 0).map
    MapData.toMap

/-! ## `server/authRateLimit.ts` -/

def twoFactorChallengeIssueWindowMs : ℤ := 60 * 1000

/-- The body of the loop over a store of challenges. -/
def pruneTimestamps (cutoff : ℤ) (store : MapData κ (List ℤ)) (key : κ) (timestamps : List ℤ) :
    MapData κ (List ℤ) :=
  let active := timestamps.filter fun timestamp => cutoff < timestamp
  if active.length > 0 then setBoundedMapValue store key active authRateLimitMaxKeys else store.delete key

def pruneChallengeIssues (cutoff : ℤ) (fuel : ℕ) (store : JsMap κ (List ℤ)) : Option (JsMap κ (List ℤ)) :=
  ((MapData.ofMap store).loop (pruneTimestamps cutoff) fuel 0).map MapData.toMap

end

abbrev IssueStore : Type := JsMap JsString (List ℤ)

structure AuthRateLimitStores where
  loginFailStore : FailureStore := ∅
  loginAccountFailStore : FailureStore := ∅
  loginIpFailStore : FailureStore := ∅
  challengeIssueStore : IssueStore := ∅
  challengeIssueAccountStore : IssueStore := ∅
  challengeIssueIpStore : IssueStore := ∅

/-- `pruneAuthRateLimitState`, with at most `fuel` steps for each of its loops; `none` is a
call that has not returned by then. -/
def pruneAuthRateLimitState (fuel : ℕ) (stores : AuthRateLimitStores) (now : ℤ) :
    Option AuthRateLimitStores := do
  let failureExpired (entry : FailureEntry) : Bool := loginFailWindowMs ≤ now - entry.lastFailAt
  let loginFailStore ← pruneMapEntries failureExpired fuel stores.loginFailStore
  let loginAccountFailStore ← pruneMapEntries failureExpired fuel stores.loginAccountFailStore
  let loginIpFailStore ← pruneMapEntries failureExpired fuel stores.loginIpFailStore
  let cutoff := now - twoFactorChallengeIssueWindowMs
  let challengeIssueStore ← pruneChallengeIssues cutoff fuel stores.challengeIssueStore
  let challengeIssueAccountStore ← pruneChallengeIssues cutoff fuel stores.challengeIssueAccountStore
  let challengeIssueIpStore ← pruneChallengeIssues cutoff fuel stores.challengeIssueIpStore
  pure ⟨loginFailStore, loginAccountFailStore, loginIpFailStore, challengeIssueStore,
    challengeIssueAccountStore, challengeIssueIpStore⟩

/-! ## What should be left -/

/-- The timestamps of a key that are inside the window, if there are any. -/
def activeIssues (cutoff : ℤ) (timestamps : List ℤ) : Option (List ℤ) :=
  let active := timestamps.filter fun timestamp => cutoff < timestamp
  if active = [] then none else some active

/-- `after` holds the entries of `before` that are active at `now`, and no others. -/
structure Pruned (now : ℤ) (before after : AuthRateLimitStores) : Prop where
  login : ∀ key, after.loginFailStore.get key = active loginFailWindowMs (before.loginFailStore.get key) now
  account : ∀ key,
    after.loginAccountFailStore.get key = active loginFailWindowMs (before.loginAccountFailStore.get key) now
  ip : ∀ key, after.loginIpFailStore.get key = active loginFailWindowMs (before.loginIpFailStore.get key) now
  issue : ∀ key, after.challengeIssueStore.get key =
    (before.challengeIssueStore.get key).bind (activeIssues (now - twoFactorChallengeIssueWindowMs))
  issueAccount : ∀ key, after.challengeIssueAccountStore.get key =
    (before.challengeIssueAccountStore.get key).bind (activeIssues (now - twoFactorChallengeIssueWindowMs))
  issueIp : ∀ key, after.challengeIssueIpStore.get key =
    (before.challengeIssueIpStore.get key).bind (activeIssues (now - twoFactorChallengeIssueWindowMs))

def Expired (cutoff : ℤ) (store : IssueStore) : Prop :=
  ∀ key timestamps, store.get key = some timestamps → activeIssues cutoff timestamps = none

/-! ## Loops that end -/

section

variable {κ ν : Type} [DecidableEq κ]

theorem loop_ofMap {body : MapData κ ν → κ → ν → MapData κ ν} {p : κ → ν → Bool} (m : JsMap κ ν)
    (hbody : ∀ (m' : MapData κ ν) (e : κ × ν), e ∈ m.entries →
      body m' e.1 e.2 = if p e.1 e.2 then m'.delete e.1 else m') :
    ((ofMap m).loop body (m.entries.length + 1) 0).map toMap = some (m.filter fun k v => !p k v) := by
  have hslots : (ofMap m).slots = [] ++ m.entries.map some := rfl
  obtain ⟨r, hloop, hr⟩ := loop_delete (p := p) hslots fun m' e he => hbody m' e (by simpa using he)
  rw [length_map, length_nil] at hloop
  rw [hloop, map_some, Option.some.injEq]
  have hentries : r.toMap.entries = (m.filter fun k v => !p k v).entries := by
    change _ = m.entries.filter fun e => !p e.1 e.2
    rw [entries_toMap, hr, nil_append, List.map_map, filterMap_map,
      ← filterMap_eq_filter]
    rfl
  cases hmap : r.toMap
  rw [hmap] at hentries
  subst hentries
  rfl

theorem pruneMapEntries_eq {shouldDelete : ν → Bool} {fuel : ℕ} {map : JsMap κ ν}
    (hfuel : map.entries.length < fuel) :
    pruneMapEntries shouldDelete fuel map = some (RateLimit.pruneMapEntries map shouldDelete) := by
  have hloop : ((ofMap map).loop (fun map key value => if shouldDelete value then map.delete key else map)
      (map.entries.length + 1) 0).map toMap = some (RateLimit.pruneMapEntries map shouldDelete) :=
    loop_ofMap (p := fun _ value => shouldDelete value) map fun _ _ _ => rfl
  obtain ⟨r, hr, hmap⟩ := map_eq_some_iff.mp hloop
  rw [pruneMapEntries, loop_mono hfuel hr, map_some, hmap]

theorem pruneChallengeIssues_eq {cutoff : ℤ} {store : IssueStore} (h : Expired cutoff store) :
    ∃ after, (∀ fuel, store.entries.length < fuel → pruneChallengeIssues cutoff fuel store = some after) ∧
      ∀ key, after.get key = (store.get key).bind (activeIssues cutoff) := by
  have hbody : ∀ (m' : MapData JsString (List ℤ)) (e : JsString × List ℤ), e ∈ store.entries →
      pruneTimestamps cutoff m' e.1 e.2 = if true then m'.delete e.1 else m' := by
    intro m' e he
    have hexpired := h e.1 e.2 (JsMap.get_eq_some_iff.mpr he)
    unfold activeIssues at hexpired
    rw [ite_eq_left_iff] at hexpired
    have hnil : e.2.filter (fun timestamp => decide (cutoff < timestamp)) = [] := by
      by_contra hne
      cases hexpired hne
    rw [pruneTimestamps, hnil]
    rfl
  obtain ⟨r, hr, hmap⟩ := map_eq_some_iff.mp (loop_ofMap (p := fun _ _ => true) store hbody)
  refine ⟨store.filter fun _ _ => !true, fun fuel hfuel => ?_, fun key => ?_⟩
  · rw [pruneChallengeIssues, loop_mono hfuel hr, map_some, hmap]
  rw [JsMap.get_filter]
  cases hget : store.get key with
  | none => rfl
  | some timestamps =>
    rw [bind_some, h key timestamps hget]
    rfl

end

/-! ## The loop that does not end -/

section

variable {κ ν : Type} [DecidableEq κ]

theorem length_slots_dropOldest (m : MapData κ ν) : (dropOldest m).slots.length = m.slots.length := by
  unfold dropOldest
  split
  · exact length_map _
  · rfl

theorem has_of_has_dropOldest {m : MapData κ ν} {key : κ} (h : (dropOldest m).has key = true) :
    m.has key = true := by
  unfold dropOldest at h
  split at h
  · obtain ⟨value, hvalue⟩ := has_iff.mp h
    exact has_iff.mpr ⟨value, (mem_slots_delete.mp hvalue).1⟩
  · exact h

theorem slots_setBoundedMapValue (m : MapData κ ν) (key : κ) (value : ν) (maxSize : ℕ) :
    ∃ before, before.length = m.slots.length ∧
      (setBoundedMapValue m key value maxSize).slots = before ++ [some (key, value)] := by
  have hdeleted : ∃ m' : MapData κ ν, (if m.has key then m.delete key else m) = m' ∧
      m'.has key = false ∧ m'.slots.length = m.slots.length := by
    by_cases hkey : m.has key = true
    · refine ⟨_, if_pos hkey, ?_, length_map _⟩
      rw [Bool.eq_false_iff]
      intro hhas
      obtain ⟨value', hvalue'⟩ := has_iff.mp hhas
      exact (mem_slots_delete.mp hvalue').2 rfl
    · exact ⟨m, if_neg hkey, by simpa using hkey, rfl⟩
  obtain ⟨m', hm', habsent, hlength⟩ := hdeleted
  have hdropped : ∀ n, (dropOldest^[n] m').has key = false ∧ (dropOldest^[n] m').slots.length = m.slots.length := by
    intro n
    induction n with
    | zero => exact ⟨habsent, hlength⟩
    | succ n ih =>
      rw [Function.iterate_succ_apply', length_slots_dropOldest]
      refine ⟨?_, ih.2⟩
      rw [Bool.eq_false_iff]
      intro hhas
      rw [has_of_has_dropOldest hhas] at ih
      cases ih.1
  obtain ⟨hkey, hsame⟩ := hdropped (m'.size + 1 - max 1 maxSize)
  refine ⟨_, hsame, ?_⟩
  rw [setBoundedMapValue, hm', slots_set_of_absent hkey]

/-- An active key is at the slot that the loop comes to next, or behind it. -/
def ActiveAhead (cutoff : ℤ) (m : MapData κ (List ℤ)) (i : ℕ) : Prop :=
  ∃ j, i ≤ j ∧ ∃ key timestamps, m.slots[j]? = some (some (key, timestamps)) ∧
    activeIssues cutoff timestamps ≠ none

theorem activeAhead_step (cutoff : ℤ) (m : MapData κ (List ℤ)) (i : ℕ) (h : ActiveAhead cutoff m i) :
    ∃ slot, m.slots[i]? = some slot ∧ (slot = none → ActiveAhead cutoff m (i + 1)) ∧
      ∀ e, slot = some e → ActiveAhead cutoff (pruneTimestamps cutoff m e.1 e.2) (i + 1) := by
  obtain ⟨j, hij, key, timestamps, hslot, hactive⟩ := h
  obtain ⟨hj, -⟩ := List.getElem?_eq_some_iff.mp hslot
  have hi : i < m.slots.length := hij.trans_lt hj
  refine ⟨m.slots[i], getElem?_eq_getElem hi, fun hnone => ?_, fun e he => ?_⟩
  · have hne : i ≠ j := by
      rintro rfl
      rw [getElem?_eq_getElem hi, hnone] at hslot
      cases hslot
    exact ⟨j, by omega, key, timestamps, hslot, hactive⟩
  · unfold pruneTimestamps
    dsimp only
    by_cases hlength : (e.2.filter fun timestamp => decide (cutoff < timestamp)).length > 0
    · -- the key that the loop looks at is put behind all others
      rw [if_pos hlength]
      obtain ⟨before, hbefore, hslots⟩ := slots_setBoundedMapValue m e.1
        (e.2.filter fun timestamp => decide (cutoff < timestamp)) RateLimit.authRateLimitMaxKeys
      refine ⟨before.length, by omega, e.1, _, by rw [hslots, getElem?_concat_length], ?_⟩
      rw [activeIssues, List.filter_filter]
      simp only [Bool.and_self]
      rw [if_neg (length_pos_iff.mp hlength)]
      exact some_ne_none _
    · rw [if_neg hlength]
      have hne : i ≠ j := by
        rintro rfl
        rw [getElem?_eq_getElem hi, he, Option.some.injEq, Option.some.injEq] at hslot
        apply hactive
        rw [activeIssues, if_pos]
        rw [hslot] at hlength
        exact length_eq_zero_iff.mp (Nat.eq_zero_of_not_pos hlength)
      have hkey : key ≠ e.1 := by
        have hdistinct := pairwise_iff_getElem.mp m.distinct i j hi hj (by omega)
        have hslot' := (List.getElem?_eq_some_iff.mp hslot).2
        exact (hdistinct e he (key, timestamps) hslot').symm
      refine ⟨j, by omega, key, timestamps, ?_, hactive⟩
      rw [slots_delete, getElem?_map, hslot, map_some,
        filter_some_pos (by simpa using hkey)]

theorem pruneChallengeIssues_eq_none {cutoff : ℤ} {store : IssueStore} (h : ¬ Expired cutoff store) (fuel : ℕ) :
    pruneChallengeIssues cutoff fuel store = none := by
  unfold Expired at h
  push Not at h
  obtain ⟨key, timestamps, hget, hactive⟩ := h
  obtain ⟨j, hj, hentry⟩ := mem_iff_getElem.mp (JsMap.get_eq_some_iff.mp hget)
  have hahead : ActiveAhead cutoff (ofMap store) 0 := by
    refine ⟨j, Nat.zero_le j, key, timestamps, ?_, hactive⟩
    rw [ofMap, getElem?_map, getElem?_eq_getElem hj, hentry]
    rfl
  rw [pruneChallengeIssues, loop_eq_none (activeAhead_step cutoff) fuel hahead]
  rfl

end

/-! ## `pruneAuthRateLimitState` -/

structure NoneIssued (now : ℤ) (stores : AuthRateLimitStores) : Prop where
  pair : Expired (now - twoFactorChallengeIssueWindowMs) stores.challengeIssueStore
  account : Expired (now - twoFactorChallengeIssueWindowMs) stores.challengeIssueAccountStore
  ip : Expired (now - twoFactorChallengeIssueWindowMs) stores.challengeIssueIpStore

theorem prune_eq_none {stores : AuthRateLimitStores} {now : ℤ} (h : ¬ NoneIssued now stores) (fuel : ℕ) :
    pruneAuthRateLimitState fuel stores now = none := by
  rw [eq_none_iff_forall_ne_some]
  intro after hafter
  unfold pruneAuthRateLimitState at hafter
  simp only [bind_eq_bind, bind_eq_some_iff] at hafter
  obtain ⟨_, _, _, _, _, _, pair, hpair, account, haccount, ip, hip, _⟩ := hafter
  -- each of the three loops has come to its end, so none of them met an active key
  have hexpired : ∀ {store after : IssueStore},
      pruneChallengeIssues (now - twoFactorChallengeIssueWindowMs) fuel store = some after →
      Expired (now - twoFactorChallengeIssueWindowMs) store := by
    intro store after heq
    by_contra hnot
    rw [pruneChallengeIssues_eq_none hnot] at heq
    cases heq
  exact h ⟨hexpired hpair, hexpired haccount, hexpired hip⟩

/-- **The timer comes back exactly if no challenge was issued in the last minute**. -/
theorem prune_ends_iff (stores : AuthRateLimitStores) (now : ℤ) :
    (∃ fuel after, pruneAuthRateLimitState fuel stores now = some after ∧ Pruned now stores after) ↔
      NoneIssued now stores := by
  constructor
  · rintro ⟨fuel, after, hafter, -⟩
    by_contra hnot
    rw [prune_eq_none hnot] at hafter
    cases hafter
  · rintro ⟨hpair, haccount, hip⟩
    -- enough steps for the longest of the loops
    obtain ⟨fuel, hfuel⟩ : ∃ fuel, fuel = 1 + stores.loginFailStore.entries.length
        + stores.loginAccountFailStore.entries.length + stores.loginIpFailStore.entries.length
        + stores.challengeIssueStore.entries.length + stores.challengeIssueAccountStore.entries.length
        + stores.challengeIssueIpStore.entries.length := ⟨_, rfl⟩
    obtain ⟨pair, hpairLoop, hpairGet⟩ := pruneChallengeIssues_eq hpair
    obtain ⟨account, haccountLoop, haccountGet⟩ := pruneChallengeIssues_eq haccount
    obtain ⟨ip, hipLoop, hipGet⟩ := pruneChallengeIssues_eq hip
    let failures := RateLimit.pruneAuthRateLimitState
      ⟨stores.loginFailStore, stores.loginAccountFailStore, stores.loginIpFailStore⟩ now
    refine ⟨fuel, ⟨failures.login, failures.account, failures.ip, pair, account, ip⟩, ?_, ?_, ?_, ?_,
      hpairGet, haccountGet, hipGet⟩
    · unfold pruneAuthRateLimitState
      dsimp only
      rw [pruneMapEntries_eq (by omega), pruneMapEntries_eq (by omega), pruneMapEntries_eq (by omega),
        hpairLoop fuel (by omega), haccountLoop fuel (by omega), hipLoop fuel (by omega)]
      rfl
    · exact RateLimit.get_pruneMapEntries stores.loginFailStore now
    · exact RateLimit.get_pruneMapEntries stores.loginAccountFailStore now
    · exact RateLimit.get_pruneMapEntries stores.loginIpFailStore now

def oneIssued : AuthRateLimitStores where
  challengeIssueStore := (∅ : IssueStore).set (js "203.0.113.10:admin") [1000]

/-- **One challenge in the last minute keeps the timer from ever returning.** -/
theorem prune_hangs_after_challenge :
    (pruneAuthRateLimitState 1 {} 1001).isSome = true ∧
      ∀ fuel, pruneAuthRateLimitState fuel oneIssued 1001 = none := by
  refine ⟨by decide, prune_eq_none fun h => ?_⟩
  have hexpired := h.pair (js "203.0.113.10:admin") [1000] (by rw [oneIssued, JsMap.get_set, if_pos rfl])
  exact absurd hexpired (by decide)

end ForwardX.Panel.RateLimitPrune
