/-
The limits on failed logins: `server/authRateLimit.ts`.

Each attempt is counted for an account, an address and the pair of them, in maps that drop their
oldest key when they are full. The bound counts the failures of a window against the entries of the
maps.
-/
import ForwardX.Lib.JsMap
import ForwardX.Lib.Run
import ForwardX.Lib.Throttle
import ForwardX.Panel.JsValues
import Mathlib.Data.List.Dedup
import Mathlib.Data.List.Perm.Subperm
import Mathlib.Data.Rat.Floor

namespace ForwardX.Panel.RateLimit

open Run Throttle List

/-! ## Bounded maps -/

def dropOldest {κ ν : Type} (m : JsMap κ ν) (n : ℕ) : JsMap κ ν where
  entries := m.entries.drop n
  nodup := m.nodup.sublist ((List.drop_sublist n m.entries).map Prod.fst)

/-- The key goes to the end of the map, and the oldest keys go until there is room. -/
def setBoundedMapValue {κ ν : Type} [DecidableEq κ] (m : JsMap κ ν) (k : κ) (v : ν) (maxSize : ℕ) : JsMap κ ν :=
  let m := m.delete k
  (dropOldest m (m.size + 1 - max 1 maxSize)).set k v

def pruneMapEntries {κ ν : Type} (m : JsMap κ ν) (shouldDelete : ν → Bool) : JsMap κ ν :=
  m.filter fun _ v => !shouldDelete v

/-! ## Limits -/

def loginFailWindowMs : ℤ := 30 * 60 * 1000

def loginBlockMs : ℤ := 15 * 60 * 1000

def loginBlockThresholdPerAccount : ℕ := 8

def loginBlockThresholdPerIp : ℕ := 40

def authRateLimitMaxKeys : ℕ := 50000

/-! ## Keys -/

section

variable (lower : JsString → JsString)

def normalizeIp (ip : JsString) : JsString :=
  let text := lower (trim (if ip = [] then js "unknown" else ip))
  if text = [] then js "unknown" else text

def normalizeUsername (username : JsString) : JsString := lower (trim username)

def getAuthAttemptKey (ip username : JsString) : JsString :=
  normalizeIp lower ip ++ js ":" ++ normalizeUsername lower username

end

/-! ## Counters -/

abbrev FailureStore := JsMap JsString FailureEntry

def activeFailureEntry (store : FailureStore) (key : JsString) (now : ℤ) : Option FailureEntry × FailureStore :=
  match store.get key with
  | none => (none, store)
  | some entry =>
    if now - entry.lastFailAt < loginFailWindowMs then (some entry, store) else (none, store.delete key)

def recordFailure (store : FailureStore) (key : JsString) (now : ℤ) : FailureStore :=
  match activeFailureEntry store key now with
  | (some entry, store) => setBoundedMapValue store key ⟨entry.count + 1, now⟩ authRateLimitMaxKeys
  | (none, store) => setBoundedMapValue store key ⟨1, now⟩ authRateLimitMaxKeys

structure FailureStores where
  login : FailureStore := ∅
  account : FailureStore := ∅
  ip : FailureStore := ∅

structure AuthRateLimitState where
  limited : Bool
  retryAfterSeconds : ℤ
  deriving DecidableEq

def blockedFor (entry : Option FailureEntry) (threshold : ℕ) (now : ℤ) : Option ℤ :=
  match entry with
  | none => none
  | some entry =>
    if entry.count < threshold then none
    else if now < entry.lastFailAt + loginBlockMs then
      some (max 1 ⌈((entry.lastFailAt + loginBlockMs - now : ℤ) : ℚ) / 1000⌉)
    else none

section

variable (lower : JsString → JsString)

def recordAuthFailure (stores : FailureStores) (ip username : JsString) (now : ℤ) : FailureStores where
  login := recordFailure stores.login (getAuthAttemptKey lower ip username) now
  account := recordFailure stores.account (normalizeUsername lower username) now
  ip := recordFailure stores.ip (normalizeIp lower ip) now

def recordPasswordFailure (stores : FailureStores) (ip username : JsString) (now : ℤ) : FailureStores where
  login := recordFailure stores.login (getAuthAttemptKey lower ip username) now
  account := stores.account
  ip := recordFailure stores.ip (normalizeIp lower ip) now

/-- The first check that blocks decides; all three have looked at their entries by then. -/
def authRateLimitState (stores : FailureStores) (ip username : JsString) (now : ℤ) :
    AuthRateLimitState × FailureStores :=
  let (login, loginStore) := activeFailureEntry stores.login (getAuthAttemptKey lower ip username) now
  let (account, accountStore) := activeFailureEntry stores.account (normalizeUsername lower username) now
  let (ip, ipStore) := activeFailureEntry stores.ip (normalizeIp lower ip) now
  let retryAfter := (blockedFor login loginBlockThresholdPerAccount now).or
    ((blockedFor account loginBlockThresholdPerAccount now).or (blockedFor ip loginBlockThresholdPerIp now))
  (match retryAfter with
    | some seconds => ⟨true, seconds⟩
    | none => ⟨false, 0⟩,
    ⟨loginStore, accountStore, ipStore⟩)

end

def pruneAuthRateLimitState (stores : FailureStores) (now : ℤ) : FailureStores :=
  let failureExpired (entry : FailureEntry) : Bool := loginFailWindowMs ≤ now - entry.lastFailAt
  ⟨pruneMapEntries stores.login failureExpired, pruneMapEntries stores.account failureExpired,
    pruneMapEntries stores.ip failureExpired⟩

/-! ## Attempts -/

inductive FailureKind where
  | password
  | twoFactor
  deriving DecidableEq

structure Failure where
  ip : JsString
  username : JsString
  kind : FailureKind
  time : ℤ

/-- The counters, and beside them every failure that was recorded. -/
structure LoginWorld where
  now : ℤ
  stores : FailureStores := {}
  failures : List Failure := []

/-- An attempt that fails records how, unless it is refused; one that succeeds records
nothing. -/
inductive LoginEvent where
  | elapse (ms : ℕ)
  | attempt (ip username : JsString) (failure : Option FailureKind)
  | prune

def recordOf (lower : JsString → JsString) : FailureKind → FailureStores → JsString → JsString → ℤ →
    FailureStores
  | .password => recordPasswordFailure lower
  | .twoFactor => recordAuthFailure lower

def stepLogin (lower : JsString → JsString) (w : LoginWorld) : LoginEvent → LoginWorld
  | .elapse ms => { w with now := w.now + ms }
  | .prune => { w with stores := pruneAuthRateLimitState w.stores w.now }
  | .attempt ip username failure =>
    let (state, stores) := authRateLimitState lower w.stores ip username w.now
    if state.limited then { w with stores }
    else
      match failure with
      | none => { w with stores }
      | some kind => { w with
          stores := recordOf lower kind stores ip username w.now
          failures := w.failures ++ [⟨ip, username, kind, w.now⟩] }

/-! ## What the counters know -/

section

variable {κ ν : Type} [DecidableEq κ]

theorem get_setBoundedMapValue {m : JsMap κ ν} {k : κ} {v : ν} {maxSize : ℕ}
    (hroom : (m.delete k).size < maxSize) (k' : κ) :
    (setBoundedMapValue m k v maxSize).get k' = if k' = k then some v else m.get k' := by
  have hnone : (m.delete k).size + 1 - max 1 maxSize = 0 := by omega
  have hdrop : dropOldest (m.delete k) 0 = m.delete k := rfl
  rw [setBoundedMapValue, hnone, hdrop, JsMap.get_set, JsMap.get_delete]
  split <;> rfl

theorem size_le_of_keys {m : JsMap κ ν} {keys : List κ} (h : ∀ k, m.get k ≠ none → k ∈ keys) :
    m.size ≤ keys.length := by
  have hsub : m.entries.map Prod.fst ⊆ keys := by
    intro k hk
    obtain ⟨⟨k', v⟩, hmem, rfl⟩ := mem_map.mp hk
    apply h
    rw [JsMap.get_eq_some_iff.mpr hmem]
    nofun
  rw [JsMap.size, ← length_map Prod.fst]
  exact (subperm_of_subset m.nodup hsub).length_le

end

theorem activeFailureEntry_fst (store : FailureStore) (key : JsString) (now : ℤ) :
    (activeFailureEntry store key now).1 = active loginFailWindowMs (store.get key) now := by
  unfold activeFailureEntry active
  split
  · rename_i hnone
    rw [hnone]
    rfl
  · rename_i entry hsome
    rw [hsome, Option.filter_some]
    simp only [decide_eq_true_eq]
    split <;> rfl

theorem get_activeFailureEntry (store : FailureStore) (key now) (key' : JsString) :
    (activeFailureEntry store key now).2.get key' =
      if key' = key then active loginFailWindowMs (store.get key) now else store.get key' := by
  rw [← activeFailureEntry_fst]
  unfold activeFailureEntry
  split
  · rename_i hnone
    split
    · rename_i hkey
      rw [hkey, hnone]
    · rfl
  · rename_i entry hsome
    split
    · split
      · rename_i hkey
        rw [hkey, hsome]
      · rfl
    · rw [JsMap.get_delete]

theorem get_pruneMapEntries (store : FailureStore) (now : ℤ) (key : JsString) :
    (pruneMapEntries store fun entry => loginFailWindowMs ≤ now - entry.lastFailAt).get key =
      active loginFailWindowMs (store.get key) now := by
  rw [pruneMapEntries, JsMap.get_filter, active]
  congr 1
  funext entry
  rw [← decide_not]
  exact decide_eq_decide.mpr not_le

/-- The store of a scope: the times of the failures that each of its keys has, and the keys
that it can have. -/
structure Tracks (threshold : ℕ) (keys : List JsString) (store : FailureStore)
    (times : JsString → List ℤ) (now : ℤ) : Prop where
  paced : ∀ key, Paced loginFailWindowMs loginBlockMs threshold (times key) (store.get key) now
  known : ∀ key, store.get key ≠ none → key ∈ keys

section

variable {threshold : ℕ} {keys : List JsString} {store : FailureStore} {times : JsString → List ℤ} {now : ℤ}

theorem tracks_empty (threshold : ℕ) (keys : List JsString) (now : ℤ) :
    Tracks threshold keys ∅ (fun _ => []) now where
  paced _ := paced_nil _ _ _ _
  known key h := absurd (JsMap.get_empty key) h

section

variable (h : Tracks threshold keys store times now)

include h

theorem Tracks.later {now' : ℤ} (hnow : now ≤ now') : Tracks threshold keys store times now' :=
  ⟨fun key => (h.paced key).later hnow, h.known⟩

theorem Tracks.of_active {store' : FailureStore}
    (hget : ∀ key, store'.get key = store.get key ∨
      store'.get key = active loginFailWindowMs (store.get key) now) :
    Tracks threshold keys store' times now where
  paced key := by
    rcases hget key with hsame | hactive
    · rw [hsame]
      exact h.paced key
    · rw [hactive]
      exact (h.paced key).active
  known key hkey := by
    apply h.known
    intro hnone
    rcases hget key with hsame | hactive
    · exact hkey (hsame.trans hnone)
    · rw [hnone] at hactive
      exact hkey hactive

theorem Tracks.activeFailureEntry (key : JsString) :
    Tracks threshold keys (activeFailureEntry store key now).2 times now := by
  refine h.of_active fun key' => ?_
  rw [get_activeFailureEntry]
  split
  · rename_i hkey
    rw [hkey]
    exact .inr rfl
  · exact .inl rfl

theorem Tracks.prune :
    Tracks threshold keys
      (pruneMapEntries store fun entry => loginFailWindowMs ≤ now - entry.lastFailAt) times now := by
  exact h.of_active fun key => .inr (get_pruneMapEntries store now key)

theorem Tracks.record (hroom : keys.length < authRateLimitMaxKeys)
    (hthreshold : 1 ≤ threshold) {key : JsString} (hkey : key ∈ keys)
    (hgo : ¬ Blocks loginFailWindowMs loginBlockMs threshold (store.get key) now) :
    Tracks threshold keys (recordFailure store key now)
      (fun key' => if key' = key then times key' ++ [now] else times key') now := by
  have hactive := h.activeFailureEntry key
  have hget : ∀ key', (recordFailure store key now).get key' =
      if key' = key then some (recorded loginFailWindowMs (store.get key) now)
      else (RateLimit.activeFailureEntry store key now).2.get key' := by
    intro key'
    have hsize : ((RateLimit.activeFailureEntry store key now).2.delete key).size < authRateLimitMaxKeys := by
      refine lt_of_le_of_lt (size_le_of_keys fun k hk => hactive.known k ?_) hroom
      intro hnone
      rw [JsMap.get_delete, hnone] at hk
      exact hk (ite_self _)
    have hfst := activeFailureEntry_fst store key now
    unfold recordFailure
    split
    · rename_i entry store' heq
      rw [heq] at hfst hsize ⊢
      rw [get_setBoundedMapValue hsize, recorded, ← hfst]
    · rename_i store' heq
      rw [heq] at hfst hsize ⊢
      rw [get_setBoundedMapValue hsize, recorded, ← hfst]
  refine ⟨fun key' => ?_, fun key' hkey' => ?_⟩
  · rw [hget]
    split
    · rename_i hsame
      subst hsame
      exact (h.paced key').record (by decide) hthreshold hgo
    · exact hactive.paced key'
  · rw [hget] at hkey'
    split at hkey'
    · rename_i hsame
      exact hsame ▸ hkey
    · exact hactive.known key' hkey'

end

end

/-! ## What an attempt may do -/

section

variable {lower : JsString → JsString} {stores : FailureStores} {ip username : JsString} {now : ℤ}

theorem blocks_of_blockedFor {entry : Option FailureEntry} {threshold : ℕ}
    (h : blockedFor (active loginFailWindowMs entry now) threshold now = none) :
    ¬ Blocks loginFailWindowMs loginBlockMs threshold entry now := by
  rintro ⟨a, ha, hcount, hearly⟩
  rw [Option.mem_def] at ha
  rw [ha, blockedFor, if_neg (not_lt.mpr hcount), if_pos hearly] at h
  cases h

theorem not_blocks_of_not_limited (h : (authRateLimitState lower stores ip username now).1.limited = false) :
    ¬ Blocks loginFailWindowMs loginBlockMs loginBlockThresholdPerAccount
        ((authRateLimitState lower stores ip username now).2.login.get
          (getAuthAttemptKey lower ip username)) now ∧
      ¬ Blocks loginFailWindowMs loginBlockMs loginBlockThresholdPerAccount
        ((authRateLimitState lower stores ip username now).2.account.get
          (normalizeUsername lower username)) now ∧
      ¬ Blocks loginFailWindowMs loginBlockMs loginBlockThresholdPerIp
        ((authRateLimitState lower stores ip username now).2.ip.get (normalizeIp lower ip)) now := by
  simp only [authRateLimitState] at h
  split at h
  · cases h
  · rename_i hnone
    rw [Option.or_eq_none_iff, Option.or_eq_none_iff] at hnone
    simp only [activeFailureEntry_fst] at hnone
    simp only [authRateLimitState, get_activeFailureEntry, if_true, Blocks, active_active]
    exact ⟨blocks_of_blockedFor hnone.1, blocks_of_blockedFor hnone.2.1, blocks_of_blockedFor hnone.2.2⟩

end

/-! ## Runs -/

section

variable (lower : JsString → JsString)

def timesOf (counts : Failure → Prop) [DecidablePred counts] (failures : List Failure) : List ℤ :=
  (failures.filter fun f => counts f).map Failure.time

/-- The failures of a pair of address and account, as the key of the pair makes them out. -/
def ofPair (key : JsString) (f : Failure) : Prop := getAuthAttemptKey lower f.ip f.username = key

def ofAccount (key : JsString) (f : Failure) : Prop :=
  normalizeUsername lower f.username = key ∧ f.kind = .twoFactor

def ofIp (key : JsString) (f : Failure) : Prop := normalizeIp lower f.ip = key

instance (key : JsString) : DecidablePred (ofPair lower key) :=
  fun f => inferInstanceAs (Decidable (getAuthAttemptKey lower f.ip f.username = key))

instance (key : JsString) : DecidablePred (ofAccount lower key) :=
  fun f => inferInstanceAs (Decidable (normalizeUsername lower f.username = key ∧ f.kind = .twoFactor))

instance (key : JsString) : DecidablePred (ofIp lower key) :=
  fun f => inferInstanceAs (Decidable (normalizeIp lower f.ip = key))

/-- How many of the failures are in the span of a block from `t`. -/
def failuresInSpan (counts : Failure → Prop) [DecidablePred counts] (t : ℤ) (failures : List Failure) : ℕ :=
  failures.countP fun f => counts f ∧ t ≤ f.time ∧ f.time < t + loginBlockMs

theorem failuresInSpan_eq (counts : Failure → Prop) [DecidablePred counts] (t : ℤ) (failures : List Failure) :
    failuresInSpan counts t failures = inSpan loginBlockMs t (timesOf counts failures) := by
  rw [failuresInSpan, inSpan, timesOf, countP_map, countP_filter]
  congr 1
  funext f
  simp [Bool.and_comm]

/-- **No span of a block has too many failures**, of a pair, of an account, of an address. -/
structure Bounded (failures : List Failure) : Prop where
  pair : ∀ ip username t, failuresInSpan (ofPair lower (getAuthAttemptKey lower ip username)) t failures
    ≤ loginBlockThresholdPerAccount
  account : ∀ username t, failuresInSpan (ofAccount lower (normalizeUsername lower username)) t failures
    ≤ loginBlockThresholdPerAccount
  ip : ∀ ip t, failuresInSpan (ofIp lower (normalizeIp lower ip)) t failures ≤ loginBlockThresholdPerIp

def LoginEvent.attempted : LoginEvent → Option (JsString × JsString)
  | .attempt ip username _ => some (ip, username)
  | _ => none

/-- The keys that a run can bring to the three maps. -/
structure ScopeKeys where
  pairs : List JsString
  accounts : List JsString
  ips : List JsString

def scopeKeys (es : List LoginEvent) : ScopeKeys where
  pairs := ((es.filterMap LoginEvent.attempted).map fun a => getAuthAttemptKey lower a.1 a.2).dedup
  accounts := ((es.filterMap LoginEvent.attempted).map fun a => normalizeUsername lower a.2).dedup
  ips := ((es.filterMap LoginEvent.attempted).map fun a => normalizeIp lower a.1).dedup

def ScopeKeys.Fit (keys : ScopeKeys) : Prop :=
  keys.pairs.length < authRateLimitMaxKeys ∧ keys.accounts.length < authRateLimitMaxKeys ∧
    keys.ips.length < authRateLimitMaxKeys

/-- The keys of an attempt are among the run's. -/
def ScopeKeys.Has (keys : ScopeKeys) (e : LoginEvent) : Prop :=
  ∀ a ∈ e.attempted, getAuthAttemptKey lower a.1 a.2 ∈ keys.pairs ∧
    normalizeUsername lower a.2 ∈ keys.accounts ∧ normalizeIp lower a.1 ∈ keys.ips

theorem has_scopeKeys {es : List LoginEvent} {e : LoginEvent} (he : e ∈ es) : (scopeKeys lower es).Has lower e := by
  intro a ha
  have hmem : a ∈ es.filterMap LoginEvent.attempted := mem_filterMap.mpr ⟨e, he, ha⟩
  exact ⟨mem_dedup.mpr (mem_map_of_mem hmem), mem_dedup.mpr (mem_map_of_mem hmem),
    mem_dedup.mpr (mem_map_of_mem hmem)⟩

structure LoginKept (keys : ScopeKeys) (w : LoginWorld) : Prop where
  login : Tracks loginBlockThresholdPerAccount keys.pairs w.stores.login
    (fun key => timesOf (ofPair lower key) w.failures) w.now
  account : Tracks loginBlockThresholdPerAccount keys.accounts w.stores.account
    (fun key => timesOf (ofAccount lower key) w.failures) w.now
  ip : Tracks loginBlockThresholdPerIp keys.ips w.stores.ip
    (fun key => timesOf (ofIp lower key) w.failures) w.now

variable {lower} {keys : ScopeKeys} {w : LoginWorld}

theorem LoginKept.bounded (h : LoginKept lower keys w) : Bounded lower w.failures where
  pair ip username t := by
    rw [failuresInSpan_eq]
    exact (h.login.paced _).spans t
  account username t := by
    rw [failuresInSpan_eq]
    exact (h.account.paced _).spans t
  ip ip t := by
    rw [failuresInSpan_eq]
    exact (h.ip.paced _).spans t

theorem timesOf_append (counts : Failure → Prop) [DecidablePred counts] (failures : List Failure) (f : Failure) :
    timesOf counts (failures ++ [f]) =
      if counts f then timesOf counts failures ++ [f.time] else timesOf counts failures := by
  rw [timesOf, filter_append, map_append]
  by_cases hf : counts f
  · rw [if_pos hf, filter_cons_of_pos (by simpa using hf)]
    rfl
  · rw [if_neg hf, filter_cons_of_neg (by simpa using hf)]
    exact append_nil _

theorem LoginKept.check (h : LoginKept lower keys w) (ip username : JsString) :
    LoginKept lower keys { w with stores := (authRateLimitState lower w.stores ip username w.now).2 } :=
  ⟨h.login.activeFailureEntry _, h.account.activeFailureEntry _, h.ip.activeFailureEntry _⟩

theorem Tracks.recordOrNot {threshold : ℕ} {scope : List JsString} {store : FailureStore}
    {counts : JsString → Failure → Prop} [∀ key, DecidablePred (counts key)] {failures : List Failure}
    {now : ℤ} (h : Tracks threshold scope store (fun key => timesOf (counts key) failures) now)
    (hroom : scope.length < authRateLimitMaxKeys) (hthreshold : 1 ≤ threshold) {key : JsString}
    (hkey : key ∈ scope)
    (hgo : ¬ Blocks loginFailWindowMs loginBlockMs threshold (store.get key) now) (f : Failure)
    (htime : f.time = now) (hcounts : ∀ key', counts key' f ↔ key' = key) :
    Tracks threshold scope (recordFailure store key now)
      (fun key' => timesOf (counts key') (failures ++ [f])) now := by
  have hrecord := h.record hroom hthreshold hkey hgo
  have htimes : (fun key' => timesOf (counts key') (failures ++ [f])) =
      fun key' => if key' = key then timesOf (counts key') failures ++ [now]
        else timesOf (counts key') failures := by
    funext key'
    rw [timesOf_append, htime]
    simp only [hcounts]
  rw [htimes]
  exact hrecord

theorem LoginKept.record (h : LoginKept lower keys w) (hfit : keys.Fit) {ip username : JsString}
    {kind : FailureKind} (hhas : keys.Has lower (.attempt ip username (some kind)))
    (hlimited : (authRateLimitState lower w.stores ip username w.now).1.limited = false) :
    LoginKept lower keys { w with
      stores := recordOf lower kind (authRateLimitState lower w.stores ip username w.now).2 ip username w.now
      failures := w.failures ++ [⟨ip, username, kind, w.now⟩] } := by
  obtain ⟨hlogin, haccount, hip⟩ := not_blocks_of_not_limited hlimited
  obtain ⟨hpairKey, haccountKey, hipKey⟩ := hhas (ip, username) rfl
  have hcheck := h.check ip username
  have hlogin' := hcheck.login.recordOrNot hfit.1 (by decide) hpairKey hlogin ⟨ip, username, kind, w.now⟩ rfl
    fun key => eq_comm
  have hip' := hcheck.ip.recordOrNot hfit.2.2 (by decide) hipKey hip ⟨ip, username, kind, w.now⟩ rfl
    fun key => eq_comm
  cases kind with
  | password =>
    refine ⟨hlogin', ?_, hip'⟩
    -- a password failure is not counted under its account
    have htimes : (fun key => timesOf (ofAccount lower key)
        (w.failures ++ [⟨ip, username, .password, w.now⟩])) =
        fun key => timesOf (ofAccount lower key) w.failures := by
      funext key
      rw [timesOf_append, if_neg]
      rintro ⟨-, hkind⟩
      cases hkind
    rw [htimes]
    exact hcheck.account
  | twoFactor =>
    refine ⟨hlogin', ?_, hip'⟩
    exact hcheck.account.recordOrNot hfit.2.1 (by decide) haccountKey haccount
      ⟨ip, username, .twoFactor, w.now⟩ rfl fun key => ⟨fun h => h.1.symm, fun h => ⟨h.symm, rfl⟩⟩

theorem LoginKept.step (h : LoginKept lower keys w) (hfit : keys.Fit) (e : LoginEvent)
    (hhas : keys.Has lower e) : LoginKept lower keys (stepLogin lower w e) := by
  cases e with
  | elapse ms =>
    have hlater : w.now ≤ w.now + ms := by omega
    exact ⟨h.login.later hlater, h.account.later hlater, h.ip.later hlater⟩
  | prune => exact ⟨h.login.prune, h.account.prune, h.ip.prune⟩
  | attempt ip username failure =>
    simp only [stepLogin]
    split
    · exact h.check ip username
    · rename_i hlimited
      cases failure with
      | none => exact h.check ip username
      | some kind => exact h.record hfit hhas (by simpa using hlimited)

/-- **Logins are bounded**: in every run of attempts with fewer keys than the maps have room
for. -/
theorem failures_bounded (lower : JsString → JsString) (start : ℤ) (es : List LoginEvent)
    (hfit : (scopeKeys lower es).Fit) :
    Bounded lower (run (stepLogin lower) { now := start } es).failures := by
  have hstart : LoginKept lower (scopeKeys lower es) { now := start } :=
    ⟨tracks_empty _ _ _, tracks_empty _ _ _, tracks_empty _ _ _⟩
  exact (run_invariant_of_forall (I := LoginKept lower (scopeKeys lower es))
    (fun _ e hhas h => h.step hfit e hhas) es (fun _ he => has_scopeKeys lower he) _ hstart).bounded

/-- Nine wrong passwords in a row: eight are recorded. -/
theorem failures_bounded_nine : Bounded id (run (stepLogin id) { now := 0 }
      (List.replicate 9 (.attempt (js "203.0.113.10") (js "admin") (some .password)))).failures ∧
    (run (stepLogin id) { now := 0 }
      (List.replicate 9 (.attempt (js "203.0.113.10") (js "admin") (some .password)))).failures.length = 8 :=
  ⟨failures_bounded id 0 _ ⟨by decide +kernel, by decide +kernel, by decide +kernel⟩, by decide +kernel⟩

end

end ForwardX.Panel.RateLimit
