/-
What the replay cache of `forwardx-fxp/main.go` remembers, over sequences of calls.

The cache is a map with a heap of its expiries. Against it stands the history of the calls: which
keys were accepted, and when. The invariant relates the two up to the keys that were evicted for
want of room.
-/
import ForwardX.Fxp.ReplayCache
import Mathlib.Data.List.Induction

namespace ForwardX.Fxp

open List

variable {P : ExpiryHeap}

/-! ## Histories -/

inductive ReplayEvent where
  | accepted (key : ReplayKey) (expiresAt : ℤ)
  | evicted (key : ReplayKey)
  deriving DecidableEq

def ReplayEvent.key : ReplayEvent → ReplayKey
  | accepted key _ => key
  | evicted key => key

def lastOf (history : List ReplayEvent) (key : ReplayKey) : Option ReplayEvent :=
  (history.filter fun e => e.key = key).getLast?

/-- The key was accepted, has not expired, and was not evicted since. -/
def Remembered (history : List ReplayEvent) (key : ReplayKey) (now : ℤ) : Prop :=
  ∃ expiresAt, lastOf history key = some (.accepted key expiresAt) ∧ now < expiresAt

/-- The cache between the insertion of a key and the eviction that makes room for it. -/
def ReplayCache.inserted (c : ReplayCache P) (key : ReplayKey) (now : ℤ) : ReplayCache P :=
  { c.sweepLocked now with
    seen := (c.sweepLocked now).seen.insert key (now + c.ttl)
    expiry := P.push (c.sweepLocked now).expiry ⟨key, now + c.ttl⟩ }

def evictedKeys (before after : GoMap ReplayKey ℤ) : List ReplayKey :=
  before.keys.filter fun key => after.lookup key = none

structure ReplayLog (P : ExpiryHeap) where
  cache : ReplayCache P
  history : List ReplayEvent

/-- A call of `addAt`, and what it adds to the history. -/
def ReplayLog.addAt (l : ReplayLog P) (call : ReplayKey × ℤ) : ReplayLog P :=
  let answer := l.cache.addAt call.1 call.2
  ⟨answer.1,
    if answer.2 then
      l.history ++ .accepted call.1 (call.2 + l.cache.ttl) ::
        (evictedKeys (l.cache.inserted call.1 call.2).seen answer.1.seen).map .evicted
    else l.history⟩

/-- The calls in order, from an empty cache. -/
def replayLog (P : ExpiryHeap) (ttl : ℤ) (max : ℕ) (calls : List (ReplayKey × ℤ)) : ReplayLog P :=
  calls.foldl ReplayLog.addAt ⟨newReplayCache P ttl max, []⟩

/-! ## The last event of a key -/

theorem lastOf_append_of_ne {history events : List ReplayEvent} {key : ReplayKey}
    (h : ∀ e ∈ events, e.key ≠ key) : lastOf (history ++ events) key = lastOf history key := by
  have hnone : events.filter (fun e => e.key = key) = [] := by
    simpa [filter_eq_nil_iff] using h
  rw [lastOf, filter_append, hnone, append_nil, lastOf]

theorem lastOf_append_singleton (history : List ReplayEvent) (e : ReplayEvent) :
    lastOf (history ++ [e]) e.key = some e := by
  simp [lastOf, filter_append]

theorem lastOf_append_evicted (history : List ReplayEvent) (keys : List ReplayKey) (key : ReplayKey) :
    lastOf (history ++ keys.map .evicted) key =
      if key ∈ keys then some (.evicted key) else lastOf history key := by
  induction keys using List.reverseRecOn with
  | nil => simp
  | append_singleton keys last ih =>
    rw [map_append, map_singleton, ← append_assoc]
    by_cases hlast : last = key
    · subst hlast
      rw [if_pos (by simp)]
      exact lastOf_append_singleton _ (.evicted last)
    · rw [lastOf_append_of_ne (by simpa [ReplayEvent.key] using hlast), ih]
      simp [Ne.symm hlast]

/-! ## Sweep and eviction -/

theorem lookup_of_lookup_forget {seen : GoMap ReplayKey ℤ} {entry : ReplayExpiry} {key : ReplayKey} {t : ℤ}
    (h : (forget seen entry).lookup key = some t) : seen.lookup key = some t := by
  unfold forget at h
  split at h
  · exact (GoMap.lookup_erase_eq_some h).2
  · exact h

theorem lookup_of_lookup_sweepLocked {c : ReplayCache P} {now : ℤ} {key : ReplayKey} {t : ℤ}
    (h : (c.sweepLocked now).seen.lookup key = some t) : c.seen.lookup key = some t :=
  P.drain_invariant (fun _ entry => decide (entry.expiresAt ≤ now)) forget
    (I := fun seen _ => ∀ key t, seen.lookup key = some t → c.seen.lookup key = some t)
    (fun _ _ _ hsub _ _ key t hread => hsub key t (lookup_of_lookup_forget hread))
    (P.items c.expiry).card c.seen c.expiry (fun _ _ hread => hread) key t h

theorem card_items_sweepLocked_le (c : ReplayCache P) (now : ℤ) :
    (P.items (c.sweepLocked now).expiry).card ≤ (P.items c.expiry).card :=
  P.drain_invariant (fun _ entry => decide (entry.expiresAt ≤ now)) forget
    (I := fun _ m => m.card ≤ (P.items c.expiry).card)
    (fun _ a m hle _ _ => (Multiset.card_le_card (Multiset.le_cons_self m a)).trans hle)
    (P.items c.expiry).card c.seen c.expiry le_rfl

theorem evictLocked_cases {c : ReplayCache P} (hheap : P.items c.expiry = expiries c.seen)
    (hsize : c.seen.entries.length ≤ c.max + 1) :
    (c.seen.entries.length ≤ c.max ∧ c.evictLocked.seen = c.seen) ∨
    ∃ key expiresAt, c.seen.lookup key = some expiresAt ∧ c.seen.entries.length = c.max + 1 ∧
      (∀ key' t, c.seen.lookup key' = some t → expiresAt ≤ t) ∧ c.evictLocked.seen = c.seen.erase key := by
  have hcard : (P.items c.expiry).card = c.seen.entries.length := by rw [hheap, card_expiries]
  by_cases hfit : c.seen.entries.length ≤ c.max
  · refine .inl ⟨hfit, ?_⟩
    rw [ReplayCache.evictLocked, P.drain_of_stop forget fun _ => decide_eq_false (Nat.not_lt.mpr hfit)]
  · have hfull : c.seen.entries.length = c.max + 1 := by omega
    obtain ⟨⟨key, expiresAt⟩, q, hpop⟩ : ∃ a q, P.pop c.expiry = some (a, q) := by
      rcases hpop : P.pop c.expiry with _ | ⟨a, q⟩
      · rw [P.pop_none _ hpop, Multiset.card_zero] at hcard
        omega
      · exact ⟨a, q, rfl⟩
    obtain ⟨hitems, hleast⟩ := P.pop_some _ _ _ hpop
    have hforget : forget c.seen ⟨key, expiresAt⟩ = c.seen.erase key :=
      (expiries_forget (hitems.symm.trans hheap)).1
    have hread : c.seen.lookup key = some expiresAt :=
      mem_expiries.mp (hheap ▸ hitems ▸ Multiset.mem_cons_self _ _)
    have hroom : (c.seen.erase key).entries.length = c.max := by
      have hlength := congrArg Multiset.card (expiries_of_lookup hread)
      rw [card_expiries, Multiset.card_cons, card_expiries] at hlength
      omega
    refine .inr ⟨key, expiresAt, hread, hfull, fun key' t hread' => ?_, ?_⟩
    · exact hleast ⟨key', t⟩ (hheap ▸ mem_expiries.mpr hread')
    · -- one entry is popped, and then the map is small enough
      rw [ReplayCache.evictLocked, hcard, hfull]
      unfold PriorityQueue.drain
      rw [hpop]
      dsimp only
      rw [if_pos (decide_eq_true (by omega)), hforget,
        P.drain_of_stop forget fun _ => decide_eq_false (by omega)]

/-! ## One call -/

/-- What the cache knows of the history at `clock`, the time of the last call. -/
structure ReplayLog.Exact (l : ReplayLog P) (clock : ℤ) : Prop where
  inv : ∃ added, l.cache.Inv added
  size : l.cache.seen.entries.length ≤ l.cache.max
  known : ∀ key t, l.cache.seen.lookup key = some t → lastOf l.history key = some (.accepted key t)
  kept : ∀ key t, lastOf l.history key = some (.accepted key t) → clock < t → l.cache.seen.lookup key = some t

section

variable {l : ReplayLog P} {clock now : ℤ}

theorem ReplayLog.Exact.lookup_sweepLocked (h : l.Exact clock) (hnow : clock ≤ now) (key : ReplayKey) (t : ℤ) :
    (l.cache.sweepLocked now).seen.lookup key = some t ↔
      lastOf l.history key = some (.accepted key t) ∧ now < t := by
  obtain ⟨added, hinv⟩ := h.inv
  obtain ⟨-, hkeep, hlate⟩ := sweepLocked_spec hinv now
  constructor
  · intro hread
    exact ⟨h.known key t (lookup_of_lookup_sweepLocked hread), hlate key t hread⟩
  · rintro ⟨hlast, ht⟩
    exact hkeep key t (h.kept key t hlast (hnow.trans_lt ht)) ht

theorem ReplayLog.Exact.addAt_refuses_iff (h : l.Exact clock) (hnow : clock ≤ now) (key : ReplayKey) :
    (l.cache.addAt key now).2 = false ↔ Remembered l.history key now := by
  obtain ⟨added, hinv⟩ := h.inv
  rcases addAt_cases hinv key now with ⟨t, hread, heq⟩ | ⟨hnone, heq⟩
  · rw [heq]
    exact ⟨fun _ => ⟨t, (h.lookup_sweepLocked hnow key t).mp hread⟩, fun _ => rfl⟩
  · rw [heq]
    constructor
    · intro hfalse
      cases hfalse
    · rintro ⟨t, hlast⟩
      rw [(h.lookup_sweepLocked hnow key t).mpr hlast] at hnone
      cases hnone

theorem mem_evictedKeys {before after : GoMap ReplayKey ℤ} {key : ReplayKey} :
    key ∈ evictedKeys before after ↔ (∃ t, before.lookup key = some t) ∧ after.lookup key = none := by
  rw [evictedKeys, mem_filter, decide_eq_true_eq, ← Option.isSome_iff_exists, AList.lookup_isSome]
  rfl

theorem ReplayLog.Exact.addAt_accepts (h : l.Exact clock) (key : ReplayKey)
    (haccept : (l.cache.addAt key now).2 = true) :
    (l.cache.sweepLocked now).seen.lookup key = none ∧
      (l.cache.addAt key now).1 = (l.cache.inserted key now).evictLocked ∧
      P.items (l.cache.inserted key now).expiry = expiries (l.cache.inserted key now).seen ∧
      (l.cache.inserted key now).seen.entries.length ≤ l.cache.max + 1 := by
  obtain ⟨added, hinv⟩ := h.inv
  have hswept := (sweepLocked_spec hinv now).1
  rcases addAt_cases hinv key now with ⟨t, -, heq⟩ | ⟨hnone, heq⟩
  · rw [heq] at haccept
    cases haccept
  · have hinsert : expiries (l.cache.inserted key now).seen
        = ⟨key, now + l.cache.ttl⟩ ::ₘ expiries (l.cache.sweepLocked now).seen := expiries_insert _ hnone
    refine ⟨hnone, by rw [heq]; rfl, ?_, ?_⟩
    · rw [hinsert, ← hswept.heap]
      exact P.items_push _ _
    · -- the sweep does not make the map larger
      have hcard := card_items_sweepLocked_le l.cache now
      rw [hswept.heap, hinv.heap, card_expiries, card_expiries] at hcard
      have hlength := congrArg Multiset.card hinsert
      rw [card_expiries, Multiset.card_cons, card_expiries] at hlength
      have hsize := h.size
      omega

theorem ReplayLog.Exact.addAt (h : l.Exact clock) (hnow : clock ≤ now) (key : ReplayKey) :
    (l.addAt (key, now)).Exact now := by
  obtain ⟨added, hinv⟩ := h.inv
  obtain ⟨httl, hmax, hinv', -⟩ := addAt_spec hinv key now
  unfold ReplayLog.addAt
  dsimp only
  by_cases haccept : (l.cache.addAt key now).2 = true
  · rw [if_pos haccept]
    obtain ⟨hnone, heq, hheap, hsize⟩ := h.addAt_accepts key haccept
    -- the map between insertion and eviction, and the history with the key
    have hinserted : ∀ key' t, (l.cache.inserted key now).seen.lookup key' = some t ↔
        lastOf (l.history ++ [.accepted key (now + l.cache.ttl)]) key' = some (.accepted key' t) ∧
          (key' = key ∨ now < t) := by
      intro key' t
      by_cases hkey : key' = key
      · subst hkey
        rw [ReplayCache.inserted, AList.lookup_insert]
        have hlast := lastOf_append_singleton l.history (.accepted key' (now + l.cache.ttl))
        rw [ReplayEvent.key] at hlast
        rw [hlast]
        simp
      · rw [ReplayCache.inserted, AList.lookup_insert_ne hkey, h.lookup_sweepLocked hnow,
          lastOf_append_of_ne (by simpa [ReplayEvent.key] using Ne.symm hkey)]
        simp [hkey]
    have hevict : (l.cache.inserted key now).evictLocked.seen.entries.length ≤ l.cache.max ∧
        ∀ key' t, (l.cache.inserted key now).evictLocked.seen.lookup key' = some t →
          (l.cache.inserted key now).seen.lookup key' = some t := by
      rcases evictLocked_cases hheap hsize with ⟨hfit, hseen⟩ | ⟨gone, t, hgone, hfull, -, hseen⟩
      · rw [hseen]
        exact ⟨hfit, fun _ _ hread => hread⟩
      · rw [hseen]
        have hlength := congrArg Multiset.card (expiries_of_lookup hgone)
        rw [card_expiries, Multiset.card_cons, card_expiries, hfull] at hlength
        exact ⟨(Nat.succ.inj hlength).ge, fun key' t hread => (GoMap.lookup_erase_eq_some hread).2⟩
    refine ⟨⟨_, hinv'⟩, by rw [hmax, heq]; exact hevict.1, fun key' t hread => ?_, fun key' t hlast ht => ?_⟩
    · have hkept : key' ∉ evictedKeys (l.cache.inserted key now).seen (l.cache.addAt key now).1.seen := by
        intro hmem
        rw [(mem_evictedKeys.mp hmem).2] at hread
        cases hread
      rw [append_cons, lastOf_append_evicted, if_neg hkept]
      rw [heq] at hread
      exact ((hinserted key' t).mp (hevict.2 key' t hread)).1
    · rw [append_cons, lastOf_append_evicted] at hlast
      split at hlast
      · cases hlast
      · rename_i hkept
        have hread := (hinserted key' t).mpr ⟨hlast, .inr ht⟩
        rw [mem_evictedKeys, not_and] at hkept
        obtain ⟨t', ht'⟩ := Option.ne_none_iff_exists'.mp (hkept ⟨t, hread⟩)
        have hsame := (hevict.2 key' t' (heq ▸ ht')).symm.trans hread
        rw [ht', hsame]
  · rw [if_neg haccept]
    have hrefused : (l.cache.addAt key now).1 = l.cache.sweepLocked now := by
      rcases addAt_cases hinv key now with ⟨t, -, heq⟩ | ⟨-, heq⟩
      · rw [heq]
      · rw [heq] at haccept
        exact absurd rfl haccept
    have hcard := card_items_sweepLocked_le l.cache now
    rw [(sweepLocked_spec hinv now).1.heap, hinv.heap, card_expiries, card_expiries] at hcard
    refine ⟨⟨_, hinv'⟩, ?_, fun key' t hread => ?_, fun key' t hlast ht => ?_⟩
    · rw [hrefused]
      exact hcard.trans h.size
    · rw [hrefused, h.lookup_sweepLocked hnow] at hread
      exact hread.1
    · rw [hrefused, h.lookup_sweepLocked hnow]
      exact ⟨hlast, ht⟩

end

/-! ## Sequences of calls -/

/-- No call is earlier than the one before it, and none later than `clock`. -/
def CallsUntil (clock : ℤ) (calls : List (ReplayKey × ℤ)) : Prop :=
  (calls.map Prod.snd).Pairwise (· ≤ ·) ∧ ∀ call ∈ calls, call.2 ≤ clock

theorem exact_replayLog (ttl : ℤ) (max : ℕ) {calls : List (ReplayKey × ℤ)} {clock : ℤ}
    (h : CallsUntil clock calls) : (replayLog P ttl max calls).Exact clock := by
  induction calls using List.reverseRecOn generalizing clock with
  | nil =>
    exact ⟨⟨[], inv_newReplayCache ttl max⟩, Nat.zero_le _, nofun, nofun⟩
  | append_singleton calls last ih =>
    obtain ⟨hsorted, hclock⟩ := h
    rw [map_append, pairwise_append] at hsorted
    have hbefore : CallsUntil last.2 calls :=
      ⟨hsorted.1, fun call hcall => hsorted.2.2 _ (mem_map_of_mem hcall) _ (by simp)⟩
    have hlast : replayLog P ttl max (calls ++ [last]) = (replayLog P ttl max calls).addAt last := by
      rw [replayLog, foldl_append]
      rfl
    rw [hlast]
    have hexact := (ih hbefore).addAt le_rfl last.1
    -- as time goes on, less has to be kept
    exact ⟨hexact.inv, hexact.size, hexact.known, fun key t hread ht =>
      hexact.kept key t hread ((hclock last (by simp)).trans_lt ht)⟩

theorem settings_replayLog (P : ExpiryHeap) (ttl : ℤ) (max : ℕ) (calls : List (ReplayKey × ℤ)) :
    (replayLog P ttl max calls).cache.max = max ∧ (replayLog P ttl max calls).cache.ttl = ttl := by
  have hcall : ∀ (l : ReplayLog P) (call : ReplayKey × ℤ),
      (l.addAt call).cache.max = l.cache.max ∧ (l.addAt call).cache.ttl = l.cache.ttl := by
    intro l call
    unfold ReplayLog.addAt ReplayCache.addAt
    dsimp only
    split
    · split <;> exact ⟨rfl, rfl⟩
    · exact ⟨rfl, rfl⟩
  induction calls using List.reverseRecOn with
  | nil => exact ⟨rfl, rfl⟩
  | append_singleton calls last ih =>
    rw [replayLog, foldl_append]
    obtain ⟨hmax, httl⟩ := hcall (replayLog P ttl max calls) last
    exact ⟨hmax.trans ih.1, httl.trans ih.2⟩

/-- What a call that accepts `key` should leave in the map: the key, and what has not expired. -/
def Fresh (before : GoMap ReplayKey ℤ) (ttl : ℤ) (key : ReplayKey) (now : ℤ) (k : ReplayKey) (t : ℤ) : Prop :=
  (k = key ∧ t = now + ttl) ∨ (k ≠ key ∧ before.lookup k = some t ∧ now < t)

/-- All of that is left, or one entry of the earliest expiry had to go because there were more than `max`. -/
structure Accepts (before after : GoMap ReplayKey ℤ) (ttl : ℤ) (max : ℕ) (key : ReplayKey) (now : ℤ) : Prop where
  fresh : ∀ k t, after.lookup k = some t → Fresh before ttl key now k t
  kept : (∀ k t, Fresh before ttl key now k t → after.lookup k = some t) ∨
    ∃ gone t, Fresh before ttl key now gone t ∧ (∀ k' t', Fresh before ttl key now k' t' → t ≤ t') ∧
      after.entries.length = max ∧ after.lookup gone = none ∧
      ∀ k' t', k' ≠ gone → Fresh before ttl key now k' t' → after.lookup k' = some t'

section

variable {l : ReplayLog P} {clock now : ℤ} {key : ReplayKey}

theorem ReplayLog.Exact.lookup_inserted (h : l.Exact clock) (k : ReplayKey) (t : ℤ) :
    (l.cache.inserted key now).seen.lookup k = some t ↔ Fresh l.cache.seen l.cache.ttl key now k t := by
  obtain ⟨added, hinv⟩ := h.inv
  obtain ⟨-, hkeep, hlate⟩ := sweepLocked_spec hinv now
  rw [ReplayCache.inserted, Fresh]
  by_cases hk : k = key
  · subst hk
    rw [AList.lookup_insert]
    simp [eq_comm]
  · rw [AList.lookup_insert_ne hk]
    simp only [hk, false_and, not_false_eq_true, true_and, false_or, ne_eq]
    exact ⟨fun hread => ⟨lookup_of_lookup_sweepLocked hread, hlate k t hread⟩, fun hread => hkeep k t hread.1 hread.2⟩

theorem ReplayLog.Exact.accepts (h : l.Exact clock) (haccept : (l.cache.addAt key now).2 = true) :
    Accepts l.cache.seen (l.cache.addAt key now).1.seen l.cache.ttl l.cache.max key now := by
  obtain ⟨-, heq, hheap, hsize⟩ := h.addAt_accepts key haccept
  rw [heq]
  rcases evictLocked_cases hheap hsize with ⟨-, hseen⟩ | ⟨gone, t, hgone, hfull, hleast, hseen⟩
  · rw [hseen]
    exact ⟨fun k t => (h.lookup_inserted k t).mp, .inl fun k t => (h.lookup_inserted k t).mpr⟩
  · rw [hseen]
    have hlength := congrArg Multiset.card (expiries_of_lookup hgone)
    rw [card_expiries, Multiset.card_cons, card_expiries, hfull] at hlength
    refine ⟨fun k t hread => (h.lookup_inserted k t).mp (GoMap.lookup_erase_eq_some hread).2,
      .inr ⟨gone, t, (h.lookup_inserted gone t).mp hgone,
        fun k' t' hfresh => hleast k' t' ((h.lookup_inserted k' t').mpr hfresh),
        (Nat.succ.inj hlength).symm, AList.lookup_erase _ _, fun k' t' hne hfresh => ?_⟩⟩
    rw [AList.lookup_erase_ne hne]
    exact (h.lookup_inserted k' t').mpr hfresh

theorem ReplayLog.Exact.refuses (h : l.Exact clock) (hrefuse : (l.cache.addAt key now).2 = false)
    (k : ReplayKey) (t : ℤ) :
    (l.cache.addAt key now).1.seen.lookup k = some t ↔ l.cache.seen.lookup k = some t ∧ now < t := by
  obtain ⟨added, hinv⟩ := h.inv
  obtain ⟨-, hkeep, hlate⟩ := sweepLocked_spec hinv now
  rcases addAt_cases hinv key now with ⟨t', -, heq⟩ | ⟨-, heq⟩
  · rw [heq]
    exact ⟨fun hread => ⟨lookup_of_lookup_sweepLocked hread, hlate k t hread⟩, fun hread => hkeep k t hread.1 hread.2⟩
  · rw [heq] at hrefuse
    cases hrefuse

end

/-- **The replay cache is exact up to eviction**: after any calls whose times do not go back, and for the next
call. What a call leaves in the map is said of the map alone: a call that refuses takes out what has expired,
one that accepts also puts its key in, and a key that has not expired goes only when there would be more than
`max` of them, and then one of the earliest expiry. -/
theorem replayCache_exact (P : ExpiryHeap) (ttl : ℤ) (max : ℕ) (calls : List (ReplayKey × ℤ)) (key : ReplayKey)
    (now : ℤ) (h : CallsUntil now calls) :
    let log := replayLog P ttl max calls
    let answer := log.cache.addAt key now
    P.items log.cache.expiry = expiries log.cache.seen ∧
      log.cache.seen.entries.length ≤ max ∧
      (answer.2 = false ↔ Remembered log.history key now) ∧
      (answer.2 = false →
        ∀ k t, answer.1.seen.lookup k = some t ↔ log.cache.seen.lookup k = some t ∧ now < t) ∧
      (answer.2 = true → Accepts log.cache.seen answer.1.seen ttl max key now) := by
  intro log answer
  have hexact : log.Exact now := exact_replayLog ttl max h (P := P)
  obtain ⟨added, hinv⟩ := hexact.inv
  obtain ⟨hmax, httl⟩ := settings_replayLog P ttl max calls
  refine ⟨hinv.heap, hexact.size.trans_eq hmax, hexact.addAt_refuses_iff le_rfl key, hexact.refuses,
    fun haccept => ?_⟩
  have haccepts := hexact.accepts haccept
  rw [httl, hmax] at haccepts
  exact haccepts

/-- Three keys in a cache of two: the first is evicted, the second is refused. -/
theorem replayCache_exact_three :
    ((replayLog (sortedQueue ReplayExpiry ReplayExpiry.expiresAt) 60 2
        [(⟨1, 1, 1, [1]⟩, 0), (⟨1, 1, 1, [2]⟩, 1), (⟨1, 1, 1, [3]⟩, 2)]).cache.addAt
        ⟨1, 1, 1, [2]⟩ 3).2 = false := by
  have hcalls : CallsUntil 3 [(⟨1, 1, 1, [1]⟩, 0), (⟨1, 1, 1, [2]⟩, 1), (⟨1, 1, 1, [3]⟩, 2)] := by
    constructor
    · decide
    · decide
  refine (replayCache_exact (sortedQueue ReplayExpiry ReplayExpiry.expiresAt) 60 2 _ ⟨1, 1, 1, [2]⟩ 3
    hcalls).2.2.1.mpr ⟨61, ?_, by decide⟩
  decide +kernel

end ForwardX.Fxp
