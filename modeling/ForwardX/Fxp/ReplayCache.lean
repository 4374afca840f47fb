/-
`replayCache` of `forwardx-fxp/main.go`: the salts of recent handshakes, kept for a fixed time and
up to a fixed number.
-/
import ForwardX.Lib.GoMap
import ForwardX.Lib.PriorityQueue
import Mathlib.Data.Multiset.Count

namespace ForwardX.Fxp

open List

/-! ## The cache -/

/-- The scope and salt a handshake is remembered by; the source prints the four
into one string. -/
structure ReplayKey where
  TunnelID : ℤ
  RuleID : ℤ
  ListenPort : ℤ
  salt : List UInt8
  deriving DecidableEq

structure ReplayExpiry where
  key : ReplayKey
  expiresAt : ℤ

/-- The heap of the cache, any implementation of `container/heap`'s contract. -/
abbrev ExpiryHeap := PriorityQueue ReplayExpiry ReplayExpiry.expiresAt

structure ReplayCache (P : ExpiryHeap) where
  ttl : ℤ
  max : ℕ
  seen : GoMap ReplayKey ℤ
  expiry : P.Queue

variable {P : ExpiryHeap}

def newReplayCache (P : ExpiryHeap) (ttl : ℤ) (max : ℕ) : ReplayCache P := ⟨ttl, max, ∅, P.empty⟩

/-- A popped entry leaves the map if it is the current one for its key. -/
def forget (seen : GoMap ReplayKey ℤ) (entry : ReplayExpiry) : GoMap ReplayKey ℤ :=
  if seen.lookup entry.key = some entry.expiresAt then seen.erase entry.key else seen

def ReplayCache.sweepLocked (c : ReplayCache P) (now : ℤ) : ReplayCache P :=
  let swept := P.drain (fun _ entry => decide (entry.expiresAt ≤ now)) forget
    (P.items c.expiry).card c.seen c.expiry
  { c with seen := swept.1, expiry := swept.2 }

/-- The loop around `evictOldestLocked`. One call of that function pops until it
has forgotten an entry, so the two loops pop while the map is too large. -/
def ReplayCache.evictLocked (c : ReplayCache P) : ReplayCache P :=
  let evicted := P.drain (fun seen _ => decide (seen.entries.length > c.max)) forget
    (P.items c.expiry).card c.seen c.expiry
  { c with seen := evicted.1, expiry := evicted.2 }

def ReplayCache.addAt (c : ReplayCache P) (key : ReplayKey) (now : ℤ) : ReplayCache P × Bool :=
  let c := c.sweepLocked now
  match c.seen.lookup key with
  | some expiresAt =>
    if expiresAt > now then (c, false)
    else (({ c with
        seen := c.seen.insert key (now + c.ttl)
        expiry := P.push c.expiry ⟨key, now + c.ttl⟩ } : ReplayCache P).evictLocked, true)
  | none => (({ c with
      seen := c.seen.insert key (now + c.ttl)
      expiry := P.push c.expiry ⟨key, now + c.ttl⟩ } : ReplayCache P).evictLocked, true)

/-! ## Map and heap agree -/

/-- The entries of a map as a heap would hold them. -/
def expiries (seen : GoMap ReplayKey ℤ) : Multiset ReplayExpiry :=
  (seen.entries.map fun e => (⟨e.1, e.2⟩ : ReplayExpiry) : List ReplayExpiry)

variable {seen : GoMap ReplayKey ℤ} {k : ReplayKey} {added : List (ReplayKey × ℤ)}
    {c : ReplayCache P}

theorem mem_expiries {x : ReplayExpiry} : x ∈ expiries seen ↔ seen.lookup x.key = some x.expiresAt := by
  rw [GoMap.lookup_eq_some_iff, expiries, Multiset.mem_coe, mem_map]
  constructor
  · rintro ⟨e, he, rfl⟩
    exact he
  · intro h
    exact ⟨_, h, rfl⟩

theorem expiries_of_lookup {t : ℤ}
    (h : seen.lookup k = some t) : expiries seen = ⟨k, t⟩ ::ₘ expiries (seen.erase k) :=
  Multiset.coe_eq_coe.mpr ((GoMap.entries_perm_of_lookup h).map _)

theorem expiries_insert (t : ℤ)
    (h : seen.lookup k = none) : expiries (seen.insert k t) = ⟨k, t⟩ ::ₘ expiries seen := by
  have herase : seen.erase k = seen := GoMap.erase_of_lookup_none h
  have hins := expiries_of_lookup (AList.lookup_insert (b := t) (a := k) seen)
  rw [hins]
  congr 2
  refine AList.ext ?_
  have hhead : ((⟨k, t⟩ : Sigma fun _ => ℤ) :: seen.entries.kerase k).kerase k =
      seen.entries.kerase k := kerase_cons_eq rfl
  exact hhead.trans (congrArg AList.entries herase)

theorem card_expiries (seen : GoMap ReplayKey ℤ) : (expiries seen).card = seen.entries.length := by
  rw [expiries, Multiset.coe_card, length_map]

theorem expiries_forget {a : ReplayExpiry} {m : Multiset ReplayExpiry} (h : a ::ₘ m = expiries seen) :
    forget seen a = seen.erase a.key ∧ m = expiries (seen.erase a.key) := by
  have hread : seen.lookup a.key = some a.expiresAt :=
    mem_expiries.mp (h ▸ Multiset.mem_cons_self a m)
  refine ⟨if_pos hread, ?_⟩
  rw [expiries_of_lookup hread] at h
  exact (Multiset.cons_inj_right _).mp h

/-- The added keys as a heap would hold them. -/
abbrev stamped (ttl : ℤ) (added : List (ReplayKey × ℤ)) : Multiset ReplayExpiry :=
  (added.map fun x => (⟨x.1, x.2 + ttl⟩ : ReplayExpiry) : List ReplayExpiry)

/-- The keys that were added, each with its time, newest first, cover the map. -/
structure ReplayCache.Inv (c : ReplayCache P) (added : List (ReplayKey × ℤ)) : Prop where
  heap : P.items c.expiry = expiries c.seen
  covered : expiries c.seen ≤ stamped c.ttl added

theorem inv_newReplayCache (ttl : ℤ) (max : ℕ) : (newReplayCache P ttl max).Inv [] :=
  ⟨P.items_empty, le_refl _⟩

/-- The key `k` that was added at `t` is in the map, or has been crowded out: that
many other keys were added no earlier. -/
def ReplayCache.Held (c : ReplayCache P) (added : List (ReplayKey × ℤ)) (k : ReplayKey) (t : ℤ) : Prop :=
  c.seen.lookup k = some (t + c.ttl) ∨
    c.max ≤ added.countP fun x => decide (x.1 ≠ k ∧ t ≤ x.2)

/-! ## Sweep -/

theorem sweepLocked_spec (h : c.Inv added) (now : ℤ) : (c.sweepLocked now).Inv added ∧
      (∀ k t, c.seen.lookup k = some t → now < t → (c.sweepLocked now).seen.lookup k = some t) ∧
      (∀ k t, (c.sweepLocked now).seen.lookup k = some t → now < t) := by
  have hdrain := P.drain_invariant (fun _ entry => decide (entry.expiresAt ≤ now)) forget
    (I := fun seen m => m = expiries seen ∧ m ≤ expiries c.seen ∧
      ∀ k t, c.seen.lookup k = some t → now < t → seen.lookup k = some t)
    (by
      rintro seen a m ⟨heq, hle, hkeep⟩ - hgo
      obtain ⟨hforget, hm⟩ := expiries_forget heq
      refine ⟨by rw [hforget]; exact hm, (Multiset.le_cons_self m a).trans hle, ?_⟩
      intro k t hread hlate
      have hold := hkeep k t hread hlate
      rw [hforget]
      by_cases hk : k = a.key
      -- the popped entry has expired, this one has not
      · have ha : seen.lookup a.key = some a.expiresAt :=
          mem_expiries.mp (heq ▸ Multiset.mem_cons_self a m)
        rw [hk, ha] at hold
        have hexp : a.expiresAt ≤ now := of_decide_eq_true hgo
        have := Option.some.inj hold
        omega
      · rw [AList.lookup_erase_ne hk]; exact hold)
    (P.items c.expiry).card c.seen c.expiry
    ⟨h.heap, by rw [h.heap], fun k t hread _ => hread⟩
  obtain ⟨heq, hle, hkeep⟩ := hdrain
  refine ⟨⟨heq, ?_⟩, hkeep, fun k t hread => ?_⟩
  · show expiries (c.sweepLocked now).seen ≤ _
    exact heq ▸ hle.trans h.covered
  · have hmem : (⟨k, t⟩ : ReplayExpiry) ∈ P.items (c.sweepLocked now).expiry :=
      heq ▸ mem_expiries.mpr hread
    rcases P.drain_stops (fun _ entry => decide (entry.expiresAt ≤ now)) forget
      (P.items c.expiry).card c.seen c.expiry (le_refl _) with hzero | ⟨a, -, hstop, hleast⟩
    · rw [show P.items (c.sweepLocked now).expiry = 0 from hzero] at hmem
      exact absurd hmem (Multiset.notMem_zero _)
    · have hlate : now < a.expiresAt := by simpa using hstop
      exact lt_of_lt_of_le hlate (hleast _ hmem)

/-! ## Eviction -/

theorem card_le_countP_added {ttl t : ℤ} {m : Multiset ReplayExpiry} (hle : m ≤ stamped ttl added)
    (hm : ∀ x ∈ m, x.key ≠ k ∧ t + ttl ≤ x.expiresAt) :
    m.card ≤ added.countP fun x => decide (x.1 ≠ k ∧ t ≤ x.2) := by
  have hcount : m.countP (fun x => x.key ≠ k ∧ t + ttl ≤ x.expiresAt) = m.card :=
    Multiset.countP_eq_card.mpr hm
  have hmono := Multiset.countP_le_of_le (fun x => x.key ≠ k ∧ t + ttl ≤ x.expiresAt) hle
  rw [hcount, Multiset.coe_countP, countP_map] at hmono
  simpa [Function.comp_def] using hmono

theorem evictLocked_spec (h : c.Inv added) :
    c.evictLocked.Inv added ∧ ∀ k t, c.Held added k t → c.evictLocked.Held added k t := by
  have hdrain := P.drain_invariant (fun seen _ => decide (seen.entries.length > c.max)) forget
    (I := fun seen m => m = expiries seen ∧ m ≤ stamped c.ttl added ∧
      ∀ k t, c.Held added k t → seen.lookup k = some (t + c.ttl) ∨
        c.max ≤ added.countP fun x => decide (x.1 ≠ k ∧ t ≤ x.2))
    (by
      rintro seen a m ⟨heq, hle, hkeep⟩ hleast hgo
      obtain ⟨hforget, hm⟩ := expiries_forget heq
      have hle' : m ≤ stamped c.ttl added := (Multiset.le_cons_self m a).trans hle
      refine ⟨by rw [hforget]; exact hm, hle', ?_⟩
      intro k t hheld
      rcases hkeep k t hheld with hread | hcrowd
      · by_cases hk : k = a.key
        -- the entry goes; the map was over its limit, and what stays is newer
        · right
          have ha : seen.lookup a.key = some a.expiresAt :=
            mem_expiries.mp (heq ▸ Multiset.mem_cons_self a m)
          rw [hk, ha] at hread
          have hexp : a.expiresAt = t + c.ttl := Option.some.inj hread
          have hover : c.max < (expiries seen).card := by
            rw [card_expiries]; exact of_decide_eq_true hgo
          rw [← heq, Multiset.card_cons] at hover
          refine (Nat.lt_succ_iff.mp hover).trans (card_le_countP_added hle' fun x hx => ?_)
          refine ⟨fun hxk => ?_, hexp ▸ hleast x hx⟩
          have hgone : (seen.erase a.key).lookup x.key = some x.expiresAt :=
            mem_expiries.mp (hm ▸ hx)
          rw [hxk, hk, AList.lookup_erase] at hgone
          cases hgone
        · left
          rw [hforget, AList.lookup_erase_ne hk]; exact hread
      · exact .inr hcrowd)
    (P.items c.expiry).card c.seen c.expiry ⟨h.heap, by rw [h.heap]; exact h.covered, fun _ _ h => h⟩
  obtain ⟨heq, hle, hkeep⟩ := hdrain
  exact ⟨⟨heq, heq ▸ hle⟩, hkeep⟩

/-! ## One call -/

theorem Held.mono {t : ℤ} (x : ReplayKey × ℤ) (h : c.Held added k t) : c.Held (x :: added) k t := by
  rcases h with hread | hcrowd
  · exact .inl hread
  · refine .inr (hcrowd.trans ?_)
    rw [countP_cons]
    exact Nat.le_add_right _ _

theorem sweepLocked_held {t now : ℤ} (h : c.Inv added) (hheld : c.Held added k t) (hnow : now < t + c.ttl) :
    (c.sweepLocked now).Held added k t := by
  rcases hheld with hread | hcrowd
  · exact .inl ((sweepLocked_spec h now).2.1 k _ hread hnow)
  · exact .inr hcrowd

theorem addAt_cases (h : c.Inv added) (key : ReplayKey) (now : ℤ) :
    (∃ t, (c.sweepLocked now).seen.lookup key = some t ∧
      c.addAt key now = (c.sweepLocked now, false)) ∨
    ((c.sweepLocked now).seen.lookup key = none ∧
      c.addAt key now = (({ c.sweepLocked now with
        seen := (c.sweepLocked now).seen.insert key (now + c.ttl)
        expiry := P.push (c.sweepLocked now).expiry ⟨key, now + c.ttl⟩ } :
          ReplayCache P).evictLocked, true)) := by
  unfold ReplayCache.addAt
  dsimp only
  rcases hread : (c.sweepLocked now).seen.lookup key with _ | t
  · exact .inr ⟨rfl, rfl⟩
  · have hlate : t > now := (sweepLocked_spec h now).2.2 key t hread
    exact .inl ⟨t, rfl, if_pos hlate⟩

def noteAdded (added : List (ReplayKey × ℤ)) (key : ReplayKey) (now : ℤ) (ok : Bool) : List (ReplayKey × ℤ) :=
  if ok then (key, now) :: added else added

theorem addAt_spec (h : c.Inv added) (key : ReplayKey) (now : ℤ) :
    (c.addAt key now).1.ttl = c.ttl ∧ (c.addAt key now).1.max = c.max ∧
      (c.addAt key now).1.Inv (noteAdded added key now (c.addAt key now).2) ∧
      ((c.addAt key now).2 = true →
        (c.addAt key now).1.Held (noteAdded added key now true) key now) ∧
      ∀ k t, c.Held added k t → now < t + c.ttl →
        (c.addAt key now).1.Held (noteAdded added key now (c.addAt key now).2) k t := by
  have hswept := (sweepLocked_spec h now).1
  rcases addAt_cases h key now with ⟨t, -, heq⟩ | ⟨hnone, heq⟩
  · rw [heq]
    refine ⟨rfl, rfl, hswept, fun hfalse => absurd hfalse Bool.false_ne_true,
      fun k t hheld hnow => ?_⟩
    exact sweepLocked_held h hheld hnow
  · rw [heq]
    -- the cache between the insertion and the eviction
    set c₁ : ReplayCache P := { c.sweepLocked now with
      seen := (c.sweepLocked now).seen.insert key (now + c.ttl)
      expiry := P.push (c.sweepLocked now).expiry ⟨key, now + c.ttl⟩ } with hc₁
    have hseen : expiries c₁.seen = ⟨key, now + c.ttl⟩ ::ₘ expiries (c.sweepLocked now).seen :=
      expiries_insert _ hnone
    have hinv : c₁.Inv ((key, now) :: added) := by
      refine ⟨?_, ?_⟩
      · rw [hseen, ← hswept.heap]
        exact P.items_push _ _
      · rw [hseen]
        exact Multiset.cons_le_cons _ hswept.covered
    obtain ⟨hinv', hheld'⟩ := evictLocked_spec hinv
    refine ⟨rfl, rfl, hinv', fun _ => ?_, fun k t hheld hnow => ?_⟩
    · exact hheld' key now (.inl (AList.lookup_insert _))
    · refine hheld' k t ?_
      rcases Held.mono (key, now) (sweepLocked_held h hheld hnow) with hread | hcrowd
      · refine .inl ?_
        -- the sweep kept `k`, and `key` was not there
        have hk : k ≠ key := by
          rintro rfl
          rw [hnone] at hread
          cases hread
        exact (AList.lookup_insert_ne hk).trans hread
      · exact .inr hcrowd

/-- **A held key is refused.** Unless it has been crowded out, a key is not added
a second time before its entry expires. -/
theorem addAt_refuses (h : c.Inv added)
    {key : ReplayKey} {t now : ℤ} (hheld : c.Held added key t) (hnow : now < t + c.ttl)
    (hroom : added.countP (fun x => decide (x.1 ≠ key ∧ t ≤ x.2)) < c.max) :
    (c.addAt key now).2 = false := by
  rcases sweepLocked_held h hheld hnow with hread | hcrowd
  · rcases addAt_cases h key now with ⟨_, -, heq⟩ | ⟨hnone, -⟩
    · rw [heq]
    · rw [hnone] at hread
      cases hread
  · exact absurd hcrowd (Nat.not_le.mpr hroom)

end ForwardX.Fxp
