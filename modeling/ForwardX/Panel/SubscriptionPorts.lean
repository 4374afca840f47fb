/-
Who holds which ports: the ranges of the subscriptions that are in force at the same time.

A range is given out when it is free among the subscriptions in force. A lapsed row keeps its range
and may come back, so each way to come back is a case of its own.
-/
import ForwardX.Lib.Run
import ForwardX.Panel.Subscriptions
import Mathlib.Data.List.Nodup

namespace ForwardX.Panel

open Run Table Tx Call List

/-! ## Exclusive ranges -/

def DisjointPorts (s t : UserSubscription) : Prop := ∀ p, ¬ (s.hasPort p ∧ t.hasPort p)

/-- `s` holds no port of another subscription that is in force. -/
def HoldsAlone (nowSec : ℤ) (subs : List UserSubscription) (s : UserSubscription) : Prop :=
  ∀ t ∈ subs, t.id ≠ s.id → t.activeAt nowSec → DisjointPorts s t

structure Exclusive (nowSec : ℤ) (subs : List UserSubscription) : Prop where
  keys : (subs.map UserSubscription.id).Nodup
  alone : ∀ s ∈ subs, s.activeAt nowSec → HoldsAlone nowSec subs s

theorem DisjointPorts.symm {s t : UserSubscription} (h : DisjointPorts s t) : DisjointPorts t s := by
  intro p hp
  exact h p ⟨hp.2, hp.1⟩

theorem activeAt_mono {s : UserSubscription} {t t' : ℤ} (hle : t ≤ t') (h : s.activeAt t') : s.activeAt t := by
  simp only [UserSubscription.activeAt, decide_eq_true_eq, Option.all_eq_true] at h ⊢
  refine ⟨h.1, fun e he => ?_⟩
  have hlt := h.2 e he
  omega

theorem Exclusive.later {subs : List UserSubscription} {t t' : ℤ} (hle : t ≤ t')
    (h : Exclusive t subs) : Exclusive t' subs := by
  refine ⟨h.keys, ?_⟩
  intro s hs hact u hu hne huact
  exact h.alone s hs (activeAt_mono hle hact) u hu hne (activeAt_mono hle huact)

section

variable {nowSec : ℤ} {subs : List UserSubscription}

theorem Exclusive.eq_of_id (h : Exclusive nowSec subs) {s t : UserSubscription} (hs : s ∈ subs)
    (ht : t ∈ subs) (hid : s.id = t.id) : s = t :=
  inj_on_of_nodup_map h.keys hs ht hid

variable {f : UserSubscription → UserSubscription} {p : UserSubscription → Bool}

theorem map_id_updateWhere
    (hid : ∀ s, (f s).id = s.id) (subs : List UserSubscription) :
    (updateWhere p f subs).map UserSubscription.id = subs.map UserSubscription.id := by
  unfold updateWhere
  rw [map_map]
  apply map_congr_left
  intro s _
  simp only [Function.comp_apply]
  split
  · exact hid s
  · rfl

theorem Exclusive.insert (h : Exclusive nowSec subs) {row : UserSubscription}
    (hid : ∀ s ∈ subs, s.id ≠ row.id) (halone : HoldsAlone nowSec subs row) :
    Exclusive nowSec (subs ++ [row]) := by
  constructor
  · rw [map_append, map_cons, map_nil, nodup_append]
    refine ⟨h.keys, nodup_singleton _, ?_⟩
    intro a ha b hb
    rw [mem_map] at ha
    obtain ⟨s, hs, rfl⟩ := ha
    rw [mem_singleton] at hb
    rw [hb]
    exact hid s hs
  · intro s hs hact t ht hne htact
    rw [mem_append, mem_singleton] at hs ht
    rcases hs with hs | rfl
    · rcases ht with ht | rfl
      · exact h.alone s hs hact t ht hne htact
      · exact (halone s hs (hid s hs) hact).symm
    · rcases ht with ht | rfl
      · exact halone t ht hne htact
      · exact absurd rfl hne

theorem Exclusive.updateRow (h : Exclusive nowSec subs) {k : ℤ} (hid : ∀ s, (f s).id = s.id)
    (halone : ∀ s ∈ subs, s.id = k → (f s).activeAt nowSec → HoldsAlone nowSec subs (f s)) :
    Exclusive nowSec (updateWhere (fun s => s.id = k) f subs) := by
  constructor
  · rw [map_id_updateWhere hid]
    exact h.keys
  · intro s' hs' hact t' ht' hne htact
    unfold updateWhere at hs' ht'
    rw [mem_map] at hs' ht'
    obtain ⟨s, hs, rfl⟩ := hs'
    obtain ⟨t, ht, rfl⟩ := ht'
    simp only [decide_eq_true_eq] at hact hne htact ⊢
    by_cases hsk : s.id = k
    · by_cases htk : t.id = k
      · -- both would be the updated row
        simp only [hsk, htk, if_true, hid] at hne
        exact absurd rfl hne
      · simp only [hsk, htk, if_true, if_false] at hact hne htact ⊢
        exact halone s hs hsk hact t ht hne htact
    · by_cases htk : t.id = k
      · simp only [hsk, htk, if_true, if_false] at hact hne htact ⊢
        exact (halone t ht htk htact s hs (Ne.symm hne) hact).symm
      · simp only [hsk, htk, if_false] at hact hne htact ⊢
        exact h.alone s hs hact t ht hne htact

theorem Exclusive.weaken (h : Exclusive nowSec subs)
    (hid : ∀ s, (f s).id = s.id) (hports : ∀ s, (f s).hasPort = s.hasPort)
    (hact : ∀ s, (f s).activeAt nowSec → s.activeAt nowSec) :
    Exclusive nowSec (updateWhere p f subs) := by
  have hrow : ∀ s, (if p s then f s else s).id = s.id ∧
      (if p s then f s else s).hasPort = s.hasPort ∧
      ((if p s then f s else s).activeAt nowSec → s.activeAt nowSec) := by
    intro s
    split
    · exact ⟨hid s, hports s, hact s⟩
    · exact ⟨rfl, rfl, fun h => h⟩
  constructor
  · rw [map_id_updateWhere hid]
    exact h.keys
  · intro s' hs' hsact t' ht' hne htact q hq
    unfold updateWhere at hs' ht'
    rw [mem_map] at hs' ht'
    obtain ⟨s, hs, rfl⟩ := hs'
    obtain ⟨t, ht, rfl⟩ := ht'
    obtain ⟨hsid, hsport, hsa⟩ := hrow s
    obtain ⟨htid, htport, hta⟩ := hrow t
    rw [hsid, htid] at hne
    rw [hsport, htport] at hq
    exact h.alone s hs (hsa hsact) t ht hne (hta htact) q hq

end

/-! ## Runs -/

structure PanelClock where
  now : ℤ
  db : Database

/-- What happens to the subscriptions. Each call is refused by the database where
`fault` says so. -/
inductive SubscriptionEvent where
  | advance (ms : ℕ)
  | apply (env : Env) (req : SubscriptionRequest) (fault : ℕ → Option String)
  | cancel (env : Env) (id : ℤ) (fault : ℕ → Option String)
  | setExpiresAt (env : Env) (id : ℤ) (expiresAt : Option ℤ) (fault : ℕ → Option String)
  | extend (env : Env) (id days : ℤ) (fault : ℕ → Option String)
  | expire (env : Env) (fault : ℕ → Option String)
  /-- Any other request: plans, hosts, rules and users change. -/
  | other (edit : Database → Database)

def stepSubscriptions (w : PanelClock) : SubscriptionEvent → PanelClock
  | .advance ms => { w with now := w.now + ms }
  | .apply env req fault => { w with db := ((applySubscriptionToUser env w.now req).run fault w.db).2 }
  | .cancel env id fault => { w with db := ((cancelUserSubscription env w.now id).run fault w.db).2 }
  | .setExpiresAt env id e fault =>
    { w with db := ((setUserSubscriptionExpiresAt env w.now id e).run fault w.db).2 }
  | .extend env id days fault =>
    { w with db := ((extendUserSubscription env w.now id days).run fault w.db).2 }
  | .expire env fault => { w with db := ((expireUserSubscriptions env w.now).run fault w.db).2 }
  | .other edit =>
    { w with db := { edit w.db with userSubscriptions := w.db.userSubscriptions } }

/-- The subscription that an event brings into force without allocating ports. -/
def SubscriptionEvent.revives (now : ℤ) : SubscriptionEvent → Option ℤ
  | .apply _ req _ => req.targetSubscriptionId.filter (· ≠ 0)
  | .setExpiresAt _ id e _ => if e.any (· ≤ now) then none else some id
  | .extend _ id _ _ => some id
  | _ => none

/-- A subscription that has lapsed comes back only to ports that nobody else holds
by then; a cancelled one never does. -/
def ComesBackAlone (w : PanelClock) (e : SubscriptionEvent) : Prop :=
  ∀ id ∈ e.revives w.now, ∀ s, getUserSubscriptionById id w.db = some s →
    s.status ≠ .cancelled → s.activeAt (seconds w.now) = false →
      HoldsAlone (seconds w.now) w.db.userSubscriptions s

section

variable {now : ℤ} {db db' : Database} {env : Env}

theorem holdsAlone_of_free {row : UserSubscription} {ports : ℤ × ℤ}
    (hfree : PortsFree now db ports) (hstart : row.portRangeStart = some ports.1)
    (hend : row.portRangeEnd = some ports.2) :
    HoldsAlone (seconds now) db.userSubscriptions row := by
  intro t ht _ htact p hp
  have hrow : ports.1 ≤ p ∧ p ≤ ports.2 := by
    have h := hp.1
    simp only [UserSubscription.hasPort, hstart, hend, Option.getD_some, decide_eq_true_eq] at h
    exact h.2
  have hunused := hfree p hrow.1 hrow.2
  have hused : portUsed now db p := by
    simp only [portUsed, Bool.or_eq_true, any_eq_true, decide_eq_true_eq]
    exact .inr ⟨t, ht, htact, hp.2⟩
  rw [hunused] at hused
  cases hused

theorem HoldsAlone.congr {nowSec : ℤ} {subs : List UserSubscription} {s s' : UserSubscription}
    (h : HoldsAlone nowSec subs s) (hid : s'.id = s.id) (hports : s'.hasPort = s.hasPort) :
    HoldsAlone nowSec subs s' := by
  intro t ht hne htact p hp
  rw [hports] at hp
  rw [hid] at hne
  exact h t ht hne htact p hp

theorem holdsAlone_of_comesBack {s : UserSubscription} {id : ℤ}
    (hex : Exclusive (seconds now) db.userSubscriptions)
    (hback : ∀ s, getUserSubscriptionById id db = some s → s.status ≠ .cancelled →
      s.activeAt (seconds now) = false → HoldsAlone (seconds now) db.userSubscriptions s)
    (hlapsed : ∃ sub, getUserSubscriptionById id db = some sub ∧ sub.status ≠ .cancelled)
    (hs : s ∈ db.userSubscriptions) (hid : s.id = id) :
    HoldsAlone (seconds now) db.userSubscriptions s := by
  by_cases hact : s.activeAt (seconds now)
  · exact hex.alone s hs hact
  · obtain ⟨r, hr, hstatus⟩ := hlapsed
    obtain rfl : r = s := by
      apply hex.eq_of_id (byKey_mem hr) hs
      rw [hid]
      exact byKey_key hr
    exact hback r hr hstatus (by simpa using hact)

theorem exclusive_apply {req : SubscriptionRequest} {r : AppliedSubscription}
    (h : Returns (applySubscriptionToUser env now req) db r db')
    (hback : ∀ id ∈ req.targetSubscriptionId.filter (· ≠ 0), ∀ s,
      getUserSubscriptionById id db = some s → s.status ≠ .cancelled →
        s.activeAt (seconds now) = false → HoldsAlone (seconds now) db.userSubscriptions s)
    (hex : Exclusive (seconds now) db.userSubscriptions) :
    Exclusive (seconds now) db'.userSubscriptions := by
  obtain ⟨⟨⟨plan, start, e, n, ports, hfree, hsubs⟩, -⟩ |
    ⟨sub, htarget, hsub, -, hstatus, plan, e, n, ports, hkept, hsubs⟩, -⟩ :=
      applySubscriptionToUser_spec h
  · rw [hsubs]
    apply hex.insert
    · intro s hs
      have hlt := lt_nextKey UserSubscription.id hs
      simp only [grantedRow]
      omega
    · exact holdsAlone_of_free hfree rfl rfl
  · rw [hsubs]
    refine hex.updateRow (fun s => ?_) ?_
    · rfl
    intro s hs hid _
    obtain rfl : s = sub := hex.eq_of_id hs (byKey_mem hsub) hid
    rcases hkept with ⟨⟨hstart, hend⟩, rfl⟩ | hfree
    · -- the stored range, which the row held alone if it was in force
      have halone := holdsAlone_of_comesBack hex (hback s.id htarget) ⟨s, hsub, hstatus⟩ hs rfl
      apply halone.congr rfl
      funext p
      simp [UserSubscription.hasPort]
    · exact holdsAlone_of_free hfree rfl rfl

variable {r : AdministeredSubscription}

theorem exclusive_setExpiresAt {id : ℤ} {expiresAt : Option ℤ}
    (h : Returns (setUserSubscriptionExpiresAt env now id expiresAt) db r db')
    (hback : ∀ k ∈ (if expiresAt.any (· ≤ now) then none else some id), ∀ s,
      getUserSubscriptionById k db = some s → s.status ≠ .cancelled →
        s.activeAt (seconds now) = false → HoldsAlone (seconds now) db.userSubscriptions s)
    (hex : Exclusive (seconds now) db.userSubscriptions) :
    Exclusive (seconds now) db'.userSubscriptions := by
  obtain ⟨hlapsed, next, hsubs⟩ := setUserSubscriptionExpiresAt_spec h
  rw [hsubs]
  refine hex.updateRow (fun s => ?_) ?_
  · rfl
  intro s hs hid hact
  by_cases hpast : expiresAt.any (· ≤ now)
  · simp [UserSubscription.activeAt, hpast] at hact
  · rw [if_neg hpast] at hback
    have halone := holdsAlone_of_comesBack hex (hback id rfl) hlapsed hs hid
    exact halone.congr rfl rfl

theorem exclusive_extend {id days : ℤ}
    (h : Returns (extendUserSubscription env now id days) db r db')
    (hback : ∀ s, getUserSubscriptionById id db = some s → s.status ≠ .cancelled →
      s.activeAt (seconds now) = false → HoldsAlone (seconds now) db.userSubscriptions s)
    (hex : Exclusive (seconds now) db.userSubscriptions) :
    Exclusive (seconds now) db'.userSubscriptions := by
  obtain ⟨hlapsed, e, next, hsubs⟩ := extendUserSubscription_spec h
  rw [hsubs]
  refine hex.updateRow (fun s => ?_) ?_
  · rfl
  intro s hs hid _
  exact (holdsAlone_of_comesBack hex hback hlapsed hs hid).congr rfl rfl

/-! Cancelling and expiring put nothing in force, at any statement. -/

theorem preserves_exclusive_sync (userId : ℤ) :
    Preserves (fun d : Database => Exclusive (seconds now) d.userSubscriptions)
      (syncUserSubscriptionEntitlements env now userId) := by
  apply preserves_sync
  intro d d' hsubs _ hd
  rwa [hsubs]

theorem preserves_exclusive_cancel (id : ℤ) :
    Preserves (fun d : Database => Exclusive (seconds now) d.userSubscriptions)
      (cancelUserSubscription env now id) := by
  refine Preserves.bind (preserves_query _) fun row => ?_
  refine Preserves.bind (preserves_orThrow _ row) fun owner => Preserves.transaction ?_
  refine (preserves_lockTrafficBillingUserRow _).bind fun _ => Preserves.transaction ?_
  refine Preserves.bind (preserves_query _) fun row => ?_
  refine Preserves.bind (preserves_orThrow _ row) fun sub => preserves_ite ?_ ?_
  · refine Preserves.bind (preserves_execute ?_) fun _ => ?_
    · intro d hd
      refine hd.weaken ?_ ?_ ?_
      · intro s
        rfl
      · intro s
        rfl
      · intro s hact
        simp [UserSubscription.activeAt] at hact
    · refine Preserves.bind (preserves_execute fun d hd => hd) fun _ => ?_
      exact preserves_exclusive_sync _
  · refine Preserves.bind (preserves_execute fun d hd => hd) fun _ => ?_
    exact preserves_exclusive_sync _

theorem preserves_exclusive_expireRows (userId : ℤ) (ids : List ℤ) :
    Preserves (fun d : Database => Exclusive (seconds now) d.userSubscriptions)
      (expireSubscriptionRows now userId ids) := by
  induction ids with
  | nil => exact preserves_pure _
  | cons id ids ih =>
    refine Preserves.bind (preserves_statement ?_) fun affected => ?_
    · intro d hd
      refine hd.weaken ?_ ?_ ?_
      · intro s
        rfl
      · intro s
        rfl
      · intro s hact
        simp [UserSubscription.activeAt] at hact
    · exact ih.bind fun rest => preserves_pure _

theorem preserves_exclusive_expireOf (userId : ℤ) :
    Preserves (fun d : Database => Exclusive (seconds now) d.userSubscriptions)
      (expireUserSubscriptionsOf env now userId) := by
  apply Preserves.transaction
  refine (preserves_lockTrafficBillingUserRow _).bind fun _ => ?_
  refine Preserves.bind (preserves_query _) fun due => ?_
  refine (preserves_exclusive_expireRows userId _).bind fun expired => ?_
  refine Preserves.bind (preserves_execute fun d hd => hd) fun _ => ?_
  refine Preserves.bind (preserves_execute fun d hd => hd) fun _ => ?_
  refine Preserves.bind (preserves_execute fun d hd => hd) fun _ => ?_
  refine Preserves.bind ?_ fun _ => preserves_pure _
  apply preserves_writeForwardAccess
  intro d d' hsubs _ hd
  rwa [hsubs]

theorem preserves_exclusive_expire :
    Preserves (fun d : Database => Exclusive (seconds now) d.userSubscriptions)
      (expireUserSubscriptions env now) := by
  have hloop : ∀ userIds n, Preserves
      (fun d : Database => Exclusive (seconds now) d.userSubscriptions)
      (expireUserSubscriptionsLoop env now userIds n) := by
    intro userIds
    induction userIds with
    | nil =>
      intro n
      exact preserves_pure _
    | cons userId userIds ih =>
      intro n
      exact (preserves_exclusive_expireOf userId).bind fun count => ih _
  exact Preserves.bind (preserves_query _) fun userIds => hloop userIds 0

end

theorem exclusive_step (w : PanelClock) (e : SubscriptionEvent) (hback : ComesBackAlone w e)
    (hex : Exclusive (seconds w.now) w.db.userSubscriptions) :
    Exclusive (seconds (stepSubscriptions w e).now) (stepSubscriptions w e).db.userSubscriptions := by
  cases e with
  | advance ms =>
    apply hex.later
    simp only [stepSubscriptions, seconds]
    omega
  | apply env req fault =>
    have hclean : FailsClean (applySubscriptionToUser env w.now req) := failsClean_transaction _
    obtain hsame | ⟨r, h⟩ := hclean.run_cases fault w.db
    · simpa only [stepSubscriptions, hsame] using hex
    · exact exclusive_apply h hback hex
  | cancel env id fault => exact (preserves_exclusive_cancel id).run fault hex
  | setExpiresAt env id expiresAt fault =>
    obtain hsame | ⟨r, h⟩ :=
      (failsClean_withUserSubscriptionLock id (withDatabaseTransaction
        (setUserSubscriptionExpiresAtUnlocked env w.now id expiresAt))).run_cases fault w.db
    · simpa only [stepSubscriptions, setUserSubscriptionExpiresAt, hsame] using hex
    · exact exclusive_setExpiresAt h hback hex
  | extend env id days fault =>
    obtain hsame | ⟨r, h⟩ :=
      (failsClean_withUserSubscriptionLock id (withDatabaseTransaction
        (extendUserSubscriptionUnlocked env w.now id days))).run_cases fault w.db
    · simpa only [stepSubscriptions, extendUserSubscription, hsame] using hex
    · exact exclusive_extend h (hback id rfl) hex
  | expire env fault => exact preserves_exclusive_expire.run fault hex
  | other edit => exact hex

/-- **Port ranges are exclusive along every run in which no lapsed subscription
comes back to ports that are held by then.** -/
theorem ranges_exclusive (w : PanelClock) (es : List SubscriptionEvent)
    (hback : Admissible ComesBackAlone stepSubscriptions w es)
    (hex : Exclusive (seconds w.now) w.db.userSubscriptions) :
    Exclusive (seconds (run stepSubscriptions w es).now)
      (run stepSubscriptions w es).db.userSubscriptions :=
  run_invariant_of_admissible (I := fun w => Exclusive (seconds w.now) w.db.userSubscriptions)
    exclusive_step es w hback hex

/-- A panel with one host of ten ports, one plan of ten ports for a day and two
users. -/
def twoTenants : PanelClock where
  now := 1000000
  db :=
    { users := [{ id := 1 }, { id := 2 }]
      hosts := [{ id := 1, portRangeStart := some 20000, portRangeEnd := some 20009 }]
      subscriptionPlans := [{ id := 1, durationDays := 1, portCount := 10, hostIds := [1] }] }

def buys (userId : ℤ) (target : Option ℤ) : SubscriptionEvent :=
  .apply quietEnv
    { userId, planId := 1, source := .payment, targetSubscriptionId := target } fun _ => none

/-- The same with room for both. -/
def roomForTwo : PanelClock where
  now := twoTenants.now
  db := { twoTenants.db with
    hosts := [{ id := 1, portRangeStart := some 20000, portRangeEnd := some 20019 }] }

/-- A tenant who lapses and renews while another one is there. -/
def lapsedBesideAnother : List SubscriptionEvent :=
  [buys 1 none, .advance 43200000, buys 2 none, .advance 43200000, buys 1 (some 1)]

theorem ranges_exclusive_for_two_tenants :
    Exclusive (seconds (run stepSubscriptions roomForTwo lapsedBesideAnother).now)
        (run stepSubscriptions roomForTwo lapsedBesideAnother).db.userSubscriptions ∧
      (run stepSubscriptions roomForTwo lapsedBesideAnother).db.userSubscriptions.countP (fun s =>
        s.activeAt (seconds (run stepSubscriptions roomForTwo lapsedBesideAnother).now)) = 2 := by
  refine ⟨ranges_exclusive roomForTwo _ ⟨?_, ?_, ?_, ?_, ?_, trivial⟩
    ⟨by decide, by simp [roomForTwo, twoTenants]⟩, by decide +kernel⟩
  iterate 4
    · intro id hid
      cases hid
  · -- the ports of the row that comes back are not those of the other one
    intro id hid s hs _ _ t ht hne _ p hp
    have hrows : ∀ r ∈ (run stepSubscriptions roomForTwo
        (lapsedBesideAnother.take 4)).db.userSubscriptions,
        (r.id = 1 ∧ r.portRangeStart = some 20000 ∧ r.portRangeEnd = some 20009) ∨
          (r.id = 2 ∧ r.portRangeStart = some 20010 ∧ r.portRangeEnd = some 20019) := by
      decide +kernel
    have hs' := hrows s (byKey_mem hs)
    have ht' := hrows t ht
    simp only [UserSubscription.hasPort, decide_eq_true_eq] at hp
    rcases hs' with ⟨hsid, hs₁, hs₂⟩ | ⟨hsid, hs₁, hs₂⟩ <;>
      rcases ht' with ⟨htid, ht₁, ht₂⟩ | ⟨htid, ht₁, ht₂⟩ <;>
      simp only [hs₁, hs₂, ht₁, ht₂, Option.getD_some] at hp <;> omega

/-- The first tenant lapses, the second one is given the range, and the first one
renews. -/
def lapsedAndBack : List SubscriptionEvent :=
  [buys 1 none, .advance 86400000, buys 2 none, buys 1 (some 1)]

theorem ranges_overlap_after_renewal :
    Exclusive (seconds twoTenants.now) twoTenants.db.userSubscriptions ∧
      ¬ Exclusive (seconds (run stepSubscriptions twoTenants lapsedAndBack).now)
        (run stepSubscriptions twoTenants lapsedAndBack).db.userSubscriptions := by
  refine ⟨⟨by decide, by simp [twoTenants]⟩, ?_⟩
  intro hex
  have hboth : ∃ s ∈ (run stepSubscriptions twoTenants lapsedAndBack).db.userSubscriptions,
      ∃ t ∈ (run stepSubscriptions twoTenants lapsedAndBack).db.userSubscriptions,
        (s.id ≠ t.id ∧ s.hasPort 20000 ∧ t.hasPort 20000) ∧
        s.activeAt (seconds (run stepSubscriptions twoTenants lapsedAndBack).now) ∧
        t.activeAt (seconds (run stepSubscriptions twoTenants lapsedAndBack).now) := by
    decide +kernel
  obtain ⟨s, hs, t, ht, ⟨hne, hsp, htp⟩, hsact, htact⟩ := hboth
  exact hex.alone s hs hsact t ht (Ne.symm hne) htact 20000 ⟨hsp, htp⟩

end ForwardX.Panel
