/-
The member that a failover group points its record to, the selection of
`runForwardGroupFailoverForGroups` (`server/repositories/forwardGroupRepository.ts`).

Members have an order by priority and id. What the code does is a cascade of cases; the theorems say
of it which member gets the record, in terms of the first members with a property (`IsFirst`), and
that it comes to rest while the members stay as they are.
-/
import ForwardX.Lib.Run
import ForwardX.Panel.JsValues
import Mathlib.Data.List.Sort

namespace ForwardX.Panel.FailoverSelection

open Run List

/-! ## The selection -/

/-- An evaluated member, with its `memberDdnsValue` for the type of the record. -/
structure Member where
  id : ℤ
  priority : ℤ
  healthy : Bool
  healthPending : Bool := false
  failedLongEnough : Bool := false
  recoveredLongEnough : Bool := false
  value : JsString
  deriving DecidableEq

structure Group where
  activeMemberId : ℤ
  autoFailback : Bool
  lastDdnsValue : JsString

structure Options where
  forceSync : Bool := false
  forcePriority : Bool := false

/-- `due` is `exactDdnsReconciliationDue` for the value that is to be written. -/
structure DdnsSettings where
  enabled : Bool
  due : JsString → Bool

/-- What an evaluation does: nothing while health is pending; the last record is kept; the member
has no address; the record is written for a member, or is there already; or there is no
provider, and only the group is updated. -/
inductive Outcome where
  | hold
  | preserve
  | noValue (member : Member)
  | update (member : Member)
  | current (member : Member)
  | skip (member : Member)

def inOrder (left right : Member) : Bool :=
  left.priority < right.priority || (left.priority = right.priority && left.id ≤ right.id)

section

variable (group : Group) (evaluated : List Member)

def active : Option Member := evaluated.find? fun m => m.id = group.activeMemberId

def healthyMembers : List Member :=
  (evaluated.filter Member.healthy).insertionSort fun left right => inOrder left right = true

def firstHealthy : Option Member := (healthyMembers evaluated).head?

def failbackCandidate : Option Member := (healthyMembers evaluated).find? Member.recoveredLongEnough

def held : Bool :=
  ((active group evaluated).any Member.healthPending && trim group.lastDdnsValue ≠ []) ||
    ((active group evaluated).isNone && (firstHealthy evaluated).isNone && evaluated.any Member.healthPending)

def failback : Option Member :=
  if group.autoFailback then
    match active group evaluated, failbackCandidate evaluated with
    | some active, some candidate => if candidate.priority < active.priority then some candidate else none
    | _, _ => none
  else none

def shouldFailover : Bool :=
  match active group evaluated with
  | none => true
  | some active => !active.healthy && active.failedLongEnough

def next (options : Options) : Option Member :=
  if options.forcePriority then firstHealthy evaluated
  else
    match failback group evaluated with
    | some candidate => some candidate
    | none => if shouldFailover group evaluated then firstHealthy evaluated else active group evaluated

def syncSingleForwardGroupDdns (settings : DdnsSettings) (options : Options) (member : Member) : Outcome :=
  if !settings.enabled then .skip member
  else if !options.forceSync && group.activeMemberId = member.id && group.lastDdnsValue = member.value &&
      !settings.due member.value then .current member
  else .update member

def runForwardGroupFailover (settings : DdnsSettings) (options : Options) : Outcome :=
  if held group evaluated then .hold
  else
    match next group evaluated options with
    | none => .preserve
    | some member =>
      if member.value = [] then .noValue member else syncSingleForwardGroupDdns group settings options member

end

def Outcome.activates : Outcome → Option Member
  | .update member | .current member | .skip member => some member
  | _ => none

def Outcome.PointsTo (outcome : Outcome) (member : Member) : Prop :=
  outcome = .update member ∨ outcome = .current member

/-! ## When the record is where it should be -/

def IsFirst (p : Member → Prop) (evaluated : List Member) (m : Member) : Prop :=
  m ∈ evaluated ∧ p m ∧ ∀ m' ∈ evaluated, p m' → inOrder m m' = true

section

variable {group : Group} {evaluated : List Member} {settings : DdnsSettings} {options : Options}

instance : IsTrans Member fun left right => inOrder left right = true where
  trans a b c hab hbc := by
    simp only [inOrder, Bool.or_eq_true, Bool.and_eq_true, decide_eq_true_eq] at *
    omega

instance : Std.Total fun left right : Member => inOrder left right = true where
  total a b := by
    simp only [inOrder, Bool.or_eq_true, Bool.and_eq_true, decide_eq_true_eq]
    omega

variable {m : Member}

theorem mem_healthyMembers : m ∈ healthyMembers evaluated ↔ m ∈ evaluated ∧ m.healthy = true := by
  rw [healthyMembers, mem_insertionSort, mem_filter]

theorem isFirst_of_find {p : Member → Bool} (h : (healthyMembers evaluated).find? p = some m) :
    IsFirst (fun m => m.healthy = true ∧ p m = true) evaluated m := by
  have hmem := mem_healthyMembers.mp (mem_of_find?_eq_some h)
  refine ⟨hmem.1, ⟨hmem.2, find?_some h⟩, fun m' hm' hp' => ?_⟩
  obtain ⟨-, before, after, hsplit, hbefore⟩ := find?_eq_some_iff_append.mp h
  have hsorted : (healthyMembers evaluated).Pairwise fun a b => inOrder a b = true :=
    pairwise_insertionSort _ _
  have hthere : m' ∈ healthyMembers evaluated := mem_healthyMembers.mpr ⟨hm', hp'.1⟩
  rw [hsplit] at hsorted hthere
  obtain hthere | hthere := mem_append.mp hthere
  · exact absurd hp'.2 (by simpa using hbefore m' hthere)
  · obtain rfl | hthere := mem_cons.mp hthere
    · exact (Std.Total.total (r := fun left right : Member => inOrder left right = true) m' m').elim id id
    · exact (pairwise_cons.mp (pairwise_append.mp hsorted).2.1).1 m' hthere

/-- Ids are a primary key, so no two members are both the first. -/
theorem IsFirst.unique {p : Member → Prop} {m' : Member} (hids : (evaluated.map Member.id).Nodup)
    (h : IsFirst p evaluated m) (h' : IsFirst p evaluated m') : m = m' := by
  obtain ⟨hmem, hm, hleast⟩ := h
  obtain ⟨hmem', hm', hleast'⟩ := h'
  have hle := hleast m' hmem' hm'
  have hge := hleast' m hmem hm
  simp only [inOrder, Bool.or_eq_true, Bool.and_eq_true, decide_eq_true_eq] at hle hge
  exact inj_on_of_nodup_map hids hmem hmem' (by omega)

def Failed (group : Group) (evaluated : List Member) : Prop :=
  ∃ a, active group evaluated = some a ∧ a.healthy = false ∧ a.failedLongEnough = true

/-- A failback is due, and it goes to `c`: a healthy member that has recovered and comes before the active
one. -/
def FailsBackTo (group : Group) (evaluated : List Member) (c : Member) : Prop :=
  group.autoFailback = true ∧ IsFirst (fun m => m.healthy = true ∧ m.recoveredLongEnough = true) evaluated c ∧
    ∃ a, active group evaluated = some a ∧ c.priority < a.priority

structure Due (group : Group) (evaluated : List Member) : Prop where
  missing : active group evaluated = none ∨ Failed group evaluated
  free : ¬ ((active group evaluated).any Member.healthPending = true ∧ trim group.lastDdnsValue ≠ [])
  usable : ∃ m ∈ evaluated, m.healthy = true ∧ m.value ≠ []

structure Sound (group : Group) (evaluated : List Member) (outcome : Outcome) : Prop where
  changes : ∀ m, outcome.activates = some m → m.id ≠ group.activeMemberId →
    active group evaluated = none ∨ Failed group evaluated ∨ group.autoFailback = true ∧
      ∃ a c, active group evaluated = some a ∧ c ∈ evaluated ∧ c.healthy = true ∧ c.recoveredLongEnough = true ∧
        c.priority < a.priority
  failsBack : ∀ m a, outcome.activates = some m → active group evaluated = some a → m ≠ a →
    (Failed group evaluated → (failback group evaluated).isSome = true) →
      IsFirst (fun m => m.healthy = true ∧ m.recoveredLongEnough = true) evaluated m
  points : Due group evaluated →
    ∃ m, IsFirst (fun m => m.healthy = true ∧ m.value ≠ []) evaluated m ∧ outcome.PointsTo m

theorem failback_eq_some {c : Member} (h : failback group evaluated = some c) :
    group.autoFailback = true ∧ failbackCandidate evaluated = some c ∧
      ∃ a, active group evaluated = some a ∧ c.priority < a.priority := by
  rw [failback] at h
  split_ifs at h with hauto
  split at h
  · rename_i a candidate hactive hcandidate
    split_ifs at h with hlt
    obtain rfl := Option.some.inj h
    exact ⟨hauto, hcandidate, a, hactive, hlt⟩
  · cases h

theorem failsBackTo_of_failback (h : failback group evaluated = some m) : FailsBackTo group evaluated m := by
  obtain ⟨hauto, hcandidate, ha⟩ := failback_eq_some h
  exact ⟨hauto, isFirst_of_find hcandidate, ha⟩

theorem failback_of_failsBackTo (hids : (evaluated.map Member.id).Nodup)
    (h : FailsBackTo group evaluated m) : failback group evaluated = some m := by
  obtain ⟨hauto, hfirst, a, hactive, hlt⟩ := h
  have hthere : (failbackCandidate evaluated).isSome = true := by
    rw [failbackCandidate, find?_isSome]
    exact ⟨m, mem_healthyMembers.mpr ⟨hfirst.1, hfirst.2.1.1⟩, hfirst.2.1.2⟩
  obtain ⟨c, hcandidate⟩ := Option.isSome_iff_exists.mp hthere
  obtain rfl := hfirst.unique hids (isFirst_of_find hcandidate)
  rw [failback, if_pos hauto, hactive, hcandidate]
  exact if_pos hlt

theorem isFirst_of_firstHealthy (h : firstHealthy evaluated = some m) :
    IsFirst (fun m => m.healthy = true) evaluated m := by
  obtain ⟨hmem, ⟨hhealthy, -⟩, hleast⟩ := isFirst_of_find (p := fun _ => true) (m := m) (by
    rw [← h, firstHealthy]
    cases healthyMembers evaluated <;> rfl)
  exact ⟨hmem, hhealthy, fun m' hm' h' => hleast m' hm' ⟨h', rfl⟩⟩

theorem shouldFailover_iff :
    shouldFailover group evaluated = true ↔ active group evaluated = none ∨ Failed group evaluated := by
  rw [shouldFailover, Failed]
  cases active group evaluated <;> simp

/-- Where a member comes from: a failback, a failover, or it is the active one. -/
theorem next_cases (hforce : options.forcePriority = false)
    (h : next group evaluated options = some m) :
    failback group evaluated = some m ∨
      failback group evaluated = none ∧ (active group evaluated = none ∨ Failed group evaluated) ∨
      active group evaluated = some m := by
  rw [next, hforce, if_neg Bool.false_ne_true] at h
  cases hback : failback group evaluated with
  | some c =>
    rw [hback] at h
    exact .inl h
  | none =>
    rw [hback] at h
    dsimp only at h
    split_ifs at h with hfailover
    · exact .inr (.inl ⟨rfl, shouldFailover_iff.mp hfailover⟩)
    · exact .inr (.inr h)

theorem exists_firstHealthy (hm : m ∈ evaluated) (h : m.healthy = true) :
    ∃ first, firstHealthy evaluated = some first := by
  obtain ⟨first, rest, heq⟩ := exists_cons_of_ne_nil (ne_nil_of_mem (mem_healthyMembers.mpr ⟨hm, h⟩))
  exact ⟨first, by rw [firstHealthy, heq]; rfl⟩

theorem of_activates
    (h : (runForwardGroupFailover group evaluated settings options).activates = some m) :
    held group evaluated = false ∧ next group evaluated options = some m ∧ m.value ≠ [] := by
  rw [runForwardGroupFailover] at h
  split_ifs at h with hheld
  · cases h
  · split at h
    · cases h
    · rename_i member hnext
      split_ifs at h with hvalue
      · cases h
      · have hsame : member = m := by
          rw [syncSingleForwardGroupDdns] at h
          split_ifs at h <;> exact Option.some.inj h
        exact ⟨by simpa using hheld, hsame ▸ hnext, hsame ▸ hvalue⟩

theorem activates_of_pointsTo {outcome : Outcome} (h : outcome.PointsTo m) :
    outcome.activates = some m := by
  obtain rfl | rfl := h <;> rfl

theorem next_of_due (hforce : options.forcePriority = false) (hdue : Due group evaluated) :
    held group evaluated = false ∧
      next group evaluated options = (failback group evaluated).or (firstHealthy evaluated) := by
  obtain ⟨m, hm, hhealthy, -⟩ := hdue.usable
  obtain ⟨first, hfirst⟩ := exists_firstHealthy hm hhealthy
  refine ⟨?_, ?_⟩
  · rw [held, hfirst, Bool.or_eq_false_iff]
    refine ⟨?_, by simp⟩
    simpa [Bool.and_eq_false_iff, or_iff_not_imp_left] using fun h => not_not.mp fun hne => hdue.free ⟨h, hne⟩
  · rw [next, hforce, if_neg Bool.false_ne_true, if_pos (shouldFailover_iff.mpr hdue.missing)]
    cases failback group evaluated <;> rfl

/-- **Where the record is pointed.** The active member changes for a reason, a failback goes to the first
member that has recovered, and the record goes where it is needed: this holds exactly when the member whose
turn it is has a value. The selection looks at one member only, so without a failback the first healthy
member has to have one, and the member of a failback has to have one before all the other healthy ones. -/
theorem failover_points_iff (group : Group) (evaluated : List Member)
    (hids : (evaluated.map Member.id).Nodup) (settings : DdnsSettings) (options : Options)
    (hforce : options.forcePriority = false) :
    Sound group evaluated (runForwardGroupFailover group evaluated settings options) ↔
      (Due group evaluated → settings.enabled = true ∧
        ((∀ c, ¬ FailsBackTo group evaluated c) →
          ∀ m, IsFirst (fun m => m.healthy = true) evaluated m → m.value ≠ []) ∧
        ∀ c, FailsBackTo group evaluated c →
          IsFirst (fun m => m.healthy = true ∧ m.value ≠ []) evaluated c) := by
  constructor
  · intro h hdue
    obtain ⟨m, hfirst, hpoints⟩ := h.points hdue
    obtain ⟨-, hnext⟩ := next_of_due hforce hdue
    obtain ⟨hheld, hchosen, hvalue⟩ := of_activates (activates_of_pointsTo hpoints)
    have hturn := hnext.symm.trans hchosen
    refine ⟨?_, fun hnone m' hm' => ?_, fun c hc => ?_⟩
    rotate_left
    · cases hback : failback group evaluated with
      | some c => exact absurd (failsBackTo_of_failback hback) (hnone c)
      | none =>
        rw [hback, Option.none_or] at hturn
        rw [hm'.unique hids (isFirst_of_firstHealthy hturn)]
        exact hvalue
    · rw [failback_of_failsBackTo hids hc] at hturn
      obtain rfl := Option.some.inj hturn
      exact hfirst
    by_contra hdisabled
    simp [runForwardGroupFailover, hheld, hchosen, syncSingleForwardGroupDdns, hvalue,
      Outcome.PointsTo] at hpoints
    split_ifs at hpoints <;> simp_all
  · intro hwhen
    refine ⟨fun m hm hne => ?_, fun m a hm hactive hne hfailed => ?_, fun hdue => ?_⟩
    · obtain hback | ⟨-, hdue⟩ | hsame := next_cases hforce (of_activates hm).2.1
      · obtain ⟨hauto, hcandidate, a, hactive, hlt⟩ := failback_eq_some hback
        obtain ⟨hmem, ⟨hhealthy, hrecovered⟩, -⟩ := isFirst_of_find hcandidate
        exact .inr (.inr ⟨hauto, a, m, hactive, hmem, hhealthy, hrecovered, hlt⟩)
      · exact hdue.imp_right .inl
      · exact absurd (by simpa using List.find?_some hsame) hne
    · obtain hback | ⟨hnone, hdue⟩ | hsame := next_cases hforce (of_activates hm).2.1
      · exact isFirst_of_find (failback_eq_some hback).2.1
      · have hfailing : Failed group evaluated := hdue.resolve_left (by rw [hactive]; nofun)
        exact absurd (hfailed hfailing) (by rw [hnone]; nofun)
      · exact absurd (Option.some.inj (hsame.symm.trans hactive)) hne
    · obtain ⟨henabled, hhead, hback⟩ := hwhen hdue
      obtain ⟨hheld, hnext⟩ := next_of_due hforce hdue
      obtain ⟨m, hchosen, hfirst⟩ : ∃ m, (failback group evaluated).or (firstHealthy evaluated) = some m ∧
          IsFirst (fun m => m.healthy = true ∧ m.value ≠ []) evaluated m := by
        cases hfailback : failback group evaluated with
        | some c => exact ⟨c, rfl, hback c (failsBackTo_of_failback hfailback)⟩
        | none =>
          obtain ⟨m, hm, hhealthy, -⟩ := hdue.usable
          obtain ⟨first, hfirst⟩ := exists_firstHealthy hm hhealthy
          have hleast := isFirst_of_firstHealthy hfirst
          refine ⟨first, hfirst, hleast.1, ⟨hleast.2.1, hhead (fun c hc => ?_) first hleast⟩,
            fun m' hm' h' => hleast.2.2 m' hm' h'.1⟩
          rw [failback_of_failsBackTo hids hc] at hfailback
          cases hfailback
      refine ⟨m, hfirst, ?_⟩
      simp only [runForwardGroupFailover, hheld, hnext, hchosen, syncSingleForwardGroupDdns,
        Bool.false_eq_true, if_false, hfirst.2.1.2, henabled, Bool.not_true]
      split_ifs
      · exact .inr rfl
      · exact .inl rfl

end

/-! ## Evaluations of the same members -/

/-- `stillCurrent` is the answer of `failoverAgentSelectionStillCurrent`, `accepted` whether the provider takes
the record, `retained` the `forwardGroupDdnsFallbackValue` of the group. -/
structure Evaluation where
  settings : DdnsSettings
  options : Options
  stillCurrent : Bool
  accepted : Bool
  retained : JsString

/-- A provider that refuses the retained record leaves the group without an active member; `null` is 0 to
`Number`. -/
def preserveForwardGroupDdns (group : Group) (e : Evaluation) : Group :=
  if !e.settings.enabled then
    { group with lastDdnsValue := if e.retained = [] then group.lastDdnsValue else e.retained }
  else if e.retained = [] then group
  else if !(e.options.forceSync || e.settings.due e.retained) then { group with lastDdnsValue := e.retained }
  else if e.accepted then { group with lastDdnsValue := e.retained }
  else { group with activeMemberId := 0 }

def evaluate (evaluated : List Member) (group : Group) (e : Evaluation) : Group :=
  match runForwardGroupFailover group evaluated e.settings e.options with
  | .update m =>
    if e.stillCurrent && e.accepted then { group with activeMemberId := m.id, lastDdnsValue := m.value }
    else group
  | .current m | .skip m =>
    if e.stillCurrent then { group with activeMemberId := m.id, lastDdnsValue := m.value } else group
  | .preserve => if e.stillCurrent then preserveForwardGroupDdns group e else group
  | .hold | .noValue _ => group

/-- No evaluation moves the group any more. Without a healthy member only a record that the provider refuses
to keep can move it, and what that leaves is no active member. -/
structure Settled (evaluated : List Member) (group : Group) : Prop where
  next : ∀ m, next group evaluated {} = some m → m.id = group.activeMemberId
  empty : firstHealthy evaluated = none → group.activeMemberId = 0

section

variable {evaluated : List Member} {group group' : Group} {m : Member} {options : Options}

theorem settled_congr (hid : group'.activeMemberId = group.activeMemberId)
    (hauto : group'.autoFailback = group.autoFailback) (h : Settled evaluated group) :
    Settled evaluated group' := by
  have hactive : active group' evaluated = active group evaluated := by rw [active, active, hid]
  have hnext : next group' evaluated {} = next group evaluated {} := by
    rw [next, next, failback, failback, shouldFailover, shouldFailover, hauto, hactive]
  constructor
  · rw [hnext, hid]
    exact h.next
  · rw [hid]
    exact h.empty

theorem next_of_unforced (hforce : options.forcePriority = false) :
    next group evaluated options = next group evaluated {} := by
  rw [next, hforce]
  rfl

theorem not_healthy (h : firstHealthy evaluated = none) (hm : m ∈ evaluated) : m.healthy = false := by
  by_contra hhealthy
  obtain ⟨first, hfirst⟩ := exists_firstHealthy hm (by simpa using hhealthy)
  rw [h] at hfirst
  cases hfirst

/-- There is a member to switch to as long as a member is healthy. -/
theorem firstHealthy_of_next_none (h : next group evaluated options = none) : firstHealthy evaluated = none := by
  rw [next] at h
  by_cases hforce : options.forcePriority = true
  · rwa [if_pos hforce] at h
  rw [if_neg hforce] at h
  cases hback : failback group evaluated with
  | some c =>
    rw [hback] at h
    cases h
  | none =>
    rw [hback] at h
    dsimp only at h
    by_cases hfailover : shouldFailover group evaluated = true
    · rwa [if_pos hfailover] at h
    · rw [if_neg hfailover] at h
      exact absurd (shouldFailover_iff.mpr (.inl h)) hfailover

/-- A member that is not the active one is switched to because it is healthy. -/
theorem next_healthy (h : next group evaluated options = some m) :
    (m ∈ evaluated ∧ m.healthy = true) ∨ m.id = group.activeMemberId := by
  have hhead : firstHealthy evaluated = some m → m ∈ evaluated ∧ m.healthy = true := fun hfirst =>
    ⟨(isFirst_of_firstHealthy hfirst).1, (isFirst_of_firstHealthy hfirst).2.1⟩
  cases hforce : options.forcePriority with
  | true =>
    rw [next, if_pos hforce] at h
    exact .inl (hhead h)
  | false =>
    rw [next_of_unforced hforce] at h
    obtain hback | ⟨hnone, hdue⟩ | hactive := next_cases rfl h
    · obtain ⟨-, hfirst, -⟩ := failsBackTo_of_failback hback
      exact .inl ⟨hfirst.1, hfirst.2.1.1⟩
    · rw [next, hnone] at h
      exact .inl (hhead ((if_pos (shouldFailover_iff.mpr hdue)).symm.trans h))
    · exact .inr (by simpa using find?_some hactive)

theorem settled_of_empty (hnone : firstHealthy evaluated = none) (hid : group.activeMemberId = 0) :
    Settled evaluated group := by
  refine ⟨fun m hm => (next_healthy hm).resolve_left fun ⟨hmem, hhealthy⟩ => ?_, fun _ => hid⟩
  rw [not_healthy hnone hmem] at hhealthy
  cases hhealthy

/-- The active member is healthy, and there is nothing to fail back to. -/
theorem settled_of_first (hids : (evaluated.map Member.id).Nodup) (hmem : m ∈ evaluated)
    (hhealthy : m.healthy = true)
    (hfirst : ∀ c, failbackCandidate evaluated = some c → inOrder m c = true)
    (hid : group.activeMemberId = m.id) : Settled evaluated group := by
  have hactive : ∀ a, active group evaluated = some a → a = m := fun a ha =>
    inj_on_of_nodup_map hids (mem_of_find?_eq_some ha) hmem
      ((by simpa using find?_some ha : a.id = group.activeMemberId).trans hid)
  refine ⟨fun m' hm' => ?_, fun hnone => absurd hhealthy (by simp [not_healthy hnone hmem])⟩
  obtain hback | ⟨-, hnone | ⟨a, ha, hfailed, -⟩⟩ | hsame := next_cases rfl hm'
  · obtain ⟨-, hcandidate, a, ha, hlt⟩ := failback_eq_some hback
    have horder := hfirst m' hcandidate
    rw [hactive a ha] at hlt
    simp only [inOrder, Bool.or_eq_true, Bool.and_eq_true, decide_eq_true_eq] at horder
    omega
  · exact absurd hid.symm (by simpa using find?_eq_none.mp hnone m hmem)
  · rw [hactive a ha, hhealthy] at hfailed
    cases hfailed
  · simpa using find?_some hsame

theorem settled_of_next (hids : (evaluated.map Member.id).Nodup)
    (h : next group evaluated options = some m) (hmem : m ∈ evaluated) (hhealthy : m.healthy = true)
    (hid : group'.activeMemberId = m.id) (hauto : group'.autoFailback = group.autoFailback) :
    Settled evaluated group' := by
  have hhead : firstHealthy evaluated = some m → Settled evaluated group' := fun hfirst =>
    settled_of_first hids hmem hhealthy (fun c hc =>
      (isFirst_of_firstHealthy hfirst).2.2 c (isFirst_of_find hc).1 (isFirst_of_find hc).2.1.1) hid
  cases hforce : options.forcePriority with
  | true =>
    rw [next, if_pos hforce] at h
    exact hhead h
  | false =>
    rw [next_of_unforced hforce] at h
    obtain hback | ⟨hnone, hdue⟩ | hactive := next_cases rfl h
    · obtain ⟨-, -, hleast⟩ := isFirst_of_find (failback_eq_some hback).2.1
      exact settled_of_first hids hmem hhealthy (fun c hc =>
        hleast c (isFirst_of_find hc).1 (isFirst_of_find hc).2.1) hid
    · rw [next, hnone] at h
      exact hhead ((if_pos (shouldFailover_iff.mpr hdue)).symm.trans h)
    · -- the active member stays, and it will for the same reasons
      have hsame : m.id = group.activeMemberId := by simpa using find?_some hactive
      refine settled_congr (hid.trans hsame) hauto ⟨fun m' hm' => ?_, fun hnone => ?_⟩
      · rw [← Option.some.inj (h.symm.trans hm'), hsame]
      · rw [not_healthy hnone hmem] at hhealthy
        cases hhealthy

/-- What one evaluation does to the active member: nothing, or a switch to a healthy one, or, with no healthy
member and a provider that fails, it is taken away. -/
theorem evaluate_cases (evaluated : List Member) (group : Group) (e : Evaluation) :
    (evaluate evaluated group e).autoFailback = group.autoFailback ∧
      ((evaluate evaluated group e).activeMemberId = group.activeMemberId ∨
        (∃ m ∈ evaluated, next group evaluated e.options = some m ∧ m.healthy = true ∧
          (evaluate evaluated group e).activeMemberId = m.id) ∨
        firstHealthy evaluated = none ∧ (evaluate evaluated group e).activeMemberId = 0) := by
  have hactivates : ∀ m, (runForwardGroupFailover group evaluated e.settings e.options).activates = some m →
      m.id = group.activeMemberId ∨
        ∃ m' ∈ evaluated, next group evaluated e.options = some m' ∧ m'.healthy = true ∧ m.id = m'.id := by
    intro m hm
    have hnext := (of_activates hm).2.1
    obtain ⟨hmem, hhealthy⟩ | hsame := next_healthy hnext
    · exact .inr ⟨m, hmem, hnext, hhealthy, rfl⟩
    · exact .inl hsame
  unfold evaluate
  cases hrun : runForwardGroupFailover group evaluated e.settings e.options with
  | hold | noValue => exact ⟨rfl, .inl rfl⟩
  | update m | current m | skip m =>
    rw [hrun] at hactivates
    dsimp only
    split_ifs
    · exact ⟨rfl, (hactivates m rfl).imp_right .inl⟩
    · exact ⟨rfl, .inl rfl⟩
  | preserve =>
    have hempty : firstHealthy evaluated = none := by
      rw [runForwardGroupFailover] at hrun
      split_ifs at hrun
      split at hrun
      · exact firstHealthy_of_next_none (by assumption)
      · rw [syncSingleForwardGroupDdns] at hrun
        split_ifs at hrun
    dsimp only
    unfold preserveForwardGroupDdns
    split_ifs <;> first
      | exact ⟨rfl, .inl rfl⟩
      | exact ⟨rfl, .inr (.inr ⟨hempty, rfl⟩)⟩

/-- **No flapping.** While the state of the members stays as it is, the active member changes at most once,
whatever the provider answers: an evaluation that is not forced to the priorities never changes it again. -/
theorem switches_once (hids : (evaluated.map Member.id).Nodup) (es fs : List Evaluation)
    (hforce : ∀ e ∈ fs, e.options.forcePriority = false)
    (hmoved : (run (evaluate evaluated) group es).activeMemberId ≠ group.activeMemberId) :
    (run (evaluate evaluated) group (es ++ fs)).activeMemberId
      = (run (evaluate evaluated) group es).activeMemberId := by
  have hsettled := run_invariant (I := fun g => g.activeMemberId = group.activeMemberId ∨ Settled evaluated g)
    (fun g e hg => by
      obtain ⟨hauto, hsame | ⟨m, hmem, hnext, hhealthy, hid⟩ | ⟨hnone, hid⟩⟩ := evaluate_cases evaluated g e
      · exact hg.imp hsame.trans (settled_congr hsame hauto)
      · exact .inr (settled_of_next hids hnext hmem hhealthy hid hauto)
      · exact .inr (settled_of_empty hnone hid)) es group (.inl rfl)
  rw [run_append]
  generalize run (evaluate evaluated) group es = g₀ at hsettled hmoved ⊢
  refine (run_invariant_of_forall (I := fun g => Settled evaluated g ∧ g.activeMemberId = g₀.activeMemberId)
    (fun g e he hg => ?_) fs hforce g₀ ⟨hsettled.resolve_left hmoved, rfl⟩).2
  obtain ⟨hauto, hcases⟩ := evaluate_cases evaluated g e
  have hsame : (evaluate evaluated g e).activeMemberId = g.activeMemberId := by
    obtain hsame | ⟨m, -, hnext, -, hid⟩ | ⟨hnone, hid⟩ := hcases
    · exact hsame
    · rw [next_of_unforced he] at hnext
      exact hid.trans (hg.1.next m hnext)
    · exact hid.trans (hg.1.empty hnone).symm
  exact ⟨settled_congr hsame hauto hg.1, hsame.trans hg.2⟩

end

/-- The first member has no address for the record, the second one has. -/
def unresolved : List Member :=
  [{ id := 1, priority := 1, healthy := true, value := [] },
    { id := 2, priority := 2, healthy := true, value := js "192.0.2.2" }]

theorem failover_points_iff_unresolved :
    Sound ⟨0, true, []⟩ unresolved.tail
      (runForwardGroupFailover ⟨0, true, []⟩ unresolved.tail ⟨true, fun _ => true⟩ {}) := by
  refine (failover_points_iff _ _ (by decide) _ _ rfl).mpr fun _ => ⟨rfl, fun _ m hm => ?_, fun c hc => ?_⟩
  · obtain rfl := List.mem_singleton.mp hm.1
    decide
  · obtain ⟨-, -, a, ha, -⟩ := hc
    cases ha

theorem switches_once_failback :
    let recovered : List Member :=
      [{ id := 1, priority := 1, healthy := true, recoveredLongEnough := true, value := js "192.0.2.1" },
        { id := 2, priority := 2, healthy := true, value := js "192.0.2.2" }]
    let e : Evaluation := ⟨⟨true, fun _ => true⟩, {}, true, true, []⟩
    (run (evaluate recovered) ⟨2, true, []⟩ ([e] ++ [e, e])).activeMemberId = 1 :=
  (switches_once (by decide) [_] [_, _] (by decide) (by decide)).trans (by decide)

/-- **The second member is not tried**: the group is left without an active member. -/
theorem member_with_address_skipped :
    let outcome := runForwardGroupFailover ⟨0, true, []⟩ unresolved ⟨true, fun _ => true⟩ {}
    outcome.activates = none ∧ ¬ Sound ⟨0, true, []⟩ unresolved outcome := by
  intro outcome
  have hnone : outcome.activates = none := by decide
  refine ⟨hnone, fun h => ?_⟩
  obtain ⟨m, -, hpoints⟩ := h.points
    ⟨.inl rfl, by decide, _, List.mem_of_mem_tail List.mem_cons_self, rfl, by decide⟩
  exact absurd (activates_of_pointsTo hpoints) (by rw [hnone]; nofun)

end ForwardX.Panel.FailoverSelection
