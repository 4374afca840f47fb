/-
The health of the members of a forward group, `server/repositories/forwardGroupRepository.ts`.
-/
import Mathlib.Order.Interval.Set.Defs
import Mathlib.Algebra.Order.Group.Int

namespace ForwardX.Panel.GroupHealth

/-! ## Rows -/

def toColumn (instant : ℤ) : ℤ := instant / 1000

def toDate (column : Option ℤ) : Option ℤ := column.map (· * 1000)

inductive HealthStatus where
  | unknown
  | healthy
  | unhealthy
  deriving DecidableEq

inductive MemberType where
  | host
  | tunnel
  deriving DecidableEq

structure Member where
  memberType : MemberType := .host
  isEnabled : Bool := true
  healthStatus : HealthStatus := .unknown
  chinaHealthStatus : HealthStatus := .unknown
  chinaHealthCheckedAt : Option ℤ := none
  failureSince : Option ℤ := none
  healthySince : Option ℤ := none
  lastCheckedAt : Option ℤ := none
  updatedAt : ℤ

inductive GroupMode where
  | failover
  | entry
  deriving DecidableEq

structure Group where
  groupMode : GroupMode
  chinaHealthCheckEnabled : Bool := false
  failoverSeconds : ℤ := 60
  recoverSeconds : ℤ := 120
  updatedAt : ℤ

variable (group : Group)

def forwardGroupFailoverDelayMs : ℤ :=
  max 10 (if group.failoverSeconds = 0 then 60 else group.failoverSeconds) * 1000

def forwardGroupRecoverDelayMs : ℤ :=
  max 10 (if group.recoverSeconds = 0 then 120 else group.recoverSeconds) * 1000

/-- The latest probe of a rule. The Agent's decision is `none` for an Agent that makes none. -/
structure Probe where
  recordedAt : ℤ
  healthStatus : Option HealthStatus := none
  isTimeout : Bool := false

/-- A child rule of a member, and whether its template is enabled and not being deleted. -/
structure Rule where
  templateEnabled : Bool := true
  isEnabled : Bool := true
  pendingDelete : Bool := false
  isRunning : Bool := true
  latestTcping : Option Probe := none

/-! ## Liveness -/

def hostOnlineTtlMs : ℤ := 150 * 1000

structure FastState where
  confirmedOffline : Bool
  lastSeenAt : ℤ
  lastOfflineAt : Option ℤ := none

structure Host where
  found : Bool := true
  fastState : Option FastState := none
  authenticatedAt : ℤ := 0
  lastHeartbeat : ℤ := 0
  lifecycleAt : Option ℤ := none

/-- The signature is left out; it changes whenever one of these does. -/
structure MemberAgentLiveness where
  available : Bool
  failureSince : Option ℤ := none
  lastOfflineAt : Option ℤ := none

def Host.lastSeenAt (host : Host) : ℤ :=
  match host.fastState with
  | some fastState => fastState.lastSeenAt
  | none => max host.authenticatedAt host.lastHeartbeat

def resolveMemberAgentLiveness (host : Host) (now : ℤ) : MemberAgentLiveness :=
  let legacyActivityRecently := 0 < host.lastSeenAt ∧ now - min host.lastSeenAt now ≤ hostOnlineTtlMs
  let available := host.found && match host.fastState with
    | some fastState => !fastState.confirmedOffline
    | none => decide legacyActivityRecently
  let failureAt := if 0 < host.lastSeenAt then min host.lastSeenAt now else min (host.lifecycleAt.getD now) now
  { available
    failureSince := if available then none else some failureAt
    lastOfflineAt := host.fastState.bind FastState.lastOfflineAt }

/-- A sample from before the Agent was last offline is not current. -/
def agentHealthSampleIsCurrent (liveness : MemberAgentLiveness) (sampleAt : Option ℤ) : Bool :=
  match liveness.lastOfflineAt with
  | none => true
  | some lastOfflineAt => lastOfflineAt < sampleAt.getD 0

/-! ## Samples -/

def freshnessTtlMs : ℤ := 5 * 60 * 1000

inductive HealthState where
  | healthy
  | unhealthy
  | pending
  | stale
  deriving DecidableEq

/-- `forwardGroupChinaHealthStateAt` and `forwardGroupAgentHealthStateAt`, on the columns that each
of them reads. -/
def healthStateAt (status : HealthStatus) (checkedAt : Option ℤ) (now : ℤ) : HealthState :=
  let checkedAt := checkedAt.getD 0
  let fresh := 0 < checkedAt ∧ checkedAt ≤ now + 60000 ∧ now - checkedAt < freshnessTtlMs
  match status with
  | .unknown => .pending
  | .healthy => if fresh then .healthy else .stale
  | .unhealthy => if fresh then .unhealthy else .stale

variable (member : Member)

def forwardGroupChinaHealthStateAt (now : ℤ) : HealthState :=
  healthStateAt member.chinaHealthStatus (toDate member.chinaHealthCheckedAt) now

def forwardGroupAgentHealthStateAt (now : ℤ) : HealthState :=
  healthStateAt member.healthStatus (toDate member.lastCheckedAt) now

/-- `freshForwardGroupRuleProbe`. A probe is still fresh when it is as old as allowed. -/
def Probe.fresh (probe : Probe) (now : ℤ) : Bool :=
  -60000 ≤ now - probe.recordedAt * 1000 && now - probe.recordedAt * 1000 ≤ freshnessTtlMs

/-! ## Health -/

/-- What an evaluation has found out about a member before it looks at the windows. -/
structure Findings where
  healthy : Bool := false
  pending : Bool := false
  failureFinal : Bool := false
  healthFinal : Bool := false
  observedFailureSince : Option ℤ := none
  expiresAt : Option ℤ := none

structure Health where
  healthy : Bool
  healthPending : Bool
  failureSince : Option ℤ
  healthySince : Option ℤ
  failedLongEnough : Bool
  recoveredLongEnough : Bool
  expiresAt : Option ℤ
  deriving DecidableEq

/-- The failure began when the last evaluations say, or earlier if that is observed. -/
def failureStart (previous observed : Option ℤ) (now : ℤ) : ℤ :=
  let start := (previous.or observed).getD now
  match observed with
  | some observed => if observed < start then observed else start
  | none => start

/-- The health of a member whose findings are of `now`, as computed at `later`. -/
def conclude (found : Findings) (now later : ℤ) : Health :=
  let failureSince :=
    if found.healthy || found.pending then none
    else some (failureStart (toDate member.failureSince) found.observedFailureSince now)
  let healthySince := if found.healthy then some ((toDate member.healthySince).getD now) else none
  { healthy := found.healthy
    healthPending := found.pending
    failureSince
    healthySince
    failedLongEnough := found.failureFinal || failureSince.any fun since => forwardGroupFailoverDelayMs group ≤ later - since
    recoveredLongEnough := (found.healthy && found.healthFinal) ||
      healthySince.any fun since => forwardGroupRecoverDelayMs group ≤ later - since
    expiresAt := found.expiresAt }

/-! ## Failover groups -/

inductive RuleHealth where
  | blocked
  | reconnected
  | expired (since : ℤ)
  | missing (expiresAt : ℤ)
  | undecided (expiresAt : ℤ)
  | failed (expiresAt : ℤ)
  | timedOut (expiresAt : ℤ)
  | working (final : Bool) (expiresAt : ℤ)

def waitingSince : ℤ := ((toDate member.lastCheckedAt).getD (group.updatedAt * 1000))

def ruleHealth (liveness : MemberAgentLiveness) (now : ℤ) (rule : Rule) : RuleHealth :=
  if !rule.isEnabled || rule.pendingDelete || !rule.isRunning then .blocked
  else if !agentHealthSampleIsCurrent liveness (toDate (rule.latestTcping.map Probe.recordedAt)) then .reconnected
  else match rule.latestTcping with
  | none => .missing (waitingSince group member + freshnessTtlMs)
  | some probe =>
    let expiresAt := probe.recordedAt * 1000 + freshnessTtlMs
    if !probe.fresh now then .expired expiresAt
    else match probe.healthStatus with
    | some .unknown => .undecided expiresAt
    | some .unhealthy => .failed expiresAt
    | some .healthy => .working true expiresAt
    | none => if probe.isTimeout then .timedOut expiresAt else .working false expiresAt

def sooner (expiresAt : Option ℤ) (other : ℤ) : ℤ := (expiresAt.map (min · other)).getD other

/-- The loop over the rules, which ends at the first one that does not work. -/
def probe (group : Group) (member : Member) (liveness : MemberAgentLiveness) (now : ℤ) (found : Findings) :
    List Rule → Findings
  | [] => found
  | rule :: rules =>
    match ruleHealth group member liveness now rule with
    | .blocked => { found with healthy := false }
    | .reconnected => { found with healthy := false, healthFinal := false, pending := true }
    | .expired since =>
      { found with healthy := false, healthFinal := false, failureFinal := true, observedFailureSince := some since }
    | .missing expiresAt =>
      if expiresAt ≤ now then
        { found with healthy := false, healthFinal := false, failureFinal := true, observedFailureSince := some expiresAt }
      else { found with healthy := false, healthFinal := false, pending := true, expiresAt := some expiresAt }
    | .undecided expiresAt =>
      { found with healthy := false, healthFinal := false, pending := true, expiresAt := some (sooner found.expiresAt expiresAt) }
    | .failed expiresAt =>
      { found with healthy := false, failureFinal := true, expiresAt := some (sooner found.expiresAt expiresAt) }
    | .timedOut expiresAt =>
      { found with healthy := false, healthFinal := false, expiresAt := some (sooner found.expiresAt expiresAt) }
    | .working final expiresAt =>
      probe group member liveness now
        { found with healthFinal := found.healthFinal && final, expiresAt := some (sooner found.expiresAt expiresAt) } rules

/-- The China health of a member whose rules all work. -/
def chinaFindings (liveness : MemberAgentLiveness) (now : ℤ) (found : Findings) : Findings :=
  let state := if agentHealthSampleIsCurrent liveness (toDate member.chinaHealthCheckedAt) then
    forwardGroupChinaHealthStateAt member now else .pending
  match state with
  | .unhealthy => { found with healthy := false }
  | .stale =>
    { found with healthy := false, observedFailureSince := (toDate member.chinaHealthCheckedAt).map (· + freshnessTtlMs) }
  | .pending => { found with healthy := false, pending := true }
  | .healthy => found

def failoverFindings (liveness : MemberAgentLiveness) (rules : List Rule) (now : ℤ) :
    Findings :=
  if !member.isEnabled then {}
  else if (rules.filter Rule.templateEnabled).isEmpty then {}
  else if !liveness.available then { observedFailureSince := some (liveness.failureSince.getD now) }
  else
    let found := probe group member liveness now { healthy := true, healthFinal := true } (rules.filter Rule.templateEnabled)
    if found.healthy && group.chinaHealthCheckEnabled then chinaFindings member liveness now found else found

def storeHealth (liveness : MemberAgentLiveness) (health : Health) (now : ℤ) : Member :=
  let healthStatus := if health.healthy then HealthStatus.healthy else if health.healthPending then .unknown else .unhealthy
  let healthStateChanged := member.healthStatus ≠ healthStatus ∨ toDate member.failureSince ≠ health.failureSince ∨
    toDate member.healthySince ≠ health.healthySince
  let healthSnapshotDue := liveness.available ∧
    (toDate member.lastCheckedAt).all fun lastCheckedAt => 5 * 60 * 1000 ≤ now - lastCheckedAt
  if healthStateChanged ∨ healthSnapshotDue then
    { member with
      healthStatus
      failureSince := health.failureSince.map toColumn
      healthySince := health.healthySince.map toColumn
      lastCheckedAt := if liveness.available then some (toColumn now) else member.lastCheckedAt
      updatedAt := toColumn now }
  else member

/-- `later` is when it looks at the clock again. -/
def evaluateMemberHealth (liveness : MemberAgentLiveness) (rules : List Rule)
    (now later : ℤ) : Health × Member :=
  let health := conclude group member (failoverFindings group member liveness rules now) now later
  (health, storeHealth member liveness health now)

/-! ## Entry groups -/

def entryCheckedAt : Option ℤ :=
  toDate (if group.chinaHealthCheckEnabled then member.chinaHealthCheckedAt else member.lastCheckedAt)

def entryStateAt (now : ℤ) : HealthState :=
  if group.chinaHealthCheckEnabled then forwardGroupChinaHealthStateAt member now
  else forwardGroupAgentHealthStateAt member now

def entryWaitingSince (liveness : MemberAgentLiveness) : ℤ :=
  liveness.lastOfflineAt.getD (member.updatedAt * 1000)

def entryFindings (liveness : MemberAgentLiveness) (now : ℤ) : Findings :=
  let checkedAt := entryCheckedAt group member
  if !liveness.available then { observedFailureSince := some (liveness.failureSince.getD now) }
  else
    let current := agentHealthSampleIsCurrent liveness checkedAt
    match if current then entryStateAt group member now else .pending with
    | .pending =>
      if checkedAt.isNone || !current then
        let expiresAt := entryWaitingSince member liveness + freshnessTtlMs
        if expiresAt ≤ now then { observedFailureSince := some expiresAt }
        else { pending := true, expiresAt := some expiresAt }
      else { pending := true }
    | .healthy => { healthy := true }
    | .unhealthy => { observedFailureSince := checkedAt.map (min now) }
    | .stale => { observedFailureSince := checkedAt.map fun checkedAt => min now (checkedAt + freshnessTtlMs) }

/-- What `syncEntryGroupDdns` stores of a member. A pending one is left as it is. -/
def storeEntryHealth (health : Health) (now : ℤ) : Member :=
  let healthStatus := if health.healthy then HealthStatus.healthy else .unhealthy
  if health.healthPending then member
  else if member.healthStatus ≠ healthStatus ∨ toDate member.failureSince ≠ health.failureSince ∨
      toDate member.healthySince ≠ health.healthySince then
    { member with
      healthStatus
      failureSince := health.failureSince.map toColumn
      healthySince := health.healthySince.map toColumn
      updatedAt := toColumn now }
  else member

def evaluateEntryMember (liveness : MemberAgentLiveness) (now : ℤ) : Health × Member :=
  let health := conclude group member (entryFindings group member liveness now) now now
  (health, storeEntryHealth member health now)

end ForwardX.Panel.GroupHealth
