/-
Subscriptions (`server/repositories/billingRepository.ts`): granting, renewing, extending,
cancelling and expiring them, and the allocator of their port ranges.
-/
import ForwardX.Panel.BillingTime
import ForwardX.Panel.Database

namespace ForwardX.Panel

open Table Tx Call

/-! ## Surroundings -/

structure Env where
  /-- `getForwardGroupEntryPortRange`. -/
  entryPortRange : ℤ → Database → Except String (Option (ℤ × ℤ))
  /-- The traffic limit that `syncUserSubscriptionEntitlements` writes for a user at a time. -/
  syncedTrafficLimit : ℤ → ℤ → Database → ℤ
  /-- The rules as it leaves them, disabled or restored. -/
  syncedRules : ℤ → ℤ → Database → List ForwardRule
  /-- The same for `recoverUserForwardAccessIfEligible`. -/
  recoveredTrafficLimit : ℤ → ℤ → Database → ℤ
  recoveredRules : ℤ → ℤ → Database → List ForwardRule

/-- Groups without entry ports, limits and rules that stay as they are. -/
def quietEnv : Env where
  entryPortRange := fun _ _ => .ok none
  syncedTrafficLimit := fun _ _ _ => 0
  syncedRules := fun _ _ db => db.forwardRules
  recoveredTrafficLimit := fun _ _ _ => 0
  recoveredRules := fun _ _ db => db.forwardRules

/-- `x || fallback` for a nullable number. -/
def orElse (x : Option ℤ) (fallback : ℤ) : ℤ := if x.getD 0 = 0 then fallback else x.getD 0

/-! ## Reads -/

def getSubscriptionPlanById (id : ℤ) (db : Database) : Option SubscriptionPlan :=
  byKey SubscriptionPlan.id id db.subscriptionPlans

def getUserSubscriptionById (id : ℤ) (db : Database) : Option UserSubscription :=
  byKey UserSubscription.id id db.userSubscriptions

def UserSubscription.activeAt (nowSec : ℤ) (s : UserSubscription) : Bool :=
  s.status = .active ∧ s.expiresAt.all (nowSec < ·)

/-- `status = 'active' AND expiresAt IS NOT NULL AND expiresAt <= ?`. -/
def UserSubscription.dueAt (nowSec : ℤ) (s : UserSubscription) : Bool :=
  s.status = .active ∧ s.expiresAt.any (· ≤ nowSec)

def getActiveUserSubscriptions (now userId : ℤ) (db : Database) : List UserSubscription :=
  db.userSubscriptions.filter fun s => s.activeAt (seconds now) ∧ s.userId = userId

/-! ## Traffic cycles -/

def boundTrafficResetAt (resetAt expiresAt : Option ℤ) : Option ℤ :=
  resetAt.filter fun r => expiresAt.all (r < ·)

/-- The loops that step month by month until a boundary is past `limit`. -/
def firstAfter (next : ℤ → ℤ) (limit : ℤ) : ℕ → ℤ → ℤ
  | 0, k => next k
  | fuel + 1, k => if next k ≤ limit then firstAfter next limit fuel (k + 1) else next k

def nextBillingMonthlyTrafficReset (start : ℤ) (expiresAt : Option ℤ) : Option ℤ :=
  boundTrafficResetAt (some (billingStartOfCalendarDay (billingAddMonthsClamped start 1))) expiresAt

/-- From the anchor's month the first boundary past `reference` is one or two
steps away. -/
def nextAnchoredSubscriptionTrafficReset (startedAt reference : ℤ) (expiresAt : Option ℤ) : Option ℤ :=
  let monthDelta := max 1 (billingMonth reference - billingMonth startedAt)
  let next := firstAfter
    (fun months => billingStartOfCalendarDay (billingAddMonthsClamped startedAt months))
    reference 2 monthDelta
  boundTrafficResetAt (some next) expiresAt

def clampResetDay (day : ℤ) : ℤ := min 28 (max 1 day)

/-- The latest of the two times up to which a subscription's cycles are settled. -/
def handledThrough (startedAt lastTrafficResetAt : Option ℤ) : Option ℤ :=
  match startedAt, lastTrafficResetAt with
  | some s, some l => some (max s l)
  | s, l => s.or l

/-- The month of `handled` and the one after bound the number of steps. -/
def nextConfiguredSubscriptionTrafficReset (trafficResetDay : ℤ)
    (startedAt lastTrafficResetAt : Option ℤ) (reference : ℤ) (expiresAt : Option ℤ) : Option ℤ :=
  let boundary := fun monthOffset : ℤ =>
    billingMonthlyBoundary reference (clampResetDay trafficResetDay) monthOffset
  let next := match handledThrough startedAt lastTrafficResetAt with
    | none => boundary 0
    | some handled =>
      firstAfter boundary handled (billingMonth handled + 2 - billingMonth reference).toNat 0
  boundTrafficResetAt (some next) expiresAt

/-! ## Add-ons -/

def expireAddons (now : ℤ) (p : UserTrafficAddon → Bool) (db : Database) : Database :=
  { db with
    userTrafficAddons := updateWhere (fun a => a.status = .active ∧ p a)
      (fun a => { a with status := .expired, expiredAt := some (seconds now) })
      db.userTrafficAddons }

def expireDueTrafficAddons (now userId : ℤ) : Database → Database :=
  expireAddons now fun a => a.userId = userId ∧ a.expiresAt.any (· ≤ seconds now)

def expireTrafficAddonsForSubscriptionIds (now : ℤ) (ids : List ℤ) : Database → Database :=
  expireAddons now fun a => 0 < a.subscriptionId ∧ a.subscriptionId ∈ ids

def expireInvalidTrafficAddonsForUser (now userId : ℤ) (db : Database) : Database :=
  expireAddons now (fun a => a.userId = userId ∧
    (getUserSubscriptionById a.subscriptionId db).any fun s => !s.activeAt (seconds now)) db

def updateActiveTrafficAddonCycleEnd (subscriptionId : ℤ) (nextTrafficResetAt expiresAt : Option ℤ)
    (db : Database) : Database :=
  let cycleEnd := (nextTrafficResetAt.or expiresAt).map seconds
  if subscriptionId ≤ 0 then db
  else { db with
    userTrafficAddons := updateWhere
      (fun a => a.subscriptionId = subscriptionId ∧ a.status = .active)
      (fun a => { a with cycleResetAt := cycleEnd, expiresAt := cycleEnd })
      db.userTrafficAddons }

/-! ## Entitlements -/

def lockTrafficBillingUserRow (userId : ℤ) : Db User := do
  let row ← query (·.user? userId)
  orThrow "用户不存在" row

def Database.setTrafficLimit (db : Database) (userId trafficLimit : ℤ) : Database :=
  { db with
    users := updateWhere (fun u => u.id = userId) (fun u => { u with trafficLimit }) db.users }

def writeForwardAccess (now userId : ℤ) (limit : Database → ℤ) (rules : Database → List ForwardRule) :
    Db ℤ := do
  execute (expireDueTrafficAddons now userId)
  let trafficLimit ← query limit
  execute (·.setTrafficLimit userId trafficLimit)
  execute fun db => { db with forwardRules := rules db }
  pure trafficLimit

def syncUserSubscriptionEntitlementsUnlocked (env : Env) (now userId : ℤ) : Db ℤ :=
  writeForwardAccess now userId (env.syncedTrafficLimit now userId) (env.syncedRules now userId)

def syncUserSubscriptionEntitlements (env : Env) (now userId : ℤ) : Db ℤ :=
  withDatabaseTransaction do
    let _user ← lockTrafficBillingUserRow userId
    syncUserSubscriptionEntitlementsUnlocked env now userId

def recoverUserForwardAccessIfEligible (env : Env) (now userId : ℤ) : Db ℤ :=
  withDatabaseTransaction do
    let _user ← lockTrafficBillingUserRow userId
    writeForwardAccess now userId (env.recoveredTrafficLimit now userId)
      (env.recoveredRules now userId)

def resetUserTraffic (now userId : ℤ) (db : Database) : Database :=
  { db with
    users := updateWhere (fun u => u.id = userId)
      (fun u => { u with trafficUsed := 0, lastTrafficReset := some (seconds now) }) db.users }

/-! ## Port ranges -/

/-- The ports that hosts, tunnels and groups of a plan all offer. -/
def offeredRanges (env : Env) (hostIds tunnelIds forwardGroupIds : List ℤ) (db : Database) :
    Except String (List (ℤ × ℤ)) := do
  let hosts := hostIds.filterMap fun id => byKey Host.id id db.hosts
  let tunnels := tunnelIds.filterMap fun id => byKey Tunnel.id id db.tunnels
  let groups ← forwardGroupIds.mapM fun id => env.entryPortRange id db
  pure (hosts.map (fun h => (orElse h.portRangeStart 10000, orElse h.portRangeEnd 65535)) ++
    tunnels.map (fun t => (orElse t.portRangeStart 10000, orElse t.portRangeEnd 65535)) ++
    groups.reduceOption)

def UserSubscription.hasPort (s : UserSubscription) (port : ℤ) : Bool :=
  0 < s.portRangeStart.getD 0 ∧ s.portRangeStart.getD 0 ≤ port ∧ port ≤ s.portRangeEnd.getD 0

def portUsed (now : ℤ) (db : Database) (port : ℤ) : Bool :=
  db.forwardRules.any (fun r => r.isEnabled ∧ r.pendingDelete = false ∧ r.sourcePort = port) ||
    db.userSubscriptions.any fun s => s.activeAt (seconds now) ∧ s.hasPort port

/-- The scan over one block: the first used port of `count` ports from `port` on. -/
def firstUsed (used : ℤ → Bool) : ℕ → ℤ → Option ℤ
  | 0, _ => none
  | count + 1, port => if used port then some port else firstUsed used count (port + 1)

/-- The search: a used port sends it on to the port after that one. -/
def findBlock (used : ℤ → Bool) (count : ℕ) (last : ℤ) : ℕ → ℤ → Option ℤ
  | 0, _ => none
  | fuel + 1, port =>
    if last < port then none
    else
      match firstUsed used count port with
      | none => some port
      | some p => findBlock used count last fuel (p + 1)

def commonStart : List (ℤ × ℤ) → ℤ
  | [] => 10000
  | r :: rs => rs.foldl (fun m x => max m x.1) r.1

/-- `Math.min` of the ends. -/
def commonEnd : List (ℤ × ℤ) → ℤ
  | [] => 65535
  | r :: rs => rs.foldl (fun m x => min m x.2) r.2

def findAvailableSubscriptionPortBlock (env : Env) (now portCount : ℤ)
    (hostIds tunnelIds forwardGroupIds : List ℤ) (db : Database) :
    Except String (Option (ℤ × ℤ)) := do
  let count := max 1 portCount
  let ranges ← offeredRanges env hostIds tunnelIds forwardGroupIds db
  let first := commonStart ranges
  let last := commonEnd ranges
  if first ≤ 0 ∨ last < first ∨ last - first + 1 < count then
    pure none
  else
    pure ((findBlock (portUsed now db) count.toNat (last - count + 1)
      (last - count + 2 - first).toNat first).map fun port => (port, port + count - 1))

def allocateSubscriptionPortBlock (env : Env) (now : ℤ) (plan : SubscriptionPlan) : Db (ℤ × ℤ) := do
  let block ← query (findAvailableSubscriptionPortBlock env now plan.portCount
    plan.hostIds plan.tunnelIds plan.forwardGroupIds)
  match block with
  | .error e => throw e
  | .ok none => throw "套餐可用端口不足，无法分配连续端口段"
  | .ok (some block) => pure block

/-! ## Granting and renewing -/

def isUserRenewableSubscriptionSource (source : SubscriptionSource) : Bool :=
  source = .payment ∨ source = .balance

def addSubscriptionDays (base days : ℤ) : ℤ := base + days * 24 * 3600 * 1000

def updateUserSubscription (id : ℤ) (f : UserSubscription → UserSubscription) (db : Database) : Database :=
  { db with userSubscriptions := updateWhere (fun s => s.id = id) f db.userSubscriptions }

/-- `insertAndGetId("user_subscriptions", …)`. -/
def createUserSubscription (row : ℤ → UserSubscription) (db : Database) : ℤ × Database :=
  let id := nextKey UserSubscription.id db.userSubscriptions
  (id, { db with userSubscriptions := db.userSubscriptions ++ [row id] })

structure AppliedSubscription where
  subscriptionId : ℤ
  portRangeStart : ℤ
  portRangeEnd : ℤ
  expiresAt : Option ℤ
  extended : Bool := false

structure SubscriptionRequest where
  userId : ℤ
  planId : ℤ
  source : SubscriptionSource
  paymentOrderNo : Option String := none
  startsAt : Option ℤ := none
  overrideDurationDays : Option ℤ := none
  targetSubscriptionId : Option ℤ := none

def renewedExpiresAt (sub : UserSubscription) (durationDays now : ℤ) : Option ℤ :=
  match sub.expiresAt.map milliseconds with
  | none => none
  | some current =>
    let base := if now < current then current else now
    if 0 < durationDays then some (addSubscriptionDays base durationDays) else none

def renewedTrafficResetAt (plan : SubscriptionPlan) (user : Option User) (sub : UserSubscription)
    (now : ℤ) (expiresAt : Option ℤ) : Option ℤ :=
  let existing := sub.nextTrafficResetAt.map milliseconds
  let current := sub.expiresAt.map milliseconds
  if 0 < plan.trafficLimit then
    let next := match user.filter User.trafficAutoReset with
      | some u =>
        nextConfiguredSubscriptionTrafficReset u.trafficResetDay (some (milliseconds sub.startedAt))
          (sub.lastTrafficResetAt.map milliseconds) now expiresAt
      | none =>
        match existing with
        | some n => if n ≤ now then nextBillingMonthlyTrafficReset now expiresAt else some n
        | none =>
          match current, expiresAt with
          | some c, some e =>
            if now < c ∧ c < e then some c else nextBillingMonthlyTrafficReset now expiresAt
          | _, _ => nextBillingMonthlyTrafficReset now expiresAt
    boundTrafficResetAt next expiresAt
  else none

/-- The ports a renewal keeps, or is given when the row has none. -/
def renewedPortRange (env : Env) (now : ℤ) (plan : SubscriptionPlan) (sub : UserSubscription) : Db (ℤ × ℤ) :=
  if sub.portRangeStart.getD 0 = 0 ∨ sub.portRangeEnd.getD 0 = 0 then
    allocateSubscriptionPortBlock env now plan
  else pure (sub.portRangeStart.getD 0, sub.portRangeEnd.getD 0)

def renewedRow (req : SubscriptionRequest) (plan : SubscriptionPlan)
    (expiresAt nextTrafficResetAt : Option ℤ) (ports : ℤ × ℤ) (s : UserSubscription) :
    UserSubscription :=
  { s with
    status := .active
    expiresAt := expiresAt.map seconds
    nextTrafficResetAt := nextTrafficResetAt.map seconds
    planSnapshot := some ⟨plan.trafficLimit⟩
    paymentOrderNo := (req.paymentOrderNo.filter (· ≠ "")).or s.paymentOrderNo
    portRangeStart := some ports.1
    portRangeEnd := some ports.2 }

def renewSubscription (env : Env) (now : ℤ) (req : SubscriptionRequest) (plan : SubscriptionPlan)
    (user : Option User) (sub : UserSubscription) : Db AppliedSubscription := do
  let start := req.startsAt.getD now
  let durationDays := req.overrideDurationDays.getD plan.durationDays
  let expiresAt := renewedExpiresAt sub durationDays start
  let nextTrafficResetAt := renewedTrafficResetAt plan user sub start expiresAt
  let ports ← renewedPortRange env now plan sub
  execute (updateUserSubscription sub.id
    (renewedRow req plan expiresAt nextTrafficResetAt ports))
  execute (updateActiveTrafficAddonCycleEnd sub.id nextTrafficResetAt expiresAt)
  let _limit ← syncUserSubscriptionEntitlements env now req.userId
  pure ⟨sub.id, ports.1, ports.2, expiresAt, true⟩

def grantedRow (req : SubscriptionRequest) (plan : SubscriptionPlan) (start : ℤ)
    (expiresAt nextTrafficResetAt : Option ℤ) (ports : ℤ × ℤ) (id : ℤ) : UserSubscription :=
  { id
    userId := req.userId
    planId := req.planId
    status := .active
    source := req.source
    paymentOrderNo := req.paymentOrderNo
    planSnapshot := some ⟨plan.trafficLimit⟩
    portRangeStart := some ports.1
    portRangeEnd := some ports.2
    nextTrafficResetAt := nextTrafficResetAt.map seconds
    startedAt := seconds start
    expiresAt := expiresAt.map seconds }

def grantSubscription (env : Env) (now : ℤ) (req : SubscriptionRequest) (plan : SubscriptionPlan)
    (user : Option User) (hadActiveSubscription : Bool) : Db AppliedSubscription := do
  let start := req.startsAt.getD now
  let durationDays := req.overrideDurationDays.getD plan.durationDays
  let block ← allocateSubscriptionPortBlock env now plan
  let expiresAt := if 0 < durationDays then some (addSubscriptionDays start durationDays) else none
  let nextTrafficResetAt :=
    if 0 < plan.trafficLimit then
      match user.filter User.trafficAutoReset with
      | some u =>
        nextConfiguredSubscriptionTrafficReset u.trafficResetDay (some start) none start expiresAt
      | none => nextBillingMonthlyTrafficReset start expiresAt
    else none
  let subscriptionId ← statement (createUserSubscription
    (grantedRow req plan start expiresAt nextTrafficResetAt block))
  let _limit ← syncUserSubscriptionEntitlements env now req.userId
  let used := (user.map User.trafficUsed).getD 0
  let limit := (user.map User.trafficLimit).getD 0
  if hadActiveSubscription = false ∧ limit ≤ used ∧ 0 < limit then
    execute (resetUserTraffic now req.userId)
    let _limit ← syncUserSubscriptionEntitlements env now req.userId
    pure ⟨subscriptionId, block.1, block.2, expiresAt, false⟩
  else
    pure ⟨subscriptionId, block.1, block.2, expiresAt, false⟩

/-- A request without a target is always a new subscription; a renewal names the
subscription that it extends. -/
def applySubscriptionToUserUnlocked (env : Env) (now : ℤ) (req : SubscriptionRequest) :
    Db AppliedSubscription := do
  let row ← query (getSubscriptionPlanById req.planId)
  let plan ← orThrow "套餐不存在" row
  throwIf (plan.isActive = false) "套餐已停用"
  throwIf (plan.hostIds = [] ∧ plan.tunnelIds = [] ∧ plan.forwardGroupIds = [])
    "套餐未绑定任何端口转发、隧道、转发链或转发组"
  let activeSubscriptions ← queryOr (getActiveUserSubscriptions now req.userId) []
  let user ← query (·.user? req.userId)
  match req.targetSubscriptionId.filter (· ≠ 0) with
  | some id =>
    let row ← query (getUserSubscriptionById id)
    let sub ← orThrow "订阅不存在或无权操作" (row.filter fun s => s.userId = req.userId)
    throwIf (sub.planId ≠ req.planId) "续费套餐与目标订阅不一致"
    throwIf (sub.status = .cancelled) "已取消的订阅不能续费"
    throwIf (isUserRenewableSubscriptionSource sub.source = false)
      "管理员分配的套餐不能自行续费，请联系管理员处理"
    throwIf (isUserRenewableSubscriptionSource req.source = false) "当前来源不支持用户续费"
    renewSubscription env now req plan user sub
  | none => grantSubscription env now req plan user (activeSubscriptions ≠ [])

def applySubscriptionToUser (env : Env) (now : ℤ) (req : SubscriptionRequest) : Db AppliedSubscription :=
  withDatabaseTransaction do
    -- `setSetting(SUBSCRIPTION_PORT_ALLOCATION_MARKER, "1")`, which holds the row lock
    execute id
    applySubscriptionToUserUnlocked env now req

/-! ## Administration -/

/-- `withUserSubscriptionLock`: the owner's row is locked in the transaction of the task. -/
def withUserSubscriptionLock {α : Type} (id : ℤ) (task : Db α) : Db α := do
  let row ← query (getUserSubscriptionById id)
  let subscription ← orThrow "订阅不存在" row
  withDatabaseTransaction do
    let _user ← lockTrafficBillingUserRow subscription.userId
    task

def cancelUserSubscription (env : Env) (now id : ℤ) : Db ℤ :=
  withUserSubscriptionLock id <| withDatabaseTransaction do
    let row ← query (getUserSubscriptionById id)
    let subscription ← orThrow "订阅不存在" row
    if subscription.status ≠ .cancelled then
      execute (updateUserSubscription id fun s => { s with status := .cancelled })
      execute (expireTrafficAddonsForSubscriptionIds now [id])
      syncUserSubscriptionEntitlements env now subscription.userId
    else
      execute (expireTrafficAddonsForSubscriptionIds now [id])
      syncUserSubscriptionEntitlements env now subscription.userId

def subscriptionTrafficLimit (sub : UserSubscription) (db : Database) : ℤ :=
  ((sub.planSnapshot.map PlanSnapshot.trafficLimit).or
    ((getSubscriptionPlanById sub.planId db).map SubscriptionPlan.trafficLimit)).getD 0

def administeredTrafficResetAt (sub : UserSubscription) (now : ℤ) (expiresAt : Option ℤ)
    (keepPastExpiry : Bool) (db : Database) : Option ℤ :=
  if 0 < subscriptionTrafficLimit sub db then
    let existing := sub.nextTrafficResetAt.map milliseconds
    let next := match (db.user? sub.userId).filter User.trafficAutoReset with
      | some u =>
        nextConfiguredSubscriptionTrafficReset u.trafficResetDay (some (milliseconds sub.startedAt))
          (sub.lastTrafficResetAt.map milliseconds) now expiresAt
      | none =>
        match existing with
        | some n =>
          if n ≤ now ∨ (keepPastExpiry = false ∧ expiresAt.any (· ≤ n)) then
            nextBillingMonthlyTrafficReset now expiresAt
          else some n
        | none => nextBillingMonthlyTrafficReset now expiresAt
    boundTrafficResetAt next expiresAt
  else none

structure AdministeredSubscription where
  id : ℤ
  userId : ℤ
  expiresAt : Option ℤ
  nextTrafficResetAt : Option ℤ
  trafficLimit : ℤ

def setUserSubscriptionExpiresAtUnlocked (env : Env) (now id : ℤ) (expiresAt : Option ℤ) :
    Db AdministeredSubscription := do
  let row ← query (getUserSubscriptionById id)
  let subscription ← orThrow "订阅不存在" row
  throwIf (subscription.status = .cancelled) "已取消的订阅不能更改到期时间"
  let expired := expiresAt.any (· ≤ now)
  let reset ← query (administeredTrafficResetAt subscription now expiresAt false)
  let nextTrafficResetAt := if expired then none else reset
  execute (updateUserSubscription id fun s => { s with
    status := if expired then .expired else .active
    expiresAt := expiresAt.map seconds
    nextTrafficResetAt := nextTrafficResetAt.map seconds })
  execute (updateActiveTrafficAddonCycleEnd id nextTrafficResetAt expiresAt)
  execute (expireTrafficAddonsForSubscriptionIds now (if expired then [id] else []))
  let trafficLimit ← syncUserSubscriptionEntitlements env now subscription.userId
  pure ⟨id, subscription.userId, expiresAt, nextTrafficResetAt, trafficLimit⟩

def setUserSubscriptionExpiresAt (env : Env) (now id : ℤ) (expiresAt : Option ℤ) :
    Db AdministeredSubscription :=
  withUserSubscriptionLock id
    (withDatabaseTransaction (setUserSubscriptionExpiresAtUnlocked env now id expiresAt))

def extendUserSubscriptionUnlocked (env : Env) (now id days : ℤ) : Db AdministeredSubscription := do
  throwIf (days ≤ 0) "延长天数必须大于 0"
  let row ← query (getUserSubscriptionById id)
  let subscription ← orThrow "订阅不存在" row
  throwIf (subscription.status = .cancelled) "已取消的订阅不能延长"
  let current ← orThrow "永久订阅无需延长" (subscription.expiresAt.map milliseconds)
  let base := if now < current then current else now
  let expiresAt := addSubscriptionDays base days
  let nextTrafficResetAt ← query (administeredTrafficResetAt subscription now (some expiresAt) true)
  execute (updateUserSubscription id fun s => { s with
    status := .active
    expiresAt := some (seconds expiresAt)
    nextTrafficResetAt := nextTrafficResetAt.map seconds })
  execute (updateActiveTrafficAddonCycleEnd id nextTrafficResetAt (some expiresAt))
  let trafficLimit ← syncUserSubscriptionEntitlements env now subscription.userId
  pure ⟨id, subscription.userId, some expiresAt, nextTrafficResetAt, trafficLimit⟩

def extendUserSubscription (env : Env) (now id days : ℤ) : Db AdministeredSubscription :=
  withUserSubscriptionLock id
    (withDatabaseTransaction (extendUserSubscriptionUnlocked env now id days))

/-! ## Expiry -/

def expirationCandidates (now : ℤ) (db : Database) : List ℤ :=
  let nowSec := seconds now
  let subscriptions := (db.userSubscriptions.filter (·.dueAt nowSec)).map (·.userId)
  let addons := db.userTrafficAddons.filter fun a =>
    a.status = .active ∧ (getUserSubscriptionById a.subscriptionId db).any fun s =>
      a.expiresAt.any (· ≤ nowSec) || !s.activeAt nowSec
  ((subscriptions ++ addons.map (·.userId)).filter (0 < ·)).dedup

/-- The conditional `UPDATE` of one due row, and the number of rows it hit. -/
def expireSubscriptionRow (now userId id : ℤ) (db : Database) : ℕ × Database :=
  let due := fun s : UserSubscription => s.id = id ∧ s.userId = userId ∧ s.dueAt (seconds now)
  (db.userSubscriptions.countP (due ·),
    { db with
      userSubscriptions := updateWhere (due ·) (fun s => { s with status := .expired })
        db.userSubscriptions })

def expireSubscriptionRows (now userId : ℤ) : List ℤ → Db (List ℤ)
  | [] => pure []
  | id :: ids => do
    let affected ← statement (expireSubscriptionRow now userId id)
    let rest ← expireSubscriptionRows now userId ids
    pure (if 0 < affected then id :: rest else rest)

def expireUserSubscriptionsOf (env : Env) (now userId : ℤ) : Db ℤ :=
  withDatabaseTransaction do
    let _user ← lockTrafficBillingUserRow userId
    let due ← query fun db =>
      (db.userSubscriptions.filter fun s => s.userId = userId ∧ s.dueAt (seconds now)).map (·.id)
    let expired ← expireSubscriptionRows now userId (due.filter (0 < ·))
    execute (expireDueTrafficAddons now userId)
    execute (expireTrafficAddonsForSubscriptionIds now expired)
    execute (expireInvalidTrafficAddonsForUser now userId)
    let _limit ← syncUserSubscriptionEntitlementsUnlocked env now userId
    pure (expired.length : ℤ)

def expireUserSubscriptionsLoop (env : Env) (now : ℤ) : List ℤ → ℤ → Db ℤ
  | [], expiredCount => pure expiredCount
  | userId :: userIds, expiredCount => do
    let count ← expireUserSubscriptionsOf env now userId
    expireUserSubscriptionsLoop env now userIds (expiredCount + count)

/-- The agents that are told to reload afterwards are left out. -/
def expireUserSubscriptions (env : Env) (now : ℤ) : Db ℤ := do
  let userIds ← query (expirationCandidates now)
  expireUserSubscriptionsLoop env now userIds 0

/-! ## What the functions leave alone -/

def User.account (u : User) : User := { u with trafficUsed := 0, trafficLimit := 0, lastTrafficReset := none }

def Database.outside (db : Database) : Database :=
  { db with
    users := db.users.map User.account, userSubscriptions := [], userTrafficAddons := [],
    forwardRules := [] }

section

variable (db : Database) (now userId : ℤ)

@[simp] theorem outside_updateActiveTrafficAddonCycleEnd (id : ℤ) (next expires : Option ℤ) :
    (updateActiveTrafficAddonCycleEnd id next expires db).outside = db.outside := by
  unfold updateActiveTrafficAddonCycleEnd
  split <;> rfl

@[simp] theorem outside_setTrafficLimit (limit : ℤ) :
    (db.setTrafficLimit userId limit).outside = db.outside := by
  unfold Database.outside Database.setTrafficLimit
  simp only
  rw [map_updateWhere]
  intro u _
  rfl

@[simp] theorem outside_resetUserTraffic : (resetUserTraffic now userId db).outside = db.outside := by
  unfold Database.outside resetUserTraffic
  simp only
  rw [map_updateWhere]
  intro u _
  rfl

@[simp] theorem subscriptions_updateActiveTrafficAddonCycleEnd (id : ℤ) (next expires : Option ℤ) :
    (updateActiveTrafficAddonCycleEnd id next expires db).userSubscriptions
      = db.userSubscriptions := by
  unfold updateActiveTrafficAddonCycleEnd
  split <;> rfl

@[simp] theorem users_updateActiveTrafficAddonCycleEnd (id : ℤ) (next expires : Option ℤ) :
    (updateActiveTrafficAddonCycleEnd id next expires db).users = db.users := by
  unfold updateActiveTrafficAddonCycleEnd
  split <;> rfl

end

section

variable {I : Database → Prop} (env : Env) (now userId : ℤ)

theorem preserves_writeForwardAccess (limit : Database → ℤ) (rules : Database → List ForwardRule)
    (hI : ∀ d d', d'.userSubscriptions = d.userSubscriptions → d'.outside = d.outside → I d → I d') :
    Preserves I (writeForwardAccess now userId limit rules) := by
  unfold writeForwardAccess
  refine Preserves.bind (preserves_execute ?_) fun _ => ?_
  · intro d hd
    exact hI d _ rfl rfl hd
  refine Preserves.bind (preserves_query _) fun limit => ?_
  refine Preserves.bind (preserves_execute ?_) fun _ => ?_
  · intro d hd
    exact hI d _ rfl (outside_setTrafficLimit d userId limit) hd
  refine Preserves.bind (preserves_execute ?_) fun _ => preserves_pure _
  intro d hd
  exact hI d _ rfl rfl hd

theorem preserves_lockTrafficBillingUserRow : Preserves I (lockTrafficBillingUserRow userId) :=
  Preserves.bind (preserves_query _) fun row => preserves_orThrow _ row

section

variable (hI : ∀ d d', d'.userSubscriptions = d.userSubscriptions → d'.outside = d.outside → I d → I d')

include hI

theorem preserves_sync : Preserves I (syncUserSubscriptionEntitlements env now userId) := by
  apply Preserves.transaction
  refine (preserves_lockTrafficBillingUserRow userId).bind fun _ => ?_
  exact preserves_writeForwardAccess now userId _ _ hI

theorem preserves_recoverUserForwardAccessIfEligible :
    Preserves I (recoverUserForwardAccessIfEligible env now userId) := by
  apply Preserves.transaction
  refine (preserves_lockTrafficBillingUserRow userId).bind fun _ => ?_
  exact preserves_writeForwardAccess now userId _ _ hI

end

end

/-! ## The allocator -/

section

variable {used : ℤ → Bool}

theorem firstUsed_eq_none {count : ℕ} {port : ℤ} (h : firstUsed used count port = none) :
    ∀ p, port ≤ p → p < port + count → used p = false := by
  induction count generalizing port with
  | zero =>
    intro p hlow hhigh
    omega
  | succ count ih =>
    rw [firstUsed] at h
    split at h
    · cases h
    · rename_i hfree
      intro p hlow hhigh
      by_cases hp : p = port
      · rw [hp]
        simpa using hfree
      · exact ih h p (by omega) (by push_cast at hhigh; omega)

theorem firstUsed_eq_some {count : ℕ} {port q : ℤ} (h : firstUsed used count port = some q) :
    port ≤ q ∧ q < port + count ∧ used q := by
  induction count generalizing port with
  | zero => cases h
  | succ count ih =>
    rw [firstUsed] at h
    split at h
    · rename_i hused
      obtain rfl := Option.some.inj h
      exact ⟨le_refl _, by push_cast; omega, hused⟩
    · obtain ⟨hlow, hhigh, hused⟩ := ih h
      exact ⟨by omega, by push_cast; omega, hused⟩

theorem findBlock_eq_some {count fuel : ℕ} {last port block : ℤ}
    (h : findBlock used count last fuel port = some block) :
    port ≤ block ∧ block ≤ last ∧ ∀ p, block ≤ p → p < block + count → used p = false := by
  induction fuel generalizing port with
  | zero => cases h
  | succ fuel ih =>
    rw [findBlock] at h
    split at h
    · cases h
    · rename_i hlast
      cases hscan : firstUsed used count port with
      | none =>
        rw [hscan] at h
        obtain rfl := Option.some.inj h
        exact ⟨le_refl _, by omega, firstUsed_eq_none hscan⟩
      | some q =>
        rw [hscan] at h
        obtain ⟨hlow, hhigh, hfree⟩ := ih h
        have hq := firstUsed_eq_some hscan
        exact ⟨by omega, hhigh, hfree⟩

def PortsFree (now : ℤ) (db : Database) (ports : ℤ × ℤ) : Prop :=
  ∀ p, ports.1 ≤ p → p ≤ ports.2 → portUsed now db p = false

theorem findAvailableSubscriptionPortBlock_spec {env : Env} {now portCount : ℤ}
    {hostIds tunnelIds groupIds : List ℤ} {db : Database} {block : ℤ × ℤ}
    (h : findAvailableSubscriptionPortBlock env now portCount hostIds tunnelIds groupIds db
      = .ok (some block)) : PortsFree now db block := by
  unfold findAvailableSubscriptionPortBlock at h
  cases hranges : offeredRanges env hostIds tunnelIds groupIds db with
  | error e =>
    rw [hranges] at h
    cases h
  | ok ranges =>
    rw [hranges] at h
    simp only [bind, Except.bind] at h
    split at h
    · cases h
    · simp only [pure, Except.pure, Except.ok.injEq, Option.map_eq_some_iff] at h
      obtain ⟨port, hfound, rfl⟩ := h
      obtain ⟨-, -, hfree⟩ := findBlock_eq_some hfound
      intro p hlow hhigh
      exact hfree p hlow (by simp only at hhigh; omega)

theorem allocateSubscriptionPortBlock_spec {env : Env} {now : ℤ} {plan : SubscriptionPlan}
    {db db' : Database} {block : ℤ × ℤ}
    (h : Returns (allocateSubscriptionPortBlock env now plan) db block db') :
    db' = db ∧ PortsFree now db block := by
  replace h := h.bind_query
  split at h
  · exact absurd h not_returns_throw
  · exact absurd h not_returns_throw
  · rename_i b hb
    obtain ⟨rfl, rfl⟩ := h.of_pure
    exact ⟨rfl, findAvailableSubscriptionPortBlock_spec hb⟩

end

/-! ## What a successful call did -/

section

variable {env : Env} {now : ℤ} {db db' : Database}

theorem sync_spec {userId limit : ℤ}
    (h : Returns (syncUserSubscriptionEntitlements env now userId) db limit db') :
    db'.userSubscriptions = db.userSubscriptions ∧ db'.outside = db.outside ∧
      (db.user? userId).isSome := by
  refine ⟨?_, ?_, ?_⟩
  · apply (preserves_sync (I := fun d => d.userSubscriptions = db.userSubscriptions) env now userId
      _).returns h rfl
    intro d d' hsubs _ hd
    rw [hsubs, hd]
  · apply (preserves_sync (I := fun d => d.outside = db.outside) env now userId _).returns h rfl
    intro d d' _ hout hd
    rw [hout, hd]
  · obtain ⟨user, db₁, hlock, -⟩ := h.of_transaction.of_bind
    obtain ⟨huser, -⟩ := hlock.bind_query.of_orThrow
    rw [huser]
    rfl

theorem recoverUserForwardAccessIfEligible_spec {userId limit : ℤ}
    (h : Returns (recoverUserForwardAccessIfEligible env now userId) db limit db') :
    db'.userSubscriptions = db.userSubscriptions ∧ db'.outside = db.outside := by
  constructor
  · apply (preserves_recoverUserForwardAccessIfEligible
      (I := fun d => d.userSubscriptions = db.userSubscriptions) env now userId _).returns h rfl
    intro d d' hsubs _ hd
    rw [hsubs, hd]
  · apply (preserves_recoverUserForwardAccessIfEligible
      (I := fun d => d.outside = db.outside) env now userId _).returns h rfl
    intro d d' _ hout hd
    rw [hout, hd]

/-- The ports of a renewal: those of the row, or free ones. -/
def KeptOrFree (now : ℤ) (db : Database) (sub : UserSubscription) (ports : ℤ × ℤ) : Prop :=
  ((sub.portRangeStart.getD 0 ≠ 0 ∧ sub.portRangeEnd.getD 0 ≠ 0) ∧
    ports = (sub.portRangeStart.getD 0, sub.portRangeEnd.getD 0)) ∨ PortsFree now db ports

variable {plan : SubscriptionPlan}

theorem renewedPortRange_spec {sub : UserSubscription} {ports : ℤ × ℤ}
    (h : Returns (renewedPortRange env now plan sub) db ports db') :
    db' = db ∧ KeptOrFree now db sub ports := by
  obtain ⟨-, h⟩ | ⟨hports, h⟩ := h.of_ite
  · obtain ⟨rfl, hfree⟩ := allocateSubscriptionPortBlock_spec h
    exact ⟨rfl, .inr hfree⟩
  · obtain ⟨rfl, rfl⟩ := h.of_pure
    exact ⟨rfl, .inl ⟨not_or.mp hports, rfl⟩⟩

def Grants (now : ℤ) (req : SubscriptionRequest) (db db' : Database) : Prop :=
  ∃ plan start expiresAt next ports, PortsFree now db ports ∧
    db'.userSubscriptions = db.userSubscriptions ++
      [grantedRow req plan start expiresAt next ports
        (nextKey UserSubscription.id db.userSubscriptions)]

def Renews (now : ℤ) (req : SubscriptionRequest) (sub : UserSubscription) (db db' : Database) : Prop :=
  ∃ plan expiresAt next ports, KeptOrFree now db sub ports ∧
    db'.userSubscriptions = updateWhere (fun s => s.id = sub.id)
      (renewedRow req plan expiresAt next ports) db.userSubscriptions

variable {req : SubscriptionRequest} {r : AppliedSubscription}

theorem renewSubscription_spec
    {user : Option User} {sub : UserSubscription}
    (h : Returns (renewSubscription env now req plan user sub) db r db') :
    Renews now req sub db db' ∧ db'.outside = db.outside ∧ (db.user? req.userId).isSome := by
  obtain ⟨ports, db₁, hports, hrest⟩ := h.of_bind
  obtain ⟨rfl, hkept⟩ := renewedPortRange_spec hports
  obtain ⟨limit, db₂, hsync, hdone⟩ := hrest.bind_execute.bind_execute.of_bind
  obtain ⟨-, rfl⟩ := hdone.of_pure
  obtain ⟨hsubs, hout, huser⟩ := sync_spec hsync
  rw [subscriptions_updateActiveTrafficAddonCycleEnd] at hsubs
  rw [outside_updateActiveTrafficAddonCycleEnd] at hout
  rw [Database.user?, users_updateActiveTrafficAddonCycleEnd] at huser
  exact ⟨⟨plan, _, _, ports, hkept, hsubs⟩, hout, huser⟩

theorem grantSubscription_spec
    {user : Option User} {had : Bool}
    (h : Returns (grantSubscription env now req plan user had) db r db') :
    Grants now req db db' ∧ db'.outside = db.outside ∧ (db.user? req.userId).isSome := by
  obtain ⟨ports, db₁, hports, hrest⟩ := h.of_bind
  obtain ⟨rfl, hfree⟩ := allocateSubscriptionPortBlock_spec hports
  obtain ⟨limit, db₂, hsync, hdone⟩ := hrest.bind_statement.of_bind
  obtain ⟨hsubs, hout, huser⟩ := sync_spec hsync
  refine ⟨?_, ?_, huser⟩
  · obtain ⟨-, hreset⟩ | ⟨-, hplain⟩ := hdone.of_ite
    · obtain ⟨limit', db₃, hsync', hpure⟩ := hreset.bind_execute.of_bind
      obtain ⟨-, rfl⟩ := hpure.of_pure
      exact ⟨plan, _, _, _, ports, hfree, (sync_spec hsync').1.trans hsubs⟩
    · obtain ⟨-, rfl⟩ := hplain.of_pure
      exact ⟨plan, _, _, _, ports, hfree, hsubs⟩
  · obtain ⟨-, hreset⟩ | ⟨-, hplain⟩ := hdone.of_ite
    · obtain ⟨limit', db₃, hsync', hpure⟩ := hreset.bind_execute.of_bind
      obtain ⟨-, rfl⟩ := hpure.of_pure
      rw [(sync_spec hsync').2.1, outside_resetUserTraffic, hout]
      rfl
    · obtain ⟨-, rfl⟩ := hplain.of_pure
      exact hout

theorem applySubscriptionToUser_spec
    (h : Returns (applySubscriptionToUser env now req) db r db') :
    (Grants now req db db' ∧ req.targetSubscriptionId.filter (· ≠ 0) = none ∨
      ∃ sub, req.targetSubscriptionId.filter (· ≠ 0) = some sub.id ∧
        getUserSubscriptionById sub.id db = some sub ∧ sub.userId = req.userId ∧
        sub.status ≠ .cancelled ∧ Renews now req sub db db') ∧
      db'.outside = db.outside ∧ (db.user? req.userId).isSome := by
  obtain ⟨plan, hplan, h⟩ := h.of_transaction.bind_execute.bind_query.bind_orThrow
  obtain ⟨hactive, h⟩ := h.bind_throwIf
  obtain ⟨hbound, h⟩ := h.bind_throwIf
  obtain ⟨active, -, h⟩ := h.bind_queryOr
  replace h := h.bind_query
  cases htarget : req.targetSubscriptionId.filter (· ≠ 0) with
  | none =>
    rw [htarget] at h
    obtain ⟨hgrant, hframe⟩ := grantSubscription_spec h
    exact ⟨.inl ⟨hgrant, rfl⟩, hframe⟩
  | some id =>
    rw [htarget] at h
    obtain ⟨sub, hrow, h⟩ := h.bind_query.bind_orThrow
    rw [Option.filter_eq_some_iff] at hrow
    obtain ⟨hplanId, h⟩ := h.bind_throwIf
    obtain ⟨hstatus, h⟩ := h.bind_throwIf
    obtain ⟨hsource, h⟩ := h.bind_throwIf
    obtain ⟨hreq, h⟩ := h.bind_throwIf
    obtain ⟨hrenew, hframe⟩ := renewSubscription_spec h
    have hid : sub.id = id := byKey_key hrow.1
    exact ⟨.inr ⟨sub, by rw [hid], hid ▸ hrow.1, by simpa using hrow.2, hstatus, hrenew⟩, hframe⟩

theorem withUserSubscriptionLock_spec {α : Type} {id : ℤ} {task : Db α} {a : α}
    (h : Returns (withUserSubscriptionLock id task) db a db') : Returns task db a db' := by
  obtain ⟨sub, -, h⟩ := h.bind_query.bind_orThrow
  obtain ⟨user, db₁, hlock, htask⟩ := h.of_transaction.of_bind
  obtain ⟨-, rfl⟩ := hlock.bind_query.of_orThrow
  exact htask

theorem failsClean_withUserSubscriptionLock {α : Type} (id : ℤ) (task : Db α) :
    FailsClean (withUserSubscriptionLock id task) := by
  apply FailsClean.query_bind
  intro row
  apply FailsClean.orThrow_bind
  intro sub
  exact failsClean_transaction _

theorem setUserSubscriptionExpiresAt_spec {id : ℤ} {expiresAt : Option ℤ} {r : AdministeredSubscription}
    (h : Returns (setUserSubscriptionExpiresAt env now id expiresAt) db r db') :
    (∃ sub, getUserSubscriptionById id db = some sub ∧ sub.status ≠ .cancelled) ∧
    ∃ next, db'.userSubscriptions = updateWhere (fun s => s.id = id)
      (fun s => { s with
        status := if expiresAt.any (· ≤ now) then .expired else .active
        expiresAt := expiresAt.map seconds
        nextTrafficResetAt := next }) db.userSubscriptions := by
  replace h := (withUserSubscriptionLock_spec h).of_transaction
  obtain ⟨sub, hsub, h⟩ := h.bind_query.bind_orThrow
  obtain ⟨hstatus, h⟩ := h.bind_throwIf
  obtain ⟨limit, db₁, hsync, hdone⟩ := h.bind_query.bind_execute.bind_execute.bind_execute.of_bind
  obtain ⟨-, rfl⟩ := hdone.of_pure
  have hsubs := (sync_spec hsync).1
  refine ⟨⟨sub, hsub, hstatus⟩, ?_⟩
  exact ⟨_, hsubs.trans (subscriptions_updateActiveTrafficAddonCycleEnd _ _ _ _)⟩

theorem extendUserSubscription_spec {id days : ℤ} {r : AdministeredSubscription}
    (h : Returns (extendUserSubscription env now id days) db r db') :
    (∃ sub, getUserSubscriptionById id db = some sub ∧ sub.status ≠ .cancelled) ∧
    ∃ expiresAt next, db'.userSubscriptions = updateWhere (fun s => s.id = id)
      (fun s => { s with
        status := .active, expiresAt := some expiresAt, nextTrafficResetAt := next })
      db.userSubscriptions := by
  replace h := (withUserSubscriptionLock_spec h).of_transaction
  obtain ⟨-, h⟩ := h.bind_throwIf
  obtain ⟨sub, hsub, h⟩ := h.bind_query.bind_orThrow
  obtain ⟨hstatus, h⟩ := h.bind_throwIf
  obtain ⟨current, -, h⟩ := h.bind_orThrow
  obtain ⟨limit, db₁, hsync, hdone⟩ := h.bind_query.bind_execute.bind_execute.of_bind
  obtain ⟨-, rfl⟩ := hdone.of_pure
  have hsubs := (sync_spec hsync).1
  refine ⟨⟨sub, hsub, hstatus⟩, ?_⟩
  exact ⟨_, _, hsubs.trans (subscriptions_updateActiveTrafficAddonCycleEnd _ _ _ _)⟩

end

end ForwardX.Panel
