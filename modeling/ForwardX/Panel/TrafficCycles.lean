/-
Monthly traffic resets, `server/scheduler.ts`.
-/
import ForwardX.Panel.Purchases

namespace ForwardX.Panel

open Table Tx Call

/-! ## Users -/

def getUsersForAutoReset (reference : ℤ) (db : Database) : List User :=
  db.users.filter fun u =>
    u.trafficAutoReset ∧ u.trafficResetDay ≤ (billingCalendarParts reference).date.day ∧
      u.lastAutoTrafficReset.all (· < seconds (billingMonthStart reference))

def User.trafficResetAt (resetAt : ℤ) (u : User) : User :=
  { u with
    trafficUsed := 0
    lastTrafficReset := some (seconds resetAt)
    lastAutoTrafficReset := some (seconds resetAt) }

/-- `UPDATE users SET … WHERE id = ? AND (lastAutoTrafficReset IS NULL OR
lastAutoTrafficReset < ?)`, and the number of rows it hit. -/
def resetUserTrafficForCycle (userId boundary resetAt : ℤ) (db : Database) : ℕ × Database :=
  let p : User → Bool := fun u =>
    u.id = userId ∧ u.lastAutoTrafficReset.all (· < seconds boundary)
  (db.users.countP p, { db with users := updateWhere p (·.trafficResetAt resetAt) db.users })

/-! ## Subscriptions -/

structure CycleRow where
  sub : UserSubscription
  user : User
  trafficLimit : ℤ

def subscriptionCycleRows (now : ℤ) (db : Database) : List CycleRow :=
  (db.userSubscriptions.filter (·.activeAt (seconds now))).filterMap fun s =>
    (db.user? s.userId).map fun u => ⟨s, u, subscriptionTrafficLimit s db⟩

/-- The first boundary after `reference` and after `lastTrafficResetAt`, by the
owner's reset day or by the subscription's start. -/
def nextTrafficResetAfter (user : User) (sub : UserSubscription) (lastTrafficResetAt : Option ℤ)
    (reference : ℤ) : Option ℤ :=
  let expiresAt := sub.expiresAt.map milliseconds
  if user.trafficAutoReset then
    nextConfiguredSubscriptionTrafficReset user.trafficResetDay (some (milliseconds sub.startedAt))
      lastTrafficResetAt reference expiresAt
  else nextAnchoredSubscriptionTrafficReset (milliseconds sub.startedAt) reference expiresAt

def CycleRow.alignedTo (reference : ℤ) (row : CycleRow) : Option ℤ :=
  if 0 < row.trafficLimit then
    nextTrafficResetAfter row.user row.sub (row.sub.lastTrafficResetAt.map milliseconds) reference
  else none

def rowsToAlign (now reference userId : ℤ) (db : Database) : List CycleRow :=
  (subscriptionCycleRows now db).filter fun row =>
    row.sub.userId = userId ∧ ¬ (row.sub.nextTrafficResetAt.any (milliseconds · ≤ reference))

structure CycleUpdate where
  id : ℤ
  dueBoundary : ℤ
  nextTrafficResetAt : Option ℤ

/-- The cycles of a user that have come to their end by `now`. -/
def dueCycles (userId now : ℤ) (db : Database) : List CycleUpdate :=
  (db.userSubscriptions.filter fun s => s.userId = userId ∧ s.activeAt (seconds now)).filterMap
    fun s => (db.user? s.userId).bind fun user =>
      (s.nextTrafficResetAt.filter (· ≤ seconds now)).map fun next =>
        { id := s.id
          dueBoundary := milliseconds next
          nextTrafficResetAt := boundTrafficResetAt (nextTrafficResetAfter user s (some now) now)
            (s.expiresAt.map milliseconds) }

def latestBoundary : List CycleUpdate → ℤ
  | [] => 0
  | c :: cs => cs.foldl (fun m x => max m x.dueBoundary) c.dueBoundary

/-- One subscription of `expireTrafficAddonsForSubscriptionCycles`: an add-on that
was bought at the boundary or after it belongs to the new cycle. -/
def expireTrafficAddonsForCycle (now : ℤ) (cycle : CycleUpdate) (db : Database) : Database :=
  if cycle.id ≤ 0 then db
  else expireAddons now (fun a =>
    a.subscriptionId = cycle.id ∧ a.createdAt < seconds cycle.dueBoundary) db

/-! ## Tasks -/

/-- Where `rechargeSubscriptionTrafficCyclesForUserUnlocked` stands. -/
inductive SettleStep where
  | align
  | alignAddons (row : CycleRow) (rest : List CycleRow)
  | alignNext (row : CycleRow) (rest : List CycleRow)
  | due
  | reset (cycles : List CycleUpdate)
  | expire (todo cycles : List CycleUpdate)
  | update (todo : List CycleUpdate)

/-- Who settles the cycles of a user. `run` is the start of the monthly run that the
recharge belongs to. -/
inductive SettleCaller where
  | recharge (now : ℤ) (run : Option ℤ) (rest : List ℤ)
  | purchase (req : AddonRequest)

inductive CycleTask where
  | monthly
  | listing (now : ℤ)
  | resetting (now : ℤ) (users : List User)
  | restoring (now userId : ℤ) (users : List User)
  | recharging (run : Option ℤ)
  | listedUsers (run : Option ℤ) (userIds : List ℤ)
  | rechargingUsers (now : ℤ) (run : Option ℤ) (userIds : List ℤ)
  | settling (userId now : ℤ) (caller : SettleCaller) (pc : SettleStep)
  | recovering (now userId : ℤ) (run : Option ℤ) (rest : List ℤ)
  | purchasing (req : AddonRequest) (settled : Bool)
  | buying (openedAt : ℤ) (req : AddonRequest) (settled : Bool)
  | purchased (userId : ℤ)

/-- A line of the log: the user, the boundary in seconds and the time of the write. -/
structure TrafficReset where
  userId : ℤ
  boundary : ℤ
  writtenAt : ℤ
  deriving DecidableEq

/-- After a step. `finished` is the start of a monthly run that is through. -/
structure CycleOutcome where
  task : Option CycleTask
  db : Database
  reset : Option TrafficReset := none
  finished : Option ℤ := none

/-- A database operation; one that fails ends the call, or leads to `caught`. -/
def attemptCycle {α : Type} (m : Db α) (fault : ℕ → Option String) (db : Database)
    (caught : Option CycleTask) (next : α → Option CycleTask) : CycleOutcome :=
  match m.run fault db with
  | (.ok a, db') => { task := next a, db := db' }
  | (.error _, db') => { task := caught, db := db' }

def attemptReset (clock userId boundary resetAt : ℤ) (fault : ℕ → Option String) (db : Database)
    (next : ℕ → Option CycleTask) : CycleOutcome :=
  match (statement (resetUserTrafficForCycle userId boundary resetAt) : Db ℕ).run fault db with
  | (.ok affected, db') =>
    { task := next affected, db := db'
      reset := if 0 < affected then some ⟨userId, seconds boundary, clock⟩ else none }
  | (.error _, db') => { task := none, db := db' }

def SettleCaller.resume (userId : ℤ) (settled : Bool) : SettleCaller → CycleTask
  | .recharge now run rest =>
    if settled then .recovering now userId run rest else .rechargingUsers now run rest
  | .purchase req => .purchasing req settled

def alignFrom : List CycleRow → SettleStep
  | [] => .due
  | row :: rest => .alignAddons row rest

/-- One step of `rechargeSubscriptionTrafficCyclesForUserUnlocked`. -/
def stepSettle (clock : ℤ) (fault : ℕ → Option String) (db : Database) (userId now : ℤ)
    (caller : SettleCaller) : SettleStep → CycleOutcome
  | .align =>
    attemptCycle (query (rowsToAlign clock now userId)) fault db none fun rows =>
      some (.settling userId now caller (alignFrom rows))
  | .alignAddons row rest =>
    attemptCycle (execute (updateActiveTrafficAddonCycleEnd row.sub.id (row.alignedTo now)
      (row.sub.expiresAt.map milliseconds))) fault db none fun _ =>
        some (.settling userId now caller
          (if row.sub.nextTrafficResetAt = (row.alignedTo now).map seconds then alignFrom rest
            else .alignNext row rest))
  | .alignNext row rest =>
    attemptCycle (execute (updateUserSubscription row.sub.id fun s =>
      { s with nextTrafficResetAt := (row.alignedTo now).map seconds })) fault db none fun _ =>
        some (.settling userId now caller (alignFrom rest))
  | .due =>
    attemptCycle (query (dueCycles userId now)) fault db none fun cycles =>
      if cycles = [] then some (caller.resume userId false)
      else some (.settling userId now caller (.reset cycles))
  | .reset cycles =>
    attemptReset clock userId (latestBoundary cycles) now fault db fun _ =>
      some (.settling userId now caller (.expire cycles cycles))
  | .expire [] cycles => { task := some (.settling userId now caller (.update cycles)), db }
  | .expire (cycle :: todo) cycles =>
    attemptCycle (execute (expireTrafficAddonsForCycle clock cycle)) fault db none fun _ =>
      some (.settling userId now caller (.expire todo cycles))
  | .update [] => { task := some (caller.resume userId true), db }
  | .update (cycle :: todo) =>
    attemptCycle (execute (updateUserSubscription cycle.id fun s =>
      { s with
        nextTrafficResetAt := cycle.nextTrafficResetAt.map seconds
        lastTrafficResetAt := some (seconds now) })) fault db none fun _ =>
      some (.settling userId now caller (.update todo))

def CycleTask.step (env : Env) (clock : ℤ) (fault : ℕ → Option String) (db : Database) :
    CycleTask → CycleOutcome
  | .monthly => { task := some (.listing clock), db }
  | .listing now =>
    attemptCycle (query (getUsersForAutoReset now)) fault db none fun users =>
      some (.resetting now users)
  | .resetting now [] => { task := some (.recharging (some now)), db }
  | .resetting now (user :: users) =>
    attemptReset clock user.id (billingMonthlyBoundary now (clampResetDay user.trafficResetDay)) now
      fault db fun affected =>
        if 0 < affected then some (.restoring now user.id users) else some (.resetting now users)
  | .restoring now userId users =>
    attemptCycle (recoverUserForwardAccessIfEligible env clock userId) fault db none fun _ =>
      some (.resetting now users)
  | .recharging run =>
    attemptCycle (query (subscriptionCycleRows clock)) fault db none fun rows =>
      some (.listedUsers run ((rows.map fun row => row.sub.userId).dedup.filter (0 < ·)))
  | .listedUsers run userIds => { task := some (.rechargingUsers clock run userIds), db }
  | .rechargingUsers _ run [] => { task := none, db, finished := run }
  | .rechargingUsers now run (userId :: rest) =>
    { task := some (.settling userId now (.recharge now run rest) .align), db }
  | .settling userId now caller pc => stepSettle clock fault db userId now caller pc
  | .recovering now userId run rest =>
    attemptCycle (recoverUserForwardAccessIfEligible env clock userId) fault db none fun _ =>
      some (.rechargingUsers now run rest)
  | .purchasing req settled => { task := some (.buying clock req settled), db }
  | .buying openedAt req settled =>
    attemptCycle (buyTrafficAddon env openedAt clock req) fault db
      (if settled then some (.purchased req.userId) else none) fun _ => some (.purchased req.userId)
  | .purchased userId =>
    attemptCycle (recoverUserForwardAccessIfEligible env clock userId) fault db none fun _ => none

/-! ## The panel -/

/-- Clock, database, calls in flight in all instances, the log of resets, and the
starts of the monthly runs that are through. -/
structure CyclePanel where
  now : ℤ
  db : Database
  tasks : List CycleTask := []
  resets : List TrafficReset := []
  finished : List ℤ := []

inductive CycleCall where
  | runMonthlyTrafficReset
  | rechargeSubscriptionTrafficCycles
  | purchaseTrafficAddonWithBalance (req : AddonRequest)

def CycleCall.start (now : ℤ) : CycleCall → CycleTask
  | .runMonthlyTrafficReset => .monthly
  | .rechargeSubscriptionTrafficCycles => .recharging none
  | .purchaseTrafficAddonWithBalance req => .settling req.userId now (.purchase req) .align

inductive CycleEvent where
  | tick (ms : ℕ)
  | call (c : CycleCall)
  /-- The `i`-th call in flight takes a step. -/
  | step (i : ℕ) (env : Env) (fault : ℕ → Option String)
  /-- The `i`-th call in flight dies. -/
  | crash (i : ℕ)
  /-- Another request, such as a traffic report. It may write any table but those of
  subscriptions and add-ons, and any column of a user but those of the automatic
  reset. -/
  | other (edit : Database → Database) (user : User → User)

def editUser (user : User → User) (u : User) : User :=
  { user u with
    id := u.id
    trafficAutoReset := u.trafficAutoReset
    trafficResetDay := u.trafficResetDay
    lastAutoTrafficReset := u.lastAutoTrafficReset }

def stepCycle (w : CyclePanel) : CycleEvent → CyclePanel
  | .tick ms => { w with now := w.now + ms }
  | .call c => { w with tasks := w.tasks ++ [c.start w.now] }
  | .step i env fault =>
    match w.tasks[i]? with
    | none => w
    | some t =>
      let out := t.step env w.now fault w.db
      { w with
        db := out.db
        tasks := w.tasks.eraseIdx i ++ out.task.toList
        resets := w.resets ++ out.reset.toList
        finished := w.finished ++ out.finished.toList }
  | .crash i => { w with tasks := w.tasks.eraseIdx i }
  | .other edit user => { w with db := { edit w.db with
      users := w.db.users.map (editUser user)
      userSubscriptions := w.db.userSubscriptions
      userTrafficAddons := w.db.userTrafficAddons } }

end ForwardX.Panel
