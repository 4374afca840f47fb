/-
Traffic billing (`server/repositories/trafficBillingRepository.ts`).
-/
import ForwardX.Panel.Wallet
import Mathlib.Algebra.Order.BigOperators.Group.List

namespace ForwardX.Panel

open Table Tx Call

/-! ## Prices -/

def gbBytes : ℤ := 1024 ^ 3

def milliCentsPerCent : ℤ := 1000

/-- Milli-cents, times a multiplier in hundredths. -/
def billingDenominator : ℤ := 100 * milliCentsPerCent

def normalizeTrafficMultiplier (value : ℤ) : ℤ := min 5000 (max 1 value)

/-- `normalizePrice` and `normalizePriceMilliCents`, on the integers of a column. -/
def normalizePrice (value : ℤ) : ℤ := max 0 value

def configPriceMilliCents (config : TrafficBillingConfig) : ℤ :=
  let milliCents := normalizePrice config.pricePerGbMilliCents
  if milliCents > 0 then milliCents
  else normalizePrice config.pricePerGbCents * milliCentsPerCent

def billedFullGb (totalBytes : ℤ) : ℤ := max 0 (max 0 totalBytes / gbBytes)

def effectiveAmountCentsForGb (gb pricePerGbMilliCents multiplier : ℤ) : ℤ :=
  max 0 gb * normalizePrice pricePerGbMilliCents * normalizeTrafficMultiplier multiplier
    / billingDenominator

def effectiveAmountCentsForBytes (bytes pricePerGbMilliCents multiplier : ℤ) : ℤ :=
  max 0 bytes * normalizePrice pricePerGbMilliCents * normalizeTrafficMultiplier multiplier
    / (gbBytes * billingDenominator)

/-- `a || b` on numbers. -/
def orElseZero (a b : ℤ) : ℤ := if a = 0 then b else a

/-- `Math.ceil(bytes / GB_BYTES)` -/
def ceilGb (bytes : ℤ) : ℤ := -(-bytes / gbBytes)

def multiplierText (multiplier : ℤ) : String :=
  let cents := multiplier % 100
  toString (multiplier / 100) ++ "." ++ (if cents < 10 then "0" else "") ++ toString cents

def trafficBillingResourceLabel : TrafficBillingResourceType → String
  | .host => "历史主机"
  | .tunnel => "隧道转发"
  | .forwardGroup => "转发资源"

/-! ## Reads -/

abbrev ResourceKey := TrafficBillingResourceType × ℤ

def TrafficBillingConfig.key (c : TrafficBillingConfig) : ResourceKey := (c.resourceType, c.resourceId)

def TrafficBillingUsage.key (u : TrafficBillingUsage) : ℤ × ResourceKey :=
  (u.userId, u.resourceType, u.resourceId)

def TrafficBillingRuleUsage.key (u : TrafficBillingRuleUsage) : ℤ × ResourceKey :=
  (u.ruleId, u.resourceType, u.resourceId)

def findTrafficBillingConfig (resource : ResourceKey) (db : Database) : Option TrafficBillingConfig :=
  db.trafficBillingConfigs.find? fun c => c.key = resource ∧ c.enabled

/-- A host has no multiplier of its own, and a resource that is gone or carries a
zero leaves the multiplier of the configuration. -/
def getBillingResourceMultiplier (resource : ResourceKey) (fallback : ℤ) (db : Database) : ℤ :=
  match resource with
  | (.tunnel, resourceId) =>
    let column := ((byKey Tunnel.id resourceId db.tunnels).map Tunnel.trafficMultiplier).getD 0
    normalizeTrafficMultiplier (orElseZero column fallback)
  | (.forwardGroup, resourceId) =>
    let column :=
      ((byKey ForwardGroup.id resourceId db.forwardGroups).map ForwardGroup.trafficMultiplier).getD 0
    normalizeTrafficMultiplier (orElseZero column fallback)
  | (.host, _) => normalizeTrafficMultiplier fallback

def getHistoricalRuleTrafficBytes (ruleId : ℤ) (db : Database) : ℤ :=
  ((db.trafficStats.filter fun s => s.ruleId = ruleId).map fun s => s.bytesIn + s.bytesOut).sum

def billingPrice (resource : ResourceKey) (db : Database) : ℤ :=
  ((findTrafficBillingConfig resource db).map configPriceMilliCents).getD 0

def billingMultiplier (resource : ResourceKey) (db : Database) : ℤ :=
  getBillingResourceMultiplier resource
    (orElseZero (((findTrafficBillingConfig resource db).map (·.multiplier)).getD 0) 100) db

def lockTrafficBillingUserRows (userId : ℤ) : Db Unit := do
  let row ← query (·.user? userId)
  throwIf (0 < userId ∧ row = none) "User not found"

/-! ## Live billing -/

/-- What a report names: the owner, the rule and the resource that is billed. -/
structure BillingTarget where
  userId : ℤ
  ruleId : ℤ
  resource : ResourceKey

def BillingTarget.usageKey (t : BillingTarget) : ℤ × ResourceKey := (t.userId, t.resource)

def BillingTarget.ruleKey (t : BillingTarget) : ℤ × ResourceKey := (t.ruleId, t.resource)

/-- The bytes and the charged gigabytes of a rule before a report. A rule that
was moving traffic before rule positions were kept starts at its statistics, with
every started gigabyte taken as charged. -/
structure RulePosition where
  totalBytes : ℤ
  billedGb : ℤ

def RulePosition.ofHistory (historicalRuleBytes : ℤ) : RulePosition :=
  ⟨historicalRuleBytes, if historicalRuleBytes > 0 then ceilGb historicalRuleBytes else 0⟩

/-- The position the report of `bytes` starts from. The statistics already hold
that report, so it is taken off again. -/
def rulePosition (db : Database) (t : BillingTarget) (bytes : ℤ) : RulePosition :=
  match byKey TrafficBillingRuleUsage.key t.ruleKey db.trafficBillingRuleUsage with
  | some row => ⟨row.totalBytes, row.billedGb⟩
  | none =>
    if db.trafficBillingRuleUsage.any (·.ruleId = t.ruleId)
        ∨ byKey TrafficBillingUsage.key t.usageKey db.trafficBillingUsage = none then ⟨0, 0⟩
    else .ofHistory (max 0 (getHistoricalRuleTrafficBytes t.ruleId db - bytes))

def RulePosition.newlyBilledGb (p : RulePosition) (bytes : ℤ) : ℤ :=
  max 0 (billedFullGb (p.totalBytes + bytes) - p.billedGb)

def RulePosition.advance (p : RulePosition) (bytes : ℤ) : RulePosition :=
  ⟨p.totalBytes + bytes, max p.billedGb (billedFullGb (p.totalBytes + bytes))⟩

/-- The row of `traffic_billing_usage` after the report. -/
def usageRow (now : ℤ) (t : BillingTarget) (bytes newlyBilledGb : ℤ)
    (usage : Option TrafficBillingUsage) : TrafficBillingUsage :=
  { userId := t.userId, resourceType := t.resource.1, resourceId := t.resource.2
    totalBytes := (usage.map (·.totalBytes)).getD 0 + bytes
    billedGb := (usage.map (·.billedGb)).getD 0 + newlyBilledGb
    pendingMilliCents := 0, updatedAt := seconds now }

/-- The row of `traffic_billing_rule_usage` at a position that is not settled. -/
def ruleUsageRow (now : ℤ) (t : BillingTarget) (p : RulePosition) : TrafficBillingRuleUsage :=
  { userId := t.userId, ruleId := t.ruleId, resourceType := t.resource.1
    resourceId := t.resource.2, totalBytes := p.totalBytes, billedGb := p.billedGb
    pendingMilliCents := 0, settled := false, updatedAt := seconds now }

def Database.putUsage (db : Database) (row : TrafficBillingUsage) : Database :=
  { db with
    trafficBillingUsage := upsert TrafficBillingUsage.key row db.trafficBillingUsage }

def Database.putRuleUsage (db : Database) (row : TrafficBillingRuleUsage) : Database :=
  { db with
    trafficBillingRuleUsage :=
      upsert TrafficBillingRuleUsage.key row db.trafficBillingRuleUsage }

def liveChargeDescription (resource : ResourceKey) (gb multiplier : ℤ) : String :=
  "流量计费：" ++ trafficBillingResourceLabel resource.1 ++ " #" ++ toString resource.2
    ++ " 新增 " ++ toString gb ++ "GB x " ++ multiplierText multiplier

def liveCharge (t : BillingTarget) (bytes billedGb pricePerGbMilliCents multiplier : ℤ) : TrafficCharge :=
  { userId := t.userId, ruleId := t.ruleId
    resourceType := t.resource.1, resourceId := t.resource.2
    bytes, billedGb, pricePerGbMilliCents, multiplier
    amountCents := effectiveAmountCentsForGb billedGb pricePerGbMilliCents multiplier
    description := liveChargeDescription t.resource billedGb multiplier }

def billTrafficUsage (now : ℤ) (t : BillingTarget) (bytes : ℤ) : Db (Option ChargeResult) :=
  withDatabaseTransaction do
    if bytes ≤ 0 then pure none
    else
      let enabled ← query (·.trafficBillingEnabled)
      if !enabled then pure none
      else
        -- a resource without a configuration has price zero
        let pricePerGbMilliCents ← query (billingPrice t.resource)
        if pricePerGbMilliCents ≤ 0 then pure none
        else
          lockTrafficBillingUserRows t.userId
          let multiplier ← query (billingMultiplier t.resource)
          let usage ← query fun db =>
            byKey TrafficBillingUsage.key t.usageKey db.trafficBillingUsage
          let position ← query (rulePosition · t bytes)
          let newlyBilledGb := position.newlyBilledGb bytes
          execute (·.putUsage (usageRow now t bytes newlyBilledGb usage))
          execute (·.putRuleUsage (ruleUsageRow now t (position.advance bytes)))
          if newlyBilledGb ≤ 0 then pure none
          else
            insertTrafficBillingCharge now
              (liveCharge t bytes newlyBilledGb pricePerGbMilliCents multiplier)

/-! ## Settlement of a deleted rule -/

def markSettled (now : ℤ) (usage : TrafficBillingRuleUsage) (db : Database) : Database :=
  { db with
    trafficBillingRuleUsage := updateWhere (fun u => u.key = usage.key)
      (fun u => { u with pendingMilliCents := 0, settled := true, updatedAt := seconds now })
      db.trafficBillingRuleUsage }

def settlementDescription (resource : ResourceKey) (bytes multiplier : ℤ) : String :=
  "流量计费：" ++ trafficBillingResourceLabel resource.1 ++ " #" ++ toString resource.2
    ++ " 删除规则结算 " ++ toString bytes ++ " bytes x " ++ multiplierText multiplier

def settlementCharge (t : BillingTarget) (resource : ResourceKey)
    (bytes amountCents pricePerGbMilliCents multiplier : ℤ) : TrafficCharge :=
  { userId := t.userId, ruleId := t.ruleId
    resourceType := resource.1, resourceId := resource.2
    bytes, billedGb := 0, amountCents, pricePerGbMilliCents, multiplier
    description := settlementDescription resource bytes multiplier }

def TrafficBillingRuleUsage.remainingBytes (usage : TrafficBillingRuleUsage) : ℤ :=
  max 0 (max 0 usage.totalBytes - max 0 usage.billedGb * gbBytes)

def settlementAmount (usage : TrafficBillingRuleUsage) (pricePerGbMilliCents multiplier : ℤ) : ℤ :=
  if pricePerGbMilliCents > 0
  then effectiveAmountCentsForBytes usage.remainingBytes pricePerGbMilliCents multiplier else 0

/-- One round of the settlement loop: the flag first, then the charge. -/
def settleRuleUsage (now : ℤ) (t : BillingTarget) (usage : TrafficBillingRuleUsage) :
    Db (Option ChargeResult) := do
  if usage.settled then pure none
  else
    let resource := (usage.resourceType, orElseZero usage.resourceId t.resource.2)
    let pricePerGbMilliCents ← query (billingPrice resource)
    let multiplier ← query (billingMultiplier resource)
    let amountCents := settlementAmount usage pricePerGbMilliCents multiplier
    execute (markSettled now usage)
    if usage.remainingBytes ≤ 0 ∨ amountCents ≤ 0 then pure none
    else
      insertTrafficBillingCharge now
        (settlementCharge t resource usage.remainingBytes amountCents pricePerGbMilliCents multiplier)

/-- The loop over the positions of the rule, with the total so far and the
balance after the last charge. -/
def settleRuleUsages (now : ℤ) (t : BillingTarget) :
    List TrafficBillingRuleUsage → ℤ → Option ℤ → Db (ℤ × Option ℤ)
  | [], totalAmountCents, balanceAfterCents => pure (totalAmountCents, balanceAfterCents)
  | usage :: rows, totalAmountCents, balanceAfterCents => do
    let charged ← settleRuleUsage now t usage
    match charged with
    | none => settleRuleUsages now t rows totalAmountCents balanceAfterCents
    | some c =>
      settleRuleUsages now t rows (totalAmountCents + c.amountCents) (some c.balanceAfterCents)

def ruleUsages (ruleId : ℤ) (db : Database) : List TrafficBillingRuleUsage :=
  db.trafficBillingRuleUsage.filter fun u => u.ruleId = ruleId

/-- The positions to settle. A rule without one that did move traffic gets one
from its statistics, with every started gigabyte taken as charged. -/
def settlementRows (now : ℤ) (t : BillingTarget) : Db (List TrafficBillingRuleUsage) := do
  let rows ← query (ruleUsages t.ruleId)
  if rows ≠ [] then pure rows
  else
    let usage ← query fun db => byKey TrafficBillingUsage.key t.usageKey db.trafficBillingUsage
    if usage = none then pure []
    else
      let historicalRuleBytes ← query (getHistoricalRuleTrafficBytes t.ruleId)
      if historicalRuleBytes > 0 then
        execute fun db => { db with
          trafficBillingRuleUsage := db.trafficBillingRuleUsage ++
            [ruleUsageRow now t ⟨historicalRuleBytes, ceilGb historicalRuleBytes⟩] }
        query (ruleUsages t.ruleId)
      else pure []

def settleTrafficBillingRuleOnDelete (now : ℤ) (t : BillingTarget) : Db (Option ChargeResult) :=
  withDatabaseTransaction do
    let enabled ← query (·.trafficBillingEnabled)
    if !enabled then pure none
    else
      lockTrafficBillingUserRows t.userId
      let rows ← settlementRows now t
      let (totalAmountCents, balanceAfterCents) ← settleRuleUsages now t rows 0 none
      match balanceAfterCents with
      | none => pure none
      | some balance =>
        if totalAmountCents ≤ 0 then pure none else pure (some ⟨totalAmountCents, 0, balance⟩)

/-! ## What the calls do -/

/-- The cents of a charge that was made; a call that charges nothing answers `null`. -/
def chargedCents (r : Option ChargeResult) : ℤ := (r.map (·.amountCents)).getD 0

/-- The tables and the switch that decide what traffic costs. -/
structure SameTariff (db db' : Database) : Prop where
  enabled : db'.trafficBillingEnabled = db.trafficBillingEnabled
  configs : db'.trafficBillingConfigs = db.trafficBillingConfigs
  tunnels : db'.tunnels = db.tunnels
  groups : db'.forwardGroups = db.forwardGroups

/-- A call that only charges: the ledger side moves, the usage tables do not. -/
structure OnlyCharges (db db' : Database) : Prop extends SameTariff db db' where
  usage : db'.trafficBillingUsage = db.trafficBillingUsage
  ruleUsage : db'.trafficBillingRuleUsage = db.trafficBillingRuleUsage
  stats : db'.trafficStats = db.trafficStats
  users : ∀ u, (db'.user? u).isSome = (db.user? u).isSome

section

variable {db db' : Database} {now bytes : ℤ} {t : BillingTarget} {r : Option ChargeResult}

theorem SameTariff.billingPrice_eq (h : SameTariff db db') (resource : ResourceKey) :
    billingPrice resource db' = billingPrice resource db := by
  simp only [billingPrice, findTrafficBillingConfig, h.configs]

theorem SameTariff.billingMultiplier_eq (h : SameTariff db db') (resource : ResourceKey) :
    billingMultiplier resource db' = billingMultiplier resource db := by
  simp only [billingMultiplier, getBillingResourceMultiplier, findTrafficBillingConfig, h.configs,
    h.tunnels, h.groups]

theorem charge_spec {c : TrafficCharge} (h : Returns (insertTrafficBillingCharge now c) db r db')
    (hamount : 0 ≤ c.amountCents) :
    chargedCents r ≤ c.amountCents ∧
      ((db.user? c.userId).isSome → chargedCents r = c.amountCents) ∧ OnlyCharges db db' := by
  obtain ⟨rfl, rfl, hno⟩ | ⟨user, huser, -, rfl, rfl⟩ := insertTrafficBillingCharge_spec h
  · refine ⟨hamount, fun huser => ?_, ⟨⟨rfl, rfl, rfl, rfl⟩, rfl, rfl, rfl, fun _ => rfl⟩⟩
    have hzero : c.amountCents = 0 := by
      rcases hno with hno | hno
      · omega
      · rw [hno] at huser
        cases huser
    rw [hzero]
    rfl
  · refine ⟨le_refl _, fun _ => rfl, ⟨⟨rfl, rfl, rfl, rfl⟩, rfl, rfl, rfl, ?_⟩⟩
    intro u
    show ((Database.post _ _).user? u).isSome = _
    rw [user?_post, Option.isSome_map]

theorem lockTrafficBillingUserRows_spec {u : ℤ} {x : Unit}
    (h : Returns (lockTrafficBillingUserRows u) db x db') :
    (0 < u → (db.user? u).isSome) ∧ db' = db := by
  obtain ⟨hlock, rfl⟩ := h.bind_query.of_throwIf
  refine ⟨fun hu => ?_, rfl⟩
  rw [Option.isSome_iff_ne_none]
  exact fun hnone => hlock ⟨hu, hnone⟩

theorem completes_lockTrafficBillingUserRows {u : ℤ} (hu : 0 < u → (db.user? u).isSome) :
    Completes (lockTrafficBillingUserRows u) db := by
  apply (completes_query _).bind
  intro row db₁ hrow
  obtain ⟨rfl, rfl⟩ := hrow.of_query
  apply completes_throwIf
  rintro ⟨hpos, hnone⟩
  have hsome := hu hpos
  rw [hnone] at hsome
  cases hsome

def Billable (db : Database) (t : BillingTarget) (bytes : ℤ) : Prop :=
  0 < bytes ∧ db.trafficBillingEnabled ∧ 0 < billingPrice t.resource db

/-- The database once a report has moved the two usage rows. -/
def recordedUsage (now : ℤ) (t : BillingTarget) (bytes : ℤ) (db : Database) : Database :=
  let p := rulePosition db t bytes
  (db.putUsage (usageRow now t bytes (p.newlyBilledGb bytes)
      (byKey TrafficBillingUsage.key t.usageKey db.trafficBillingUsage))).putRuleUsage
    (ruleUsageRow now t (p.advance bytes))

theorem billTrafficUsage_spec (h : Returns (billTrafficUsage now t bytes) db r db') :
    (¬ Billable db t bytes ∧ r = none ∧ db' = db) ∨
      (Billable db t bytes ∧ (0 < t.userId → (db.user? t.userId).isSome) ∧
        (((rulePosition db t bytes).newlyBilledGb bytes ≤ 0 ∧ r = none ∧
            db' = recordedUsage now t bytes db) ∨
          (0 < (rulePosition db t bytes).newlyBilledGb bytes ∧
            Returns (insertTrafficBillingCharge now (liveCharge t bytes
                ((rulePosition db t bytes).newlyBilledGb bytes) (billingPrice t.resource db)
                (billingMultiplier t.resource db)))
              (recordedUsage now t bytes db) r db'))) := by
  obtain ⟨hbytes, h⟩ | ⟨hbytes, h⟩ := h.of_transaction.of_ite
  · obtain ⟨rfl, rfl⟩ := h.of_pure
    exact .inl ⟨fun hb => hbytes.not_gt hb.1, rfl, rfl⟩
  obtain ⟨henabled, h⟩ | ⟨henabled, h⟩ := h.bind_query.of_ite
  · obtain ⟨rfl, rfl⟩ := h.of_pure
    exact .inl ⟨fun hb => by simp [hb.2.1] at henabled, rfl, rfl⟩
  obtain ⟨hprice, h⟩ | ⟨hprice, h⟩ := h.bind_query.of_ite
  · obtain ⟨rfl, rfl⟩ := h.of_pure
    exact .inl ⟨fun hb => hprice.not_gt hb.2.2, rfl, rfl⟩
  obtain ⟨x, db₁, hlock, hrest⟩ := h.of_bind
  obtain ⟨huser, rfl⟩ := lockTrafficBillingUserRows_spec hlock
  refine .inr ⟨⟨not_le.mp hbytes, by simpa using henabled, not_le.mp hprice⟩, huser, ?_⟩
  have h := hrest.bind_query.bind_query.bind_query.bind_execute.bind_execute
  obtain ⟨hgb, h⟩ | ⟨hgb, h⟩ := h.of_ite
  · obtain ⟨rfl, rfl⟩ := h.of_pure
    exact .inl ⟨hgb, rfl, rfl⟩
  · exact .inr ⟨not_le.mp hgb, h⟩

def settlementResource (t : BillingTarget) (usage : TrafficBillingRuleUsage) : ResourceKey :=
  (usage.resourceType, orElseZero usage.resourceId t.resource.2)

theorem settleRuleUsage_spec {usage : TrafficBillingRuleUsage}
    (h : Returns (settleRuleUsage now t usage) db r db') :
    (usage.settled ∧ r = none ∧ db' = db) ∨
      (usage.settled = false ∧
        (((usage.remainingBytes ≤ 0 ∨
            settlementAmount usage (billingPrice (settlementResource t usage) db)
              (billingMultiplier (settlementResource t usage) db) ≤ 0) ∧
            r = none ∧ db' = markSettled now usage db) ∨
          (0 < usage.remainingBytes ∧
            Returns (insertTrafficBillingCharge now
              (settlementCharge t (settlementResource t usage) usage.remainingBytes
                (settlementAmount usage (billingPrice (settlementResource t usage) db)
                  (billingMultiplier (settlementResource t usage) db))
                (billingPrice (settlementResource t usage) db)
                (billingMultiplier (settlementResource t usage) db)))
              (markSettled now usage db) r db'))) := by
  obtain ⟨hsettled, h⟩ | ⟨hsettled, h⟩ := h.of_ite
  · obtain ⟨rfl, rfl⟩ := h.of_pure
    exact .inl ⟨hsettled, rfl, rfl⟩
  refine .inr ⟨by simpa using hsettled, ?_⟩
  obtain ⟨hnone, h⟩ | ⟨hsome, h⟩ := h.bind_query.bind_query.bind_execute.of_ite
  · obtain ⟨rfl, rfl⟩ := h.of_pure
    exact .inl ⟨hnone, rfl, rfl⟩
  · exact .inr ⟨not_le.mp fun hle => hsome (.inl hle), h⟩

theorem settleTrafficBillingRuleOnDelete_spec (h : Returns (settleTrafficBillingRuleOnDelete now t) db r db') :
    (db.trafficBillingEnabled = false ∧ r = none ∧ db' = db) ∨
      (db.trafficBillingEnabled ∧ (0 < t.userId → (db.user? t.userId).isSome) ∧
        ∃ rows db₁ total balance,
        Returns (settlementRows now t) db rows db₁ ∧
        Returns (settleRuleUsages now t rows 0 none) db₁ (total, balance) db' ∧
        r = balance.bind fun b => if total ≤ 0 then none else some ⟨total, 0, b⟩) := by
  obtain ⟨henabled, h⟩ | ⟨henabled, h⟩ := h.of_transaction.bind_query.of_ite
  · obtain ⟨rfl, rfl⟩ := h.of_pure
    exact .inl ⟨by simpa using henabled, rfl, rfl⟩
  obtain ⟨x, db₁, hlock, hrest⟩ := h.of_bind
  obtain ⟨huser, rfl⟩ := lockTrafficBillingUserRows_spec hlock
  refine .inr ⟨by simpa using henabled, huser, ?_⟩
  obtain ⟨rows, db₂, hrows, hrest⟩ := hrest.of_bind
  obtain ⟨⟨total, balance⟩, db₃, hloop, hdone⟩ := hrest.of_bind
  cases balance with
  | none =>
    obtain ⟨rfl, rfl⟩ := hdone.of_pure
    exact ⟨rows, db₂, total, none, hrows, hloop, rfl⟩
  | some b =>
    obtain ⟨htotal, hdone⟩ | ⟨htotal, hdone⟩ := hdone.of_ite
    · obtain ⟨rfl, rfl⟩ := hdone.of_pure
      exact ⟨rows, db₂, total, some b, hrows, hloop, by simp [htotal]⟩
    · obtain ⟨rfl, rfl⟩ := hdone.of_pure
      exact ⟨rows, db₂, total, some b, hrows, hloop, by simp [htotal]⟩

theorem settlementRows_spec {rows : List TrafficBillingRuleUsage}
    (h : Returns (settlementRows now t) db rows db') :
    (rows = ruleUsages t.ruleId db ∧ db' = db ∧
        (ruleUsages t.ruleId db ≠ [] ∨
          byKey TrafficBillingUsage.key t.usageKey db.trafficBillingUsage = none ∨
          getHistoricalRuleTrafficBytes t.ruleId db ≤ 0)) ∨
      (ruleUsages t.ruleId db = [] ∧
        byKey TrafficBillingUsage.key t.usageKey db.trafficBillingUsage ≠ none ∧
        0 < getHistoricalRuleTrafficBytes t.ruleId db ∧
        rows = ruleUsages t.ruleId db' ∧ db' = { db with
          trafficBillingRuleUsage := db.trafficBillingRuleUsage ++
            [ruleUsageRow now t ⟨getHistoricalRuleTrafficBytes t.ruleId db,
              ceilGb (getHistoricalRuleTrafficBytes t.ruleId db)⟩] }) := by
  obtain ⟨hrows, h⟩ | ⟨hrows, h⟩ := h.bind_query.of_ite
  · obtain ⟨rfl, rfl⟩ := h.of_pure
    exact .inl ⟨rfl, rfl, .inl hrows⟩
  rw [ne_eq, not_not] at hrows
  obtain ⟨husage, h⟩ | ⟨husage, h⟩ := h.bind_query.of_ite
  · obtain ⟨rfl, rfl⟩ := h.of_pure
    exact .inl ⟨hrows.symm, rfl, .inr (.inl husage)⟩
  obtain ⟨hpos, h⟩ | ⟨hpos, h⟩ := h.bind_query.of_ite
  · obtain ⟨rfl, rfl⟩ := h.bind_execute.of_query
    exact .inr ⟨hrows, husage, hpos, rfl, rfl⟩
  · obtain ⟨rfl, rfl⟩ := h.of_pure
    exact .inl ⟨hrows.symm, rfl, .inr (.inr (not_lt.mp hpos))⟩

theorem settleRuleUsages_preserves {I : Database → Prop}
    (hmark : ∀ db usage, I db → I (markSettled now usage db))
    (hcharge : ∀ db c r db', I db → Returns (insertTrafficBillingCharge now c) db r db' → I db')
    (rows : List TrafficBillingRuleUsage) :
    ∀ {db : Database} {total : ℤ} {balance : Option ℤ} {out : ℤ × Option ℤ} {db' : Database},
      Returns (settleRuleUsages now t rows total balance) db out db' → I db → I db' := by
  induction rows with
  | nil =>
    intro db total balance out db' h hI
    obtain ⟨-, rfl⟩ := h.of_pure
    exact hI
  | cons usage rows ih =>
    intro db total balance out db' h hI
    obtain ⟨charged, db₁, hone, hrest⟩ := h.of_bind
    have hI₁ : I db₁ := by
      obtain ⟨-, -, rfl⟩ | ⟨-, ⟨-, -, rfl⟩ | ⟨-, hpay⟩⟩ := settleRuleUsage_spec hone
      · exact hI
      · exact hmark db usage hI
      · exact hcharge _ _ _ _ (hmark db usage hI) hpay
    cases charged with
    | none => exact ih hrest hI₁
    | some c => exact ih hrest hI₁

theorem settleTrafficBillingRuleOnDelete_preserves {I : Database → Prop}
    (hrow : ∀ db b, I db → I { db with trafficBillingRuleUsage := db.trafficBillingRuleUsage ++
      [ruleUsageRow now t ⟨b, ceilGb b⟩] })
    (hmark : ∀ db usage, I db → I (markSettled now usage db))
    (hcharge : ∀ db c r db', I db → Returns (insertTrafficBillingCharge now c) db r db' → I db')
    (h : Returns (settleTrafficBillingRuleOnDelete now t) db r db') (hI : I db) : I db' := by
  obtain ⟨-, -, rfl⟩ | ⟨-, -, rows, db₁, total, balance, hrows, hloop, -⟩ :=
    settleTrafficBillingRuleOnDelete_spec h
  · exact hI
  · apply settleRuleUsages_preserves hmark hcharge rows hloop
    obtain ⟨-, rfl, -⟩ | ⟨-, -, -, -, rfl⟩ := settlementRows_spec hrows
    · exact hI
    · exact hrow db _ hI

theorem completes_settleRuleUsage (usage : TrafficBillingRuleUsage) :
    Completes (settleRuleUsage now t usage) db := by
  apply completes_ite <;> intro _
  · exact completes_pure _
  apply (completes_query _).bind
  intro _ _ _
  apply (completes_query _).bind
  intro _ _ _
  apply (completes_execute _).bind
  intro _ _ _
  apply completes_ite <;> intro _
  · exact completes_pure _
  · exact completes_insertTrafficBillingCharge

theorem completes_settleRuleUsages (rows : List TrafficBillingRuleUsage) :
    ∀ (total : ℤ) (balance : Option ℤ) (db : Database),
      Completes (settleRuleUsages now t rows total balance) db := by
  induction rows with
  | nil => intro _ _ _; exact completes_pure _
  | cons usage rows ih =>
    intro total balance db
    apply (completes_settleRuleUsage usage).bind
    intro charged db₁ _
    cases charged with
    | none => exact ih _ _ _
    | some c => exact ih _ _ _

theorem completes_settlementRows : Completes (settlementRows now t) db := by
  apply (completes_query _).bind
  intro _ _ _
  apply completes_ite <;> intro _
  · exact completes_pure _
  apply (completes_query _).bind
  intro _ _ _
  apply completes_ite <;> intro _
  · exact completes_pure _
  apply (completes_query _).bind
  intro _ _ _
  apply completes_ite <;> intro _
  · apply (completes_execute _).bind
    intro _ _ _
    exact completes_query _
  · exact completes_pure _

theorem completes_settleTrafficBillingRuleOnDelete (hu : 0 < t.userId → (db.user? t.userId).isSome) :
    Completes (settleTrafficBillingRuleOnDelete now t) db := by
  apply Completes.transaction
  apply (completes_query _).bind
  intro enabled db₁ henabled
  obtain ⟨-, rfl⟩ := henabled.of_query
  apply completes_ite <;> intro _
  · exact completes_pure _
  apply (completes_lockTrafficBillingUserRows hu).bind
  intro _ _ _
  apply completes_settlementRows.bind
  intro rows _ _
  apply (completes_settleRuleUsages rows _ _ _).bind
  rintro ⟨total, balance⟩ _ _
  cases balance with
  | none => exact completes_pure _
  | some b => exact completes_ite (fun _ => completes_pure _) (fun _ => completes_pure _)

end

end ForwardX.Panel
