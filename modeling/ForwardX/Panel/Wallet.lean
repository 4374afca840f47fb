/-
Balances and their ledger, `server/repositories/billingRepository.ts`.
-/
import ForwardX.Panel.Database
import Mathlib.Data.Rat.Floor

namespace ForwardX.Panel

open Table Tx Call

/-! ## Postings -/

/-- `UPDATE users SET balanceCents = ? WHERE id = ?`. -/
def Database.setBalance (db : Database) (userId balanceCents : ℤ) : Database :=
  { db with
    users := updateWhere (fun u => u.id = userId) (fun u => { u with balanceCents }) db.users }

def Database.insertTransaction (db : Database) (t : BalanceTransaction) : Database :=
  { db with balanceTransactions := db.balanceTransactions ++ [t] }

def Database.post (db : Database) (t : BalanceTransaction) : Database :=
  (db.setBalance t.userId t.balanceAfterCents).insertTransaction t

/-- `getUserBalance`: a user who does not exist has none. -/
def Database.balance (db : Database) (userId : ℤ) : ℤ :=
  ((db.user? userId).map User.balanceCents).getD 0

theorem user?_setBalance (db : Database) (u b v : ℤ) :
    (db.setBalance u b).user? v
      = (db.user? v).map fun r => if v = u then { r with balanceCents := b } else r :=
  byKey_updateWhere_key User.id (fun r => { r with balanceCents := b }) u (fun _ h => h) db.users v

theorem user?_post (db : Database) (t : BalanceTransaction) (v : ℤ) :
    (db.post t).user? v
      = (db.user? v).map fun r =>
          if v = t.userId then { r with balanceCents := t.balanceAfterCents } else r :=
  user?_setBalance db t.userId t.balanceAfterCents v

@[simp] theorem balanceTransactions_post (db : Database) (t : BalanceTransaction) :
    (db.post t).balanceTransactions = db.balanceTransactions ++ [t] := rfl

/-! ## Credits and debits -/

/-- `Math.round`: ties go up. -/
def mathRound (x : ℚ) : ℤ := ⌊x + 1 / 2⌋

/-- The columns of a ledger row that the caller chooses. -/
structure TransactionMeta where
  type : TransactionType
  description : Option String := none
  operatorUserId : Option ℤ := none
  paymentOrderNo : Option String := none
  redemptionCodeId : Option ℤ := none

def TransactionMeta.row (m : TransactionMeta) (userId amountCents balanceAfterCents createdAt : ℤ) :
    BalanceTransaction :=
  { userId, amountCents, balanceAfterCents, createdAt
    type := m.type
    description := m.description
    operatorUserId := m.operatorUserId
    paymentOrderNo := m.paymentOrderNo
    redemptionCodeId := m.redemptionCodeId }

def addUserBalanceInTransaction (now userId : ℤ) (amountCents : ℚ) (m : TransactionMeta) : Db ℤ := do
  let row ← query (·.user? userId)
  let user ← orThrow "用户不存在" row
  let delta := mathRound amountCents
  let next := user.balanceCents + delta
  throwIf (next < 0) "余额不足"
  execute (·.setBalance userId next)
  execute (·.insertTransaction (m.row userId delta next (seconds now)))
  pure next

/-- The amount is finite here: a `number` that is not never reaches the database. -/
def addUserBalance (now userId : ℤ) (amountCents : ℚ) (m : TransactionMeta) : Db ℤ := do
  throwIf (amountCents = 0) "金额无效"
  withDatabaseTransaction (addUserBalanceInTransaction now userId amountCents m)

structure SetBalanceResult where
  balanceCents : ℤ
  previousBalanceCents : ℤ
  amountCents : ℤ
  changed : Bool

def setUserBalance (now userId : ℤ) (balanceCents : ℚ) (m : TransactionMeta) : Db SetBalanceResult := do
  throwIf (balanceCents < 0) "金额无效"
  withDatabaseTransaction do
    let row ← query (·.user? userId)
    let user ← orThrow "用户不存在" row
    let previous := user.balanceCents
    let next := mathRound balanceCents
    let delta := next - previous
    if delta = 0 then
      pure ⟨next, previous, 0, false⟩
    else
      let result ← addUserBalance now userId delta m
      pure ⟨result, previous, delta, true⟩

/-! ## Traffic charges -/

structure TrafficCharge where
  userId : ℤ
  ruleId : ℤ
  resourceType : TrafficBillingResourceType
  resourceId : ℤ
  bytes : ℤ
  billedGb : ℤ
  amountCents : ℤ
  pricePerGbMilliCents : ℤ
  multiplier : ℤ
  description : String

structure ChargeResult where
  amountCents : ℤ
  billedGb : ℤ
  balanceAfterCents : ℤ

/-- The ledger row of a traffic charge that leaves `balanceAfterCents`. -/
def TrafficCharge.transaction (c : TrafficCharge) (amountCents balanceAfterCents createdAt : ℤ) :
    BalanceTransaction :=
  { userId := c.userId, type := .trafficBilling, amountCents := -amountCents, balanceAfterCents,
    description := some c.description, createdAt }

def TrafficCharge.record (c : TrafficCharge) (amountCents balanceAfterCents createdAt : ℤ) :
    TrafficBillingRecord :=
  { userId := c.userId, ruleId := c.ruleId, resourceType := c.resourceType,
    resourceId := c.resourceId, bytes := max 0 c.bytes, billedGb := max 0 c.billedGb,
    pricePerGbCents := c.pricePerGbMilliCents / 1000,
    pricePerGbMilliCents := c.pricePerGbMilliCents, multiplier := c.multiplier,
    amountCents, balanceAfterCents, createdAt }

def insertTrafficBillingCharge (now : ℤ) (input : TrafficCharge) : Db (Option ChargeResult) :=
  withDatabaseTransaction do
    let amountCents := max 0 input.amountCents
    if amountCents ≤ 0 then
      pure none
    else
      let row ← query (·.user? input.userId)
      match row with
      | none => pure none
      | some user =>
        -- unlike `addUserBalance`, nothing keeps this balance from going below zero
        let balanceAfterCents := user.balanceCents - amountCents
        execute (·.setBalance input.userId balanceAfterCents)
        execute (·.insertTransaction (input.transaction amountCents balanceAfterCents (seconds now)))
        execute fun db => { db with
          trafficBillingRecords := db.trafficBillingRecords
            ++ [input.record amountCents balanceAfterCents (seconds now)] }
        pure (some ⟨amountCents, input.billedGb, balanceAfterCents⟩)

/-! ## What a successful call did -/

section

variable {db db' : Database} {now userId : ℤ} {m : TransactionMeta}

theorem addUserBalanceInTransaction_spec {amount : ℚ} {next : ℤ}
    (h : Returns (addUserBalanceInTransaction now userId amount m) db next db') :
    ∃ user, db.user? userId = some user ∧ next = user.balanceCents + mathRound amount ∧
      0 ≤ next ∧ db' = db.post (m.row userId (mathRound amount) next (seconds now)) := by
  obtain ⟨user, huser, h⟩ := h.bind_query.bind_orThrow
  obtain ⟨hneg, h⟩ := h.bind_throwIf
  obtain ⟨rfl, rfl⟩ := h.bind_execute.bind_execute.of_pure
  exact ⟨user, huser, rfl, not_lt.mp hneg, rfl⟩

theorem addUserBalance_spec {amount : ℚ} {next : ℤ}
    (h : Returns (addUserBalance now userId amount m) db next db') :
    amount ≠ 0 ∧ ∃ user, db.user? userId = some user ∧
      next = user.balanceCents + mathRound amount ∧ 0 ≤ next ∧
      db' = db.post (m.row userId (mathRound amount) next (seconds now)) := by
  obtain ⟨hzero, h⟩ := h.bind_throwIf
  exact ⟨hzero, addUserBalanceInTransaction_spec h.of_transaction⟩

theorem mathRound_intCast (n : ℤ) : mathRound n = n := by
  unfold mathRound
  rw [Int.floor_eq_iff]
  constructor
  · linarith
  · linarith

theorem setUserBalance_spec {balance : ℚ} {r : SetBalanceResult}
    (h : Returns (setUserBalance now userId balance m) db r db') :
    ∃ user, db.user? userId = some user ∧ 0 ≤ balance ∧
      ((user.balanceCents = mathRound balance ∧ db' = db) ∨
        db' = db.post (m.row userId (mathRound balance - user.balanceCents) (mathRound balance)
          (seconds now))) := by
  obtain ⟨hneg, h⟩ := h.bind_throwIf
  obtain ⟨user, huser, h⟩ := h.of_transaction.bind_query.bind_orThrow
  refine ⟨user, huser, not_lt.mp hneg, ?_⟩
  obtain ⟨hdelta, h⟩ | ⟨-, h⟩ := h.of_ite
  · obtain ⟨-, rfl⟩ := h.of_pure
    exact .inl ⟨by omega, rfl⟩
  · obtain ⟨next, db₁, hadd, hdone⟩ := h.of_bind
    obtain ⟨-, rfl⟩ := hdone.of_pure
    obtain ⟨-, user', huser', hnext, -, rfl⟩ := addUserBalance_spec hadd
    rw [huser] at huser'
    obtain rfl := Option.some.inj huser'
    -- the difference is a whole number, so rounding it again changes nothing
    rw [mathRound_intCast] at hnext ⊢
    have hbal : next = mathRound balance := by omega
    exact .inr (by rw [hbal])

theorem insertTrafficBillingCharge_spec {c : TrafficCharge} {r : Option ChargeResult}
    (h : Returns (insertTrafficBillingCharge now c) db r db') :
    (r = none ∧ db' = db ∧ (c.amountCents ≤ 0 ∨ db.user? c.userId = none)) ∨
      ∃ user, db.user? c.userId = some user ∧ 0 < c.amountCents ∧
        r = some ⟨c.amountCents, c.billedGb, user.balanceCents - c.amountCents⟩ ∧
        db' = { db.post (c.transaction c.amountCents (user.balanceCents - c.amountCents) (seconds now))
          with trafficBillingRecords := db.trafficBillingRecords
            ++ [c.record c.amountCents (user.balanceCents - c.amountCents) (seconds now)] } := by
  obtain ⟨hamount, h⟩ | ⟨hamount, h⟩ := h.of_transaction.of_ite
  · obtain ⟨rfl, rfl⟩ := h.of_pure
    exact .inl ⟨rfl, rfl, .inl (by omega)⟩
  · have hmax : max 0 c.amountCents = c.amountCents := by omega
    replace h := h.bind_query
    cases huser : db.user? c.userId with
    | none =>
      rw [huser] at h
      obtain ⟨rfl, rfl⟩ := h.of_pure
      exact .inl ⟨rfl, rfl, .inr rfl⟩
    | some user =>
      rw [huser, hmax] at h
      obtain ⟨rfl, rfl⟩ := h.bind_execute.bind_execute.bind_execute.of_pure
      exact .inr ⟨user, rfl, by omega, rfl, rfl⟩

theorem completes_insertTrafficBillingCharge {c : TrafficCharge} :
    Completes (insertTrafficBillingCharge now c) db := by
  apply Completes.transaction
  apply completes_ite
  · intro _
    exact completes_pure _
  · intro _
    apply (completes_query _).bind
    intro row _ _
    cases row with
    | none => exact completes_pure _
    | some user =>
      apply (completes_execute _).bind
      intro _ _ _
      apply (completes_execute _).bind
      intro _ _ _
      apply (completes_execute _).bind
      intro _ _ _
      exact completes_pure _

end

end ForwardX.Panel
