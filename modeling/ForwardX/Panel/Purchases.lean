/-
What a user buys from the balance: plans (`purchasePlanWithBalance`) and traffic on top of a plan
(`purchaseTrafficAddonWithBalance`), of `server/repositories/billingRepository.ts`.
-/
import ForwardX.Panel.PaymentOrders

namespace ForwardX.Panel

open Table Tx Call

/-! ## Plans -/

inductive DiscountCodeStatus where
  | disabled | pending | expired | usedUp | active
  deriving DecidableEq

def discountCodeStatus (now : ℤ) (code : DiscountCode) : DiscountCodeStatus :=
  if code.isActive = false then .disabled
  else if code.startsAt.any (now < milliseconds ·) then .pending
  else if code.expiresAt.any (milliseconds · ≤ now) then .expired
  else if 0 < code.maxUses ∧ code.maxUses ≤ code.usedCount then .usedUp
  else .active

def calculateDiscountedAmount (now amountCents : ℤ) : Option DiscountCode → Except String ℤ
  | none => .ok (max 0 amountCents)
  | some code =>
    let amount := max 0 amountCents
    if discountCodeStatus now code ≠ .active then .error "折扣码不可用"
    else
      match code.discountType with
      | .percent =>
        let pct := max 0 (min 100 code.discountValue)
        .ok (max 0 (mathRound (amount * (100 - pct) / 100)))
      | .amount => .ok (max 0 (amount - max 0 code.discountValue))

def getDiscountCodeById (id : ℤ) (db : Database) : Option DiscountCode :=
  byKey DiscountCode.id id db.discountCodes

/-- `if (amountCents > 0) await addUserBalance(userId, -amountCents, …)`. -/
def chargeBalance (now userId amountCents : ℤ) (m : TransactionMeta) : Db Unit :=
  if 0 < amountCents then do
    let _balance ← addUserBalance now userId (-amountCents) m
    pure ()
  else pure ()

structure PlanPurchase where
  userId : ℤ
  planId : ℤ
  discountCodeId : Option ℤ := none
  subscriptionId : Option ℤ := none

def purchasePlanWithBalance (env : Env) (now : ℤ) (req : PlanPurchase) : Db AppliedSubscription :=
  withDatabaseTransaction do
    let row ← query (getSubscriptionPlanById req.planId)
    let plan ← orThrow "套餐不可购买" (row.filter fun p => p.isActive ∧ p.isStoreVisible)
    let discount ← query fun db => (truthy req.discountCodeId).bind fun id => getDiscountCodeById id db
    throwIf (discount.any fun c => c.planIds ≠ [] ∧ req.planId ∉ c.planIds) "折扣码不适用于该套餐"
    match calculateDiscountedAmount now plan.priceCents discount with
    | .error e => throw e
    | .ok amountCents =>
      chargeBalance now req.userId amountCents
        { type := .purchase, description := some ("购买套餐：" ++ plan.name) }
      match discount with
      | some code =>
        consumeDiscountCode now code.id
        applySubscriptionToUser env now
          { userId := req.userId, planId := req.planId, source := .balance
            targetSubscriptionId := truthy req.subscriptionId }
      | none =>
        applySubscriptionToUser env now
          { userId := req.userId, planId := req.planId, source := .balance
            targetSubscriptionId := truthy req.subscriptionId }

/-! ## Traffic on top of a plan -/

def getTrafficAddonCycleEnd (now : ℤ) (subscription : UserSubscription) : ℤ :=
  ((subscription.nextTrafficResetAt.map milliseconds).filter (now < ·)).getD <|
    ((subscription.expiresAt.map milliseconds).filter (now < ·)).getD <|
      billingStartOfCalendarDay (billingAddMonthsClamped now 1)

/-- Two decimals, ties away from zero; the amounts are positive. -/
def formatAddonTraffic (bytes : ℤ) : String :=
  let gb : ℤ := 1024 * 1024 * 1024
  if bytes % gb = 0 then toString (bytes / gb) ++ "GB"
  else
    let hundredths := (200 * bytes + gb) / (2 * gb)
    toString (hundredths / 100) ++ "." ++ toString (hundredths % 100 / 10) ++
      toString (hundredths % 10) ++ "GB"

/-- The add-on with its plan, if that still exists. -/
def getTrafficAddonById (addonId : ℤ) (db : Database) : Option (PlanTrafficAddon × Option SubscriptionPlan) :=
  (byKey PlanTrafficAddon.id addonId db.subscriptionPlanTrafficAddons).map fun addon =>
    (addon, getSubscriptionPlanById addon.planId db)

/-- Of the subscriptions in force, newest first, one that ends its cycle first. -/
def pickActiveFiniteTrafficSubscription (now userId planId : ℤ) (subscriptionId : Option ℤ)
    (db : Database) : Option UserSubscription :=
  (((getActiveUserSubscriptions now userId db).reverse.filter fun s =>
    (planId = 0 ∨ s.planId = planId) ∧ (truthy subscriptionId).all (s.id = ·) ∧
      0 < subscriptionTrafficLimit s db).insertionSort fun a b =>
        getTrafficAddonCycleEnd now a ≤ getTrafficAddonCycleEnd now b).head?

structure AddonRequest where
  userId : ℤ
  addonId : ℤ
  subscriptionId : Option ℤ := none

/-- `insertAndGetId("user_traffic_addons", …)`. -/
def insertTrafficAddon (row : ℤ → UserTrafficAddon) (db : Database) : ℤ × Database :=
  let id := nextKey UserTrafficAddon.id db.userTrafficAddons
  (id, { db with userTrafficAddons := db.userTrafficAddons ++ [row id] })

/-- The new row. Its end goes by the clock when the purchase began, its creation by the
clock when it is paid for. -/
def boughtAddon (openedAt now : ℤ) (req : AddonRequest) (addon : PlanTrafficAddon)
    (subscription : UserSubscription) (id : ℤ) : UserTrafficAddon where
  id := id
  userId := req.userId
  subscriptionId := subscription.id
  trafficBytes := addon.trafficBytes
  status := .active
  cycleResetAt := some (seconds (getTrafficAddonCycleEnd openedAt subscription))
  expiresAt := some (seconds (getTrafficAddonCycleEnd openedAt subscription))
  createdAt := seconds now

structure BoughtAddon where
  id : ℤ
  subscriptionId : ℤ
  trafficBytes : ℤ
  priceCents : ℤ
  expiresAt : ℤ
  trafficLimit : ℤ

/-- The transaction of `purchaseTrafficAddonWithBalance`. It reads the clock as it goes:
`openedAt` up to the end of the cycle, `now` from the payment on. -/
def buyTrafficAddon (env : Env) (openedAt now : ℤ) (req : AddonRequest) : Db BoughtAddon :=
  withDatabaseTransaction do
    execute (expireDueTrafficAddons openedAt req.userId)
    let row ← query (getTrafficAddonById req.addonId)
    let found ← orThrow "流量包不可购买" (row.filter fun a => a.1.isActive ∧ 0 < a.1.trafficBytes)
    throwIf ((found.2.map SubscriptionPlan.trafficLimit).getD 0 ≤ 0) "不限流量套餐无需购买流量包"
    let picked ← queryOr
      (pickActiveFiniteTrafficSubscription openedAt req.userId found.1.planId req.subscriptionId) none
    let subscription ← orThrow "当前没有可购买流量包的生效套餐" picked
    let balance ← query (·.balance req.userId)
    throwIf (balance < found.1.priceCents) "余额不足"
    chargeBalance now req.userId found.1.priceCents
      { type := .trafficAddonPurchase
        description := some ("购买附加流量：" ++
          ((found.2.map SubscriptionPlan.name).filter (· ≠ "")).getD
            ("套餐 #" ++ toString found.1.planId) ++ " " ++ formatAddonTraffic found.1.trafficBytes) }
    let id ← statement (insertTrafficAddon (boughtAddon openedAt now req found.1 subscription))
    let trafficLimit ← syncUserSubscriptionEntitlements env now req.userId
    pure ⟨id, subscription.id, found.1.trafficBytes, found.1.priceCents,
      getTrafficAddonCycleEnd openedAt subscription, trafficLimit⟩

/-! ## What they did -/

section

variable {env : Env} {now userId : ℤ} {db db' : Database}

theorem chargeBalance_spec {userId amount : ℤ} {m : TransactionMeta} {r : Unit}
    (h : Returns (chargeBalance now userId amount m) db r db') :
    db' = db ∨ ∃ user, 0 < amount ∧ db.user? userId = some user ∧ 0 ≤ user.balanceCents - amount ∧
      db' = db.post (m.row userId (-amount) (user.balanceCents - amount) (seconds now)) := by
  obtain ⟨hpos, h⟩ | ⟨-, h⟩ := h.of_ite
  · obtain ⟨next, db₁, hadd, hdone⟩ := h.of_bind
    obtain ⟨-, rfl⟩ := hdone.of_pure
    obtain ⟨-, user, huser, hnext, hge, rfl⟩ := addUserBalance_spec hadd
    have hround : mathRound (-(amount : ℚ)) = -amount := by
      rw [← Int.cast_neg, mathRound_intCast]
    rw [hround] at hnext ⊢
    have hsub : next = user.balanceCents - amount := by omega
    rw [hsub] at hge ⊢
    exact .inr ⟨user, hpos, huser, hge, rfl⟩
  · exact .inl h.of_pure.2

theorem mem_of_pickActiveFiniteTrafficSubscription {planId : ℤ} {subscriptionId : Option ℤ}
    {s : UserSubscription}
    (h : pickActiveFiniteTrafficSubscription now userId planId subscriptionId db = some s) :
    s ∈ getActiveUserSubscriptions now userId db := by
  have hmem := List.mem_of_mem_head? h
  rw [List.mem_insertionSort, List.mem_filter, List.mem_reverse] at hmem
  exact hmem.1

theorem buyTrafficAddon_spec {openedAt : ℤ} {req : AddonRequest} {r : BoughtAddon}
    (h : Returns (buyTrafficAddon env openedAt now req) db r db') :
    ∃ addon sub m db₁ limit,
      sub ∈ getActiveUserSubscriptions openedAt req.userId db ∧
      Returns (chargeBalance now req.userId addon.priceCents m)
        (expireDueTrafficAddons openedAt req.userId db) () db₁ ∧
      Returns (syncUserSubscriptionEntitlements env now req.userId)
        (insertTrafficAddon (boughtAddon openedAt now req addon sub) db₁).2 limit db' := by
  obtain ⟨found, -, h⟩ := h.of_transaction.bind_execute.bind_query.bind_orThrow
  obtain ⟨-, h⟩ := h.bind_throwIf
  obtain ⟨picked, hpicked, h⟩ := h.bind_queryOr
  obtain ⟨sub, rfl, h⟩ := h.bind_orThrow
  obtain ⟨-, h⟩ := h.bind_query.bind_throwIf
  obtain ⟨u, db₁, hcharge, h⟩ := h.of_bind
  obtain ⟨limit, db₂, hsync, h⟩ := h.bind_statement.of_bind
  obtain ⟨-, rfl⟩ := h.of_pure
  have hsub := hpicked.resolve_right (by simp)
  exact ⟨found.1, sub, _, db₁, limit, mem_of_pickActiveFiniteTrafficSubscription hsub.symm, hcharge,
    hsync⟩

end

end ForwardX.Panel
