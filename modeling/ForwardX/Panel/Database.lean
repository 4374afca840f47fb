/-
The billing tables of the panel (`drizzle/schema.ts`), with the columns that the modelled functions
read or write.
-/
import ForwardX.Lib.Table
import ForwardX.Lib.Transaction

namespace ForwardX.Panel

open Table Tx

/-! ## Rows -/

structure User where
  id : ℤ
  balanceCents : ℤ := 0
  trafficUsed : ℤ := 0
  trafficLimit : ℤ := 0
  trafficAutoReset : Bool := false
  trafficResetDay : ℤ := 1
  lastTrafficReset : Option ℤ := none
  lastAutoTrafficReset : Option ℤ := none
  deriving DecidableEq

inductive TransactionType where
  | adminRecharge | adminAdjust | payment | purchase | redeem | trafficAddonPurchase
  | trafficBilling

structure BalanceTransaction where
  userId : ℤ
  type : TransactionType
  amountCents : ℤ
  balanceAfterCents : ℤ
  description : Option String := none
  operatorUserId : Option ℤ := none
  paymentOrderNo : Option String := none
  redemptionCodeId : Option ℤ := none
  createdAt : ℤ

inductive TrafficBillingResourceType where
  | host | tunnel | forwardGroup
  deriving DecidableEq

structure TrafficBillingConfig where
  resourceType : TrafficBillingResourceType
  resourceId : ℤ
  enabled : Bool := true
  pricePerGbCents : ℤ := 0
  pricePerGbMilliCents : ℤ := 0
  multiplier : ℤ := 100

/-- `traffic_billing_usage`: what a user moved through a resource. -/
structure TrafficBillingUsage where
  userId : ℤ
  resourceType : TrafficBillingResourceType
  resourceId : ℤ
  totalBytes : ℤ
  billedGb : ℤ
  pendingMilliCents : ℤ
  updatedAt : ℤ

/-- `traffic_billing_rule_usage`: the same per forwarding rule, which is what is
billed. -/
structure TrafficBillingRuleUsage where
  userId : ℤ
  ruleId : ℤ
  resourceType : TrafficBillingResourceType
  resourceId : ℤ
  totalBytes : ℤ
  billedGb : ℤ
  pendingMilliCents : ℤ
  settled : Bool
  updatedAt : ℤ

structure TrafficBillingRecord where
  userId : ℤ
  ruleId : ℤ
  resourceType : TrafficBillingResourceType
  resourceId : ℤ
  bytes : ℤ
  billedGb : ℤ
  pricePerGbCents : ℤ
  pricePerGbMilliCents : ℤ
  multiplier : ℤ
  amountCents : ℤ
  balanceAfterCents : ℤ
  createdAt : ℤ

/-- `traffic_stats`: the byte counts of one report for one rule. -/
structure TrafficStat where
  ruleId : ℤ
  bytesIn : ℤ
  bytesOut : ℤ

structure Tunnel where
  id : ℤ
  trafficMultiplier : ℤ := 100
  portRangeStart : Option ℤ := none
  portRangeEnd : Option ℤ := none

structure Host where
  id : ℤ
  portRangeStart : Option ℤ := none
  portRangeEnd : Option ℤ := none

structure ForwardGroup where
  id : ℤ
  trafficMultiplier : ℤ := 100

structure ForwardRule where
  id : ℤ
  userId : ℤ
  hostId : ℤ := 0
  tunnelId : ℤ := 0
  forwardGroupId : ℤ := 0
  sourcePort : ℤ := 0
  isEnabled : Bool := true
  isRunning : Bool := false
  pendingDelete : Bool := false
  updatedAt : ℤ := 0

/-- `subscription_plans`, with the resources that `attachPlanResources` adds. -/
structure SubscriptionPlan where
  id : ℤ
  name : String := ""
  isActive : Bool := true
  isStoreVisible : Bool := true
  priceCents : ℤ := 0
  durationDays : ℤ := 30
  trafficLimit : ℤ := 0
  portCount : ℤ := 20
  hostIds : List ℤ := []
  tunnelIds : List ℤ := []
  forwardGroupIds : List ℤ := []

inductive SubscriptionStatus where
  | active | expired | cancelled
  deriving DecidableEq

inductive SubscriptionSource where
  | admin | payment | redeem | balance
  deriving DecidableEq

structure PlanSnapshot where
  trafficLimit : ℤ

structure UserSubscription where
  id : ℤ
  userId : ℤ
  planId : ℤ
  status : SubscriptionStatus := .active
  source : SubscriptionSource := .admin
  paymentOrderNo : Option String := none
  planSnapshot : Option PlanSnapshot := none
  portRangeStart : Option ℤ := none
  portRangeEnd : Option ℤ := none
  nextTrafficResetAt : Option ℤ := none
  lastTrafficResetAt : Option ℤ := none
  startedAt : ℤ := 0
  expiresAt : Option ℤ := none

inductive TrafficAddonStatus where
  | active | expired
  deriving DecidableEq

structure UserTrafficAddon where
  id : ℤ
  userId : ℤ
  subscriptionId : ℤ
  trafficBytes : ℤ := 0
  status : TrafficAddonStatus := .active
  cycleResetAt : Option ℤ := none
  expiresAt : Option ℤ := none
  createdAt : ℤ := 0
  expiredAt : Option ℤ := none
  deriving DecidableEq

/-- `type` is free text; only two values mean something. -/
inductive RedemptionCodeType where
  | balance | plan | other
  deriving DecidableEq

structure RedemptionCode where
  id : ℤ
  code : String
  type : RedemptionCodeType
  planId : Option ℤ := none
  durationDays : Option ℤ := none
  amountCents : ℤ := 0
  startsAt : Option ℤ := none
  expiresAt : Option ℤ := none
  isActive : Bool := true
  usedByUserId : Option ℤ := none
  usedAt : Option ℤ := none

inductive DiscountType where
  | percent | amount

/-- `discount_codes`, with the plans that `attachDiscountPlans` adds. -/
structure DiscountCode where
  id : ℤ
  discountType : DiscountType := .percent
  discountValue : ℤ := 0
  maxUses : ℤ := 0
  usedCount : ℤ := 0
  startsAt : Option ℤ := none
  expiresAt : Option ℤ := none
  isActive : Bool := true
  planIds : List ℤ := []

inductive PaymentOrderStatus where
  | pending | paid | processing | completed | failed | expired | cancelled
  deriving DecidableEq

inductive PaymentOrderType where
  | balance | plan | test
  deriving DecidableEq

structure PaymentOrder where
  outTradeNo : String
  userId : ℤ
  provider : String := ""
  status : PaymentOrderStatus := .pending
  amountCents : ℤ := 0
  currency : String := "CNY"
  tradeNo : Option String := none
  orderType : PaymentOrderType := .balance
  planId : Option ℤ := none
  subscriptionId : Option ℤ := none
  discountCodeId : Option ℤ := none
  discountConsumed : Bool := false
  discountAmountCents : ℤ := 0
  rawNotify : Option String := none
  expiresAt : Option ℤ := none
  paidAt : Option ℤ := none
  updatedAt : ℤ := 0
  deriving DecidableEq

/-- `subscription_plan_traffic_addons`: traffic that a plan sells on top. -/
structure PlanTrafficAddon where
  id : ℤ
  planId : ℤ
  trafficBytes : ℤ := 0
  priceCents : ℤ := 0
  isActive : Bool := true

/-! ## The database -/

structure Database where
  users : List User := []
  balanceTransactions : List BalanceTransaction := []
  trafficBillingEnabled : Bool := false
  trafficBillingConfigs : List TrafficBillingConfig := []
  trafficBillingUsage : List TrafficBillingUsage := []
  trafficBillingRuleUsage : List TrafficBillingRuleUsage := []
  trafficBillingRecords : List TrafficBillingRecord := []
  trafficStats : List TrafficStat := []
  hosts : List Host := []
  tunnels : List Tunnel := []
  forwardGroups : List ForwardGroup := []
  forwardRules : List ForwardRule := []
  forwardRuleTunnelExits : List ℤ := []
  subscriptionPlans : List SubscriptionPlan := []
  userSubscriptions : List UserSubscription := []
  userTrafficAddons : List UserTrafficAddon := []
  subscriptionPlanTrafficAddons : List PlanTrafficAddon := []
  redemptionCodes : List RedemptionCode := []
  discountCodes : List DiscountCode := []
  paymentOrders : List PaymentOrder := []

/-- A function of the panel that talks to the database. Its errors are the texts
of the `Error` objects it throws. -/
abbrev Db (α : Type) := Call Database String α

/-- `Math.floor(now / 1000)`: a clock reading as a column stores it. -/
def seconds (now : ℤ) : ℤ := now / 1000

/-- A column of whole seconds as a `Date`. -/
def milliseconds (column : ℤ) : ℤ := column * 1000

def Database.user? (db : Database) (userId : ℤ) : Option User :=
  byKey User.id userId db.users

end ForwardX.Panel
