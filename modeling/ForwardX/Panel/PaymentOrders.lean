/-
Payment orders: `server/payment.ts` with the order and discount statements of
`server/repositories/billingRepository.ts`.
-/
import ForwardX.Panel.Subscriptions
import ForwardX.Panel.Wallet
import Mathlib.Data.List.Sort

namespace ForwardX.Panel

open Table Tx Call

/-! ## Statements -/

def processingStaleMs : ℤ := 10 * 60 * 1000

def getPaymentOrderByOutTradeNo (outTradeNo : String) (db : Database) : Option PaymentOrder :=
  byKey PaymentOrder.outTradeNo outTradeNo db.paymentOrders

def PaymentOrder.stamped (now : ℤ) (r : PaymentOrder) : PaymentOrder :=
  { r with updatedAt := seconds now }

/-- `UPDATE payment_orders SET f, updatedAt = ? WHERE outTradeNo = ? AND p`, and
the number of rows it hit. -/
def updateOrderWhere (now : ℤ) (outTradeNo : String) (p : PaymentOrder → Bool)
    (f : PaymentOrder → PaymentOrder) (db : Database) : ℕ × Database :=
  (db.paymentOrders.countP fun r => r.outTradeNo = outTradeNo ∧ p r,
    { db with
      paymentOrders := updateWhere (fun r => r.outTradeNo = outTradeNo ∧ p r)
        (fun r => (f r).stamped now) db.paymentOrders })

def updatePaymentOrder (now : ℤ) (outTradeNo : String) (f : PaymentOrder → PaymentOrder)
    (db : Database) : Database :=
  (updateOrderWhere now outTradeNo (fun _ => true) f db).2

def claimPaidPaymentOrder (now : ℤ) (outTradeNo : String) : Database → ℕ × Database :=
  updateOrderWhere now outTradeNo (fun r => r.status = .paid)
    fun r => { r with status := .processing }

def resetStaleProcessingPaymentOrder (now : ℤ) (outTradeNo : String) (before : ℤ) : Database → ℕ × Database :=
  updateOrderWhere now outTradeNo
    (fun r => r.status = .processing ∧ r.updatedAt < seconds before)
    fun r => { r with status := .paid }

structure PaidNotification where
  provider : String
  tradeNo : Option String := none
  amountCents : ℤ
  currency : String
  rawNotify : String := ""

def nonEmpty (value : Option String) : Option String := value.filter (· ≠ "")

def markPaymentOrderPaid (now : ℤ) (outTradeNo : String) (n : PaidNotification) : Database → ℕ × Database :=
  updateOrderWhere now outTradeNo (fun r => r.status = .pending) fun r => { r with
    status := .paid
    tradeNo := (nonEmpty n.tradeNo).or r.tradeNo
    rawNotify := (nonEmpty (some n.rawNotify)).or r.rawNotify
    currency := (nonEmpty (some n.currency)).getD r.currency
    paidAt := some (seconds now) }

def listPaymentOrdersForMaintenance (statuses : List PaymentOrderStatus) (limit : ℕ) (db : Database) :
    List PaymentOrder :=
  ((db.paymentOrders.filter fun r => r.status ∈ statuses).insertionSort
    fun a b => a.updatedAt ≤ b.updatedAt).take (max 1 (min 10000 limit))

/-! ## Discount codes -/

def DiscountCode.consumable (nowSec : ℤ) (c : DiscountCode) : Bool :=
  c.isActive ∧ c.startsAt.all (· ≤ nowSec) ∧ c.expiresAt.all (nowSec < ·) ∧
    (c.maxUses ≤ 0 ∨ c.usedCount < c.maxUses)

def DiscountCode.addUses (n : ℤ) (c : DiscountCode) : DiscountCode :=
  { c with usedCount := c.usedCount + n }

def updateDiscountWhere (id : ℤ) (p : DiscountCode → Bool) (f : DiscountCode → DiscountCode)
    (db : Database) : ℕ × Database :=
  (db.discountCodes.countP fun c => c.id = id ∧ p c,
    { db with
      discountCodes := updateWhere (fun c => c.id = id ∧ p c) f db.discountCodes })

def consumeDiscountCode (now id : ℤ) : Db Unit := do
  let affected ← statement (updateDiscountWhere id (·.consumable (seconds now)) (·.addUses 1))
  throwIf (affected ≠ 1) "折扣码已失效或使用次数已达上限"

def releaseDiscountCode (id : ℤ) (db : Database) : Database :=
  (updateDiscountWhere id (fun c => 0 < c.usedCount) (·.addUses (-1)) db).2

/-! ## Creating and closing -/

/-- An order as `createOrder` has it once its checks are through. The number that
`createOutTradeNo` makes is never empty. -/
structure OrderRequest where
  outTradeNo : String
  outTradeNo_ne : outTradeNo ≠ ""
  userId : ℤ
  provider : String
  amountCents : ℤ
  currency : String
  orderType : PaymentOrderType
  planId : Option ℤ := none
  subscriptionId : Option ℤ := none
  discountCodeId : Option ℤ := none
  discountAmountCents : ℤ := 0
  expiresAt : ℤ

def truthy (id : Option ℤ) : Option ℤ := id.filter (· ≠ 0)

def OrderRequest.row (req : OrderRequest) (now : ℤ) : PaymentOrder where
  outTradeNo := req.outTradeNo
  userId := req.userId
  provider := req.provider
  status := .pending
  amountCents := req.amountCents
  currency := req.currency
  orderType := if (truthy req.planId).isSome then .plan else req.orderType
  planId := req.planId
  subscriptionId := req.subscriptionId
  discountCodeId := truthy req.discountCodeId
  discountConsumed := (truthy req.discountCodeId).isSome
  discountAmountCents := req.discountAmountCents
  expiresAt := some (seconds req.expiresAt)
  updatedAt := seconds now

def createPaymentOrder (now : ℤ) (req : OrderRequest) : Db Unit :=
  withDatabaseTransaction do
    let plan ← query (getSubscriptionPlanById (req.planId.getD 0))
    throwIf ((truthy req.planId).isSome ∧ plan = none) "套餐已删除，无法创建支付订单"
    -- `outTradeNo` is unique
    let taken ← query (getPaymentOrderByOutTradeNo req.outTradeNo)
    throwIf taken.isSome "UNIQUE constraint failed: payment_orders.outTradeNo"
    execute fun db => { db with paymentOrders := db.paymentOrders ++ [req.row now] }

def createOrder (now : ℤ) (req : OrderRequest) : Db Unit :=
  withDatabaseTransaction do
    match truthy req.discountCodeId with
    | some id =>
      consumeDiscountCode now id
      createPaymentOrder now req
    | none => createPaymentOrder now req

inductive ClosedStatus where
  | expired | failed | cancelled

def ClosedStatus.status : ClosedStatus → PaymentOrderStatus
  | .expired => .expired
  | .failed => .failed
  | .cancelled => .cancelled

def closedRow (status : ClosedStatus) (rawNotify : Option String) (r : PaymentOrder) : PaymentOrder :=
  { r with
    status := status.status, discountConsumed := false, rawNotify := rawNotify.or r.rawNotify }

def closePendingOrder (now : ℤ) (outTradeNo : String) (status : ClosedStatus)
    (rawNotify : Option String) (order : PaymentOrder) : Db Unit :=
  let close := updatePaymentOrder now outTradeNo (closedRow status rawNotify)
  match truthy order.discountCodeId with
  | some id =>
    if order.discountConsumed then do
      execute (releaseDiscountCode id)
      execute close
    else execute close
  | none => execute close

def closePaymentOrderAndReleaseDiscount (now : ℤ) (outTradeNo : String) (status : ClosedStatus)
    (rawNotify : Option String) : Db Unit :=
  withDatabaseTransaction do
    let row ← query (getPaymentOrderByOutTradeNo outTradeNo)
    match row.filter (fun r => r.status = .pending) with
    | none => pure ()
    | some order => closePendingOrder now outTradeNo status rawNotify order

/-! ## Fulfilment -/

def getUserSubscriptionByPaymentOrderNo (outTradeNo : String) (db : Database) : Option UserSubscription :=
  db.userSubscriptions.find? fun s => s.paymentOrderNo = some outTradeNo

def getBalanceTransactionByPaymentOrderNo (outTradeNo : String) (db : Database) : Option BalanceTransaction :=
  db.balanceTransactions.find? fun t => t.paymentOrderNo = some outTradeNo

def consumedRow (r : PaymentOrder) : PaymentOrder := { r with discountConsumed := true }

/-- The finalizer consumes the code itself when its copy of the order says that
this has not happened yet. -/
def consumeForOrder (now : ℤ) (outTradeNo : String) (order : PaymentOrder) : Db Unit :=
  match truthy order.discountCodeId with
  | some id =>
    if order.discountConsumed then pure ()
    else do
      consumeDiscountCode now id
      execute (updatePaymentOrder now outTradeNo consumedRow)
  | none => pure ()

def completedRow (subscriptionId : Option ℤ) (r : PaymentOrder) : PaymentOrder :=
  { r with status := .completed, subscriptionId := subscriptionId.or r.subscriptionId }

def completeOrder (now : ℤ) (outTradeNo : String) (subscriptionId : Option ℤ) : Database → Database :=
  updatePaymentOrder now outTradeNo (completedRow subscriptionId)

def fulfilPlan (env : Env) (now : ℤ) (outTradeNo : String) (order : PaymentOrder) (planId : ℤ) : Db Bool := do
  let existing ← query (getUserSubscriptionByPaymentOrderNo outTradeNo)
  match existing with
  | some subscription =>
    consumeForOrder now outTradeNo order
    execute (completeOrder now outTradeNo (some subscription.id))
    pure false
  | none =>
    consumeForOrder now outTradeNo order
    let result ← applySubscriptionToUser env now
      { userId := order.userId, planId, source := .payment, paymentOrderNo := some outTradeNo,
        targetSubscriptionId := truthy order.subscriptionId }
    let _limit ← recoverUserForwardAccessIfEligible env now order.userId
    execute (completeOrder now outTradeNo (some result.subscriptionId))
    pure true

def fulfilBalance (env : Env) (now : ℤ) (outTradeNo : String) (order : PaymentOrder) : Db Bool := do
  let existing ← query (getBalanceTransactionByPaymentOrderNo outTradeNo)
  match existing with
  | some _ =>
    execute (completeOrder now outTradeNo none)
    pure false
  | none =>
    let _balance ← addUserBalance now order.userId order.amountCents
      { type := .payment, description := some ("在线充值：" ++ outTradeNo),
        paymentOrderNo := some outTradeNo }
    let _limit ← recoverUserForwardAccessIfEligible env now order.userId
    execute (completeOrder now outTradeNo none)
    pure true

/-- The transaction of `finalizePaidOrder`, with whether it delivered. `order` is
the copy that was read when the order was claimed. -/
def fulfilOrder (env : Env) (now : ℤ) (outTradeNo : String) (order : PaymentOrder) : Db Bool :=
  withDatabaseTransaction do
    match truthy order.planId with
    | some planId => fulfilPlan env now outTradeNo order planId
    | none =>
      if order.orderType = .balance then fulfilBalance env now outTradeNo order
      else
        execute (completeOrder now outTradeNo none)
        pure false

/-! ## Tasks -/

/-- Where a call of `finalizePaidOrder` stands. `again` tells the claim after a
stale reset from the first one. -/
inductive FinalizeStep where
  | claim (again : Bool)
  | readClaimed (again : Bool)
  | readExisting
  | reset
  | fulfil (order : PaymentOrder)

inductive FinalizeCaller where
  | request
  | processingNotification (n : PaidNotification)
  | recovery (staleBefore : ℤ) (rest : List PaymentOrder)

/-- Where a call of `processPaidNotification` stands, outside `finalizePaidOrder`. -/
inductive NotifyStep where
  | read
  | readLatest
  | record (tradeNo : Option String)
  | closeExpired
  | closeMismatch (tradeNo : Option String)
  | recordMismatch (tradeNo : Option String)
  | markPaid
  | readMarked
  | readUnmarked
  | recordDuplicate (existing : PaymentOrder)

inductive Task where
  | finalize (outTradeNo : String) (pc : FinalizeStep) (caller : FinalizeCaller)
  | notify (outTradeNo : String) (n : PaidNotification) (pc : NotifyStep)
  | list
  | recover (staleBefore : ℤ) (rest : List PaymentOrder)
  | close (outTradeNo : String) (status : ClosedStatus) (rawNotify : Option String)
  /-- `createOrder`, with what the provider will answer. -/
  | create (req : OrderRequest) (reply : Option String)
  | createdAt (outTradeNo : String) (reply : Option String)

/-- What follows a `finalizePaidOrder` that returned. -/
def FinalizeCaller.resume (outTradeNo : String) : FinalizeCaller → Option Task
  | .request => none
  | .processingNotification n => some (.notify outTradeNo n .readLatest)
  | .recovery staleBefore rest => some (.recover staleBefore rest)

/-- What follows one that threw: only the recovery loop catches. -/
def FinalizeCaller.caught : FinalizeCaller → Option Task
  | .request => none
  | .processingNotification _ => none
  | .recovery staleBefore rest => some (.recover staleBefore rest)

/-- `trim().toUpperCase()`. -/
def normalizedCurrency (s : String) : List Char :=
  (((s.toList.dropWhile Char.isWhitespace).reverse.dropWhile Char.isWhitespace).reverse).map Char.toUpper

def sameCurrency (a b : String) : Bool := normalizedCurrency a = normalizedCurrency b

def paidNotificationMatchesOrder (order : PaymentOrder) (n : PaidNotification) : Bool :=
  0 < n.amountCents ∧ n.amountCents = order.amountCents ∧ sameCurrency order.currency n.currency ∧
    order.provider = n.provider

/-- What `processPaidNotification` does with the order that it read. -/
def afterRead (now : ℤ) (outTradeNo : String) (n : PaidNotification) (order : PaymentOrder) : Option Task :=
  match order.status with
  | .processing => some (.finalize outTradeNo (.claim false) (.processingNotification n))
  | .completed => some (.notify outTradeNo n (.record ((nonEmpty n.tradeNo).or order.tradeNo)))
  | .failed => none
  | .expired => none
  | .cancelled => none
  | .pending =>
    if order.expiresAt.any (milliseconds · ≤ now) then some (.notify outTradeNo n .closeExpired)
    else if paidNotificationMatchesOrder order n then some (.notify outTradeNo n .markPaid)
    else some (.notify outTradeNo n (.closeMismatch ((nonEmpty n.tradeNo).or order.tradeNo)))
  | .paid =>
    if paidNotificationMatchesOrder order n then some (.notify outTradeNo n .markPaid)
    else some (.notify outTradeNo n (.closeMismatch ((nonEmpty n.tradeNo).or order.tradeNo)))

/-- After a step: the task as it goes on, the database, the order delivered by the
step, and whether the database operation of the step failed. -/
structure Outcome where
  task : Option Task
  db : Database
  delivered : Option String := none
  failed : Bool := false

def attempt {α : Type} (m : Db α) (fault : ℕ → Option String) (db : Database)
    (caught : Option Task) (next : α → Option Task) : Outcome :=
  match m.run fault db with
  | (.ok a, db') => { task := next a, db := db' }
  | (.error _, db') => { task := caught, db := db', failed := true }

/-- What `finalizePaidOrder` does with the row that it claimed. -/
def afterClaim (outTradeNo : String) (again : Bool) (caller : FinalizeCaller) :
    Option PaymentOrder → Option Task
  | some order => some (.finalize outTradeNo (.fulfil order) caller)
  | none =>
    if again then caller.resume outTradeNo
    else some (.finalize outTradeNo .readExisting caller)

def stepFinalize (env : Env) (now : ℤ) (fault : ℕ → Option String) (outTradeNo : String)
    (caller : FinalizeCaller) (db : Database) : FinalizeStep → Outcome
  | .claim again =>
    attempt (statement (claimPaidPaymentOrder now outTradeNo)) fault db caller.caught fun affected =>
      if 0 < affected then some (.finalize outTradeNo (.readClaimed again) caller)
      else if again then caller.resume outTradeNo
      else some (.finalize outTradeNo .readExisting caller)
  | .readClaimed again =>
    attempt (query (getPaymentOrderByOutTradeNo outTradeNo)) fault db caller.caught
      (afterClaim outTradeNo again caller)
  | .readExisting =>
    attempt (query (getPaymentOrderByOutTradeNo outTradeNo)) fault db caller.caught fun row =>
      match row.filter (fun r => r.status = .processing) with
      | some _ => some (.finalize outTradeNo .reset caller)
      | none => caller.resume outTradeNo
  | .reset =>
    attempt (statement (resetStaleProcessingPaymentOrder now outTradeNo (now - processingStaleMs)))
      fault db caller.caught fun affected =>
        if 0 < affected then some (.finalize outTradeNo (.claim true) caller)
        else caller.resume outTradeNo
  | .fulfil order =>
    match (fulfilOrder env now outTradeNo order).run fault db with
    | (.ok delivers, db') =>
      { task := caller.resume outTradeNo, db := db'
        delivered := if delivers then some outTradeNo else none }
    | (.error _, db') => { task := caller.caught, db := db', failed := true }

def stepNotify (now : ℤ) (fault : ℕ → Option String) (outTradeNo : String) (n : PaidNotification)
    (db : Database) : NotifyStep → Outcome
  | .read =>
    attempt (query (getPaymentOrderByOutTradeNo outTradeNo)) fault db none fun row =>
      row.bind (afterRead now outTradeNo n)
  | .readLatest =>
    attempt (query (getPaymentOrderByOutTradeNo outTradeNo)) fault db none fun row =>
      (row.filter fun r => r.status = .completed).map fun latest =>
        .notify outTradeNo n (.record ((nonEmpty n.tradeNo).or latest.tradeNo))
  | .record tradeNo =>
    attempt (execute (updatePaymentOrder now outTradeNo fun r =>
      { r with tradeNo, rawNotify := some n.rawNotify })) fault db none fun _ => none
  | .closeExpired =>
    attempt (closePaymentOrderAndReleaseDiscount now outTradeNo .expired (some n.rawNotify))
      fault db none fun _ => none
  | .closeMismatch tradeNo =>
    attempt (closePaymentOrderAndReleaseDiscount now outTradeNo .failed (some n.rawNotify))
      fault db none fun _ => some (.notify outTradeNo n (.recordMismatch tradeNo))
  | .recordMismatch tradeNo =>
    attempt (execute (updatePaymentOrder now outTradeNo fun r => { r with tradeNo }))
      fault db none fun _ => none
  | .markPaid =>
    attempt (statement (markPaymentOrderPaid now outTradeNo n)) fault db none fun affected =>
      if 0 < affected then some (.notify outTradeNo n .readMarked)
      else some (.notify outTradeNo n .readUnmarked)
  | .readMarked =>
    attempt (query (getPaymentOrderByOutTradeNo outTradeNo)) fault db none fun row =>
      -- only the callback that finds the order paid runs the finalization
      (row.filter fun r => r.status = .paid).map fun _ =>
        .finalize outTradeNo (.claim false) .request
  | .readUnmarked =>
    attempt (query (getPaymentOrderByOutTradeNo outTradeNo)) fault db none fun row =>
      (row.filter fun r => r.status ∈
          [PaymentOrderStatus.paid, .processing, .completed]).map fun existing =>
        .notify outTradeNo n (.recordDuplicate existing)
  | .recordDuplicate existing =>
    attempt (execute (updatePaymentOrder now outTradeNo fun r =>
      { r with
        tradeNo := (nonEmpty n.tradeNo).or existing.tradeNo
        rawNotify := (nonEmpty (some n.rawNotify)).or existing.rawNotify }))
      fault db none fun _ => some (.notify outTradeNo n .readMarked)

def Task.step (env : Env) (now : ℤ) (fault : ℕ → Option String) (db : Database) : Task → Outcome
  | .finalize outTradeNo pc caller => stepFinalize env now fault outTradeNo caller db pc
  | .notify outTradeNo n pc => stepNotify now fault outTradeNo n db pc
  | .list =>
    attempt (query (listPaymentOrdersForMaintenance [.processing] 1000)) fault db none fun orders =>
      some (.recover (now - processingStaleMs) orders)
  | .recover _ [] => { task := none, db }
  | .recover staleBefore (order :: rest) =>
    if staleBefore ≤ milliseconds order.updatedAt then
      { task := some (.recover staleBefore rest), db }
    else
      attempt (statement (resetStaleProcessingPaymentOrder now order.outTradeNo staleBefore))
        fault db none fun affected =>
          if 0 < affected then
            some (.finalize order.outTradeNo (.claim false) (.recovery staleBefore rest))
          else some (.recover staleBefore rest)
  | .close outTradeNo status rawNotify =>
    attempt (closePaymentOrderAndReleaseDiscount now outTradeNo status rawNotify)
      fault db none fun _ => none
  | .create req reply =>
    attempt (createOrder now req) fault db none fun _ => some (.createdAt req.outTradeNo reply)
  | .createdAt outTradeNo (some tradeNo) =>
    attempt (execute (updatePaymentOrder now outTradeNo fun r => { r with tradeNo := some tradeNo }))
      -- the provider has the order, but the panel could not note its number
      fault db (some (.close outTradeNo .failed none)) fun _ => none
  | .createdAt outTradeNo none => { task := some (.close outTradeNo .failed none), db }

/-! ## The panel -/

/-- Clock, database, calls in flight, and the deliveries so far. -/
structure PaymentPanel where
  now : ℤ
  db : Database
  tasks : List Task := []
  delivered : List String := []

inductive PaymentCall where
  | finalizePaidOrder (outTradeNo : String)
  | processPaidNotification (outTradeNo : String) (n : PaidNotification)
  | recoverStaleProcessingPaymentOrders
  | closePaymentOrder (outTradeNo : String) (status : ClosedStatus) (rawNotify : Option String)
  | createOrder (req : OrderRequest) (reply : Option String)

def PaymentCall.start : PaymentCall → Task
  | .finalizePaidOrder o => .finalize o (.claim false) .request
  | .processPaidNotification o n => .notify o n .read
  | .recoverStaleProcessingPaymentOrders => .list
  | .closePaymentOrder o status raw => .close o status raw
  | .createOrder req reply => .create req reply

inductive PaymentEvent where
  | tick (ms : ℕ)
  | call (c : PaymentCall)
  /-- The `i`-th call in flight takes a step. -/
  | step (i : ℕ) (env : Env) (fault : ℕ → Option String)
  /-- The `i`-th call in flight dies. -/
  | crash (i : ℕ)
  /-- Another request of the panel; it leaves orders, codes, subscriptions and the
  ledger alone. -/
  | other (edit : Database → Database)

def stepPayment (w : PaymentPanel) : PaymentEvent → PaymentPanel
  | .tick ms => { w with now := w.now + ms }
  | .call c => { w with tasks := w.tasks ++ [c.start] }
  | .step i env fault =>
    match w.tasks[i]? with
    | none => w
    | some t =>
      let out := t.step env w.now fault w.db
      { w with
        db := out.db
        tasks := w.tasks.eraseIdx i ++ out.task.toList
        delivered := w.delivered ++ out.delivered.toList }
  | .crash i => { w with tasks := w.tasks.eraseIdx i }
  | .other edit => { w with db := { edit w.db with
      paymentOrders := w.db.paymentOrders
      discountCodes := w.db.discountCodes
      userSubscriptions := w.db.userSubscriptions
      balanceTransactions := w.db.balanceTransactions } }

end ForwardX.Panel
