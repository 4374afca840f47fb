/-
Balances and ledger agree, whatever is asked of the panel.

Every request of the panel that can touch a balance is one case of one step, with the database
refusing any statement of it. A request posts rows whose amounts add up to what it did to the
balance, or fails and leaves nothing; the exceptions commit a part first, on purpose.
-/
import ForwardX.Lib.Accounts
import ForwardX.Panel.PaymentRows
import ForwardX.Panel.Redemption
import ForwardX.Panel.TrafficBilling
import ForwardX.Panel.TrafficCycles

namespace ForwardX.Panel

open Accounts Run Table Tx Call

/-! ## Requests of several transactions -/

/-- One row of `alignSubscriptionTrafficCycles`. -/
def alignCycleRow (now : ℤ) (row : CycleRow) : Db Unit := do
  execute (updateActiveTrafficAddonCycleEnd row.sub.id (row.alignedTo now)
    (row.sub.expiresAt.map milliseconds))
  if row.sub.nextTrafficResetAt = (row.alignedTo now).map seconds then pure ()
  else
    execute (updateUserSubscription row.sub.id fun s =>
      { s with nextTrafficResetAt := (row.alignedTo now).map seconds })

/-- The settlement that `TrafficCycles` takes apart, from its first statement to its
last: whether a cycle was due. -/
def rechargeSubscriptionTrafficCyclesForUserUnlocked (now userId : ℤ) : Db Bool := do
  let rows ← query (rowsToAlign now now userId)
  forEach (alignCycleRow now) rows
  let cycles ← query (dueCycles userId now)
  if cycles = [] then pure false
  else
    let _affected ← statement (resetUserTrafficForCycle userId (latestBoundary cycles) now)
    forEach (fun cycle => execute (expireTrafficAddonsForCycle now cycle)) cycles
    forEach (fun cycle : CycleUpdate => execute (updateUserSubscription cycle.id fun s =>
      { s with
        nextTrafficResetAt := cycle.nextTrafficResetAt.map seconds
        lastTrafficResetAt := some (seconds now) })) cycles
    pure true

/-- The recovery at the end is tried once and its errors are logged. -/
def purchaseTrafficAddonWithBalance (env : Env) (now openedAt paidAt : ℤ) (req : AddonRequest) :
    Db BoughtAddon := do
  let settled ← rechargeSubscriptionTrafficCyclesForUserUnlocked now req.userId
  let answer ← catching (buyTrafficAddon env openedAt paidAt req)
  if settled = true ∨ answer.isOk = true then
    let _recovered ← catching (recoverUserForwardAccessIfEligible env paidAt req.userId)
    rethrow answer
  else rethrow answer

/-- `claimPaidPaymentOrder`, with the row it answers. -/
def claimOrder (now : ℤ) (outTradeNo : String) : Db (Option PaymentOrder) := do
  let affected ← statement (claimPaidPaymentOrder now outTradeNo)
  if 0 < affected then query (getPaymentOrderByOutTradeNo outTradeNo) else pure none

/-- A claim that went nowhere is tried again once an order that hangs in `processing`
has been taken back. -/
def claimStaleOrder (now : ℤ) (outTradeNo : String) : Db (Option PaymentOrder) := do
  let existing ← query (getPaymentOrderByOutTradeNo outTradeNo)
  if existing.any (fun r => r.status = .processing) = true then
    let affected ← statement
      (resetStaleProcessingPaymentOrder now outTradeNo (now - processingStaleMs))
    if 0 < affected then claimOrder now outTradeNo else pure none
  else pure none

def finalizePaidOrder (env : Env) (now : ℤ) (outTradeNo : String) : Db Unit := do
  let claimed ← claimOrder now outTradeNo
  let order ← (match claimed with
    | some order => pure (some order)
    | none => claimStaleOrder now outTradeNo)
  match order with
  | none => pure ()
  | some order =>
    let _delivered ← fulfilOrder env now outTradeNo order
    pure ()

/-! ## The book -/

def BalanceTransaction.entry (t : BalanceTransaction) : Entry ℤ ℤ where
  owner := t.userId
  amount := t.amountCents
  after := t.balanceAfterCents

def Database.book (db : Database) : Book ℤ ℤ where
  accounts := db.users.map fun u => (u.id, u.balanceCents)
  journal := db.balanceTransactions.map BalanceTransaction.entry

section

variable {db db' : Database}

theorem book_post (t : BalanceTransaction) : (db.post t).book = db.book.post t.entry := by
  unfold Database.book Book.post Database.post Database.setBalance Database.insertTransaction
  simp only [updateWhere, List.map_map, List.map_append, List.map_cons, List.map_nil,
    Book.mk.injEq, and_true]
  apply List.map_congr_left
  intro u _
  simp only [Function.comp_apply]
  by_cases hu : u.id = t.userId
  · simp [hu, BalanceTransaction.entry]
  · simp [hu, BalanceTransaction.entry]

theorem book_outside (db : Database) : db.outside.book = db.book := by
  unfold Database.book Database.outside
  simp only [List.map_map]
  rfl

theorem book_of_outside (h : db'.outside = db.outside) : db'.book = db.book := by
  rw [← book_outside db', h, book_outside]

theorem balance_book (u : ℤ) : db.book.balance u = (db.user? u).map User.balanceCents := by
  unfold Book.balance Database.book Database.user? byKey
  rw [List.find?_map, Option.map_map]
  rfl

theorem follows_of_user {t : BalanceTransaction} {user : User} (huser : db.user? t.userId = some user)
    (hafter : t.balanceAfterCents = user.balanceCents + t.amountCents) : Follows db.book t.entry := by
  refine ⟨user.balanceCents, ?_, hafter⟩
  rw [balance_book]
  exact congrArg (Option.map User.balanceCents) huser

end

/-! ## One posting, and no debt -/

/-- Nothing, or one posting that leaves a balance. -/
def PostsOnce (db db' : Database) : Prop :=
  db'.book = db.book ∨ ∃ e, Follows db.book e ∧ 0 ≤ e.after ∧ db'.book = db.book.post e

/-- The same of a request: one that fails has posted nothing. -/
def Posts {α : Type} (db : Database) (answer : Except String α) (db' : Database) : Prop :=
  db'.book = db.book ∨ answer.isOk = true ∧ PostsOnce db db'

section

variable {env : Env} {now userId : ℤ} {db db' : Database}

theorem postsOnce_post {t : BalanceTransaction} {user : User} (huser : db.user? t.userId = some user)
    (hafter : t.balanceAfterCents = user.balanceCents + t.amountCents)
    (hsolvent : 0 ≤ t.balanceAfterCents) : PostsOnce db (db.post t) :=
  .inr ⟨t.entry, follows_of_user huser hafter, hsolvent, book_post t⟩

theorem PostsOnce.congr {db₁ db₂ : Database} (h : PostsOnce db₁ db₂) (hbefore : db₁.book = db.book)
    (hafter : db'.book = db₂.book) : PostsOnce db db' := by
  unfold PostsOnce
  rw [hafter, ← hbefore]
  exact h

variable {m : TransactionMeta}

theorem addUserBalance_posts {amount : ℚ} {next : ℤ}
    (h : Returns (addUserBalance now userId amount m) db next db') : PostsOnce db db' := by
  obtain ⟨-, user, huser, hnext, hsolvent, rfl⟩ := addUserBalance_spec h
  exact postsOnce_post huser hnext hsolvent

theorem mathRound_nonneg {x : ℚ} (hx : 0 ≤ x) : 0 ≤ mathRound x := by
  unfold mathRound
  apply Int.floor_nonneg.mpr
  linarith

theorem setUserBalance_posts {balance : ℚ} {r : SetBalanceResult}
    (h : Returns (setUserBalance now userId balance m) db r db') : PostsOnce db db' := by
  obtain ⟨user, huser, hbalance, ⟨-, rfl⟩ | rfl⟩ := setUserBalance_spec h
  · exact .inl rfl
  · apply postsOnce_post huser
    · simp only [TransactionMeta.row]
      omega
    · exact mathRound_nonneg hbalance

theorem chargeBalance_posts {amount : ℤ} {r : Unit}
    (h : Returns (chargeBalance now userId amount m) db r db') : PostsOnce db db' := by
  obtain rfl | ⟨user, -, huser, hsolvent, rfl⟩ := chargeBalance_spec h
  · exact .inl rfl
  · apply postsOnce_post huser
    · simp only [TransactionMeta.row]
      omega
    · exact hsolvent

theorem book_of_besidesOrders (h : db'.besidesOrders = db.besidesOrders) : db'.book = db.book := by
  have hbook := congrArg Database.book h
  exact hbook

theorem applySubscriptionToUser_book {req : SubscriptionRequest} {r : AppliedSubscription}
    (h : Returns (applySubscriptionToUser env now req) db r db') : db'.book = db.book :=
  book_of_outside (applySubscriptionToUser_spec h).2.1

theorem recoverUserForwardAccessIfEligible_book {r : ℤ}
    (h : Returns (recoverUserForwardAccessIfEligible env now userId) db r db') :
    db'.book = db.book :=
  book_of_outside (recoverUserForwardAccessIfEligible_spec h).2

theorem purchasePlanWithBalance_posts {req : PlanPurchase} {r : AppliedSubscription}
    (h : Returns (purchasePlanWithBalance env now req) db r db') : PostsOnce db db' := by
  obtain ⟨plan, -, h⟩ := h.of_transaction.bind_query.bind_orThrow
  obtain ⟨-, h⟩ := h.bind_query.bind_throwIf
  split at h
  · exact absurd h not_returns_throw
  · obtain ⟨u, db₁, hcharge, h⟩ := h.of_bind
    apply (chargeBalance_posts hcharge).congr rfl
    split at h
    · obtain ⟨u', db₂, hconsume, h⟩ := h.of_bind
      rw [applySubscriptionToUser_book h]
      exact book_of_besidesOrders (besidesOrders_consumeDiscountCode hconsume)
    · exact applySubscriptionToUser_book h

theorem buyTrafficAddon_posts {openedAt : ℤ} {req : AddonRequest} {r : BoughtAddon}
    (h : Returns (buyTrafficAddon env openedAt now req) db r db') : PostsOnce db db' := by
  obtain ⟨addon, sub, m, db₁, limit, -, hcharge, hsync⟩ := buyTrafficAddon_spec h
  apply (chargeBalance_posts hcharge).congr rfl
  rw [book_of_outside (sync_spec hsync).2.1]
  rfl

theorem redeemCode_posts {retryAfterSeconds : ℤ} {normalized : String} {r : Redeemed}
    (h : Returns (redeemCode env now userId retryAfterSeconds normalized) db r db') :
    PostsOnce db db' := by
  obtain ⟨-, h⟩ := h.bind_throwIf
  obtain ⟨item, db₀, hread, hgrant⟩ := h.of_transaction.of_bind
  rw [(redeemableCode_spec hread).2.2] at hgrant
  unfold grantCode at hgrant
  split at hgrant
  · obtain ⟨-, h⟩ := hgrant.bind_throwIf
    obtain ⟨balance, db₁, hadd, h⟩ := h.of_bind
    obtain ⟨-, rfl⟩ := h.bind_execute.of_pure
    exact (addUserBalance_posts hadd).congr rfl rfl
  · obtain ⟨planId, -, h⟩ := hgrant.bind_orThrow
    obtain ⟨subscription, db₁, happly, h⟩ := h.of_bind
    obtain ⟨-, rfl⟩ := h.bind_query.bind_execute.of_pure
    have hbook := applySubscriptionToUser_book happly
    exact .inl hbook
  · exact absurd hgrant not_returns_throw

variable {outTradeNo : String} {order : PaymentOrder} {delivers : Bool}

theorem fulfilBalance_posts
    (h : Returns (fulfilBalance env now outTradeNo order) db delivers db') : PostsOnce db db' := by
  replace h := h.bind_query
  split at h
  · obtain ⟨-, rfl⟩ := h.bind_execute.of_pure
    exact .inl rfl
  · obtain ⟨balance, db₁, hadd, h⟩ := h.of_bind
    obtain ⟨limit, db₂, hrecover, h⟩ := h.of_bind
    obtain ⟨-, rfl⟩ := h.bind_execute.of_pure
    have hbook := recoverUserForwardAccessIfEligible_book hrecover
    exact (addUserBalance_posts hadd).congr rfl hbook

theorem fulfilPlan_book {planId : ℤ}
    (hplan : truthy order.planId = some planId)
    (h : Returns (fulfilPlan env now outTradeNo order planId) db delivers db') :
    db'.book = db.book := by
  obtain ⟨db₁, db₂, sid, hconsumes, hdelivery, rfl⟩ := fulfilPlan_spec hplan h
  have hbefore := book_of_besidesOrders hconsumes.besidesOrders_eq
  have hdelivered : db₂.book = db₁.book := by
    cases hdelivery with
    | nothing => rfl
    | granted req _ _ _ _ hout => exact book_of_outside hout
    | renewed req sub _ _ _ _ _ _ hout => exact book_of_outside hout
    | credited row hnone =>
      rw [hplan] at hnone
      cases hnone
  exact hdelivered.trans hbefore

theorem fulfilOrder_posts
    (h : Returns (fulfilOrder env now outTradeNo order) db delivers db') : PostsOnce db db' := by
  replace h := h.of_transaction
  cases hplan : truthy order.planId with
  | some planId =>
    rw [hplan] at h
    exact .inl (fulfilPlan_book hplan h)
  | none =>
    rw [hplan] at h
    obtain ⟨-, h⟩ | ⟨-, h⟩ := h.of_ite
    · exact fulfilBalance_posts h
    · obtain ⟨-, rfl⟩ := h.bind_execute.of_pure
      exact .inl rfl

/-! ### Whole requests -/

theorem posts_of_failsClean {α : Type} {m : Db α} (hclean : FailsClean m)
    (hm : ∀ a db', Returns m db a db' → PostsOnce db db') : Ends m db (Posts db) := by
  refine (hclean.ends db).mono ?_
  rintro answer db' (⟨e, rfl, rfl⟩ | ⟨a, rfl, hreturns⟩)
  · exact .inl rfl
  · exact .inr ⟨rfl, hm a db' hreturns⟩

theorem book_resetUserTrafficForCycle (userId boundary resetAt : ℤ) (db : Database) :
    (resetUserTrafficForCycle userId boundary resetAt db).2.book = db.book := by
  unfold Database.book resetUserTrafficForCycle
  simp only [Book.mk.injEq, and_true]
  apply map_updateWhere
  intro u _
  rfl

theorem book_expireTrafficAddonsForCycle (now : ℤ) (cycle : CycleUpdate) (db : Database) :
    (expireTrafficAddonsForCycle now cycle db).book = db.book := by
  unfold expireTrafficAddonsForCycle
  split
  · rfl
  · rfl

theorem preserves_book_alignCycleRow (b : Book ℤ ℤ) (now : ℤ) (row : CycleRow) :
    Preserves (fun d => d.book = b) (alignCycleRow now row) := by
  refine Preserves.bind (preserves_execute ?_) fun _ => preserves_ite (preserves_pure _) ?_
  · intro d hd
    rw [book_of_outside (outside_updateActiveTrafficAddonCycleEnd d _ _ _), hd]
  · apply preserves_execute
    intro d hd
    exact hd

theorem preserves_book_settlement (b : Book ℤ ℤ) (now userId : ℤ) :
    Preserves (fun d => d.book = b) (rechargeSubscriptionTrafficCyclesForUserUnlocked now userId) := by
  refine Preserves.bind (preserves_query _) fun rows => ?_
  refine Preserves.bind (preserves_forEach (preserves_book_alignCycleRow b now) rows) fun _ => ?_
  refine Preserves.bind (preserves_query _) fun cycles => preserves_ite (preserves_pure _) ?_
  refine Preserves.bind (preserves_statement ?_) fun _ => ?_
  · intro d hd
    rw [book_resetUserTrafficForCycle, hd]
  refine Preserves.bind (preserves_forEach ?_ cycles) fun _ =>
    Preserves.bind (preserves_forEach ?_ cycles) fun _ => preserves_pure _
  · intro cycle
    apply preserves_execute
    intro d hd
    rw [book_expireTrafficAddonsForCycle, hd]
  · intro cycle
    apply preserves_execute
    intro d hd
    exact hd

theorem ends_recovery (b : Book ℤ ℤ) (hb : db.book = b) :
    Ends (catching (recoverUserForwardAccessIfEligible env now userId)) db
      fun answer db' => (∃ x, answer = .ok x) ∧ db'.book = b := by
  refine ((failsClean_transaction _).ends db).catching.mono ?_
  rintro answer db' ⟨x, rfl, ⟨e, -, rfl⟩ | ⟨a, -, hreturns⟩⟩
  · exact ⟨⟨x, rfl⟩, hb⟩
  · exact ⟨⟨x, rfl⟩, (recoverUserForwardAccessIfEligible_book hreturns).trans hb⟩

theorem Posts.congr {α : Type} {answer : Except String α} {db₁ db₂ : Database}
    (h : Posts db₁ answer db₂) (hbefore : db₁.book = db.book) (hafter : db'.book = db₂.book) :
    Posts db answer db' := by
  unfold Posts PostsOnce
  rw [hafter, ← hbefore]
  exact h

/-- **An add-on purchase**: the settlement before it and the recovery after it leave the
book alone, whichever of them fails. -/
theorem purchaseTrafficAddonWithBalance_posts {openedAt paidAt : ℤ} {req : AddonRequest} :
    Ends (purchaseTrafficAddonWithBalance env now openedAt paidAt req) db (Posts db) := by
  refine ((preserves_book_settlement db.book now req.userId).ends rfl).bind ?_ ?_
  · intro settled db₁ hbook
    refine (posts_of_failsClean (failsClean_transaction _)
      fun a db' => buyTrafficAddon_posts).catching.bind ?_ ?_
    · rintro answer db₂ ⟨x, hx, hposts⟩
      obtain rfl := Except.ok.inj hx
      split
      · refine (ends_recovery db₂.book rfl).bind ?_ ?_
        · rintro recovered db₃ ⟨-, hbook'⟩
          exact ends_rethrow (hposts.congr hbook hbook')
        · rintro e db₃ ⟨⟨y, hy⟩, -⟩
          cases hy
      · exact ends_rethrow (hposts.congr hbook rfl)
    · rintro e db₂ ⟨x, hx, -⟩
      cases hx
  · intro e db₁ hbook
    exact .inl hbook

theorem preserves_book_claimOrder (b : Book ℤ ℤ) (now : ℤ) (outTradeNo : String) :
    Preserves (fun d => d.book = b) (claimOrder now outTradeNo) := by
  refine Preserves.bind (preserves_statement ?_) fun _ =>
    preserves_ite (preserves_query _) (preserves_pure _)
  intro d hd
  exact hd

theorem preserves_book_claimStaleOrder (b : Book ℤ ℤ) (now : ℤ) (outTradeNo : String) :
    Preserves (fun d => d.book = b) (claimStaleOrder now outTradeNo) := by
  refine Preserves.bind (preserves_query _) fun _ => preserves_ite ?_ (preserves_pure _)
  refine Preserves.bind (preserves_statement ?_) fun _ =>
    preserves_ite (preserves_book_claimOrder b now outTradeNo) (preserves_pure _)
  intro d hd
  exact hd

theorem finalizePaidOrder_posts : Ends (finalizePaidOrder env now outTradeNo) db (Posts db) := by
  refine ((preserves_book_claimOrder db.book now outTradeNo).ends rfl).bind ?_ fun _ _ => .inl
  intro claimed db₁ hbook
  have hsecond : Ends (match claimed with
      | some order => pure (some order)
      | none => claimStaleOrder now outTradeNo) db₁ fun _ db₂ => db₂.book = db.book := by
    split
    · exact ends_pure hbook
    · exact (preserves_book_claimStaleOrder db.book now outTradeNo).ends hbook
  refine hsecond.bind ?_ fun _ _ => .inl
  intro order db₂ hbook₂
  split
  · exact ends_pure (.inl hbook₂)
  · refine (posts_of_failsClean (failsClean_transaction _) fun a db' => fulfilOrder_posts).bind ?_ ?_
    · intro delivered db₃ hposts
      exact ends_pure (hposts.congr hbook₂ rfl)
    · intro e db₃ hposts
      exact hposts.congr hbook₂ rfl

end

/-! ## Traffic charges -/

section

variable {opening : ℤ → ℤ} {now : ℤ} {t : BillingTarget} {db db' : Database} {r : Option ChargeResult}

theorem reconciled_charge {c : TrafficCharge}
    (h : Returns (insertTrafficBillingCharge now c) db r db') (hbook : Reconciled opening db.book) :
    Reconciled opening db'.book := by
  obtain ⟨-, rfl, -⟩ | ⟨user, huser, -, -, rfl⟩ := insertTrafficBillingCharge_spec h
  · exact hbook
  · have hfollows := follows_of_user
      (t := c.transaction c.amountCents (user.balanceCents - c.amountCents) (seconds now)) huser
      (sub_eq_add_neg _ _)
    have hposted := hbook.post hfollows
    rw [← book_post] at hposted
    exact hposted

theorem reconciled_billTrafficUsage {bytes : ℤ}
    (h : Returns (billTrafficUsage now t bytes) db r db') (hbook : Reconciled opening db.book) :
    Reconciled opening db'.book := by
  obtain ⟨-, -, rfl⟩ | ⟨-, -, ⟨-, -, rfl⟩ | ⟨-, hcharge⟩⟩ := billTrafficUsage_spec h
  · exact hbook
  · exact hbook
  · exact reconciled_charge hcharge hbook

theorem reconciled_settlement (h : Returns (settleTrafficBillingRuleOnDelete now t) db r db')
    (hbook : Reconciled opening db.book) : Reconciled opening db'.book := by
  apply settleTrafficBillingRuleOnDelete_preserves (I := fun d => Reconciled opening d.book) _ _ _ h
    hbook
  · intro d b hd
    exact hd
  · intro d usage hd
    exact hd
  · intro d c r d' hd hcharge
    exact reconciled_charge hcharge hd

end

/-! ## Sequences of requests -/

inductive LedgerOp where
  | addUserBalance (userId : ℤ) (amountCents : ℚ) (m : TransactionMeta)
  | setUserBalance (userId : ℤ) (balanceCents : ℚ) (m : TransactionMeta)
  | billTrafficUsage (t : BillingTarget) (bytes : ℤ)
  | settleTrafficBillingRuleOnDelete (t : BillingTarget)
  | purchasePlanWithBalance (req : PlanPurchase)
  | purchaseTrafficAddonWithBalance (openedAt paidAt : ℤ) (req : AddonRequest)
  | finalizePaidOrder (outTradeNo : String)
  | redeemCode (userId retryAfterSeconds : ℤ) (normalized : String)

def LedgerOp.chargesTraffic : LedgerOp → Bool
  | .billTrafficUsage _ _ | .settleTrafficBillingRuleOnDelete _ => true
  | _ => false

def LedgerOp.atomic : LedgerOp → Bool
  | .purchaseTrafficAddonWithBalance _ _ _ | .finalizePaidOrder _ => false
  | _ => true

structure LedgerRequest where
  op : LedgerOp
  env : Env
  now : ℤ
  fault : ℕ → Option String

/-- The error that a request ended in, if any, and the database it left. -/
def ended {α : Type} (out : Except String α × Database) : Option String × Database :=
  match out.1 with
  | .ok _ => (none, out.2)
  | .error e => (some e, out.2)

def LedgerRequest.run (r : LedgerRequest) (db : Database) : Option String × Database :=
  match r.op with
  | .addUserBalance userId amountCents m =>
    ended ((Panel.addUserBalance r.now userId amountCents m).run r.fault db)
  | .setUserBalance userId balanceCents m =>
    ended ((Panel.setUserBalance r.now userId balanceCents m).run r.fault db)
  | .billTrafficUsage t bytes => ended ((Panel.billTrafficUsage r.now t bytes).run r.fault db)
  | .settleTrafficBillingRuleOnDelete t =>
    ended ((Panel.settleTrafficBillingRuleOnDelete r.now t).run r.fault db)
  | .purchasePlanWithBalance req =>
    ended ((Panel.purchasePlanWithBalance r.env r.now req).run r.fault db)
  | .purchaseTrafficAddonWithBalance openedAt paidAt req =>
    ended ((Panel.purchaseTrafficAddonWithBalance r.env r.now openedAt paidAt req).run r.fault db)
  | .finalizePaidOrder outTradeNo =>
    ended ((Panel.finalizePaidOrder r.env r.now outTradeNo).run r.fault db)
  | .redeemCode userId retryAfterSeconds normalized =>
    ended ((Panel.redeemCode r.env r.now userId retryAfterSeconds normalized).run r.fault db)

def stepLedger (db : Database) (r : LedgerRequest) : Database := (r.run db).2

section

variable {opening : ℤ → ℤ} {db : Database} {r : LedgerRequest}

def Settles (db : Database) (out : Option String × Database) : Prop :=
  out.2.book = db.book ∨ out.1 = none ∧ PostsOnce db out.2

theorem settles_ended {α : Type} {out : Except String α × Database} (h : Posts db out.1 out.2) :
    Settles db (ended out) := by
  obtain ⟨answer, db'⟩ := out
  cases answer with
  | ok a => exact h.imp_right fun hposts => ⟨rfl, hposts.2⟩
  | error e => exact h.imp_right fun hposts => absurd hposts.1 (by simp [Except.isOk, Except.toBool])

theorem ended_snd {α : Type} (out : Except String α × Database) : (ended out).2 = out.2 := by
  unfold ended
  split
  · rfl
  · rfl

theorem ended_of_failsClean {α : Type} {m : Db α} (hm : FailsClean m) {fault : ℕ → Option String}
    {e : String} (h : (ended (m.run fault db)).1 = some e) : (ended (m.run fault db)).2 = db := by
  rcases hrun : m.run fault db with ⟨answer, db'⟩
  rw [hrun] at h
  cases answer with
  | ok a => cases h
  | error e' => exact hm.run_error hrun

theorem failsClean_addUserBalance (now userId : ℤ) (amount : ℚ) (m : TransactionMeta) :
    FailsClean (addUserBalance now userId amount m) :=
  FailsClean.throwIf_bind (failsClean_transaction _)

theorem failsClean_setUserBalance (now userId : ℤ) (balance : ℚ) (m : TransactionMeta) :
    FailsClean (setUserBalance now userId balance m) :=
  FailsClean.throwIf_bind (failsClean_transaction _)

theorem LedgerRequest.settles (db : Database) (h : r.op.chargesTraffic = false) : Settles db (r.run db) := by
  obtain ⟨op, env, now, fault⟩ := r
  cases op with
  | addUserBalance userId amount m =>
    exact settles_ended ((posts_of_failsClean (failsClean_addUserBalance now userId amount m)
      fun _ _ => addUserBalance_posts).run fault)
  | setUserBalance userId balance m =>
    exact settles_ended ((posts_of_failsClean (failsClean_setUserBalance now userId balance m)
      fun _ _ => setUserBalance_posts).run fault)
  | billTrafficUsage t bytes => cases h
  | settleTrafficBillingRuleOnDelete t => cases h
  | purchasePlanWithBalance req =>
    have hends : Ends (Panel.purchasePlanWithBalance env now req) db (Posts db) :=
      posts_of_failsClean (failsClean_transaction _) fun _ _ => purchasePlanWithBalance_posts
    exact settles_ended (hends.run fault)
  | purchaseTrafficAddonWithBalance openedAt paidAt req =>
    exact settles_ended (purchaseTrafficAddonWithBalance_posts.run fault)
  | finalizePaidOrder outTradeNo => exact settles_ended (finalizePaidOrder_posts.run fault)
  | redeemCode userId retry normalized =>
    exact settles_ended ((posts_of_failsClean (failsClean_redeemCode _)
      fun _ _ => redeemCode_posts).run fault)

theorem LedgerRequest.reconciled (hbook : Reconciled opening db.book) :
    Reconciled opening (r.run db).2.book := by
  by_cases htraffic : r.op.chargesTraffic = true
  · obtain ⟨op, env, now, fault⟩ := r
    cases op with
    | billTrafficUsage t bytes =>
      simp only [LedgerRequest.run, ended_snd]
      obtain hsame | ⟨a, hreturns⟩ :=
        FailsClean.run_cases (m := Panel.billTrafficUsage now t bytes) (failsClean_transaction _) fault db
      · rw [hsame]
        exact hbook
      · exact reconciled_billTrafficUsage hreturns hbook
    | settleTrafficBillingRuleOnDelete t =>
      simp only [LedgerRequest.run, ended_snd]
      obtain hsame | ⟨a, hreturns⟩ := FailsClean.run_cases
        (m := Panel.settleTrafficBillingRuleOnDelete now t) (failsClean_transaction _) fault db
      · rw [hsame]
        exact hbook
      · exact reconciled_settlement hreturns hbook
    | _ => cases htraffic
  · rw [Bool.not_eq_true] at htraffic
    obtain hsame | ⟨-, hsame | ⟨e, hfollows, -, hposted⟩⟩ := LedgerRequest.settles db htraffic
    · rw [hsame]
      exact hbook
    · rw [hsame]
      exact hbook
    · rw [hposted]
      exact hbook.post hfollows

theorem LedgerRequest.unchanged (h : r.op.atomic = true) {e : String} (herror : (r.run db).1 = some e) :
    (r.run db).2 = db := by
  obtain ⟨op, env, now, fault⟩ := r
  cases op with
  | addUserBalance userId amount m => exact ended_of_failsClean (failsClean_addUserBalance _ _ _ _) herror
  | setUserBalance userId balance m => exact ended_of_failsClean (failsClean_setUserBalance _ _ _ _) herror
  | billTrafficUsage t bytes => exact ended_of_failsClean (failsClean_transaction _) herror
  | settleTrafficBillingRuleOnDelete t => exact ended_of_failsClean (failsClean_transaction _) herror
  | purchasePlanWithBalance req => exact ended_of_failsClean (failsClean_transaction _) herror
  | purchaseTrafficAddonWithBalance openedAt paidAt req => cases h
  | finalizePaidOrder outTradeNo => cases h
  | redeemCode userId retry normalized => exact ended_of_failsClean (failsClean_redeemCode _) herror

theorem balance_eq (u : ℤ) : db.balance u = (db.book.balance u).getD 0 := by
  rw [balance_book]
  rfl

theorem PostsOnce.solvent {db' : Database} (h : PostsOnce db db') {u : ℤ}
    (hfalls : db'.balance u < db.balance u) : 0 ≤ db'.balance u := by
  rw [balance_eq, balance_eq] at hfalls
  rw [balance_eq]
  obtain hsame | ⟨e, ⟨balance, hbalance, -⟩, hsolvent, hposted⟩ := h
  · rw [hsame] at hfalls
    exact absurd hfalls (lt_irrefl _)
  · rw [hposted, balance_post] at hfalls ⊢
    by_cases hu : u = e.owner
    · subst hu
      simpa [hbalance] using hsolvent
    · simp [hu] at hfalls

end

/-- A request that fails leaves balances and ledger alone, and with them the rest of the database if it
is one transaction. -/
structure FailsOrPays (r : LedgerRequest) (db : Database) : Prop where
  failed : ∀ e, (r.run db).1 = some e →
    (r.run db).2.book = db.book ∧ (r.op.atomic = true → (r.run db).2 = db)
  solvent : ∀ u, (r.run db).2.balance u < db.balance u → 0 ≤ (r.run db).2.balance u

theorem LedgerRequest.failsOrPays {r : LedgerRequest} {db : Database}
    (h : r.op.chargesTraffic = false) : FailsOrPays r db where
  failed := by
    intro e herror
    refine ⟨?_, fun hatomic => LedgerRequest.unchanged hatomic herror⟩
    obtain hsame | ⟨hok, -⟩ := LedgerRequest.settles db h
    · exact hsame
    · rw [hok] at herror
      cases herror
  solvent := by
    intro u hfalls
    obtain hsame | ⟨-, hposts⟩ := LedgerRequest.settles db h
    · exact PostsOnce.solvent (.inl hsame) hfalls
    · exact hposts.solvent hfalls

/-- **Balances and ledger.** After any sequence of requests, whatever was refused, every balance is the
opening balance plus the user's rows of the ledger, and every row has recorded the running sum. -/
theorem balances_reconcile {opening : ℤ → ℤ} {db₀ : Database} (hopen : Reconciled opening db₀.book)
    (rs : List LedgerRequest) :
    Reconciled opening (Run.run stepLedger db₀ rs).book ∧
      ∀ r : LedgerRequest, r.op.chargesTraffic = false →
        FailsOrPays r (Run.run stepLedger db₀ rs) := by
  refine ⟨?_, fun r hr => LedgerRequest.failsOrPays hr⟩
  exact run_invariant (I := fun d => Reconciled opening d.book)
    (fun _ _ hbook => LedgerRequest.reconciled hbook) rs db₀ hopen

/-- Half the price of an add-on in the account, and a traffic cycle that has come to its
end. -/
def shortAccount : Database where
  users := [{ id := 1, balanceCents := 50, trafficUsed := 700, trafficAutoReset := true,
              lastAutoTrafficReset := some 1772294410 }]
  subscriptionPlans := [{ id := 1, trafficLimit := 1000 }]
  subscriptionPlanTrafficAddons := [{ id := 1, planId := 1, trafficBytes := 500, priceCents := 100 }]
  userSubscriptions := [{ id := 1, userId := 1, planId := 1, planSnapshot := some ⟨1000⟩,
                          startedAt := 1768449600, nextTrafficResetAt := some 1774972800,
                          lastTrafficResetAt := some 1772294410 }]

def addonPurchase : LedgerRequest where
  op := .purchaseTrafficAddonWithBalance 1774972810000 1774972810000 { userId := 1, addonId := 1 }
  env := quietEnv
  now := 1774972810000
  fault := fun _ => none

def recharge : LedgerRequest where
  op := .addUserBalance 1 120 { type := .adminRecharge }
  env := quietEnv
  now := 1774972820000
  fault := fun _ => none

theorem shortAccount_reconciled : Reconciled (fun _ => 50) shortAccount.book where
  keys := by decide
  balances := by
    intro a ha
    obtain rfl := List.mem_singleton.mp ha
    decide
  running := by
    intro i e hi
    cases hi

theorem balances_reconcile_shortAccount :
    (Run.run stepLedger shortAccount [addonPurchase, recharge, addonPurchase]).balance 1 = 70 ∧
      Reconciled (fun _ => 50)
        (Run.run stepLedger shortAccount [addonPurchase, recharge, addonPurchase]).book ∧
      FailsOrPays addonPurchase shortAccount :=
  ⟨by decide +kernel,
    (balances_reconcile shortAccount_reconciled [addonPurchase, recharge, addonPurchase]).1,
    (balances_reconcile shortAccount_reconciled []).2 addonPurchase rfl⟩

/-- The purchase is refused for the balance, but the cycle that it settled before stays
settled: failing is not without any effect. -/
theorem refused_purchase_resets_traffic :
    ¬ ∀ (r : LedgerRequest) (db : Database), r.op.chargesTraffic = false →
      ∀ e, (r.run db).1 = some e → (r.run db).2 = db := by
  intro h
  have hsame := h addonPurchase shortAccount rfl "余额不足" (by decide +kernel)
  have hused := congrArg (fun d => d.users.map User.trafficUsed) hsame
  revert hused
  decide +kernel

end ForwardX.Panel
