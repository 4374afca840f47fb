/-
Credits: what the administrator adds, what a code is worth, what an order paid for.
-/
import ForwardX.Panel.BalanceLedger

namespace ForwardX.Panel

open Accounts Run Table Tx Call

/-! ## The three kinds -/

/-- A credit: the administrator's, that of a code, that of an order that was claimed. -/
inductive BalanceCredit where
  | admin (userId amountCents : ℤ) (m : TransactionMeta)
  | code (userId : ℤ) (normalized : String)
  | order (outTradeNo : String) (paid : PaymentOrder)

def BalanceCredit.userId : BalanceCredit → ℤ
  | .admin userId _ _ | .code userId _ => userId
  | .order _ paid => paid.userId

def BalanceCredit.amountCents (db : Database) : BalanceCredit → ℤ
  | .admin _ amountCents _ => amountCents
  | .code _ normalized => ((lockRedemptionCode normalized db).map RedemptionCode.amountCents).getD 0
  | .order _ paid => paid.amountCents

def RedemptionCode.Redeemable (now : ℤ) (item : RedemptionCode) : Prop :=
  item.isActive = true ∧ item.used = false ∧ item.type = .balance ∧
    ¬ item.startsAt.any (now < milliseconds ·) ∧ ¬ item.expiresAt.any (milliseconds · ≤ now)

instance RedemptionCode.Redeemable.decidable (now : ℤ) (item : RedemptionCode) :
    Decidable (item.Redeemable now) := inferInstanceAs (Decidable (_ ∧ _))

def PaymentOrder.Creditable (outTradeNo : String) (db : Database) (order : PaymentOrder) : Prop :=
  truthy order.planId = none ∧ order.orderType = .balance ∧
    getBalanceTransactionByPaymentOrderNo outTradeNo db = none

instance PaymentOrder.Creditable.decidable (outTradeNo : String) (db : Database)
    (order : PaymentOrder) : Decidable (order.Creditable outTradeNo db) :=
  inferInstanceAs (Decidable (_ ∧ _))

structure BalanceCredit.Due (now : ℤ) (db : Database) (c : BalanceCredit) : Prop where
  user : (db.user? c.userId).isSome = true
  positive : 0 < c.amountCents db
  code : ∀ userId normalized, c = .code userId normalized →
    ∀ item ∈ lockRedemptionCode normalized db, item.Redeemable now
  order : ∀ outTradeNo paid, c = .order outTradeNo paid → paid.Creditable outTradeNo db

def BalanceCredit.run (env : Env) (now : ℤ) (db : Database) : BalanceCredit → Option String × Database
  | .admin userId amountCents m =>
    ended ((addUserBalance now userId amountCents m).run (fun _ => none) db)
  | .code userId normalized =>
    ended ((redeemCode env now userId 0 normalized).run (fun _ => none) db)
  | .order outTradeNo paid =>
    ended ((fulfilOrder env now outTradeNo paid).run (fun _ => none) db)

/-- The credit went through and the balance is higher by what it is worth. -/
def BalanceCredit.Lands (env : Env) (now : ℤ) (db : Database) (c : BalanceCredit) : Prop :=
  (c.run env now db).1 = none ∧
    (c.run env now db).2.balance c.userId = db.balance c.userId + c.amountCents db

/-! ## A credit that landed left a balance -/

section

variable {env : Env} {now : ℤ} {db db' : Database}

theorem PostsOnce.nonneg (h : PostsOnce db db') {u : ℤ} (hmoved : db'.balance u ≠ db.balance u) :
    0 ≤ db'.balance u := by
  rw [balance_eq, balance_eq] at hmoved
  rw [balance_eq]
  obtain hsame | ⟨e, ⟨balance, hbalance, -⟩, hsolvent, hposted⟩ := h
  · rw [hsame] at hmoved
    exact absurd rfl hmoved
  · rw [hposted, balance_post] at hmoved ⊢
    by_cases hu : u = e.owner
    · subst hu
      simpa [hbalance] using hsolvent
    · simp [hu] at hmoved

theorem Settles.nonneg {out : Option String × Database} (h : Settles db out) {u : ℤ}
    (hmoved : out.2.balance u ≠ db.balance u) : 0 ≤ out.2.balance u := by
  obtain hsame | ⟨-, hposts⟩ := h
  · exact PostsOnce.nonneg (.inl hsame) hmoved
  · exact hposts.nonneg hmoved

theorem BalanceCredit.settles (c : BalanceCredit) : Settles db (c.run env now db) := by
  cases c with
  | admin userId amountCents m =>
    exact settles_ended ((posts_of_failsClean (failsClean_addUserBalance now userId amountCents m)
      fun _ _ => addUserBalance_posts).run _)
  | code userId normalized =>
    exact settles_ended ((posts_of_failsClean (failsClean_redeemCode 0)
      fun _ _ => redeemCode_posts).run _)
  | order outTradeNo paid =>
    have hends : Ends (fulfilOrder env now outTradeNo paid) db (Posts db) :=
      posts_of_failsClean (failsClean_transaction _) fun _ _ => fulfilOrder_posts
    exact settles_ended (hends.run _)

theorem BalanceCredit.solvent_of_lands {c : BalanceCredit} (hpositive : 0 < c.amountCents db)
    (h : c.Lands env now db) : 0 ≤ db.balance c.userId + c.amountCents db := by
  have hmoved : (c.run env now db).2.balance c.userId ≠ db.balance c.userId := by
    rw [h.2]
    omega
  rw [← h.2]
  exact c.settles.nonneg hmoved

end

/-! ## Debt -/

/-- **Where debt comes from.** Requests that charge no traffic bring no account below zero and leave no
debt deeper than it was, in whatever order and however they fail. -/
theorem debt_only_by_traffic (db₀ : Database) (rs : List LedgerRequest)
    (htraffic : ∀ r ∈ rs, r.op.chargesTraffic = false) (u : ℤ) :
    min 0 (db₀.balance u) ≤ (Run.run stepLedger db₀ rs).balance u := by
  refine run_invariant_of_forall (I := fun d => min 0 (db₀.balance u) ≤ d.balance u)
    ?_ rs htraffic db₀ (min_le_right _ _)
  intro d r hr hkept
  -- a request that moves the balance leaves it solvent
  by_cases hmoved : (stepLedger d r).balance u = d.balance u
  · exact hkept.trans_eq hmoved.symm
  · exact (min_le_left _ _).trans ((LedgerRequest.settles d hr).nonneg hmoved)

theorem debt_only_by_traffic_shortAccount :
    min 0 (shortAccount.balance 1) ≤
      (Run.run stepLedger shortAccount [addonPurchase, recharge, addonPurchase]).balance 1 :=
  debt_only_by_traffic shortAccount [addonPurchase, recharge, addonPurchase] (by decide) 1

/-! ## What a credit that went through added -/

section

variable {env : Env} {now userId : ℤ} {db db' : Database}

theorem balance_congr (h : db'.book = db.book) (u : ℤ) : db'.balance u = db.balance u := by
  rw [balance_eq, balance_eq, h]

theorem balance_of_user {user : User} (huser : db.user? userId = some user) :
    db.balance userId = user.balanceCents := by
  unfold Database.balance
  rw [huser]
  rfl

theorem addUserBalance_raises {amount next : ℤ} {m : TransactionMeta}
    (h : Returns (addUserBalance now userId amount m) db next db') :
    db'.balance userId = db.balance userId + amount := by
  obtain ⟨-, user, huser, rfl, -, rfl⟩ := addUserBalance_spec h
  rw [balance_of_user huser, mathRound_intCast]
  unfold Database.balance
  rw [user?_post, huser]
  simp [TransactionMeta.row]

theorem redeemCode_raises {normalized : String} {item : RedemptionCode} {r : Redeemed}
    (hitem : lockRedemptionCode normalized db = some item) (htype : item.type = .balance)
    (h : Returns (redeemCode env now userId 0 normalized) db r db') :
    db'.balance userId = db.balance userId + item.amountCents := by
  obtain ⟨-, h⟩ := h.bind_throwIf
  obtain ⟨item', db₀, hread, h⟩ := h.of_transaction.of_bind
  obtain ⟨hitem', -, rfl⟩ := redeemableCode_spec hread
  obtain rfl := Option.some.inj (hitem.symm.trans hitem')
  unfold grantCode at h
  rw [htype] at h
  obtain ⟨-, h⟩ := h.bind_throwIf
  obtain ⟨balance, db₁, hadd, h⟩ := h.of_bind
  obtain ⟨-, rfl⟩ := h.bind_execute.of_pure
  -- the mark is on the code, not on the user
  have hraised : db₁.balance userId = _ := addUserBalance_raises hadd
  exact hraised

theorem fulfilOrder_raises {outTradeNo : String} {order : PaymentOrder} {delivers : Bool}
    (hdue : order.Creditable outTradeNo db)
    (h : Returns (fulfilOrder env now outTradeNo order) db delivers db') :
    db'.balance order.userId = db.balance order.userId + order.amountCents := by
  obtain ⟨hplan, htype, hnone⟩ := hdue
  replace h := h.of_transaction
  rw [hplan] at h
  simp only [htype, if_true] at h
  replace h := h.bind_query
  rw [hnone] at h
  obtain ⟨balance, db₁, hadd, h⟩ := h.of_bind
  obtain ⟨limit, db₂, hrecover, h⟩ := h.of_bind
  obtain ⟨-, rfl⟩ := h.bind_execute.of_pure
  have hrecovered : db₂.balance order.userId = db₁.balance order.userId :=
    balance_congr (recoverUserForwardAccessIfEligible_book hrecover) _
  have hraised : db₁.balance order.userId = _ := addUserBalance_raises hadd
  exact hrecovered.trans hraised

end

/-! ## What goes through -/

section

variable {env : Env} {now userId : ℤ} {db : Database} {user : User}

theorem completes_addUserBalance {amount : ℤ} {m : TransactionMeta}
    (huser : db.user? userId = some user) (hamount : amount ≠ 0)
    (hnext : 0 ≤ user.balanceCents + amount) : Completes (addUserBalance now userId amount m) db := by
  refine Completes.bind_throwIf (by exact_mod_cast hamount) (Completes.transaction ?_)
  refine Completes.bind_query (Completes.bind_orThrow huser ?_)
  refine Completes.bind_throwIf ?_ ?_
  · rw [mathRound_intCast]
    omega
  · exact Completes.bind_execute (Completes.bind_execute (completes_pure _))

theorem completes_recoverUserForwardAccessIfEligible (huser : db.user? userId = some user) :
    Completes (recoverUserForwardAccessIfEligible env now userId) db := by
  have hlock : Completes (lockTrafficBillingUserRow userId) db := by
    refine Completes.bind_query ?_
    rw [huser]
    exact completes_pure user
  refine Completes.transaction (hlock.bind ?_)
  intro _ db' _
  refine Completes.bind_execute (Completes.bind_query ?_)
  exact Completes.bind_execute (Completes.bind_execute (completes_pure _))

theorem completes_redeemCode {normalized : String} {item : RedemptionCode}
    (hitem : lockRedemptionCode normalized db = some item) (hok : item.Redeemable now)
    (huser : db.user? userId = some user) (hpositive : 0 < item.amountCents)
    (hnext : 0 ≤ user.balanceCents + item.amountCents) :
    Completes (redeemCode env now userId 0 normalized) db := by
  obtain ⟨hactive, hused, htype, hstarted, hlasts⟩ := hok
  refine Completes.bind_throwIf (lt_irrefl 0) (Completes.transaction ?_)
  have hfound : (lockRedemptionCode normalized db).filter RedemptionCode.isActive = some item := by
    rw [hitem, Option.filter_some, if_pos hactive]
  have hread : Completes (redeemableCode now normalized) db := by
    refine Completes.bind_query (Completes.bind_orThrow hfound ?_)
    exact Completes.bind_throwIf (by simp [hused]) (Completes.bind_throwIf hstarted
      (Completes.bind_throwIf hlasts (completes_pure _)))
  refine hread.bind ?_
  intro item' db₀ hreturns
  obtain ⟨hitem', -, rfl⟩ := redeemableCode_spec hreturns
  obtain rfl := Option.some.inj (hitem.symm.trans hitem')
  unfold grantCode
  rw [htype]
  refine Completes.bind_throwIf (not_le.mpr hpositive) ?_
  refine (completes_addUserBalance huser hpositive.ne' hnext).bind ?_
  intro balance db' _
  exact Completes.bind_execute (completes_pure _)

theorem completes_fulfilOrder {outTradeNo : String} {order : PaymentOrder}
    (hdue : order.Creditable outTradeNo db) (huser : db.user? order.userId = some user)
    (hpositive : 0 < order.amountCents) (hnext : 0 ≤ user.balanceCents + order.amountCents) :
    Completes (fulfilOrder env now outTradeNo order) db := by
  obtain ⟨hplan, htype, hnone⟩ := hdue
  refine Completes.transaction ?_
  rw [hplan]
  simp only [htype, if_true]
  refine Completes.bind_query ?_
  rw [hnone]
  refine (completes_addUserBalance huser hpositive.ne' hnext).bind ?_
  intro balance db' hreturns
  -- the user is still there once the credit is posted
  obtain ⟨-, user', huser', -, -, rfl⟩ := addUserBalance_spec hreturns
  have hstays := user?_post db (TransactionMeta.row
    { type := .payment, description := some ("在线充值：" ++ outTradeNo), paymentOrderNo := some outTradeNo }
    order.userId (mathRound order.amountCents) balance (seconds now)) order.userId
  rw [huser', Option.map_some] at hstays
  refine (completes_recoverUserForwardAccessIfEligible hstays).bind ?_
  intro limit db'' _
  exact Completes.bind_execute (completes_pure _)

end

/-! ## The theorem -/

section

variable {env : Env} {now : ℤ} {db : Database}

theorem lands_of_completes {α : Type} {call : Db α} {u amount : ℤ} (hcompletes : Completes call db)
    (hraises : ∀ a db', Returns call db a db' → db'.balance u = db.balance u + amount) :
    (ended (call.run (fun _ => none) db)).1 = none ∧
      (ended (call.run (fun _ => none) db)).2.balance u = db.balance u + amount := by
  obtain ⟨a, db', hrun⟩ := hcompletes.run_eq
  rw [hrun]
  exact ⟨rfl, hraises a db' (Returns.of_run hrun)⟩

theorem BalanceCredit.lands_of_solvent {c : BalanceCredit} (hdue : c.Due now db)
    (hnext : 0 ≤ db.balance c.userId + c.amountCents db) : c.Lands env now db := by
  obtain ⟨user, huser⟩ := Option.isSome_iff_exists.mp hdue.user
  have hpositive := hdue.positive
  rw [balance_of_user huser] at hnext
  cases c with
  | admin userId amountCents m =>
    exact lands_of_completes (completes_addUserBalance huser hpositive.ne' hnext)
      fun _ _ => addUserBalance_raises
  | code userId normalized =>
    simp only [BalanceCredit.amountCents] at hpositive hnext
    unfold BalanceCredit.Lands
    simp only [BalanceCredit.amountCents]
    cases hitem : lockRedemptionCode normalized db with
    | none => simp [hitem] at hpositive
    | some item =>
      simp only [hitem, Option.map_some, Option.getD_some] at hpositive hnext ⊢
      have hok := hdue.code userId normalized rfl item hitem
      exact lands_of_completes (completes_redeemCode hitem hok huser hpositive hnext)
        fun _ _ => redeemCode_raises hitem hok.2.2.1
  | order outTradeNo paid =>
    have hok := hdue.order outTradeNo paid rfl
    exact lands_of_completes (completes_fulfilOrder hok huser hpositive hnext)
      fun _ _ => fulfilOrder_raises hok

end

/-- **When a credit lands.** Whatever has been asked of the panel before, a credit that
everything else speaks for raises the balance by what it is worth if that is enough to
get the balance out of debt, and otherwise it does not. -/
theorem credits_land_iff (env : Env) (now : ℤ) (db₀ : Database) (rs : List LedgerRequest) (c : BalanceCredit)
    (hdue : c.Due now (Run.run stepLedger db₀ rs)) :
    c.Lands env now (Run.run stepLedger db₀ rs) ↔
      0 ≤ (Run.run stepLedger db₀ rs).balance c.userId
        + c.amountCents (Run.run stepLedger db₀ rs) :=
  ⟨BalanceCredit.solvent_of_lands hdue.positive, BalanceCredit.lands_of_solvent hdue⟩

/-- A user with one yuan left, traffic at one yuan a gigabyte, and an order of the given
amount that is being processed. -/
def meteredUser (amountCents : ℤ) : Database where
  users := [{ id := 1, balanceCents := 100 }]
  trafficBillingEnabled := true
  trafficBillingConfigs :=
    [{ resourceType := .host, resourceId := 7, pricePerGbMilliCents := 100000, multiplier := 100 }]
  paymentOrders := [{ outTradeNo := "A", userId := 1, status := .processing, amountCents }]

def fiveGigabytes : LedgerRequest where
  op := .billTrafficUsage ⟨1, 5, (.host, 7)⟩ (5 * gbBytes)
  env := quietEnv
  now := 1774972800000
  fault := fun _ => none

def orderCredit (amountCents : ℤ) : BalanceCredit :=
  .order "A" { outTradeNo := "A", userId := 1, status := .processing, amountCents }

theorem orderCredit_due {amountCents : ℤ} {now : ℤ} (hpositive : 0 < amountCents) (rs : List LedgerRequest)
    (huser : ((Run.run stepLedger (meteredUser amountCents) rs).user? 1).isSome = true)
    (hnone : getBalanceTransactionByPaymentOrderNo "A"
      (Run.run stepLedger (meteredUser amountCents) rs) = none) :
    (orderCredit amountCents).Due now (Run.run stepLedger (meteredUser amountCents) rs) where
  user := huser
  positive := hpositive
  code := by
    intro userId normalized h
    cases h
  order := by
    intro outTradeNo paid h
    cases h
    exact ⟨rfl, rfl, hnone⟩

/-- Six yuan get an account out of a debt of four. -/
theorem recharge_lands_in_debt :
    (Run.run stepLedger (meteredUser 600) [fiveGigabytes]).balance 1 = -400 ∧
      (orderCredit 600).Lands quietEnv 1774972810000
        (Run.run stepLedger (meteredUser 600) [fiveGigabytes]) :=
  ⟨by decide +kernel,
    (credits_land_iff quietEnv 1774972810000 (meteredUser 600) [fiveGigabytes] (orderCredit 600)
      (orderCredit_due (by decide) _ (by decide +kernel) (by decide +kernel))).mpr (by decide +kernel)⟩

/-- **Three yuan do not**: the order is paid, and its credit is refused for the balance. -/
theorem recharge_refused_in_debt :
    ¬ ∀ (env : Env) (now : ℤ) (db₀ : Database) (rs : List LedgerRequest) (c : BalanceCredit),
      c.Due now (Run.run stepLedger db₀ rs) →
        (c.run env now (Run.run stepLedger db₀ rs)).1 ≠ some "余额不足" ∧
          c.Lands env now (Run.run stepLedger db₀ rs) := by
  intro h
  have hlands := h quietEnv 1774972810000 (meteredUser 300) [fiveGigabytes] (orderCredit 300)
    (orderCredit_due (by decide) _ (by decide +kernel) (by decide +kernel))
  have hrefused : ((orderCredit 300).run quietEnv 1774972810000
      (Run.run stepLedger (meteredUser 300) [fiveGigabytes])).1 = some "余额不足" := by decide +kernel
  exact hlands.1 hrefused

end ForwardX.Panel
