/-
The rows of payment orders, step by step.
-/
import ForwardX.Panel.PaymentEffects

namespace ForwardX.Panel

open Run Table Tx Call PaymentOrder List

/-! ## Reading an order after an update -/

section

variable {now : ℤ} {db : Database} {p : PaymentOrder → Bool} {f : PaymentOrder → PaymentOrder}

section

variable (hf : ∀ r, (f r).outTradeNo = r.outTradeNo)

include hf

theorem row_updateOrderWhere (o o' : String) :
    getPaymentOrderByOutTradeNo o' (updateOrderWhere now o p f db).2
      = (getPaymentOrderByOutTradeNo o' db).map fun r =>
          if o' = o ∧ p r then (f r).stamped now else r := by
  have hkey : ∀ r, ((f r).stamped now).outTradeNo = r.outTradeNo := hf
  refine (byKey_updateWhere (fun r _ => hkey r) db.paymentOrders o').trans ?_
  cases hrow : byKey outTradeNo o' db.paymentOrders with
  | none => simp [getPaymentOrderByOutTradeNo, hrow]
  | some r => simp [getPaymentOrderByOutTradeNo, hrow, byKey_key hrow]

theorem nodup_updateOrderWhere (o : String) (hnodup : (db.paymentOrders.map outTradeNo).Nodup) :
    ((updateOrderWhere now o p f db).2.paymentOrders.map outTradeNo).Nodup := by
  have hnumbers := map_updateWhere outTradeNo
    (p := fun r => r.outTradeNo = o ∧ p r) (f := fun r => (f r).stamped now) (fun r _ => hf r)
    db.paymentOrders
  rw [updateOrderWhere, hnumbers]
  exact hnodup

theorem row_updatePaymentOrder (o o' : String) :
    getPaymentOrderByOutTradeNo o' (updatePaymentOrder now o f db)
      = (getPaymentOrderByOutTradeNo o' db).map fun r =>
          if o' = o then (f r).stamped now else r := by
  rw [updatePaymentOrder, row_updateOrderWhere hf]
  simp only [and_true]

end

theorem row_congr {db' : Database} (h : db'.paymentOrders = db.paymentOrders) (o : String) :
    getPaymentOrderByOutTradeNo o db' = getPaymentOrderByOutTradeNo o db := by
  rw [getPaymentOrderByOutTradeNo, h, getPaymentOrderByOutTradeNo]

theorem hit_of_row {o : String} {r : PaymentOrder} (hr : getPaymentOrderByOutTradeNo o db = some r)
    (hp : p r) : 0 < (updateOrderWhere now o p f db).1 := by
  simp only [updateOrderWhere, countP_pos_iff, decide_eq_true_eq]
  exact ⟨r, byKey_mem hr, byKey_key hr, hp⟩

theorem row_of_row {o : String} {r : PaymentOrder} (hf : ∀ r, (f r).outTradeNo = r.outTradeNo)
    (hr : getPaymentOrderByOutTradeNo o db = some r) (hp : p r) :
    getPaymentOrderByOutTradeNo o (updateOrderWhere now o p f db).2 = some ((f r).stamped now) := by
  rw [row_updateOrderWhere hf, hr, Option.map_some]
  simp [hp]

theorem row_of_hit {o : String} (hnodup : (db.paymentOrders.map outTradeNo).Nodup)
    (hhit : 0 < (updateOrderWhere now o p f db).1) :
    ∃ r, getPaymentOrderByOutTradeNo o db = some r ∧ p r := by
  simp only [updateOrderWhere, countP_pos_iff, decide_eq_true_eq] at hhit
  obtain ⟨r, hr, rfl, hp⟩ := hhit
  exact ⟨r, byKey_of_mem hnodup hr, hp⟩

end

/-! ## What the transactions did -/

section

variable {env : Env} {now : ℤ} {db db' : Database} {o : String} {u : Unit}

theorem consumeDiscountCode_spec {id : ℤ} (h : Returns (consumeDiscountCode now id) db u db') :
    (updateDiscountWhere id (·.consumable (seconds now)) (·.addUses 1) db).1 = 1 ∧
      db' = (updateDiscountWhere id (·.consumable (seconds now)) (·.addUses 1) db).2 := by
  obtain ⟨hone, rfl⟩ := h.bind_statement.of_throwIf
  exact ⟨not_ne_iff.mp hone, rfl⟩

/-- Closing gives the order's use of its code back. -/
def releaseFor (order : PaymentOrder) (db : Database) : Database :=
  match truthy order.discountCodeId with
  | some id => if order.discountConsumed then releaseDiscountCode id db else db
  | none => db

theorem closePendingOrder_spec {status : ClosedStatus} {raw : Option String} {order : PaymentOrder}
    (h : Returns (closePendingOrder now o status raw order) db u db') :
    db' = updatePaymentOrder now o (closedRow status raw) (releaseFor order db) := by
  unfold closePendingOrder at h
  unfold releaseFor
  cases hid : truthy order.discountCodeId with
  | none =>
    rw [hid] at h
    exact h.of_execute
  | some id =>
    rw [hid] at h
    obtain ⟨hconsumed, h⟩ | ⟨hconsumed, h⟩ := h.of_ite
    · simp only [hconsumed, if_true]
      exact h.bind_execute.of_execute
    · simp only [hconsumed]
      exact h.of_execute

theorem closePaymentOrder_spec {status : ClosedStatus} {raw : Option String}
    (h : Returns (closePaymentOrderAndReleaseDiscount now o status raw) db u db') :
    db' = db ∨ ∃ order, getPaymentOrderByOutTradeNo o db = some order ∧ order.status = .pending ∧
      db' = updatePaymentOrder now o (closedRow status raw) (releaseFor order db) := by
  replace h := h.of_transaction.bind_query
  cases hrow : (getPaymentOrderByOutTradeNo o db).filter (fun r => r.status = .pending) with
  | none =>
    rw [hrow] at h
    exact .inl h.of_pure.2
  | some order =>
    rw [hrow] at h
    rw [Option.filter_eq_some_iff] at hrow
    exact .inr ⟨order, hrow.1, by simpa using hrow.2, closePendingOrder_spec h⟩

/-- `INSERT INTO payment_orders`. -/
def insertOrder (row : PaymentOrder) (db : Database) : Database :=
  { db with paymentOrders := db.paymentOrders ++ [row] }

theorem createPaymentOrder_spec {req : OrderRequest}
    (h : Returns (createPaymentOrder now req) db u db') :
    getPaymentOrderByOutTradeNo req.outTradeNo db = none ∧ db' = insertOrder (req.row now) db := by
  obtain ⟨-, h⟩ := h.of_transaction.bind_query.bind_throwIf
  obtain ⟨htaken, h⟩ := h.bind_query.bind_throwIf
  refine ⟨?_, h.of_execute⟩
  simpa using htaken

theorem createOrder_spec {req : OrderRequest} (h : Returns (createOrder now req) db u db') :
    getPaymentOrderByOutTradeNo req.outTradeNo db = none ∧
      ((truthy req.discountCodeId = none ∧ db' = insertOrder (req.row now) db) ∨
        ∃ id db₁, truthy req.discountCodeId = some id ∧ Returns (consumeDiscountCode now id) db () db₁ ∧
          db' = insertOrder (req.row now) db₁) := by
  replace h := h.of_transaction
  cases hid : truthy req.discountCodeId with
  | none =>
    rw [hid] at h
    obtain ⟨hfree, rfl⟩ := createPaymentOrder_spec h
    exact ⟨hfree, .inl ⟨rfl, rfl⟩⟩
  | some id =>
    rw [hid] at h
    obtain ⟨u₁, db₁, hconsume, hcreate⟩ := h.of_bind
    obtain ⟨hfree, rfl⟩ := createPaymentOrder_spec hcreate
    refine ⟨?_, .inr ⟨id, db₁, rfl, hconsume, rfl⟩⟩
    obtain ⟨-, rfl⟩ := consumeDiscountCode_spec hconsume
    exact hfree

end

/-! ## How a row moves -/

inductive StatusMove : PaymentOrderStatus → PaymentOrderStatus → Prop where
  | same (s : PaymentOrderStatus) : StatusMove s s
  | marked : StatusMove .pending .paid
  | claimed : StatusMove .paid .processing
  | reset : StatusMove .processing .paid
  | closed (c : ClosedStatus) : StatusMove .pending c.status

/-- The status moves, and the order stays for the same plan. -/
structure RowMove (r r' : PaymentOrder) : Prop where
  status : StatusMove r.status r'.status
  planId : r'.planId = r.planId

theorem RowMove.refl (r : PaymentOrder) : RowMove r r := ⟨.same _, rfl⟩

inductive RowStep : Option PaymentOrder → Option PaymentOrder → Prop where
  | absent : RowStep none none
  | created (r : PaymentOrder) (hr : r.status = .pending) (hne : r.outTradeNo ≠ "") :
    RowStep none (some r)
  | moved {r r' : PaymentOrder} (hr : RowMove r r') : RowStep (some r) (some r')

theorem RowStep.refl (row : Option PaymentOrder) : RowStep row row := by
  cases row with
  | none => exact .absent
  | some r => exact .moved (.refl r)

/-- What no payment call outside a fulfilment touches. -/
def Database.besidesOrders (db : Database) : Database :=
  { db with paymentOrders := [], discountCodes := [] }

section

variable {now : ℤ} {db db' : Database}

theorem rowStep_updateOrderWhere {p : PaymentOrder → Bool} {f : PaymentOrder → PaymentOrder}
    (hkey : ∀ r, (f r).outTradeNo = r.outTradeNo)
    (hf : ∀ r, p r → RowMove r ((f r).stamped now)) (o o' : String) :
    RowStep (getPaymentOrderByOutTradeNo o' db)
      (getPaymentOrderByOutTradeNo o' (updateOrderWhere now o p f db).2) := by
  rw [row_updateOrderWhere hkey]
  cases getPaymentOrderByOutTradeNo o' db with
  | none => exact .absent
  | some r =>
    refine .moved ?_
    simp only
    split
    · rename_i hr
      exact hf r hr.2
    · exact .refl r

@[simp] theorem paymentOrders_releaseFor (order : PaymentOrder) :
    (releaseFor order db).paymentOrders = db.paymentOrders := by
  unfold releaseFor
  split
  · split <;> rfl
  · rfl

@[simp] theorem besidesOrders_releaseFor (order : PaymentOrder) :
    (releaseFor order db).besidesOrders = db.besidesOrders := by
  unfold releaseFor
  split
  · split <;> rfl
  · rfl

section

variable {id : ℤ} {u : Unit} (h : Returns (consumeDiscountCode now id) db u db')

include h

theorem paymentOrders_consumeDiscountCode : db'.paymentOrders = db.paymentOrders := by
  obtain ⟨-, rfl⟩ := consumeDiscountCode_spec h
  rfl

theorem besidesOrders_consumeDiscountCode : db'.besidesOrders = db.besidesOrders := by
  obtain ⟨-, rfl⟩ := consumeDiscountCode_spec h
  rfl

end

theorem paymentOrders_createOrder {req : OrderRequest} {u : Unit} (h : Returns (createOrder now req) db u db') :
    getPaymentOrderByOutTradeNo req.outTradeNo db = none ∧
      db'.paymentOrders = db.paymentOrders ++ [req.row now] ∧
      db'.besidesOrders = db.besidesOrders := by
  obtain ⟨hfree, ⟨-, rfl⟩ | ⟨id, db₁, -, hconsume, rfl⟩⟩ := createOrder_spec h
  · exact ⟨hfree, rfl, rfl⟩
  · have hbesides := besidesOrders_consumeDiscountCode hconsume
    refine ⟨hfree, ?_, hbesides⟩
    rw [insertOrder, paymentOrders_consumeDiscountCode hconsume]

theorem PaymentEffect.rowStep (h : PaymentEffect now db db') (o : String) :
    RowStep (getPaymentOrderByOutTradeNo o db) (getPaymentOrderByOutTradeNo o db') := by
  cases h with
  | nothing => exact .refl _
  | claimed o' =>
    refine rowStep_updateOrderWhere (fun r => ?_) (fun r hr => ?_) o' o
    · rfl
    rw [decide_eq_true_eq] at hr
    exact ⟨hr ▸ .claimed, rfl⟩
  | reset o' before =>
    refine rowStep_updateOrderWhere (fun r => ?_) (fun r hr => ?_) o' o
    · rfl
    rw [decide_eq_true_eq] at hr
    exact ⟨hr.1 ▸ .reset, rfl⟩
  | marked o' n =>
    refine rowStep_updateOrderWhere (fun r => ?_) (fun r hr => ?_) o' o
    · rfl
    rw [decide_eq_true_eq] at hr
    exact ⟨hr ▸ .marked, rfl⟩
  | recorded o' f hf =>
    apply rowStep_updateOrderWhere hf.outTradeNo
    intro r _
    obtain ⟨tradeNo, rawNotify, hr⟩ := hf r
    rw [hr]
    exact ⟨.same _, rfl⟩
  | closed o' status raw h =>
    obtain rfl | ⟨order, hrow, hstatus, rfl⟩ := closePaymentOrder_spec h
    · exact .refl _
    · rw [row_updatePaymentOrder (f := closedRow status raw) (fun _ => rfl),
        row_congr (paymentOrders_releaseFor order)]
      by_cases ho : o = o'
      · subst ho
        simp only [hrow, if_true, Option.map_some]
        refine .moved ⟨?_, rfl⟩
        rw [hstatus]
        exact .closed status
      · simp only [ho, if_false, Option.map_id']
        exact .refl _
  | created req h =>
    obtain ⟨hfree, horders, -⟩ := paymentOrders_createOrder h
    rw [getPaymentOrderByOutTradeNo, getPaymentOrderByOutTradeNo, horders, byKey_append_singleton]
    by_cases ho : req.outTradeNo = o
    · subst ho
      rw [getPaymentOrderByOutTradeNo] at hfree
      rw [hfree, Option.none_or, if_pos (show (req.row now).outTradeNo = req.outTradeNo from rfl)]
      exact .created _ rfl req.outTradeNo_ne
    · rw [if_neg (show ¬ (req.row now).outTradeNo = o from ho), Option.or_none]
      exact .refl _

theorem PaymentEffect.besidesOrders_eq (h : PaymentEffect now db db') :
    db'.besidesOrders = db.besidesOrders := by
  cases h with
  | nothing | claimed | reset | marked | recorded => rfl
  | closed o status raw h =>
    obtain rfl | ⟨order, -, -, rfl⟩ := closePaymentOrder_spec h
    · rfl
    · exact besidesOrders_releaseFor order
  | created req h => exact (paymentOrders_createOrder h).2.2

theorem PaymentEffect.nodup (h : PaymentEffect now db db')
    (hnodup : (db.paymentOrders.map outTradeNo).Nodup) :
    (db'.paymentOrders.map outTradeNo).Nodup := by
  cases h with
  | nothing => exact hnodup
  | claimed | reset | marked =>
    refine nodup_updateOrderWhere (fun r => ?_) _ hnodup
    rfl
  | recorded o' f hf => exact nodup_updateOrderWhere hf.outTradeNo o' hnodup
  | closed o status raw h =>
    obtain rfl | ⟨order, -, -, rfl⟩ := closePaymentOrder_spec h
    · exact hnodup
    · rw [← paymentOrders_releaseFor order] at hnodup
      refine nodup_updateOrderWhere (fun r => ?_) _ hnodup
      rfl
  | created req h =>
    obtain ⟨hfree, horders, -⟩ := paymentOrders_createOrder h
    rw [horders, map_append]
    refine nodup_append.mpr ⟨hnodup, nodup_singleton _, ?_⟩
    intro a ha b hb heq
    obtain ⟨r, hr, rfl⟩ := mem_map.mp ha
    obtain rfl : b = req.outTradeNo := by simpa [OrderRequest.row] using hb
    have hrow := find?_eq_none.mp hfree r hr
    simp [heq] at hrow

end

/-! ## Fulfilments -/

/-- The finalizer uses the code itself, or it has nothing to use. -/
def ConsumesFor (now : ℤ) (o : String) (order : PaymentOrder) (db db' : Database) : Prop :=
  db' = db ∨ ∃ id db₀, truthy order.discountCodeId = some id ∧ order.discountConsumed = false ∧
    Returns (consumeDiscountCode now id) db () db₀ ∧
    db' = updatePaymentOrder now o consumedRow db₀

/-- What a fulfilment delivered: nothing, or a subscription or a credit under a
number that the subscriptions or the ledger did not have. -/
inductive OrderDelivery (now : ℤ) (o : String) (order : PaymentOrder) (db : Database) :
    Bool → Database → Prop where
  | nothing : OrderDelivery now o order db false db
  | granted {db' : Database} (req : SubscriptionRequest) (hplan : (truthy order.planId).isSome)
    (hreq : req.paymentOrderNo = some o)
    (hnew : getUserSubscriptionByPaymentOrderNo o db = none) (hrows : Grants now req db db')
    (hout : db'.outside = db.outside) : OrderDelivery now o order db true db'
  | renewed {db' : Database} (req : SubscriptionRequest) (sub : UserSubscription)
    (hplan : (truthy order.planId).isSome) (hreq : req.paymentOrderNo = some o)
    (htarget : truthy order.subscriptionId = some sub.id)
    (hsub : getUserSubscriptionById sub.id db = some sub)
    (hnew : getUserSubscriptionByPaymentOrderNo o db = none) (hrows : Renews now req sub db db')
    (hout : db'.outside = db.outside) : OrderDelivery now o order db true db'
  | credited {db' : Database} (row : BalanceTransaction) (hplan : truthy order.planId = none)
    (hrow : row.paymentOrderNo = some o)
    (hnew : getBalanceTransactionByPaymentOrderNo o db = none)
    (hsubs : db'.userSubscriptions = db.userSubscriptions)
    (hout : db'.outside = (db.post row).outside) : OrderDelivery now o order db true db'

section

variable {env : Env} {now : ℤ} {db db' : Database} {o : String} {order : PaymentOrder}

theorem consumeForOrder_spec {u : Unit} (h : Returns (consumeForOrder now o order) db u db') :
    ConsumesFor now o order db db' := by
  unfold consumeForOrder at h
  cases hid : truthy order.discountCodeId with
  | none =>
    rw [hid] at h
    exact .inl h.of_pure.2
  | some id =>
    rw [hid] at h
    obtain ⟨-, h⟩ | ⟨hconsumed, h⟩ := h.of_ite
    · exact .inl h.of_pure.2
    · obtain ⟨u, db₀, hconsume, h⟩ := h.of_bind
      exact .inr ⟨id, db₀, hid, by simpa using hconsumed, hconsume, h.of_execute⟩

theorem ConsumesFor.besidesOrders_eq (h : ConsumesFor now o order db db') :
    db'.besidesOrders = db.besidesOrders := by
  obtain rfl | ⟨id, db₀, -, -, hconsume, rfl⟩ := h
  · rfl
  · have hbesides := besidesOrders_consumeDiscountCode hconsume
    exact hbesides

theorem ConsumesFor.userSubscriptions (h : ConsumesFor now o order db db') :
    db'.userSubscriptions = db.userSubscriptions := by
  have hsubs := congrArg Database.userSubscriptions h.besidesOrders_eq
  exact hsubs

theorem truthy_truthy (id : Option ℤ) : truthy (truthy id) = truthy id := by
  cases id with
  | none => rfl
  | some x => by_cases hx : x = 0 <;> simp [truthy, hx]

variable {delivers : Bool}

theorem fulfilPlan_spec {planId : ℤ} (hplan : truthy order.planId = some planId)
    (h : Returns (fulfilPlan env now o order planId) db delivers db') :
    ∃ db₁ db₂ sid, ConsumesFor now o order db db₁ ∧ OrderDelivery now o order db₁ delivers db₂ ∧
      db' = completeOrder now o sid db₂ := by
  replace h := h.bind_query
  cases hexisting : getUserSubscriptionByPaymentOrderNo o db with
  | some subscription =>
    rw [hexisting] at h
    obtain ⟨u, db₁, hconsume, h⟩ := h.of_bind
    obtain ⟨rfl, rfl⟩ := h.bind_execute.of_pure
    exact ⟨db₁, db₁, _, consumeForOrder_spec hconsume, .nothing, rfl⟩
  | none =>
    rw [hexisting] at h
    obtain ⟨u, db₁, hconsume, h⟩ := h.of_bind
    obtain ⟨result, db₂, happly, h⟩ := h.of_bind
    obtain ⟨limit, db₃, hrecover, h⟩ := h.of_bind
    obtain ⟨rfl, rfl⟩ := h.bind_execute.of_pure
    have hconsumes := consumeForOrder_spec hconsume
    obtain ⟨happlied, hout, -⟩ := applySubscriptionToUser_spec happly
    obtain ⟨hsubs, hout'⟩ := recoverUserForwardAccessIfEligible_spec hrecover
    have hnew : getUserSubscriptionByPaymentOrderNo o db₁ = none := by
      rw [getUserSubscriptionByPaymentOrderNo, hconsumes.userSubscriptions]
      exact hexisting
    have hplan' : (truthy order.planId).isSome := by
      rw [hplan]
      rfl
    refine ⟨db₁, db₃, _, hconsumes, ?_, rfl⟩
    obtain ⟨⟨plan, start, e, n, ports, hfree, hrows⟩, -⟩ |
      ⟨sub, htarget, hsub, -, -, plan, e, n, ports, hkept, hrows⟩ := happlied
    · exact .granted _ hplan' rfl hnew ⟨plan, start, e, n, ports, hfree, hsubs.trans hrows⟩
        (hout'.trans hout)
    · rw [← truthy, truthy_truthy] at htarget
      exact .renewed _ sub hplan' rfl htarget hsub hnew
        ⟨plan, e, n, ports, hkept, hsubs.trans hrows⟩ (hout'.trans hout)

theorem fulfilBalance_spec (hplan : truthy order.planId = none)
    (h : Returns (fulfilBalance env now o order) db delivers db') :
    ∃ db₂, OrderDelivery now o order db delivers db₂ ∧ db' = completeOrder now o none db₂ := by
  replace h := h.bind_query
  cases hexisting : getBalanceTransactionByPaymentOrderNo o db with
  | some t =>
    rw [hexisting] at h
    obtain ⟨rfl, rfl⟩ := h.bind_execute.of_pure
    exact ⟨db, .nothing, rfl⟩
  | none =>
    rw [hexisting] at h
    obtain ⟨balance, db₁, hadd, h⟩ := h.of_bind
    obtain ⟨limit, db₂, hrecover, h⟩ := h.of_bind
    obtain ⟨rfl, rfl⟩ := h.bind_execute.of_pure
    obtain ⟨-, user, -, -, -, rfl⟩ := addUserBalance_spec hadd
    obtain ⟨hsubs, hout⟩ := recoverUserForwardAccessIfEligible_spec hrecover
    exact ⟨db₂, .credited _ hplan rfl hexisting hsubs hout, rfl⟩

theorem fulfilOrder_spec (h : Returns (fulfilOrder env now o order) db delivers db') :
    ∃ db₁ db₂ sid, ConsumesFor now o order db db₁ ∧ OrderDelivery now o order db₁ delivers db₂ ∧
      db' = completeOrder now o sid db₂ := by
  replace h := h.of_transaction
  cases hplan : truthy order.planId with
  | some planId =>
    rw [hplan] at h
    exact fulfilPlan_spec hplan h
  | none =>
    rw [hplan] at h
    obtain ⟨-, h⟩ | ⟨-, h⟩ := h.of_ite
    · obtain ⟨db₂, hdelivery, hdone⟩ := fulfilBalance_spec hplan h
      exact ⟨db, db₂, none, .inl rfl, hdelivery, hdone⟩
    · obtain ⟨rfl, rfl⟩ := h.bind_execute.of_pure
      exact ⟨db, db, none, .inl rfl, .nothing, rfl⟩

theorem orders_of_outside (h : db'.outside = db.outside) :
    db'.paymentOrders = db.paymentOrders ∧ db'.discountCodes = db.discountCodes := by
  have horders := congrArg Database.paymentOrders h
  have hcodes := congrArg Database.discountCodes h
  exact ⟨horders, hcodes⟩

theorem OrderDelivery.orders_eq (h : OrderDelivery now o order db delivers db') :
    db'.paymentOrders = db.paymentOrders ∧ db'.discountCodes = db.discountCodes := by
  cases h with
  | nothing => exact ⟨rfl, rfl⟩
  | granted _ _ _ _ _ hout => exact orders_of_outside hout
  | renewed _ _ _ _ _ _ _ _ hout => exact orders_of_outside hout
  | credited _ _ _ _ _ hout =>
    have horders := orders_of_outside hout
    exact horders

theorem ConsumesFor.row (h : ConsumesFor now o order db db') (o' : String) :
    ∃ g : PaymentOrder → PaymentOrder, (∀ r, (g r).planId = r.planId) ∧
      getPaymentOrderByOutTradeNo o' db'
        = (getPaymentOrderByOutTradeNo o' db).map fun r => if o' = o then g r else r := by
  obtain rfl | ⟨id, db₀, -, -, hconsume, rfl⟩ := h
  · exact ⟨id, fun r => rfl, by simp⟩
  · refine ⟨fun r => (consumedRow r).stamped now, fun r => rfl, ?_⟩
    rw [row_updatePaymentOrder (f := consumedRow) (fun _ => rfl),
      row_congr (paymentOrders_consumeDiscountCode hconsume)]

section

variable (h : Returns (fulfilOrder env now o order) db delivers db')

include h

theorem row_fulfilOrder {r : PaymentOrder} (hr : getPaymentOrderByOutTradeNo o db = some r) :
    ∃ r', getPaymentOrderByOutTradeNo o db' = some r' ∧ r'.status = .completed ∧
      r'.planId = r.planId := by
  obtain ⟨db₁, db₂, sid, hconsumes, hdelivery, rfl⟩ := fulfilOrder_spec h
  obtain ⟨g, hg, hrow⟩ := hconsumes.row o
  rw [hr, Option.map_some, if_pos rfl] at hrow
  rw [completeOrder, row_updatePaymentOrder (f := completedRow sid) (fun _ => rfl),
    row_congr hdelivery.orders_eq.1, hrow]
  simp only [Option.map_some, if_true]
  exact ⟨_, rfl, rfl, hg r⟩

theorem row_fulfilOrder_other {o' : String} (ho : o' ≠ o) :
    getPaymentOrderByOutTradeNo o' db' = getPaymentOrderByOutTradeNo o' db := by
  obtain ⟨db₁, db₂, sid, hconsumes, hdelivery, rfl⟩ := fulfilOrder_spec h
  obtain ⟨g, -, hrow⟩ := hconsumes.row o'
  rw [completeOrder, row_updatePaymentOrder (f := completedRow sid) (fun _ => rfl),
    row_congr hdelivery.orders_eq.1, hrow]
  simp [ho]

theorem nodup_fulfilOrder (hnodup : (db.paymentOrders.map outTradeNo).Nodup) :
    (db'.paymentOrders.map outTradeNo).Nodup := by
  obtain ⟨db₁, db₂, sid, hconsumes, hdelivery, rfl⟩ := fulfilOrder_spec h
  have hnodup₁ : (db₁.paymentOrders.map outTradeNo).Nodup := by
    obtain rfl | ⟨id, db₀, -, -, hconsume, rfl⟩ := hconsumes
    · exact hnodup
    · rw [← paymentOrders_consumeDiscountCode hconsume] at hnodup
      refine nodup_updateOrderWhere (fun r => ?_) _ hnodup
      rfl
  rw [← hdelivery.orders_eq.1] at hnodup₁
  refine nodup_updateOrderWhere (fun r => ?_) _ hnodup₁
  rfl

end

end

/-! ## Whole runs, whatever happens -/

def PaymentOrderStatus.taken : PaymentOrderStatus → Bool
  | .paid | .processing | .completed => true
  | .pending | .failed | .expired | .cancelled => false

def PaymentOrderStatus.isClosed : PaymentOrderStatus → Bool
  | .failed | .expired | .cancelled => true
  | .pending | .paid | .processing | .completed => false

theorem StatusMove.taken {s s' : PaymentOrderStatus} (h : StatusMove s s') (hs : s.taken) : s'.taken := by
  cases h with
  | same => exact hs
  | marked | claimed | reset => rfl
  | closed => cases hs

theorem StatusMove.completed {s' : PaymentOrderStatus} (h : StatusMove .completed s') : s' = .completed := by
  cases h
  rfl

theorem StatusMove.closed_of_closed {s s' : PaymentOrderStatus} (h : StatusMove s s')
    (hs : s.isClosed) : s'.isClosed := by
  cases h with
  | same => exact hs
  | marked | claimed | reset | closed => cases hs

/-- The row of the order is there and its status is one of these. -/
def OrderIs (p : PaymentOrderStatus → Prop) (o : String) (db : Database) : Prop :=
  ∃ r, getPaymentOrderByOutTradeNo o db = some r ∧ p r.status

theorem PaymentEffect.orderIs {now : ℤ} {db db' : Database} (h : PaymentEffect now db db')
    {p : PaymentOrderStatus → Prop} (hp : ∀ s s', StatusMove s s' → p s → p s') {o : String}
    (ho : OrderIs p o db) : OrderIs p o db' := by
  obtain ⟨r, hr, hs⟩ := ho
  have hstep := h.rowStep o
  rw [hr] at hstep
  unfold OrderIs
  generalize getPaymentOrderByOutTradeNo o db' = row' at hstep ⊢
  cases hstep with
  | moved hmove => exact ⟨_, rfl, hp _ _ hmove.status hs⟩

/-- What holds in every state of every run. -/
structure OrdersSound (w : PaymentPanel) : Prop where
  nodup : (w.db.paymentOrders.map PaymentOrder.outTradeNo).Nodup
  named : getPaymentOrderByOutTradeNo "" w.db = none
  taken : ∀ t ∈ w.tasks, ∀ o, t.claims o → OrderIs (·.taken) o w.db
  completed : ∀ o ∈ w.delivered, OrderIs (· = .completed) o w.db

structure StartsUp (w : PaymentPanel) : Prop where
  nodup : (w.db.paymentOrders.map PaymentOrder.outTradeNo).Nodup
  named : getPaymentOrderByOutTradeNo "" w.db = none
  idle : w.tasks = []
  undelivered : w.delivered = []

theorem StartsUp.sound {w : PaymentPanel} (h : StartsUp w) : OrdersSound w where
  nodup := h.nodup
  named := h.named
  taken := by simp [h.idle]
  completed := by simp [h.undelivered]

section

variable {env : Env} {now : ℤ} {fault : ℕ → Option String} {db db' : Database} {o : String}
  {w : PaymentPanel}

theorem not_claims_start (c : PaymentCall) : c.start.claims o = false := by
  cases c <;> rfl

theorem claims_before {t t' : Task} (hnodup : (db.paymentOrders.map outTradeNo).Nodup)
    (ht' : t' ∈ (t.step env now fault db).task) (hclaims : t'.claims o) :
    t.fulfils = none ∧ (t.claims o ∨ OrderIs (· = .paid) o db) := by
  obtain ⟨again, caller, rfl, -, hhit, -⟩ | ⟨again, caller, order, rfl, -⟩ :=
    comesByClaim_step ht' hclaims
  · obtain ⟨r, hr, hpaid⟩ := row_of_hit hnodup hhit
    exact ⟨rfl, .inr ⟨r, hr, by simpa using hpaid⟩⟩
  · exact ⟨rfl, .inl (by simp [Task.claims])⟩

theorem named_effect (h : PaymentEffect now db db') (hnamed : getPaymentOrderByOutTradeNo "" db = none) :
    getPaymentOrderByOutTradeNo "" db' = none := by
  have hstep := h.rowStep ""
  rw [hnamed] at hstep
  cases hrow : getPaymentOrderByOutTradeNo "" db' with
  | none => rfl
  | some r =>
    rw [hrow] at hstep
    cases hstep with
    | created _ _ hne => exact absurd (byKey_key hrow) hne

theorem not_claims_fulfilled {t t' : Task} {order : PaymentOrder} {o' : String}
    (hnodup : (db.paymentOrders.map outTradeNo).Nodup)
    (ht : t.fulfils = some (o', order)) (ht' : t' ∈ (t.step env now fault db).task) :
    t'.claims o = false := by
  by_contra hclaims
  rw [Bool.not_eq_false] at hclaims
  have hnone := (claims_before hnodup ht' hclaims).1
  rw [ht] at hnone
  cases hnone

end

/-- The tables that the payment calls share with nobody else. -/
structure SameOrderBooks (db db' : Database) : Prop where
  paymentOrders : db'.paymentOrders = db.paymentOrders
  discountCodes : db'.discountCodes = db.discountCodes
  userSubscriptions : db'.userSubscriptions = db.userSubscriptions
  balanceTransactions : db'.balanceTransactions = db.balanceTransactions

theorem SameOrderBooks.of_eq {db db' : Database} (h : db' = db) : SameOrderBooks db db' := by
  subst h
  exact ⟨rfl, rfl, rfl, rfl⟩

/-- **What one event can do to the panel.** -/
inductive PanelStep (w : PaymentPanel) : PaymentEvent → PaymentPanel → Prop where
  | idle {e : PaymentEvent} {w' : PaymentPanel} (hbooks : SameOrderBooks w.db w'.db)
    (hdelivered : w'.delivered = w.delivered)
    (htasks : ∀ t' ∈ w'.tasks, t' ∈ w.tasks ∨ ∀ o, t'.claims o = false) : PanelStep w e w'
  | effect {i : ℕ} {env : Env} {fault : ℕ → Option String} {w' : PaymentPanel} (t : Task)
    (hmem : t ∈ w.tasks) (ht : t.fulfils = none) (heffect : PaymentEffect w.now w.db w'.db)
    (hdelivered : w'.delivered = w.delivered)
    (htasks : ∀ t' ∈ w'.tasks, t' ∈ w.tasks ∨ t' ∈ (t.step env w.now fault w.db).task) :
    PanelStep w (.step i env fault) w'
  | fulfilment {i : ℕ} {env : Env} {fault : ℕ → Option String} {w' : PaymentPanel} (t : Task)
    (o : String) (order : PaymentOrder) (delivers : Bool) (hi : w.tasks[i]? = some t)
    (ht : t.fulfils = some (o, order))
    (hreturns : Returns (fulfilOrder env w.now o order) w.db delivers w'.db)
    (hdelivered : w'.delivered = w.delivered ++ (if delivers then [o] else []))
    (htasks : ∀ t' ∈ w'.tasks, t' ∈ w.tasks ∨ t' ∈ (t.step env w.now fault w.db).task) :
    PanelStep w (.step i env fault) w'

theorem panelStep (w : PaymentPanel) (e : PaymentEvent)
    (hnodup : (w.db.paymentOrders.map outTradeNo).Nodup) :
    PanelStep w e (stepPayment w e) := by
  cases e with
  | tick ms => exact .idle ⟨rfl, rfl, rfl, rfl⟩ rfl fun t' ht' => .inl ht'
  | call c =>
    refine .idle ⟨rfl, rfl, rfl, rfl⟩ rfl fun t' ht' => ?_
    rw [stepPayment, mem_append, mem_singleton] at ht'
    obtain ht' | rfl := ht'
    · exact .inl ht'
    · exact .inr fun o => not_claims_start c
  | crash i => exact .idle ⟨rfl, rfl, rfl, rfl⟩ rfl fun t' ht' => .inl (mem_of_mem_eraseIdx ht')
  | other edit => exact .idle ⟨rfl, rfl, rfl, rfl⟩ rfl fun t' ht' => .inl ht'
  | step i env fault =>
    rw [stepPayment]
    cases hi : w.tasks[i]? with
    | none => exact .idle ⟨rfl, rfl, rfl, rfl⟩ rfl fun t' ht' => .inl ht'
    | some t =>
      have htasks : ∀ t' ∈ w.tasks.eraseIdx i ++ (t.step env w.now fault w.db).task.toList,
          t' ∈ w.tasks ∨ t' ∈ (t.step env w.now fault w.db).task := by
        intro t' ht'
        rw [mem_append, Option.mem_toList] at ht'
        exact ht'.imp_left mem_of_mem_eraseIdx
      cases ht : t.fulfils with
      | none =>
        refine .effect t (mem_of_getElem? hi) ht (step_effect ht) ?_ htasks
        simp [step_delivered ht]
      | some claim =>
        obtain ⟨o, order⟩ := claim
        obtain ⟨delivers, hreturns, hdelivered⟩ | ⟨hdb, hdelivered⟩ :=
          step_fulfil env w.now fault w.db ht
        · refine .fulfilment t o order delivers hi ht hreturns ?_ htasks
          simp only [hdelivered]
          split <;> rfl
        · refine .idle (.of_eq hdb) ?_ fun t' ht' => ?_
          · simp [hdelivered]
          · exact (htasks t' ht').imp_right fun hnew o' => not_claims_fulfilled hnodup ht hnew

theorem nodup_step {w : PaymentPanel} (e : PaymentEvent)
    (hnodup : (w.db.paymentOrders.map outTradeNo).Nodup) :
    ((stepPayment w e).db.paymentOrders.map outTradeNo).Nodup := by
  have hstep := panelStep w e hnodup
  generalize stepPayment w e = w' at hstep
  cases hstep with
  | idle hbooks hdelivered htasks =>
    rw [hbooks.paymentOrders]
    exact hnodup
  | effect t hmem ht heffect hdelivered htasks => exact heffect.nodup hnodup
  | fulfilment t o order delivers hi ht hreturns hdelivered htasks =>
    exact nodup_fulfilOrder hreturns hnodup

theorem ordersSound_step {w : PaymentPanel} (e : PaymentEvent) (h : OrdersSound w) :
    OrdersSound (stepPayment w e) := by
  have hnodup := nodup_step e h.nodup
  have hstep := panelStep w e h.nodup
  generalize stepPayment w e = w' at hnodup hstep
  cases hstep with
  | idle hbooks hdelivered htasks =>
    have hrows : ∀ p o, OrderIs p o w.db → OrderIs p o w'.db := by
      rintro p o ⟨r, hr, hp⟩
      exact ⟨r, by rw [row_congr hbooks.paymentOrders, hr], hp⟩
    refine ⟨hnodup, ?_, ?_, ?_⟩
    · rw [row_congr hbooks.paymentOrders]
      exact h.named
    · intro t' ht' o hclaims
      obtain ht' | hnone := htasks t' ht'
      · exact hrows _ o (h.taken t' ht' o hclaims)
      · rw [hnone o] at hclaims
        cases hclaims
    · rw [hdelivered]
      exact fun o ho => hrows _ o (h.completed o ho)
  | effect t hmem ht heffect hdelivered htasks =>
    refine ⟨hnodup, named_effect heffect h.named, ?_, ?_⟩
    · intro t' ht' o hclaims
      apply heffect.orderIs fun s s' hmove => hmove.taken
      obtain ht' | ht' := htasks t' ht'
      · exact h.taken t' ht' o hclaims
      · obtain ⟨-, hheld | ⟨r, hr, hpaid⟩⟩ := claims_before h.nodup ht' hclaims
        · exact h.taken t hmem o hheld
        · exact ⟨r, hr, by simp [hpaid, PaymentOrderStatus.taken]⟩
    · rw [hdelivered]
      intro o ho
      apply heffect.orderIs _ (h.completed o ho)
      rintro s s' hmove rfl
      exact hmove.completed
  | fulfilment t o order delivers hi ht hreturns hdelivered htasks =>
    have hmem := mem_of_getElem? hi
    have hcompleted : OrderIs (· = .completed) o w'.db := by
      obtain ⟨r, hr, -⟩ := h.taken t hmem o (claims_of_fulfils ht)
      obtain ⟨r', hr', hs, -⟩ := row_fulfilOrder hreturns hr
      exact ⟨r', hr', hs⟩
    -- the order of the fulfilment is completed, every other one is where it was
    have hrows : ∀ p o', (o' = o → p .completed) → OrderIs p o' w.db → OrderIs p o' w'.db := by
      rintro p o' hp ⟨r, hr, hs⟩
      by_cases ho : o' = o
      · subst ho
        obtain ⟨r', hr', hs'⟩ := hcompleted
        exact ⟨r', hr', by rw [hs']; exact hp rfl⟩
      · exact ⟨r, by rw [row_fulfilOrder_other hreturns ho, hr], hs⟩
    refine ⟨hnodup, ?_, ?_, ?_⟩
    · have hne : "" ≠ o := by
        rintro rfl
        obtain ⟨r, hr, -⟩ := h.taken t hmem "" (claims_of_fulfils ht)
        rw [h.named] at hr
        cases hr
      rw [row_fulfilOrder_other hreturns hne]
      exact h.named
    · intro t' ht' o' hclaims
      obtain ht' | ht' := htasks t' ht'
      · exact hrows _ o' (fun _ => rfl) (h.taken t' ht' o' hclaims)
      · rw [not_claims_fulfilled h.nodup ht ht'] at hclaims
        cases hclaims
    · rw [hdelivered]
      intro o' ho'
      rw [mem_append] at ho'
      obtain ho' | ho' := ho'
      · exact hrows _ o' (fun _ => rfl) (h.completed o' ho')
      · obtain rfl : o' = o := by
          split at ho'
          · simpa using ho'
          · cases ho'
        exact hcompleted

end ForwardX.Panel
