/-
The uses of a discount code.

A use of a code is taken when an order is created and given back when it is closed, in the
transaction that changes the row. So the counter is the number of rows that hold a use, which every
effect of `PaymentEffects` keeps.
-/
import ForwardX.Panel.PaymentRows

namespace ForwardX.Panel

open Run Table Tx Call

/-! ## The books -/

def PaymentOrder.uses (id : ℤ) (r : PaymentOrder) : Bool :=
  r.discountConsumed ∧ r.discountCodeId = some id

def discountUses (db : Database) (id : ℤ) : ℕ := db.paymentOrders.countP (·.uses id)

/-- Flagged as long as it is open, if it has a code. -/
def PaymentOrder.FlagRight (r : PaymentOrder) : Prop :=
  r.discountConsumed = (!r.status.isClosed && (truthy r.discountCodeId).isSome)

structure DiscountBooks (db : Database) : Prop where
  codes : (db.discountCodes.map DiscountCode.id).Nodup
  used : ∀ c ∈ db.discountCodes, c.usedCount = discountUses db c.id
  bounded : ∀ c ∈ db.discountCodes, 0 < c.maxUses → c.usedCount ≤ c.maxUses
  flags : ∀ r ∈ db.paymentOrders, r.FlagRight

theorem FlagRight.of_status {r r' : PaymentOrder} (h : r.FlagRight)
    (hflag : r'.discountConsumed = r.discountConsumed) (hcode : r'.discountCodeId = r.discountCodeId)
    (hopen : r'.status.isClosed = r.status.isClosed) : r'.FlagRight := by
  rw [PaymentOrder.FlagRight, hflag, hcode, hopen]
  exact h

theorem PaymentOrder.FlagRight.uses_iff {r : PaymentOrder} (h : r.FlagRight) (id : ℤ) :
    r.uses id = true ↔ r.status.isClosed = false ∧ truthy r.discountCodeId = some id := by
  unfold PaymentOrder.FlagRight at h
  unfold PaymentOrder.uses
  rw [decide_eq_true_eq]
  cases hcode : r.discountCodeId with
  | none => simp [truthy]
  | some x =>
    rw [h, hcode]
    by_cases hx : x = 0
    · simp only [hx, truthy, Option.filter_some]
      simp
    · simp only [truthy, Option.filter_some]
      simp [hx]

section

variable {now : ℤ} {db db' : Database} {o : String}

theorem DiscountBooks.update (h : DiscountBooks db) (p : PaymentOrder → Bool)
    (f : PaymentOrder → PaymentOrder) (hflag : ∀ r, (f r).discountConsumed = r.discountConsumed)
    (hcode : ∀ r, (f r).discountCodeId = r.discountCodeId)
    (hopen : ∀ r ∈ db.paymentOrders, r.outTradeNo = o → p r →
      (f r).status.isClosed = r.status.isClosed) :
    DiscountBooks (updateOrderWhere now o p f db).2 := by
  refine ⟨h.codes, ?_, h.bounded, ?_⟩
  · intro c hc
    rw [h.used c hc, discountUses, discountUses, updateOrderWhere, countP_updateWhere]
    intro r _
    simp only [PaymentOrder.uses, PaymentOrder.stamped, hflag, hcode]
  · intro r' hr'
    obtain ⟨r, hr, rfl⟩ := mem_updateWhere.mp hr'
    split
    · rename_i hp
      rw [decide_eq_true_eq] at hp
      exact FlagRight.of_status (h.flags r hr) (hflag r) (hcode r) (hopen r hr hp.1 hp.2)
    · exact h.flags r hr

theorem discountBooks_congr (h : DiscountBooks db) (horders : db'.paymentOrders = db.paymentOrders)
    (hcodes : db'.discountCodes = db.discountCodes) : DiscountBooks db' := by
  refine ⟨hcodes ▸ h.codes, ?_, hcodes ▸ h.bounded, horders ▸ h.flags⟩
  rw [hcodes]
  intro c hc
  rw [h.used c hc, discountUses, discountUses, horders]

theorem nodup_updateDiscountWhere {p : DiscountCode → Bool} {f : DiscountCode → DiscountCode}
    (hf : ∀ c, (f c).id = c.id) (id : ℤ) (h : (db.discountCodes.map DiscountCode.id).Nodup) :
    ((updateDiscountWhere id p f db).2.discountCodes.map DiscountCode.id).Nodup := by
  have hids := map_updateWhere DiscountCode.id (p := fun c => c.id = id ∧ p c) (f := f)
    (fun c _ => hf c) db.discountCodes
  rw [updateDiscountWhere, hids]
  exact h

theorem consumeDiscountCode_codes {id : ℤ} {u : Unit} (hnodup : (db.discountCodes.map DiscountCode.id).Nodup)
    (h : Returns (consumeDiscountCode now id) db u db') :
    db'.discountCodes = updateWhere (fun c => c.id = id) (·.addUses 1) db.discountCodes ∧
      ∀ c ∈ db.discountCodes, c.id = id → 0 < c.maxUses → c.usedCount < c.maxUses := by
  obtain ⟨hone, rfl⟩ := consumeDiscountCode_spec h
  -- one row was hit, and with unique ids it is the only row with that id
  have hall : ∀ c ∈ db.discountCodes, c.id = id → c.consumable (seconds now) := by
    intro c hc hid
    have hpos : 0 < db.discountCodes.countP fun c => c.id = id ∧ c.consumable (seconds now) := by
      simp only [updateDiscountWhere] at hone
      omega
    rw [List.countP_pos_iff] at hpos
    obtain ⟨c₀, hc₀, hhit⟩ := hpos
    rw [decide_eq_true_eq] at hhit
    obtain rfl := eq_of_key_eq hnodup hc hc₀ (hid.trans hhit.1.symm)
    exact hhit.2
  constructor
  · simp only [updateDiscountWhere, updateWhere]
    apply List.map_congr_left
    intro c hc
    by_cases hid : c.id = id
    · simp [hid, hall c hc hid]
    · simp [hid]
  · intro c hc hid hmax
    have hcons := hall c hc hid
    simp only [DiscountCode.consumable, decide_eq_true_eq] at hcons
    omega

theorem paymentOrders_updatePaymentOrder (f : PaymentOrder → PaymentOrder) :
    (updatePaymentOrder now o f db).paymentOrders
      = updateWhere (fun r => r.outTradeNo = o) (fun r => (f r).stamped now) db.paymentOrders := by
  simp only [updatePaymentOrder, updateOrderWhere, and_true]

theorem discountBooks_closed {order : PaymentOrder} {status : ClosedStatus} {raw : Option String}
    (h : DiscountBooks db) (hnodup : (db.paymentOrders.map PaymentOrder.outTradeNo).Nodup)
    (hrow : getPaymentOrderByOutTradeNo o db = some order) (hpending : order.status = .pending) :
    DiscountBooks (updatePaymentOrder now o (closedRow status raw) (releaseFor order db)) := by
  have hright := h.flags order (byKey_mem hrow)
  have huses : ∀ id, order.uses id = true ↔ truthy order.discountCodeId = some id := by
    intro id
    rw [hright.uses_iff, hpending]
    simp [PaymentOrderStatus.isClosed]
  -- the row no longer counts for any code
  have hcount : ∀ id, discountUses (updatePaymentOrder now o (closedRow status raw)
      (releaseFor order db)) id + (if order.uses id then 1 else 0) = discountUses db id := by
    intro id
    rw [discountUses, paymentOrders_updatePaymentOrder, paymentOrders_releaseFor,
      countP_updateWhere_key hnodup hrow]
    rfl
  have hflags : ∀ r ∈ (updatePaymentOrder now o (closedRow status raw)
      (releaseFor order db)).paymentOrders, r.FlagRight := by
    rw [paymentOrders_updatePaymentOrder, paymentOrders_releaseFor]
    intro r' hr'
    obtain ⟨r, hr, rfl⟩ := mem_updateWhere.mp hr'
    split
    · cases status <;> rfl
    · exact h.flags r hr
  cases hid : truthy order.discountCodeId with
  | none =>
    have hsame : releaseFor order db = db := by rw [releaseFor, hid]
    rw [hsame] at hcount hflags ⊢
    refine ⟨h.codes, ?_, h.bounded, hflags⟩
    intro c hc
    have hnot : ¬ order.uses c.id = true := by simp [huses, hid]
    have hsum := hcount c.id
    rw [if_neg hnot] at hsum
    rw [h.used c hc, ← hsum]
    rfl
  | some id =>
    have hconsumed : order.discountConsumed = true := by
      rw [hright, hpending, hid]
      rfl
    have hsame : releaseFor order db = releaseDiscountCode id db := by
      rw [releaseFor, hid]
      simp [hconsumed]
    rw [hsame] at hcount hflags ⊢
    have hone : order.uses id = true := (huses id).mpr hid
    -- the order itself is one of the uses, so the counter is not 0
    have hpos : ∀ c ∈ db.discountCodes, c.id = id → 0 < c.usedCount := by
      rintro c hc rfl
      rw [h.used c hc]
      exact_mod_cast List.countP_pos_iff.mpr ⟨order, byKey_mem hrow, hone⟩
    refine ⟨?_, ?_, ?_, hflags⟩
    · refine nodup_updateDiscountWhere (fun c => ?_) id h.codes
      rfl
    · intro c' hc'
      obtain ⟨c, hc, rfl⟩ := mem_updateWhere.mp hc'
      have hsum := hcount c.id
      by_cases hcid : c.id = id
      · have hhit := hpos c hc hcid
        rw [hcid, if_pos hone] at hsum
        simp only [hcid, hhit, and_self, decide_true, if_true, DiscountCode.addUses]
        have hused := h.used c hc
        rw [hcid] at hused
        omega
      · have hnot : ¬ order.uses c.id = true := by
          rw [huses, hid, Option.some.injEq]
          exact fun heq => hcid heq.symm
        rw [if_neg hnot] at hsum
        simp only [hcid, false_and, decide_false, Bool.false_eq_true, if_false]
        rw [h.used c hc]
        omega
    · intro c' hc' hmax
      obtain ⟨c, hc, rfl⟩ := mem_updateWhere.mp hc'
      by_cases hhit : c.id = id ∧ 0 < c.usedCount
      · simp only [hhit, and_self, decide_true, if_true, DiscountCode.addUses] at hmax ⊢
        have hle := h.bounded c hc hmax
        omega
      · simp only [decide_eq_true_eq, hhit, if_false] at hmax ⊢
        exact h.bounded c hc hmax

theorem discountBooks_insertOrder {row : PaymentOrder} (h : DiscountBooks db) (hflag : row.FlagRight)
    (hfree : ∀ id, row.uses id = false) : DiscountBooks (insertOrder row db) := by
  refine ⟨h.codes, ?_, h.bounded, ?_⟩
  · intro c hc
    rw [h.used c hc, discountUses, discountUses, insertOrder, List.countP_append]
    simp [hfree]
  · intro r hr
    rw [insertOrder, List.mem_append, List.mem_singleton] at hr
    obtain hr | rfl := hr
    · exact h.flags r hr
    · exact hflag

theorem flagRight_row (req : OrderRequest) : (req.row now).FlagRight := by
  unfold PaymentOrder.FlagRight OrderRequest.row
  simp only [PaymentOrderStatus.isClosed, Bool.not_false, Bool.true_and]
  rw [truthy_truthy]

theorem discountBooks_created {req : OrderRequest} {u : Unit} (h : DiscountBooks db)
    (hcreate : Returns (createOrder now req) db u db') : DiscountBooks db' := by
  have huses : ∀ id, (req.row now).uses id = true ↔ truthy req.discountCodeId = some id := by
    intro id
    rw [(flagRight_row req).uses_iff]
    simp only [OrderRequest.row, PaymentOrderStatus.isClosed, true_and]
    rw [truthy_truthy]
  obtain ⟨-, ⟨hid, rfl⟩ | ⟨id, db₁, hid, hconsume, rfl⟩⟩ := createOrder_spec hcreate
  · apply discountBooks_insertOrder h (flagRight_row req)
    intro id
    rw [Bool.eq_false_iff, Ne, huses, hid]
    simp
  · have horders := paymentOrders_consumeDiscountCode hconsume
    obtain ⟨hcodes, hroom⟩ := consumeDiscountCode_codes h.codes hconsume
    have hcount : ∀ c, discountUses (insertOrder (req.row now) db₁) c
        = discountUses db c + if c = id then 1 else 0 := by
      intro c
      rw [discountUses, insertOrder, List.countP_append, horders, List.countP_singleton]
      congr 1
      simp only [huses, hid, Option.some.injEq, eq_comm]
    refine ⟨?_, ?_, ?_, ?_⟩
    · rw [insertOrder, hcodes, map_updateWhere (f := (·.addUses 1)) DiscountCode.id (fun _ _ => rfl)]
      exact h.codes
    · intro c' hc'
      rw [insertOrder, hcodes] at hc'
      obtain ⟨c, hc, rfl⟩ := mem_updateWhere.mp hc'
      by_cases hcid : c.id = id
      · simp only [hcid, decide_true, if_true, DiscountCode.addUses, hcount]
        have hused := h.used c hc
        rw [hcid] at hused
        push_cast
        omega
      · simp only [decide_eq_true_eq, hcid, if_false, hcount, add_zero]
        exact h.used c hc
    · intro c' hc' hmax
      rw [insertOrder, hcodes] at hc'
      obtain ⟨c, hc, rfl⟩ := mem_updateWhere.mp hc'
      by_cases hcid : c.id = id
      · simp only [hcid, decide_true, if_true, DiscountCode.addUses] at hmax ⊢
        have hlt := hroom c hc hcid hmax
        omega
      · simp only [decide_eq_true_eq, hcid, if_false] at hmax ⊢
        exact h.bounded c hc hmax
    · intro r hr
      rw [insertOrder, horders, List.mem_append, List.mem_singleton] at hr
      obtain hr | rfl := hr
      · exact h.flags r hr
      · exact flagRight_row req

end

/-! ## Runs -/

/-- The books are right, and so is every copy that a finalizer goes by. -/
structure Accounted (w : PaymentPanel) : Prop extends OrdersSound w, DiscountBooks w.db where
  copies : ∀ t ∈ w.tasks, ∀ o order, t.fulfils = some (o, order) →
    (truthy order.discountCodeId).isSome → order.discountConsumed = true

section

variable {now : ℤ} {db db' : Database}

theorem discountBooks_effect (h : DiscountBooks db)
    (hnodup : (db.paymentOrders.map PaymentOrder.outTradeNo).Nodup)
    (heffect : PaymentEffect now db db') : DiscountBooks db' := by
  cases heffect with
  | nothing => exact h
  | claimed o =>
    refine h.update _ _ (fun _ => rfl) (fun _ => rfl) fun r _ _ hr => ?_
    rw [decide_eq_true_eq] at hr
    rw [hr]
    rfl
  | reset o before =>
    refine h.update _ _ (fun _ => rfl) (fun _ => rfl) fun r _ _ hr => ?_
    rw [decide_eq_true_eq] at hr
    rw [hr.1]
    rfl
  | marked o n =>
    refine h.update _ _ (fun _ => rfl) (fun _ => rfl) fun r _ _ hr => ?_
    rw [decide_eq_true_eq] at hr
    rw [hr]
    rfl
  | recorded o f hf =>
    refine h.update _ f (fun r => ?_) (fun r => ?_) fun r _ _ _ => ?_
    all_goals
      obtain ⟨tradeNo, rawNotify, hr⟩ := hf r
      rw [hr]
  | closed o status raw hclose =>
    obtain rfl | ⟨order, hrow, hpending, rfl⟩ := closePaymentOrder_spec hclose
    · exact h
    · exact discountBooks_closed h hnodup hrow hpending
  | created req hcreate => exact discountBooks_created h hcreate

theorem not_closed_of_taken {status : PaymentOrderStatus} (h : status.taken) : status.isClosed = false := by
  cases status <;> first | rfl | cases h

theorem discountBooks_fulfilment {env : Env} {o : String} {order : PaymentOrder} {delivers : Bool}
    (h : DiscountBooks db) (hnodup : (db.paymentOrders.map PaymentOrder.outTradeNo).Nodup)
    (htaken : OrderIs (·.taken) o db)
    (hcopy : (truthy order.discountCodeId).isSome → order.discountConsumed = true)
    (hreturns : Returns (fulfilOrder env now o order) db delivers db') : DiscountBooks db' := by
  obtain ⟨db₁, db₂, sid, hconsumes, hdelivery, rfl⟩ := fulfilOrder_spec hreturns
  obtain rfl : db₁ = db := by
    obtain hsame | ⟨id, db₀, hid, hconsumed, -⟩ := hconsumes
    · exact hsame
    · rw [hcopy (by rw [hid]; rfl)] at hconsumed
      cases hconsumed
  obtain ⟨horders, hcodes⟩ := hdelivery.orders_eq
  have hbooks := discountBooks_congr h horders hcodes
  refine hbooks.update _ _ (fun _ => rfl) (fun _ => rfl) fun r hr hno _ => ?_
  rw [horders] at hr
  obtain ⟨r₀, hr₀, hs⟩ := htaken
  have hread := byKey_of_mem hnodup hr
  rw [hno] at hread
  obtain rfl := Option.some.inj (hr₀.symm.trans hread)
  exact (not_closed_of_taken hs).symm

theorem accounted_step {w : PaymentPanel} (e : PaymentEvent) (h : Accounted w) :
    Accounted (stepPayment w e) := by
  have hsound := ordersSound_step e h.toOrdersSound
  have hstep := panelStep w e h.nodup
  generalize stepPayment w e = w' at hsound hstep
  cases hstep with
  | idle hbooks hdelivered htasks =>
    refine ⟨hsound, discountBooks_congr h.toDiscountBooks hbooks.paymentOrders hbooks.discountCodes, ?_⟩
    intro t' ht' o order hfulfils
    obtain ht' | hnone := htasks t' ht'
    · exact h.copies t' ht' o order hfulfils
    · have hclaims := claims_of_fulfils hfulfils
      rw [hnone o] at hclaims
      cases hclaims
  | effect t hmem ht heffect hdelivered htasks =>
    refine ⟨hsound, discountBooks_effect h.toDiscountBooks h.nodup heffect, ?_⟩
    intro t' ht' o order hfulfils hcode
    obtain ht' | ht' := htasks t' ht'
    · exact h.copies t' ht' o order hfulfils hcode
    · obtain ⟨again, caller, rfl, rfl, -⟩ | ⟨again, caller, order', rfl, rfl, hrow, -⟩ :=
        comesByClaim_step ht' (claims_of_fulfils hfulfils)
      · cases hfulfils
      · -- the copy is the row of a claimed order, so it is open and flagged
        simp only [Task.fulfils, Option.some.injEq, Prod.mk.injEq, true_and] at hfulfils
        subst hfulfils
        obtain ⟨r, hr, hs⟩ := h.taken _ hmem o (by simp [Task.claims])
        obtain rfl := Option.some.inj (hrow.symm.trans hr)
        rw [h.flags order' (byKey_mem hrow), not_closed_of_taken hs, hcode]
        rfl
  | fulfilment t o order delivers hi ht hreturns hdelivered htasks =>
    have hmem := List.mem_of_getElem? hi
    refine ⟨hsound, ?_, ?_⟩
    · exact discountBooks_fulfilment h.toDiscountBooks h.nodup
        (h.taken t hmem o (claims_of_fulfils ht)) (h.copies t hmem o order ht) hreturns
    · intro t' ht' o' order' hfulfils
      obtain ht' | ht' := htasks t' ht'
      · exact h.copies t' ht' o' order' hfulfils
      · have hclaims := claims_of_fulfils hfulfils
        rw [not_claims_fulfilled h.nodup ht ht'] at hclaims
        cases hclaims

theorem countP_number_le_one (hnodup : (db.paymentOrders.map PaymentOrder.outTradeNo).Nodup)
    (o : String) (p : PaymentOrder → Bool) :
    (db.paymentOrders.countP fun r => r.outTradeNo = o ∧ p r) ≤ 1 := by
  have hcount := List.nodup_iff_count_le_one.mp hnodup o
  rw [List.count_eq_countP, List.countP_map] at hcount
  refine le_trans (List.countP_mono_left fun r _ hr => ?_) hcount
  simp only [decide_eq_true_eq] at hr
  simp [hr.1]

end

/-- **Discount codes are accounted for.** In every run of the payment calls from a
state whose books are right, the counter of every code is the number of orders
that hold a use of it, no order holds two, and a limit is never exceeded. -/
theorem discounts_accounted {w : PaymentPanel} (hstart : StartsUp w) (hbooks : DiscountBooks w.db)
    (es : List PaymentEvent) :
    ∀ c ∈ (run stepPayment w es).db.discountCodes,
      c.usedCount = discountUses (run stepPayment w es).db c.id ∧
      (∀ o, ((run stepPayment w es).db.paymentOrders.countP
        fun r => r.outTradeNo = o ∧ r.uses c.id) ≤ 1) ∧
      (0 < c.maxUses → c.usedCount ≤ c.maxUses) := by
  have hinit : Accounted w := ⟨hstart.sound, hbooks, by simp [hstart.idle]⟩
  have hrun := run_invariant (fun _ e hw => accounted_step e hw) es w hinit
  intro c hc
  exact ⟨hrun.used c hc, fun o => countP_number_le_one hrun.nodup o _, hrun.bounded c hc⟩

def oneUseCode : PaymentPanel where
  now := 1000000000
  db :=
    { users := [{ id := 1 }]
      discountCodes := [{ id := 7, maxUses := 1 }]
      subscriptionPlans := [{ id := 1, hostIds := [1] }] }

/-- An order with the code that the provider does not take, and another one. -/
def failsAndRetries : List PaymentEvent :=
  let order (outTradeNo : String) (hne : outTradeNo ≠ "") : OrderRequest :=
    { outTradeNo, outTradeNo_ne := hne, userId := 1, provider := "stripe", amountCents := 100,
      currency := "CNY", orderType := .plan, planId := some 1, discountCodeId := some 7,
      expiresAt := 2000000000 }
  let goesOn : PaymentEvent := .step 0 quietEnv fun _ => none
  [.call (.createOrder (order "A" (by decide)) none), goesOn, goesOn, goesOn,
    .call (.createOrder (order "B" (by decide)) (some "T")), goesOn, goesOn]

theorem discounts_accounted_after_retry :
    (∀ c ∈ (run stepPayment oneUseCode failsAndRetries).db.discountCodes,
      c.usedCount = discountUses (run stepPayment oneUseCode failsAndRetries).db c.id ∧
      (∀ o, ((run stepPayment oneUseCode failsAndRetries).db.paymentOrders.countP
        fun r => r.outTradeNo = o ∧ r.uses c.id) ≤ 1) ∧
      (0 < c.maxUses → c.usedCount ≤ c.maxUses)) ∧
    (run stepPayment oneUseCode failsAndRetries).db.discountCodes.map DiscountCode.usedCount = [1] := by
  refine ⟨discounts_accounted ⟨by decide, by decide, rfl, rfl⟩ ?_ _, by decide +kernel⟩
  refine ⟨by decide, by decide, by decide, ?_⟩
  simp [oneUseCode]

end ForwardX.Panel
