/-
An order is delivered at most once.

A callback, the maintenance call and a second instance may all find an order paid. Claiming it is
one statement, so at most one of them gets it; the proofs follow a claim through the steps of its
task, and the log of deliveries with it.
-/
import ForwardX.Panel.PaymentRows

namespace ForwardX.Panel

open Run Table Tx Call List

/-! ## Closed orders -/

variable {w : PaymentPanel} {o : String}

theorem closed_step (e : PaymentEvent) (h : OrdersSound w)
    (ho : OrderIs (·.isClosed) o w.db) : OrderIs (·.isClosed) o (stepPayment w e).db := by
  have hstep := panelStep w e h.nodup
  generalize stepPayment w e = w' at hstep
  cases hstep with
  | idle hbooks hdelivered htasks =>
    obtain ⟨r, hr, hs⟩ := ho
    exact ⟨r, by rw [row_congr hbooks.paymentOrders, hr], hs⟩
  | effect t hmem ht heffect hdelivered htasks =>
    exact heffect.orderIs (fun s s' hmove => hmove.closed_of_closed) ho
  | fulfilment t o' order delivers hi ht hreturns hdelivered htasks =>
    obtain ⟨r, hr, hs⟩ := ho
    have hne : o ≠ o' := by
      rintro rfl
      -- a claimed order is paid, so it is not closed
      obtain ⟨r', hr', htaken⟩ := h.taken t (mem_of_getElem? hi) o (claims_of_fulfils ht)
      obtain rfl := Option.some.inj (hr.symm.trans hr')
      cases hstatus : r.status <;> simp_all [PaymentOrderStatus.taken, PaymentOrderStatus.isClosed]
    exact ⟨r, by rw [row_fulfilOrder_other hreturns hne, hr], hs⟩

theorem ordersSound_run (h : OrdersSound w) (es : List PaymentEvent) :
    OrdersSound (run stepPayment w es) :=
  run_invariant (fun _ e hs => ordersSound_step e hs) es w h

theorem closed_never_delivered (h : OrdersSound w) (es fs : List PaymentEvent)
    (ho : OrderIs (·.isClosed) o (run stepPayment w es).db) :
    o ∉ (run stepPayment w (es ++ fs)).delivered := by
  have hclosed : OrdersSound (run stepPayment w (es ++ fs)) ∧
      OrderIs (·.isClosed) o (run stepPayment w (es ++ fs)).db := by
    rw [run_append]
    refine run_invariant (I := fun v => OrdersSound v ∧ OrderIs (·.isClosed) o v.db) ?_ fs _
      ⟨ordersSound_run h es, ho⟩
    rintro v e ⟨hsound, hclosed⟩
    exact ⟨ordersSound_step e hsound, closed_step e hsound hclosed⟩
  obtain ⟨hsound, r, hr, hs⟩ := hclosed
  intro hdelivered
  obtain ⟨r', hr', hcompleted⟩ := hsound.completed o hdelivered
  obtain rfl := Option.some.inj (hr.symm.trans hr')
  rw [hcompleted] at hs
  cases hs

/-! ## The life of an order -/

/-- What is paid stays paid, and what is completed or closed does not move. -/
def PaymentOrderStatus.mayBecome : PaymentOrderStatus → PaymentOrderStatus → Bool
  | .pending, _ => true
  | .paid, s | .processing, s => s.taken
  | s, s' => s = s'

theorem PaymentOrderStatus.mayBecome_trans {s s' s'' : PaymentOrderStatus}
    (h : s.mayBecome s') (h' : s'.mayBecome s'') : s.mayBecome s'' := by
  cases s <;> cases s' <;> first | exact h' | cases s'' <;> simp_all [mayBecome, taken]

theorem StatusMove.mayBecome {s s' : PaymentOrderStatus} (h : StatusMove s s') : s.mayBecome s' := by
  cases h with
  | same => cases s <;> rfl
  | marked | claimed | reset | closed => rfl

def Lives (o : String) (r : PaymentOrder) (db : Database) : Prop :=
  ∃ r', getPaymentOrderByOutTradeNo o db = some r' ∧ r.status.mayBecome r'.status ∧
    r'.planId = r.planId

theorem lives_step (e : PaymentEvent) (h : OrdersSound w)
    {r : PaymentOrder} (ho : Lives o r w.db) : Lives o r (stepPayment w e).db := by
  obtain ⟨r₁, hr₁, hbecame, hplan⟩ := ho
  have hstep := panelStep w e h.nodup
  generalize stepPayment w e = w' at hstep
  cases hstep with
  | idle hbooks hdelivered htasks =>
    exact ⟨r₁, by rw [row_congr hbooks.paymentOrders, hr₁], hbecame, hplan⟩
  | effect t hmem ht heffect hdelivered htasks =>
    have hrow := heffect.rowStep o
    rw [hr₁] at hrow
    unfold Lives
    generalize getPaymentOrderByOutTradeNo o w'.db = row at hrow ⊢
    cases hrow with
    | moved hmove =>
      exact ⟨_, rfl, PaymentOrderStatus.mayBecome_trans hbecame hmove.status.mayBecome,
        hmove.planId.trans hplan⟩
  | fulfilment t o' order delivers hi ht hreturns hdelivered htasks =>
    by_cases hne : o = o'
    · subst hne
      -- the row of a claimed order is taken, and this completes it
      obtain ⟨r₂, hr₂, htaken⟩ := h.taken t (mem_of_getElem? hi) o (claims_of_fulfils ht)
      obtain rfl := Option.some.inj (hr₁.symm.trans hr₂)
      obtain ⟨r', hr', hcompleted, hplan'⟩ := row_fulfilOrder hreturns hr₁
      refine ⟨r', hr', PaymentOrderStatus.mayBecome_trans hbecame ?_, hplan'.trans hplan⟩
      rw [hcompleted]
      cases hs : r₁.status <;> simp_all [PaymentOrderStatus.taken, PaymentOrderStatus.mayBecome]
    · exact ⟨r₁, by rw [row_fulfilOrder_other hreturns hne, hr₁], hbecame, hplan⟩

/-- **Orders move one way.** No run takes a row away, changes its plan, or leads back from a payment, a
completion or a closing. -/
theorem orders_move_one_way (hstart : StartsUp w) (es fs : List PaymentEvent)
    {r : PaymentOrder}
    (hr : getPaymentOrderByOutTradeNo o (run stepPayment w es).db = some r) :
    ∃ r', getPaymentOrderByOutTradeNo o (run stepPayment w (es ++ fs)).db = some r' ∧
      r.status.mayBecome r'.status ∧ r'.planId = r.planId := by
  rw [run_append]
  refine (run_invariant (I := fun v => OrdersSound v ∧ Lives o r v.db) ?_ fs _
    ⟨ordersSound_run hstart.sound es, r, hr, (StatusMove.same _).mayBecome, rfl⟩).2
  rintro v e ⟨hsound, hlives⟩
  exact ⟨ordersSound_step e hsound, lives_step e hsound hlives⟩

/-! ## Records -/

/-- The fulfilment of an order for `planId` finds what it left last time. -/
def Recorded (planId : Option ℤ) (o : String) (db : Database) : Prop :=
  if (truthy planId).isSome then ∃ s ∈ db.userSubscriptions, s.paymentOrderNo = some o
  else ∃ t ∈ db.balanceTransactions, t.paymentOrderNo = some o

section

variable {now : ℤ} {db db' : Database} {o o' : String} {order : PaymentOrder} {planId : Option ℤ}

theorem recorded_congr (hsubs : db'.userSubscriptions = db.userSubscriptions)
    (hledger : db'.balanceTransactions = db.balanceTransactions) :
    Recorded planId o db' ↔ Recorded planId o db := by
  rw [Recorded, hsubs, hledger, Recorded]

theorem recorded_besidesOrders (h : db'.besidesOrders = db.besidesOrders) :
    Recorded planId o db' ↔ Recorded planId o db := by
  have hsubs := congrArg Database.userSubscriptions h
  have hledger := congrArg Database.balanceTransactions h
  exact recorded_congr hsubs hledger

theorem Recorded.mono (h : Recorded planId o db)
    (hsubs : ∀ s ∈ db.userSubscriptions, s.paymentOrderNo = some o → s ∈ db'.userSubscriptions)
    (hledger : ∀ t ∈ db.balanceTransactions, t.paymentOrderNo = some o →
      t ∈ db'.balanceTransactions) : Recorded planId o db' := by
  unfold Recorded at h ⊢
  by_cases hplan : (truthy planId).isSome
  · rw [if_pos hplan] at h ⊢
    obtain ⟨s, hs, hno⟩ := h
    exact ⟨s, hsubs s hs hno, hno⟩
  · rw [if_neg hplan] at h ⊢
    obtain ⟨t, ht, hno⟩ := h
    exact ⟨t, hledger t ht hno, hno⟩

theorem OrderDelivery.not_recorded (h : OrderDelivery now o order db true db') :
    ¬ Recorded order.planId o db := by
  cases h with
  | granted req hplan hreq hnew hrows hout =>
    rw [Recorded, if_pos hplan]
    rintro ⟨s, hs, hno⟩
    exact find?_eq_none.mp hnew s hs (by simpa using hno)
  | renewed req sub hplan hreq htarget hsub hnew hrows hout =>
    rw [Recorded, if_pos hplan]
    rintro ⟨s, hs, hno⟩
    exact find?_eq_none.mp hnew s hs (by simpa using hno)
  | credited row hplan hrow hnew hsubs hout =>
    rw [Recorded, if_neg (by simp [hplan])]
    rintro ⟨t, ht, hno⟩
    exact find?_eq_none.mp hnew t ht (by simpa using hno)

theorem OrderDelivery.recorded (h : OrderDelivery now o order db true db') (ho : o ≠ "") :
    Recorded order.planId o db' := by
  cases h with
  | granted req hplan hreq hnew hrows hout =>
    rw [Recorded, if_pos hplan]
    obtain ⟨plan, start, e, n, ports, -, hrows⟩ := hrows
    rw [hrows]
    exact ⟨_, mem_append_right _ (mem_singleton_self _), hreq⟩
  | renewed req sub hplan hreq htarget hsub hnew hrows hout =>
    rw [Recorded, if_pos hplan]
    obtain ⟨plan, e, n, ports, -, hrows⟩ := hrows
    rw [hrows]
    refine ⟨renewedRow req plan e n ports sub, ?_, ?_⟩
    · rw [updateWhere, mem_map]
      exact ⟨sub, byKey_mem hsub, by simp⟩
    · simp [renewedRow, hreq, ho]
  | credited row hplan hrow hnew hsubs hout =>
    rw [Recorded, if_neg (by simp [hplan])]
    have hledger := congrArg Database.balanceTransactions hout
    simp only [Database.outside, balanceTransactions_post] at hledger
    rw [hledger]
    exact ⟨row, mem_append_right _ (mem_singleton_self _), hrow⟩

theorem OrderDelivery.recorded_other {delivers : Bool}
    (h : OrderDelivery now o order db delivers db') (hrec : Recorded planId o' db) :
    Recorded planId o' db' ∨ ∃ s ∈ db.userSubscriptions,
      truthy order.subscriptionId = some s.id ∧ s.paymentOrderNo = some o' := by
  cases h with
  | nothing => exact .inl hrec
  | granted req hplan hreq hnew hrows hout =>
    have hledger := congrArg Database.balanceTransactions hout
    simp only [Database.outside] at hledger
    obtain ⟨plan, start, e, n, ports, -, hrows⟩ := hrows
    refine .inl (hrec.mono (fun s hs _ => ?_) fun t ht _ => ?_)
    · rw [hrows]
      exact mem_append_left _ hs
    · rw [hledger]
      exact ht
  | renewed req sub hplan hreq htarget hsub hnew hrows hout =>
    have hledger := congrArg Database.balanceTransactions hout
    simp only [Database.outside] at hledger
    obtain ⟨plan, e, n, ports, -, hrows⟩ := hrows
    by_cases hlost : ∃ s ∈ db.userSubscriptions, s.id = sub.id ∧ s.paymentOrderNo = some o'
    · obtain ⟨s, hs, hid, hno⟩ := hlost
      exact .inr ⟨s, hs, by rw [htarget, hid], hno⟩
    · refine .inl (hrec.mono (fun s hs hno => ?_) fun t ht _ => ?_)
      · have hid : s.id ≠ sub.id := fun hid => hlost ⟨s, hs, hid, hno⟩
        rw [hrows, updateWhere, mem_map]
        exact ⟨s, hs, by simp [hid]⟩
      · rw [hledger]
        exact ht
  | credited row hplan hrow hnew hsubs hout =>
    have hledger := congrArg Database.balanceTransactions hout
    simp only [Database.outside, balanceTransactions_post] at hledger
    refine .inl (hrec.mono (fun s hs _ => ?_) fun t ht _ => ?_)
    · rw [hsubs]
      exact hs
    · rw [hledger]
      exact mem_append_left _ ht

end

/-! ## Deliveries -/

/-- A fulfilment does not overwrite the number of an order that another call still
has under way. -/
def KeepsClaims (w : PaymentPanel) : PaymentEvent → Prop
  | .step i _ _ =>
    ∀ c ∈ (w.tasks[i]?).bind Task.fulfils,
      ∀ s ∈ w.db.userSubscriptions, truthy c.2.subscriptionId = some s.id →
        ∀ o ∈ s.paymentOrderNo, o ≠ c.1 → ∀ t ∈ w.tasks, t.claims o = false
  | _ => True

instance (w : PaymentPanel) : ∀ e, Decidable (KeepsClaims w e)
  | .step i _ _ => inferInstanceAs (Decidable (∀ c ∈ (w.tasks[i]?).bind Task.fulfils,
      ∀ s ∈ w.db.userSubscriptions, truthy c.2.subscriptionId = some s.id →
        ∀ o ∈ s.paymentOrderNo, o ≠ c.1 → ∀ t ∈ w.tasks, t.claims o = false))
  | .tick _ => .isTrue trivial
  | .call _ => .isTrue trivial
  | .crash _ => .isTrue trivial
  | .other _ => .isTrue trivial

/-- The invariant of the runs that keep their claims. -/
structure DeliveredOnce (w : PaymentPanel) : Prop extends OrdersSound w where
  copies : ∀ t ∈ w.tasks, ∀ o order, t.fulfils = some (o, order) →
    ∀ r, getPaymentOrderByOutTradeNo o w.db = some r → r.planId = order.planId
  recorded : ∀ o ∈ w.delivered, ∀ r, getPaymentOrderByOutTradeNo o w.db = some r →
    Recorded r.planId o w.db ∨ ∀ t ∈ w.tasks, t.claims o = false
  once : w.delivered.Nodup

section

variable {w w' : PaymentPanel}

theorem deliveredOnce_idle (h : DeliveredOnce w) (hsound : OrdersSound w')
    (hbooks : SameOrderBooks w.db w'.db) (hdelivered : w'.delivered = w.delivered)
    (htasks : ∀ t' ∈ w'.tasks, t' ∈ w.tasks ∨ ∀ o, t'.claims o = false) : DeliveredOnce w' := by
  refine ⟨hsound, ?_, ?_, hdelivered ▸ h.once⟩
  · intro t' ht' o order hfulfils r hr
    rw [row_congr hbooks.paymentOrders] at hr
    obtain ht' | hnone := htasks t' ht'
    · exact h.copies t' ht' o order hfulfils r hr
    · have hclaims := claims_of_fulfils hfulfils
      rw [hnone o] at hclaims
      cases hclaims
  · intro o ho r hr
    rw [hdelivered] at ho
    rw [row_congr hbooks.paymentOrders] at hr
    rw [recorded_congr hbooks.userSubscriptions hbooks.balanceTransactions]
    refine (h.recorded o ho r hr).imp_right fun hfree t' ht' => ?_
    exact (htasks t' ht').elim (hfree t') fun hnone => hnone o

theorem deliveredOnce_effect {env : Env} {fault : ℕ → Option String} {t : Task}
    (h : DeliveredOnce w) (hsound : OrdersSound w') (hmem : t ∈ w.tasks)
    (heffect : PaymentEffect w.now w.db w'.db) (hdelivered : w'.delivered = w.delivered)
    (htasks : ∀ t' ∈ w'.tasks, t' ∈ w.tasks ∨ t' ∈ (t.step env w.now fault w.db).task) :
    DeliveredOnce w' := by
  -- an order that is there keeps its plan
  have hplan : ∀ o r r', getPaymentOrderByOutTradeNo o w.db = some r →
      getPaymentOrderByOutTradeNo o w'.db = some r' → r'.planId = r.planId := by
    intro o r r' hr hr'
    have hstep := heffect.rowStep o
    rw [hr, hr'] at hstep
    cases hstep with
    | moved hmove => exact hmove.planId
  refine ⟨hsound, ?_, ?_, hdelivered ▸ h.once⟩
  · intro t' ht' o order hfulfils r' hr'
    obtain ht' | ht' := htasks t' ht'
    · obtain ⟨r, hr, -⟩ := h.taken t' ht' o (claims_of_fulfils hfulfils)
      rw [hplan o r r' hr hr']
      exact h.copies t' ht' o order hfulfils r hr
    · obtain ⟨again, caller, rfl, rfl, -⟩ | ⟨again, caller, order', rfl, rfl, hrow, hsame⟩ :=
        comesByClaim_step ht' (claims_of_fulfils hfulfils)
      · cases hfulfils
      · -- the copy has just been read
        simp only [Task.fulfils, Option.some.injEq, Prod.mk.injEq, true_and] at hfulfils
        subst hfulfils
        exact hplan o order' r' hrow hr'
  · intro o ho r' hr'
    rw [hdelivered] at ho
    obtain ⟨r, hr, hcompleted⟩ := h.completed o ho
    rw [hplan o r r' hr hr', recorded_besidesOrders heffect.besidesOrders_eq]
    refine (h.recorded o ho r hr).imp_right fun hfree t' ht' => ?_
    obtain ht' | ht' := htasks t' ht'
    · exact hfree t' ht'
    · by_contra hclaims
      rw [Bool.not_eq_false] at hclaims
      obtain ⟨-, hheld | ⟨r₂, hr₂, hpaid⟩⟩ := claims_before h.nodup ht' hclaims
      · rw [hfree t hmem] at hheld
        cases hheld
      · -- a completed order cannot be claimed
        obtain rfl := Option.some.inj (hr.symm.trans hr₂)
        rw [hcompleted] at hpaid
        cases hpaid

theorem deliveredOnce_fulfilment {env : Env} {t : Task} {o : String} {order : PaymentOrder}
    {delivers : Bool} (h : DeliveredOnce w) (hsound : OrdersSound w') (hmem : t ∈ w.tasks)
    (ht : t.fulfils = some (o, order))
    (hkeeps : ∀ s ∈ w.db.userSubscriptions, truthy order.subscriptionId = some s.id →
      ∀ o' ∈ s.paymentOrderNo, o' ≠ o → ∀ t ∈ w.tasks, t.claims o' = false)
    (hreturns : Returns (fulfilOrder env w.now o order) w.db delivers w'.db)
    (hdelivered : w'.delivered = w.delivered ++ (if delivers then [o] else []))
    (htasks : ∀ t' ∈ w'.tasks, t' ∈ w.tasks ∨ ∀ o', t'.claims o' = false) : DeliveredOnce w' := by
  obtain ⟨db₁, db₂, sid, hconsumes, hdelivery, hdone⟩ := fulfilOrder_spec hreturns
  have hclaims := claims_of_fulfils ht
  obtain ⟨r, hr, -⟩ := h.taken t hmem o hclaims
  have hplan := h.copies t hmem o order ht r hr
  -- the tables that hold records change in the delivery only
  have hbefore : ∀ p x, Recorded p x db₁ ↔ Recorded p x w.db := fun p x =>
    recorded_besidesOrders hconsumes.besidesOrders_eq
  have hafter : ∀ p x, Recorded p x w'.db ↔ Recorded p x db₂ := by
    intro p x
    rw [hdone]
    exact recorded_congr rfl rfl
  have hfresh : delivers = true → o ∉ w.delivered := by
    rintro rfl ho
    obtain hrec | hfree := h.recorded o ho r hr
    · rw [hplan, ← hbefore] at hrec
      exact hdelivery.not_recorded hrec
    · rw [hfree t hmem] at hclaims
      cases hclaims
  have hrows : ∀ x r₁ r', getPaymentOrderByOutTradeNo x w.db = some r₁ →
      getPaymentOrderByOutTradeNo x w'.db = some r' → r'.planId = r₁.planId := by
    intro x r₁ r' hr₁ hr'
    by_cases hx : x = o
    · subst hx
      obtain ⟨r'', hr'', -, hplan''⟩ := row_fulfilOrder hreturns hr₁
      obtain rfl := Option.some.inj (hr'.symm.trans hr'')
      exact hplan''
    · rw [row_fulfilOrder_other hreturns hx, hr₁] at hr'
      obtain rfl := Option.some.inj hr'
      rfl
  refine ⟨hsound, ?_, ?_, ?_⟩
  · intro t' ht' x order' hfulfils r' hr'
    have hx := claims_of_fulfils hfulfils
    obtain ht' | hnone := htasks t' ht'
    · obtain ⟨r₁, hr₁, -⟩ := h.taken t' ht' x hx
      rw [hrows x r₁ r' hr₁ hr']
      exact h.copies t' ht' x order' hfulfils r₁ hr₁
    · rw [hnone x] at hx
      cases hx
  · intro x hx r' hr'
    rw [hafter]
    rw [hdelivered, mem_append] at hx
    obtain hx | hx := hx
    · obtain ⟨r₁, hr₁, -⟩ := h.completed x hx
      rw [hrows x r₁ r' hr₁ hr']
      have hlive : (∀ t' ∈ w.tasks, t'.claims x = false) → ∀ t' ∈ w'.tasks, t'.claims x = false :=
        fun hfree t' ht' => (htasks t' ht').elim (hfree t') fun hnone => hnone x
      obtain hrec | hfree := h.recorded x hx r₁ hr₁
      · rw [← hbefore] at hrec
        cases delivers with
        | false =>
          cases hdelivery
          exact .inl hrec
        | true =>
          -- the order delivered now is a new one, so the record lost belongs to another
          refine (hdelivery.recorded_other hrec).imp_right ?_
          rintro ⟨s, hs, htarget, hno⟩
          rw [hconsumes.userSubscriptions] at hs
          have hne : x ≠ o := fun heq => hfresh rfl (heq ▸ hx)
          exact hlive (hkeeps s hs htarget x hno hne)
      · exact .inr (hlive hfree)
    · cases delivers with
      | false => cases hx
      | true =>
        obtain rfl : x = o := by simpa using hx
        have hne : x ≠ "" := by
          rintro rfl
          rw [h.named] at hr
          cases hr
        rw [hrows x r r' hr hr', hplan]
        exact .inl (hdelivery.recorded hne)
  · rw [hdelivered]
    cases delivers with
    | false => simpa using h.once
    | true =>
      rw [if_pos rfl, nodup_append]
      refine ⟨h.once, nodup_singleton o, ?_⟩
      rintro x hx y hy rfl
      exact hfresh rfl (mem_singleton.mp hy ▸ hx)

theorem deliveredOnce_step (e : PaymentEvent) (hkeeps : KeepsClaims w e) (h : DeliveredOnce w) :
    DeliveredOnce (stepPayment w e) := by
  have hsound := ordersSound_step e h.toOrdersSound
  have hstep := panelStep w e h.nodup
  generalize stepPayment w e = w' at hsound hstep
  cases hstep with
  | idle hbooks hdelivered htasks => exact deliveredOnce_idle h hsound hbooks hdelivered htasks
  | effect t hmem ht heffect hdelivered htasks =>
    exact deliveredOnce_effect h hsound hmem heffect hdelivered htasks
  | fulfilment t o order delivers hi ht hreturns hdelivered htasks =>
    simp only [KeepsClaims, hi, Option.bind_some, ht] at hkeeps
    refine deliveredOnce_fulfilment h hsound (mem_of_getElem? hi) ht (hkeeps _ rfl) hreturns
      hdelivered ?_
    exact fun t' ht' => (htasks t' ht').imp_right fun hnew o' => not_claims_fulfilled h.nodup ht hnew

end

/-- **Every order is delivered at most once**, in every run in which no fulfilment
overwrites the number of an order that is still under way, and an order that was
closed at any moment is not delivered at all. -/
theorem delivered_at_most_once {w : PaymentPanel} (hstart : StartsUp w) (es : List PaymentEvent)
    (hkeeps : Admissible KeepsClaims stepPayment w es) :
    (∀ o, (run stepPayment w es).delivered.count o ≤ 1) ∧
      ∀ es₁ es₂ o, es = es₁ ++ es₂ → OrderIs (·.isClosed) o (run stepPayment w es₁).db →
        o ∉ (run stepPayment w es).delivered := by
  have hinit : DeliveredOnce w := by
    refine ⟨hstart.sound, ?_, ?_, ?_⟩
    · simp [hstart.idle]
    · simp [hstart.undelivered]
    · simp [hstart.undelivered]
  have hrun := run_invariant_of_admissible (fun _ e hok hw => deliveredOnce_step e hok hw) es w
    hkeeps hinit
  refine ⟨fun o => List.nodup_iff_count_le_one.mp hrun.once o, ?_⟩
  rintro es₁ es₂ o rfl hclosed
  exact closed_never_delivered hstart.sound es₁ es₂ hclosed

def twoRenewals : PaymentPanel where
  now := 1000000000
  db :=
    { users := [{ id := 1 }]
      subscriptionPlans := [{ id := 1, hostIds := [1] }]
      userSubscriptions :=
        [{ id := 1, userId := 1, planId := 1, source := .payment, portRangeStart := some 20000
           portRangeEnd := some 20019, expiresAt := some 2000000 }]
      paymentOrders :=
        [{ outTradeNo := "A", userId := 1, status := .paid, planId := some 1, subscriptionId := some 1
           orderType := .plan },
         { outTradeNo := "B", userId := 1, status := .paid, planId := some 1, subscriptionId := some 1
           orderType := .plan }] }

/-- One step of the `i`-th call, with nothing going wrong. -/
def goesOn (i : ℕ) : PaymentEvent := .step i quietEnv fun _ => none

/-- A finalizer claims order `A`, reads it and hangs; after ten minutes another one
resets the claim, claims the order again and delivers it. -/
def resetAndDelivered : List PaymentEvent :=
  [.call (.finalizePaidOrder "A"), goesOn 0, goesOn 0, .tick 700000,
    .call (.finalizePaidOrder "A"), goesOn 1, goesOn 1, goesOn 1, goesOn 1, goesOn 1, goesOn 1]

theorem startsUp_twoRenewals : StartsUp twoRenewals := by
  refine ⟨by decide +kernel, by decide +kernel, rfl, rfl⟩

/-- The one that hung comes back and finds the record. -/
theorem delivered_at_most_once_after_reset :
    (∀ o, (run stepPayment twoRenewals (resetAndDelivered ++ [goesOn 0])).delivered.count o ≤ 1) ∧
      ∀ es₁ es₂ o, resetAndDelivered ++ [goesOn 0] = es₁ ++ es₂ →
        OrderIs (·.isClosed) o (run stepPayment twoRenewals es₁).db →
        o ∉ (run stepPayment twoRenewals (resetAndDelivered ++ [goesOn 0])).delivered :=
  delivered_at_most_once startsUp_twoRenewals _ (by decide +kernel)

theorem orders_move_one_way_after_reset :
    ∃ r', getPaymentOrderByOutTradeNo "A" (run stepPayment twoRenewals resetAndDelivered).db = some r' ∧
      PaymentOrderStatus.mayBecome .paid r'.status ∧ r'.planId = some 1 :=
  orders_move_one_way (r :=
    { outTradeNo := "A", userId := 1, status := .paid, planId := some 1, subscriptionId := some 1
      orderType := .plan }) startsUp_twoRenewals [] resetAndDelivered rfl

/-- **Before the one that hung comes back, order `B` is delivered**: its number
replaces that of `A` on the subscription, and `A` is delivered again. -/
theorem delivered_twice_after_renewal :
    StartsUp twoRenewals ∧
      (run stepPayment twoRenewals (resetAndDelivered ++
        [.call (.finalizePaidOrder "B"), goesOn 1, goesOn 1, goesOn 1, goesOn 0])).delivered
        = ["A", "B", "A"] :=
  ⟨startsUp_twoRenewals, by decide +kernel⟩

end ForwardX.Panel
