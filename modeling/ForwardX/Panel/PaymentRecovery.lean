/-
What `recoverStaleProcessingPaymentOrders` makes up for after a crash.

A crash leaves an order claimed and not delivered, or delivered and not marked. The recovery looks
at the row alone, and the theorem says in which states the row says enough.
-/
import ForwardX.Panel.PaymentRows

namespace ForwardX.Panel

open Run Table Tx Call List

/-! ## The recovery on its own -/

/-- The money is there and nothing has been delivered for it yet. -/
def PaymentOrderStatus.owing : PaymentOrderStatus → Bool
  | .paid | .processing => true
  | .pending | .completed | .failed | .expired | .cancelled => false

/-- The state that the maintenance call covers, when it asks at `now`. -/
structure Recoverable (now : ℤ) (db : Database) : Prop where
  claimed : ∀ r ∈ db.paymentOrders, r.status ≠ .paid
  few : db.paymentOrders.countP (fun r => r.status = .processing) ≤ 1000
  stale : ∀ r ∈ db.paymentOrders, r.status = .processing →
    r.updatedAt < seconds (now - processingStaleMs)

/-- After a crash of everything, `ms` later: the maintenance call alone. -/
def recovery (w : PaymentPanel) (ms : ℕ) : PaymentPanel :=
  { w with now := w.now + ms, tasks := [PaymentCall.recoverStaleProcessingPaymentOrders.start] }

/-- Time goes by, or a call in flight takes a step whose operation succeeds. -/
def Succeeds (w : PaymentPanel) : PaymentEvent → Prop
  | .tick _ => True
  | .step i env fault => ∀ t ∈ w.tasks[i]?, (t.step env w.now fault w.db).failed = false
  | .call _ => False
  | .crash _ => False
  | .other _ => False

/-- What is still owed, the order `o` apart, is in the rest of the list as it was
read, and stale. -/
def LeftIn (staleBefore : ℤ) (rest : List PaymentOrder) (o : Option String) (db : Database) : Prop :=
  ∀ x r, getPaymentOrderByOutTradeNo x db = some r → r.status.owing → some x ≠ o →
    r ∈ rest ∧ r.status = .processing ∧ r.updatedAt < seconds staleBefore

/-- The states of a maintenance call that has had no failure. -/
inductive Recovering (now : ℤ) (db : Database) : List Task → Prop where
  | listing (h : Recoverable now db) : Recovering now db [.list]
  | walking {staleBefore : ℤ} {rest : List PaymentOrder} (h : LeftIn staleBefore rest none db) :
    Recovering now db [.recover staleBefore rest]
  | claiming {staleBefore : ℤ} {rest : List PaymentOrder} {o : String}
    (hrow : OrderIs (· = .paid) o db) (h : LeftIn staleBefore rest (some o) db) :
    Recovering now db [.finalize o (.claim false) (.recovery staleBefore rest)]
  | reading {staleBefore : ℤ} {rest : List PaymentOrder} {o : String}
    (hrow : OrderIs (· = .processing) o db) (h : LeftIn staleBefore rest (some o) db) :
    Recovering now db [.finalize o (.readClaimed false) (.recovery staleBefore rest)]
  | fulfilling {staleBefore : ℤ} {rest : List PaymentOrder} {o : String} {order : PaymentOrder}
    (hrow : OrderIs (fun _ => True) o db) (h : LeftIn staleBefore rest (some o) db) :
    Recovering now db [.finalize o (.fulfil order) (.recovery staleBefore rest)]
  | finished (h : ∀ x r, getPaymentOrderByOutTradeNo x db = some r → r.status.owing = false) :
    Recovering now db []

section

variable {env : Env} {now : ℤ} {fault : ℕ → Option String} {db db' : Database}
  {staleBefore : ℤ} {rest : List PaymentOrder} {o : String}

theorem attempt_ok {α : Type} {m : Db α} {caught : Option Task} {next : α → Option Task}
    (hm : FailsClean m) (hok : (attempt m fault db caught next).failed = false) :
    ∃ a, Returns m db a (attempt m fault db caught next).db ∧
      (attempt m fault db caught next).task = next a := by
  obtain ⟨a, hreturns, htask, -⟩ | ⟨-, -, hfailed⟩ := attempt_cases fault db caught next hm
  · exact ⟨a, hreturns, htask⟩
  · rw [hok] at hfailed
    cases hfailed

theorem LeftIn.update {p : PaymentOrder → Bool} {f : PaymentOrder → PaymentOrder}
    (hf : ∀ r, (f r).outTradeNo = r.outTradeNo) (h : LeftIn staleBefore rest (some o) db) :
    LeftIn staleBefore rest (some o) (updateOrderWhere now o p f db).2 := by
  intro x r hr howing hx
  have hne : x ≠ o := fun heq => hx (congrArg some heq)
  rw [row_updateOrderWhere hf] at hr
  simp only [hne, false_and, if_false, Option.map_id'] at hr
  exact h x r hr howing hx

theorem leftIn_list (hrec : Recoverable now db) :
    LeftIn (now - processingStaleMs) (listPaymentOrdersForMaintenance [.processing] 1000 db) none db := by
  intro x r hr howing _
  have hmem := byKey_mem hr
  have hstatus : r.status = .processing := by
    have hpaid := hrec.claimed r hmem
    cases hs : r.status <;> simp_all [PaymentOrderStatus.owing]
  refine ⟨?_, hstatus, hrec.stale r hmem hstatus⟩
  have hfew := hrec.few
  rw [countP_eq_length_filter] at hfew
  unfold listPaymentOrdersForMaintenance
  rw [take_of_length_le]
  · rw [mem_insertionSort, mem_filter]
    exact ⟨hmem, by simp [hstatus]⟩
  · rw [length_insertionSort]
    simpa using hfew

theorem recovering_list (hrec : Recoverable now db) (hok : (Task.list.step env now fault db).failed = false) :
    Recovering now (Task.list.step env now fault db).db
      (Task.list.step env now fault db).task.toList := by
  rw [Task.step] at hok ⊢
  obtain ⟨orders, hreturns, htask⟩ := attempt_ok (failsClean_query _) hok
  obtain ⟨rfl, hdb⟩ := hreturns.of_query
  rw [htask, hdb]
  exact .walking (leftIn_list hrec)

theorem recovering_finished (h : LeftIn staleBefore [] none db) : Recovering now db [] := by
  refine .finished fun x r hr => ?_
  by_contra howing
  rw [Bool.not_eq_false] at howing
  obtain ⟨hmem, -⟩ := h x r hr howing (by simp)
  cases hmem

theorem paymentOrders_of_miss {p : PaymentOrder → Bool} {f : PaymentOrder → PaymentOrder}
    (hmiss : (updateOrderWhere now o p f db).1 = 0) :
    (updateOrderWhere now o p f db).2.paymentOrders = db.paymentOrders := by
  simp only [updateOrderWhere, countP_eq_zero, decide_eq_true_eq] at hmiss
  simp only [updateOrderWhere, updateWhere]
  conv_rhs => rw [← map_id db.paymentOrders]
  apply map_congr_left
  intro r hr
  simp [hmiss r hr]

variable {order : PaymentOrder}

theorem LeftIn.skip (hyoung : staleBefore ≤ milliseconds order.updatedAt)
    (h : LeftIn staleBefore (order :: rest) none db) : LeftIn staleBefore rest none db := by
  intro x r hr howing hx
  obtain ⟨hmem, hstatus, hstale⟩ := h x r hr howing hx
  refine ⟨?_, hstatus, hstale⟩
  rw [mem_cons] at hmem
  obtain rfl | hmem := hmem
  · unfold milliseconds at hyoung
    unfold seconds at hstale
    omega
  · exact hmem

theorem LeftIn.exempt (h : LeftIn staleBefore (order :: rest) none db) :
    LeftIn staleBefore rest (some order.outTradeNo) db := by
  intro x r hr howing hx
  obtain ⟨hmem, hstatus, hstale⟩ := h x r hr howing (by simp)
  refine ⟨?_, hstatus, hstale⟩
  rw [mem_cons] at hmem
  obtain rfl | hmem := hmem
  · rw [byKey_key hr] at hx
    exact absurd rfl hx
  · exact hmem

theorem recovering_reset (hnodup : (db.paymentOrders.map PaymentOrder.outTradeNo).Nodup)
    (h : LeftIn staleBefore (order :: rest) none db)
    (hok : ((Task.recover staleBefore (order :: rest)).step env now fault db).failed = false) :
    Recovering now ((Task.recover staleBefore (order :: rest)).step env now fault db).db
      ((Task.recover staleBefore (order :: rest)).step env now fault db).task.toList := by
  rw [Task.step] at hok ⊢
  split
  · rename_i hyoung
    exact .walking (h.skip hyoung)
  · rename_i hold
    rw [if_neg hold] at hok
    obtain ⟨affected, hreturns, htask⟩ := attempt_ok (failsClean_statement _) hok
    have hreset := hreturns.of_statement
    rw [htask]
    generalize (attempt _ fault db none _).db = db' at hreset ⊢
    obtain ⟨hcount, rfl⟩ := Prod.ext_iff.mp hreset
    simp only at hcount
    split
    · -- the order is `paid` again
      rename_i hhit
      rw [← hcount] at hhit
      obtain ⟨r, hr, hp⟩ := row_of_hit hnodup hhit
      refine .claiming ⟨_, row_of_row (fun _ => ?_) hr hp, ?_⟩ (h.exempt.update fun _ => ?_)
      all_goals rfl
    · -- nothing was hit, so the order is not owed any more
      rename_i hmiss
      rw [not_lt, Nat.le_zero, ← hcount] at hmiss
      refine .walking fun x r hr howing _ => ?_
      replace hr := (row_congr (paymentOrders_of_miss hmiss) x).symm.trans hr
      by_cases hx : x = order.outTradeNo
      · subst hx
        obtain ⟨-, hstatus, hstale⟩ := h _ r hr howing (by simp)
        refine absurd hmiss (Nat.pos_iff_ne_zero.mp (hit_of_row hr ?_))
        simp [hstatus, hstale]
      · exact h.exempt x r hr howing fun heq => hx (Option.some.inj heq)

theorem recovering_claim (hrow : OrderIs (· = .paid) o db) (h : LeftIn staleBefore rest (some o) db)
    (hok : ((Task.finalize o (.claim false) (.recovery staleBefore rest)).step env now fault
      db).failed = false) :
    Recovering now
      ((Task.finalize o (.claim false) (.recovery staleBefore rest)).step env now fault db).db
      ((Task.finalize o (.claim false) (.recovery staleBefore rest)).step env now fault
        db).task.toList := by
  rw [Task.step, stepFinalize] at hok ⊢
  obtain ⟨affected, hreturns, htask⟩ := attempt_ok (failsClean_statement _) hok
  have hclaim := hreturns.of_statement
  rw [htask]
  generalize (attempt _ fault db _ _).db = db' at hclaim ⊢
  obtain ⟨hcount, rfl⟩ := Prod.ext_iff.mp hclaim
  simp only at hcount
  obtain ⟨r, hr, hpaid⟩ := hrow
  have hp : decide (r.status = .paid) = true := by simp [hpaid]
  have hhit : 0 < affected := by
    rw [← hcount]
    exact hit_of_row hr hp
  rw [if_pos hhit]
  refine .reading ⟨_, row_of_row (fun _ => ?_) hr hp, ?_⟩ (h.update fun _ => ?_)
  all_goals rfl

theorem recovering_read (hrow : OrderIs (· = .processing) o db) (h : LeftIn staleBefore rest (some o) db)
    (hok : ((Task.finalize o (.readClaimed false) (.recovery staleBefore rest)).step env now fault
      db).failed = false) :
    Recovering now
      ((Task.finalize o (.readClaimed false) (.recovery staleBefore rest)).step env now fault db).db
      ((Task.finalize o (.readClaimed false) (.recovery staleBefore rest)).step env now fault
        db).task.toList := by
  rw [Task.step, stepFinalize] at hok ⊢
  obtain ⟨row, hreturns, htask⟩ := attempt_ok (failsClean_query _) hok
  obtain ⟨rfl, hdb⟩ := hreturns.of_query
  obtain ⟨r, hr, -⟩ := hrow
  rw [htask, hdb, hr]
  exact .fulfilling ⟨r, hr, trivial⟩ h

theorem recovering_fulfil (hrow : OrderIs (fun _ => True) o db) (h : LeftIn staleBefore rest (some o) db)
    (hok : ((Task.finalize o (.fulfil order) (.recovery staleBefore rest)).step env now fault
      db).failed = false) :
    Recovering now
      ((Task.finalize o (.fulfil order) (.recovery staleBefore rest)).step env now fault db).db
      ((Task.finalize o (.fulfil order) (.recovery staleBefore rest)).step env now fault
        db).task.toList := by
  rw [Task.step, stepFinalize] at hok ⊢
  rcases hrun : (fulfilOrder env now o order).run fault db with ⟨answer, db'⟩
  rw [hrun] at hok
  cases answer with
  | error e => cases hok
  | ok delivers =>
    have hreturns := Returns.of_run hrun
    refine .walking fun x r hr howing _ => ?_
    by_cases hx : x = o
    · -- the order that was fulfilled is completed
      subst hx
      obtain ⟨r₀, hr₀, -⟩ := hrow
      obtain ⟨r', hr', hcompleted, -⟩ := row_fulfilOrder hreturns hr₀
      obtain rfl := Option.some.inj (hr.symm.trans hr')
      rw [hcompleted] at howing
      cases howing
    · have hother := row_fulfilOrder_other hreturns hx
      simp only at hr
      rw [hother] at hr
      exact h x r hr howing fun heq => hx (Option.some.inj heq)

end

/-! ## Whole recoveries -/

section

variable {w : PaymentPanel}

structure RecoveryInv (w : PaymentPanel) : Prop where
  nodup : (w.db.paymentOrders.map PaymentOrder.outTradeNo).Nodup
  recovering : Recovering w.now w.db w.tasks

theorem Recoverable.tick {now : ℤ} {db : Database} (h : Recoverable now db) (ms : ℕ) :
    Recoverable (now + ms) db := by
  refine ⟨h.claimed, h.few, fun r hr hs => ?_⟩
  have hstale := h.stale r hr hs
  unfold seconds at hstale ⊢
  omega

theorem Recovering.step {env : Env} {fault : ℕ → Option String} {t : Task}
    (hnodup : (w.db.paymentOrders.map PaymentOrder.outTradeNo).Nodup) (h : Recovering w.now w.db [t])
    (hok : (t.step env w.now fault w.db).failed = false) :
    Recovering w.now (t.step env w.now fault w.db).db
      (t.step env w.now fault w.db).task.toList := by
  generalize htasks : [t] = tasks at h
  cases h with
  | finished => cases htasks
  | listing hrec =>
    obtain rfl := singleton_inj.mp htasks
    exact recovering_list hrec hok
  | @walking staleBefore rest hleft =>
    obtain rfl := singleton_inj.mp htasks
    cases rest with
    | nil => exact recovering_finished hleft
    | cons order rest => exact recovering_reset hnodup hleft hok
  | claiming hrow hleft =>
    obtain rfl := singleton_inj.mp htasks
    exact recovering_claim hrow hleft hok
  | reading hrow hleft =>
    obtain rfl := singleton_inj.mp htasks
    exact recovering_read hrow hleft hok
  | fulfilling hrow hleft =>
    obtain rfl := singleton_inj.mp htasks
    exact recovering_fulfil hrow hleft hok

theorem recovering_single {now : ℤ} {db : Database} {tasks : List Task} {i : ℕ} {t : Task}
    (h : Recovering now db tasks) (hi : tasks[i]? = some t) : i = 0 ∧ tasks = [t] := by
  cases h with
  | finished => cases hi
  | listing | walking | claiming | reading | fulfilling =>
    cases i with
    | zero => exact ⟨rfl, by simpa using hi⟩
    | succ i => cases hi

theorem recoveryInv_step (e : PaymentEvent) (hok : Succeeds w e) (h : RecoveryInv w) :
    RecoveryInv (stepPayment w e) := by
  refine ⟨nodup_step e h.nodup, ?_⟩
  have hrec := h.recovering
  cases e with
  | tick ms =>
    simp only [stepPayment]
    generalize w.tasks = tasks at hrec ⊢
    cases hrec with
    | listing hrec => exact .listing (hrec.tick ms)
    | walking hleft => exact .walking hleft
    | claiming hrow hleft => exact .claiming hrow hleft
    | reading hrow hleft => exact .reading hrow hleft
    | fulfilling hrow hleft => exact .fulfilling hrow hleft
    | finished hnone => exact .finished hnone
  | step i env fault =>
    rw [stepPayment]
    cases hi : w.tasks[i]? with
    | none => exact hrec
    | some t =>
      obtain ⟨rfl, htasks⟩ := recovering_single hrec hi
      rw [htasks] at hrec
      simp only [htasks, eraseIdx_cons_zero, nil_append]
      exact hrec.step h.nodup (hok t hi)
  | call c => exact hok.elim
  | crash i => exact hok.elim
  | other edit => exact hok.elim

end

/-- **What a recovery leaves behind.** After any run that stopped in a state the
maintenance call covers, a recovery that goes to its end without a failure leaves no
order paid or in processing. -/
theorem nothing_owed_after_recovery {w : PaymentPanel} (hstart : StartsUp w) (es : List PaymentEvent)
    (ms : ℕ) (hrec : Recoverable ((run stepPayment w es).now + ms) (run stepPayment w es).db)
    (fs : List PaymentEvent) (hok : Admissible Succeeds stepPayment (recovery (run stepPayment w es) ms) fs)
    (hend : (run stepPayment (recovery (run stepPayment w es) ms) fs).tasks = []) :
    ∀ r ∈ (run stepPayment (recovery (run stepPayment w es) ms) fs).db.paymentOrders,
      r.status.owing = false := by
  have hnodup : ((run stepPayment w es).db.paymentOrders.map PaymentOrder.outTradeNo).Nodup :=
    run_invariant (I := fun v => (v.db.paymentOrders.map PaymentOrder.outTradeNo).Nodup)
      (fun _ e hv => nodup_step e hv) es w hstart.nodup
  obtain ⟨hnodup', hrecovering⟩ := run_invariant_of_admissible
    (fun _ e hstep hv => recoveryInv_step e hstep hv) fs _ hok ⟨hnodup, .listing hrec⟩
  rw [hend] at hrecovering
  cases hrecovering with
  | finished hnone =>
    intro r hr
    exact hnone r.outTradeNo r (byKey_of_mem hnodup' hr)

def oneRecharge : PaymentPanel where
  now := 1000000000
  db :=
    { users := [{ id := 1 }]
      paymentOrders :=
        [{ outTradeNo := "A", userId := 1, provider := "stripe", amountCents := 500 }] }

/-- The call that is first in flight takes a step, with nothing going wrong. -/
def firstGoesOn : PaymentEvent := .step 0 quietEnv fun _ => none

def reported : List PaymentEvent :=
  [.call (.processPaidNotification "A"
      { provider := "stripe", amountCents := 500, currency := "CNY" }),
    firstGoesOn, firstGoesOn]

theorem startsUp_oneRecharge : StartsUp oneRecharge :=
  ⟨by decide +kernel, by decide +kernel, rfl, rfl⟩

instance (w : PaymentPanel) : ∀ e, Decidable (Succeeds w e)
  | .tick _ => .isTrue trivial
  | .step i env fault => inferInstanceAs (Decidable (∀ t ∈ w.tasks[i]?,
      (t.step env w.now fault w.db).failed = false))
  | .call _ => .isFalse id
  | .crash _ => .isFalse id
  | .other _ => .isFalse id

theorem nothing_owed_after_claim :
    StartsUp oneRecharge ∧
      ∀ r ∈ (run stepPayment
          (recovery (run stepPayment oneRecharge (reported ++ [firstGoesOn, firstGoesOn])) 700000)
          (List.replicate 6 firstGoesOn)).db.paymentOrders, r.status.owing = false :=
  ⟨startsUp_oneRecharge, nothing_owed_after_recovery startsUp_oneRecharge _ 700000
    ⟨by decide +kernel, by decide +kernel, by decide +kernel⟩ _ (by decide +kernel) (by decide +kernel)⟩

/-- **A crash right after the order was marked as paid is not**: a recovery that
comes in time, goes to its end and fails nowhere leaves the order paid. -/
theorem paid_order_left_behind :
    StartsUp oneRecharge ∧
      (∀ r ∈ (run stepPayment oneRecharge reported).db.paymentOrders,
        milliseconds r.updatedAt + processingStaleMs
          < (recovery (run stepPayment oneRecharge reported) 700000).now) ∧
      Admissible Succeeds stepPayment (recovery (run stepPayment oneRecharge reported) 700000)
        [firstGoesOn, firstGoesOn] ∧
      (run stepPayment (recovery (run stepPayment oneRecharge reported) 700000)
        [firstGoesOn, firstGoesOn]).tasks = [] ∧
      ∃ r ∈ (run stepPayment (recovery (run stepPayment oneRecharge reported) 700000)
        [firstGoesOn, firstGoesOn]).db.paymentOrders, r.status = .paid :=
  ⟨startsUp_oneRecharge, by decide +kernel, by decide +kernel, by decide +kernel, by decide +kernel⟩

end ForwardX.Panel
