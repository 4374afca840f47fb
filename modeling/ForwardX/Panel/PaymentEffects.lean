/-
What the steps of the payment calls do to the database.

A step either fulfils a claimed order or has one of seven effects.
-/
import ForwardX.Lib.Run
import ForwardX.Panel.PaymentOrders

namespace ForwardX.Panel

open Run Table Tx Call

/-! ## Effects -/

/-- An update of the provider's number and message only. -/
def RecordsOnly (f : PaymentOrder → PaymentOrder) : Prop :=
  ∀ r, ∃ tradeNo rawNotify, f r = { r with tradeNo, rawNotify }

theorem RecordsOnly.outTradeNo {f : PaymentOrder → PaymentOrder} (hf : RecordsOnly f)
    (r : PaymentOrder) : (f r).outTradeNo = r.outTradeNo := by
  obtain ⟨tradeNo, rawNotify, hr⟩ := hf r
  rw [hr]

/-- What a step that fulfils nothing can do to the database. -/
inductive PaymentEffect (now : ℤ) (db : Database) : Database → Prop where
  | nothing : PaymentEffect now db db
  | claimed (o : String) : PaymentEffect now db (claimPaidPaymentOrder now o db).2
  | reset (o : String) (before : ℤ) :
    PaymentEffect now db (resetStaleProcessingPaymentOrder now o before db).2
  | marked (o : String) (n : PaidNotification) : PaymentEffect now db (markPaymentOrderPaid now o n db).2
  | recorded (o : String) (f : PaymentOrder → PaymentOrder) (hf : RecordsOnly f) :
    PaymentEffect now db (updatePaymentOrder now o f db)
  | closed {db' : Database} (o : String) (status : ClosedStatus) (raw : Option String)
    (h : Returns (closePaymentOrderAndReleaseDiscount now o status raw) db () db') :
    PaymentEffect now db db'
  | created {db' : Database} (req : OrderRequest) (h : Returns (createOrder now req) db () db') :
    PaymentEffect now db db'

/-- The order that the next step of the task fulfils, with the copy it goes by. -/
def Task.fulfils : Task → Option (String × PaymentOrder)
  | .finalize o (.fulfil order) _ => some (o, order)
  | _ => none

section

variable {α : Type} {m : Db α} (fault : ℕ → Option String) (db : Database) (caught : Option Task)
  (next : α → Option Task)

@[simp] theorem attempt_delivered : (attempt m fault db caught next).delivered = none := by
  unfold attempt
  split <;> rfl

theorem attempt_cases (hm : FailsClean m) :
    (∃ a, Returns m db a (attempt m fault db caught next).db ∧
        (attempt m fault db caught next).task = next a ∧
        (attempt m fault db caught next).failed = false) ∨
      ((attempt m fault db caught next).db = db ∧
        (attempt m fault db caught next).task = caught ∧
        (attempt m fault db caught next).failed = true) := by
  unfold attempt
  rcases hrun : m.run fault db with ⟨answer, db'⟩
  cases answer with
  | ok a => exact .inl ⟨a, Returns.of_run hrun, rfl, rfl⟩
  | error e =>
    obtain rfl := hm.run_error hrun
    exact .inr ⟨rfl, rfl, rfl⟩

end

section

variable (fault : ℕ → Option String) (db : Database)

variable {caught : Option Task}

theorem effect_query {α : Type} {f : Database → α} {next : α → Option Task} :
    (attempt (query f) fault db caught next).db = db := by
  obtain ⟨a, h, -⟩ | ⟨h, -⟩ := attempt_cases (m := (query f : Db α)) fault db caught next
    (failsClean_statement _)
  · exact h.of_query.2
  · exact h

theorem effect_statement {α : Type} {f : Database → α × Database} {next : α → Option Task} :
    (attempt (statement f) fault db caught next).db = (f db).2 ∨
      (attempt (statement f) fault db caught next).db = db := by
  obtain ⟨a, h, -⟩ | ⟨h, -⟩ := attempt_cases (m := (statement f : Db α)) fault db caught next
    (failsClean_statement _)
  · rw [h.of_statement]
    exact .inl rfl
  · exact .inr h

theorem effect_execute {f : Database → Database} {next : Unit → Option Task} :
    (attempt (execute f) fault db caught next).db = f db ∨
      (attempt (execute f) fault db caught next).db = db :=
  effect_statement fault db

theorem effect_transaction {m : Db Unit} {next : Unit → Option Task} :
    Returns (withDatabaseTransaction m) db ()
        (attempt (withDatabaseTransaction m) fault db caught next).db ∨
      (attempt (withDatabaseTransaction m) fault db caught next).db = db := by
  obtain ⟨a, h, -⟩ | ⟨h, -⟩ := attempt_cases fault db caught next (failsClean_transaction m)
  · exact .inl h
  · exact .inr h

theorem attempt_task {α : Type} {m : Db α} {next : α → Option Task} :
    (attempt m fault db caught next).task = caught ∨
      ∃ a, (attempt m fault db caught next).task = next a := by
  unfold attempt
  split
  · rename_i a db' h
    exact .inr ⟨a, rfl⟩
  · exact .inl rfl

end

section

variable {env : Env} {now : ℤ} {fault : ℕ → Option String} {db : Database}

theorem stepFinalize_effect {o : String} {caller : FinalizeCaller} {pc : FinalizeStep}
    (hpc : (Task.finalize o pc caller).fulfils = none) :
    PaymentEffect now db (stepFinalize env now fault o caller db pc).db := by
  cases pc with
  | claim again =>
    obtain h | h := effect_statement fault db <;> rw [stepFinalize, h]
    · exact .claimed o
    · exact .nothing
  | readClaimed again =>
    rw [stepFinalize, effect_query]
    exact .nothing
  | readExisting =>
    rw [stepFinalize, effect_query]
    exact .nothing
  | reset =>
    obtain h | h := effect_statement fault db <;> rw [stepFinalize, h]
    · exact .reset o _
    · exact .nothing
  | fulfil order => cases hpc

theorem stepNotify_effect (o : String) (n : PaidNotification) (pc : NotifyStep) :
    PaymentEffect now db (stepNotify now fault o n db pc).db := by
  cases pc with
  | read | readLatest | readMarked | readUnmarked =>
    rw [stepNotify, effect_query]
    exact .nothing
  | record tradeNo =>
    obtain h | h := effect_execute fault db <;> rw [stepNotify, h]
    · exact .recorded o _ fun r => ⟨_, _, rfl⟩
    · exact .nothing
  | recordMismatch tradeNo =>
    obtain h | h := effect_execute fault db <;> rw [stepNotify, h]
    · exact .recorded o _ fun r => ⟨_, _, rfl⟩
    · exact .nothing
  | recordDuplicate existing =>
    obtain h | h := effect_execute fault db <;> rw [stepNotify, h]
    · exact .recorded o _ fun r => ⟨_, _, rfl⟩
    · exact .nothing
  | closeExpired =>
    obtain h | h := effect_transaction fault db
    · exact .closed o .expired _ h
    · rw [stepNotify, closePaymentOrderAndReleaseDiscount, h]
      exact .nothing
  | closeMismatch tradeNo =>
    obtain h | h := effect_transaction fault db
    · exact .closed o .failed _ h
    · rw [stepNotify, closePaymentOrderAndReleaseDiscount, h]
      exact .nothing
  | markPaid =>
    obtain h | h := effect_statement fault db <;> rw [stepNotify, h]
    · exact .marked o n
    · exact .nothing

theorem step_effect {t : Task} (ht : t.fulfils = none) : PaymentEffect now db (t.step env now fault db).db := by
  cases t with
  | finalize o pc caller => exact stepFinalize_effect ht
  | notify o n pc => exact stepNotify_effect o n pc
  | list =>
    rw [Task.step, effect_query]
    exact .nothing
  | recover staleBefore rest =>
    cases rest with
    | nil => exact .nothing
    | cons order rest =>
      rw [Task.step]
      split
      · exact .nothing
      · obtain h | h := effect_statement fault db <;> rw [h]
        · exact .reset _ _
        · exact .nothing
  | close o status raw =>
    obtain h | h := effect_transaction fault db
    · exact .closed o status raw h
    · rw [Task.step, closePaymentOrderAndReleaseDiscount, h]
      exact .nothing
  | create req reply =>
    obtain h | h := effect_transaction fault db
    · exact .created req h
    · rw [Task.step, createOrder, h]
      exact .nothing
  | createdAt o reply =>
    cases reply with
    | none => exact .nothing
    | some tradeNo =>
      obtain h | h := effect_execute fault db <;> rw [Task.step, h]
      · exact .recorded o _ fun r => ⟨_, _, rfl⟩
      · exact .nothing

theorem step_delivered {t : Task} (ht : t.fulfils = none) : (t.step env now fault db).delivered = none := by
  cases t with
  | finalize o pc caller =>
    cases pc with
    | fulfil order => cases ht
    | claim | readClaimed | readExisting | reset => exact attempt_delivered _ _ _ _
  | notify o n pc => cases pc <;> exact attempt_delivered _ _ _ _
  | list => exact attempt_delivered _ _ _ _
  | recover staleBefore rest =>
    cases rest with
    | nil => rfl
    | cons order rest =>
      rw [Task.step]
      split
      · rfl
      · exact attempt_delivered _ _ _ _
  | close | create => exact attempt_delivered _ _ _ _
  | createdAt o reply =>
    cases reply with
    | none => rfl
    | some tradeNo => exact attempt_delivered _ _ _ _

theorem step_fulfil (env : Env) (now : ℤ) (fault : ℕ → Option String) (db : Database) {t : Task}
    {o : String} {order : PaymentOrder} (ht : t.fulfils = some (o, order)) :
    (∃ delivers, Returns (fulfilOrder env now o order) db delivers (t.step env now fault db).db ∧
        (t.step env now fault db).delivered = if delivers then some o else none) ∨
      ((t.step env now fault db).db = db ∧ (t.step env now fault db).delivered = none) := by
  cases t with
  | finalize o' pc caller =>
    cases pc with
    | fulfil order' =>
      simp only [Task.fulfils, Option.some.injEq, Prod.mk.injEq] at ht
      obtain ⟨rfl, rfl⟩ := ht
      simp only [Task.step, stepFinalize]
      rcases hrun : (fulfilOrder env now o' order').run fault db with ⟨answer, db'⟩
      cases answer with
      | ok delivers => exact .inl ⟨delivers, Returns.of_run hrun, rfl⟩
      | error e =>
        obtain rfl := (failsClean_transaction _).run_error hrun
        exact .inr ⟨rfl, rfl⟩
    | claim | readClaimed | readExisting | reset => cases ht
  | notify | list | recover | close | create | createdAt => cases ht

end

/-! ## Claims -/

/-- The call has claimed the order and not fulfilled it yet. -/
def Task.claims (o : String) : Task → Bool
  | .finalize o' (.readClaimed _) _ => o' = o
  | .finalize o' (.fulfil _) _ => o' = o
  | _ => false

section

variable {env : Env} {now : ℤ} {fault : ℕ → Option String} {db : Database} {o : String}

theorem claims_of_fulfils {t : Task} {order : PaymentOrder} (ht : t.fulfils = some (o, order)) :
    t.claims o := by
  cases t with
  | finalize o' pc caller =>
    cases pc with
    | fulfil order' =>
      simp only [Task.fulfils, Option.some.injEq, Prod.mk.injEq] at ht
      simp [Task.claims, ht.1]
    | claim | readClaimed | readExisting | reset => cases ht
  | notify | list | recover | close | create | createdAt => cases ht

theorem not_claims_resume (o' : String) (caller : FinalizeCaller) :
    ∀ t ∈ caller.resume o', t.claims o = false := by
  intro t ht
  cases caller with
  | request => cases ht
  | processingNotification n =>
    obtain rfl := Option.some.inj ht
    rfl
  | recovery staleBefore rest =>
    obtain rfl := Option.some.inj ht
    rfl

theorem not_claims_caught (caller : FinalizeCaller) : ∀ t ∈ caller.caught, t.claims o = false := by
  intro t ht
  cases caller with
  | request => cases ht
  | processingNotification n => cases ht
  | recovery staleBefore rest =>
    obtain rfl := Option.some.inj ht
    rfl

theorem not_claims_afterRead (o' : String) (n : PaidNotification) (order : PaymentOrder) :
    ∀ t ∈ afterRead now o' n order, t.claims o = false := by
  intro t ht
  unfold afterRead at ht
  repeat' split at ht
  all_goals cases ht
  all_goals rfl

theorem not_claims_stepNotify (o' : String) (n : PaidNotification) (pc : NotifyStep) :
    ∀ t ∈ (stepNotify now fault o' n db pc).task, t.claims o = false := by
  intro t ht
  cases pc with
  | read =>
    obtain h | ⟨row, h⟩ := attempt_task fault db <;> rw [stepNotify, h] at ht
    · cases ht
    · cases row with
      | none => cases ht
      | some order => exact not_claims_afterRead o' n order t ht
  | readLatest | readMarked | readUnmarked =>
    obtain h | ⟨row, h⟩ := attempt_task fault db <;> rw [stepNotify, h] at ht
    · cases ht
    · rw [Option.mem_map] at ht
      obtain ⟨r, -, rfl⟩ := ht
      rfl
  | record | closeExpired | recordMismatch =>
    obtain h | ⟨row, h⟩ := attempt_task fault db <;> rw [stepNotify, h] at ht
    · cases ht
    · cases ht
  | closeMismatch | recordDuplicate =>
    obtain h | ⟨row, h⟩ := attempt_task fault db <;> rw [stepNotify, h] at ht
    · cases ht
    · obtain rfl := Option.some.inj ht
      rfl
  | markPaid =>
    obtain h | ⟨affected, h⟩ := attempt_task fault db <;>
      rw [stepNotify, h] at ht
    · cases ht
    · split at ht
      · obtain rfl := Option.some.inj ht
        rfl
      · obtain rfl := Option.some.inj ht
        rfl

/-- The two ways to come to hold a claim: to make it, or to read the order after it. -/
def ComesByClaim (now : ℤ) (db : Database) (o : String) (t t' : Task) (db' : Database) : Prop :=
  (∃ again caller, t = .finalize o (.claim again) caller ∧
      t' = .finalize o (.readClaimed again) caller ∧ 0 < (claimPaidPaymentOrder now o db).1 ∧
      db' = (claimPaidPaymentOrder now o db).2) ∨
    ∃ again caller order, t = .finalize o (.readClaimed again) caller ∧
      t' = .finalize o (.fulfil order) caller ∧
      getPaymentOrderByOutTradeNo o db = some order ∧ db' = db

theorem comesByClaim_stepFinalize {o' : String} {caller : FinalizeCaller} {pc : FinalizeStep}
    {t' : Task} (ht' : t' ∈ (stepFinalize env now fault o' caller db pc).task) (hclaims : t'.claims o) :
    ComesByClaim now db o (.finalize o' pc caller) t'
      (stepFinalize env now fault o' caller db pc).db := by
  have hcaught : t' ∉ caller.caught := by
    intro hmem
    rw [not_claims_caught caller t' hmem] at hclaims
    cases hclaims
  have hresume : t' ∉ caller.resume o' := by
    intro hmem
    rw [not_claims_resume o' caller t' hmem] at hclaims
    cases hclaims
  cases pc with
  | claim again =>
    obtain ⟨affected, hret, htask, -⟩ | ⟨-, htask, -⟩ := attempt_cases
      (m := (statement (claimPaidPaymentOrder now o') : Db ℕ)) fault db caller.caught
      (fun affected =>
        if 0 < affected then some (.finalize o' (.readClaimed again) caller)
        else if again then caller.resume o' else some (.finalize o' .readExisting caller))
      (failsClean_statement _)
    · rw [stepFinalize, htask] at ht'
      have hclaim := hret.of_statement
      split at ht'
      · rename_i hhit
        obtain rfl := Option.some.inj ht'
        obtain rfl : o' = o := by simpa [Task.claims] using hclaims
        refine .inl ⟨again, caller, rfl, rfl, ?_, ?_⟩
        · rw [hclaim]
          exact hhit
        · rw [hclaim]
          rfl
      · split at ht'
        · exact absurd ht' hresume
        · obtain rfl := Option.some.inj ht'
          cases hclaims
    · rw [stepFinalize, htask] at ht'
      exact absurd ht' hcaught
  | readClaimed again =>
    obtain ⟨row, hret, htask, -⟩ | ⟨-, htask, -⟩ := attempt_cases
      (m := (query (getPaymentOrderByOutTradeNo o') : Db (Option PaymentOrder))) fault db
      caller.caught (afterClaim o' again caller) (failsClean_statement _)
    · rw [stepFinalize, htask] at ht'
      obtain ⟨hrow, hdb⟩ := hret.of_query
      cases row with
      | some order =>
        obtain rfl := Option.some.inj ht'
        obtain rfl : o' = o := by simpa [Task.claims] using hclaims
        exact .inr ⟨again, caller, order, rfl, rfl, hrow.symm, hdb⟩
      | none =>
        rw [afterClaim] at ht'
        split at ht'
        · exact absurd ht' hresume
        · obtain rfl := Option.some.inj ht'
          cases hclaims
    · rw [stepFinalize, htask] at ht'
      exact absurd ht' hcaught
  | readExisting =>
    obtain h | ⟨row, h⟩ := attempt_task fault db <;> rw [stepFinalize, h] at ht'
    · exact absurd ht' hcaught
    · split at ht'
      · obtain rfl := Option.some.inj ht'
        cases hclaims
      · exact absurd ht' hresume
  | reset =>
    obtain h | ⟨affected, h⟩ := attempt_task fault db <;>
      rw [stepFinalize, h] at ht'
    · exact absurd ht' hcaught
    · split at ht'
      · obtain rfl := Option.some.inj ht'
        cases hclaims
      · exact absurd ht' hresume
  | fulfil order =>
    rw [stepFinalize] at ht'
    split at ht'
    · exact absurd ht' hresume
    · exact absurd ht' hcaught

theorem comesByClaim_step {t t' : Task} (ht' : t' ∈ (t.step env now fault db).task)
    (hclaims : t'.claims o) : ComesByClaim now db o t t' (t.step env now fault db).db := by
  have hno : t'.claims o = false → False := by
    intro h
    rw [h] at hclaims
    cases hclaims
  cases t with
  | finalize o' pc caller => exact comesByClaim_stepFinalize ht' hclaims
  | notify o' n pc => exact (hno (not_claims_stepNotify o' n pc t' ht')).elim
  | list =>
    obtain h | ⟨row, h⟩ := attempt_task fault db <;> rw [Task.step, h] at ht'
    · cases ht'
    · obtain rfl := Option.some.inj ht'
      cases hclaims
  | recover staleBefore rest =>
    cases rest with
    | nil => cases ht'
    | cons order rest =>
      rw [Task.step] at ht'
      split at ht'
      · obtain rfl := Option.some.inj ht'
        cases hclaims
      · obtain h | ⟨affected, h⟩ := attempt_task fault db <;> rw [h] at ht'
        · cases ht'
        · split at ht'
          · obtain rfl := Option.some.inj ht'
            cases hclaims
          · obtain rfl := Option.some.inj ht'
            cases hclaims
  | close | create =>
    obtain h | ⟨u, h⟩ := attempt_task fault db <;> rw [Task.step, h] at ht'
    · cases ht'
    · cases ht' <;> cases hclaims
  | createdAt o' reply =>
    cases reply with
    | none =>
      obtain rfl := Option.some.inj ht'
      cases hclaims
    | some tradeNo =>
      obtain h | ⟨u, h⟩ := attempt_task fault db <;> rw [Task.step, h] at ht'
      · obtain rfl := Option.some.inj ht'
        cases hclaims
      · cases ht'

end

end ForwardX.Panel
