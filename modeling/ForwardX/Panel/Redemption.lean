/-
Redemption codes: `redeemCode` of `server/repositories/billingRepository.ts`.

A code grants what it is worth once, however the calls on it interleave, and a call that fails
leaves nothing behind. The function is first given as one program, a transaction behind the rate
limit, which is what the ledger of the balances needs. Then its calls are taken apart: a call queues
for the lock of its code, reads and checks the row when it has it, and writes and commits later, with
any steps of other calls in between. What keeps two calls on one code apart is
`withRedemptionCodeLock` alone: the row that a call holds in hand may be stale in all but one
respect, that nobody has granted its code since.
-/
import ForwardX.Lib.GoMap
import ForwardX.Lib.Run
import ForwardX.Panel.KeyedTaskLock
import ForwardX.Panel.Subscriptions
import ForwardX.Panel.Wallet

namespace ForwardX.Panel

open Run Table TaskLock Tx Call

/-! ## The function -/

inductive Redeemed where
  | balance (amountCents balanceCents : ℤ)
  | plan (planId : ℤ) (planName : Option String) (durationDays : ℤ)
      (subscription : AppliedSubscription)

/-- `SELECT id … WHERE code = ? LIMIT 1 FOR UPDATE`, and the row of that id. -/
def lockRedemptionCode (normalized : String) (db : Database) : Option RedemptionCode :=
  (byKey RedemptionCode.code normalized db.redemptionCodes).bind fun locked =>
    byKey RedemptionCode.id locked.id db.redemptionCodes

def RedemptionCode.used (item : RedemptionCode) : Bool :=
  item.usedAt.isSome ∨ item.usedByUserId.getD 0 ≠ 0

def RedemptionCode.mark (now userId : ℤ) (item : RedemptionCode) : RedemptionCode :=
  { item with usedByUserId := some userId, usedAt := some (seconds now) }

def markRedeemed (now userId id : ℤ) (db : Database) : Database :=
  { db with
    redemptionCodes := updateWhere (fun c => c.id = id) (RedemptionCode.mark now userId)
      db.redemptionCodes }

def redeemBalance (now userId : ℤ) (normalized : String) (item : RedemptionCode) : Db Redeemed := do
  throwIf (item.amountCents ≤ 0) "兑换码金额无效"
  let balance ← addUserBalance now userId item.amountCents
    { type := .redeem, description := some ("兑换余额：" ++ normalized),
      redemptionCodeId := some item.id }
  execute (markRedeemed now userId item.id)
  pure (.balance item.amountCents balance)

def redeemPlan (env : Env) (now userId : ℤ) (item : RedemptionCode) : Db Redeemed := do
  let planId ← orThrow "兑换码套餐无效" (item.planId.filter (· ≠ 0))
  let subscription ← applySubscriptionToUser env now
    { userId, planId, source := .redeem, startsAt := some now,
      overrideDurationDays := item.durationDays.filter (· ≠ 0) }
  let plan ← query (getSubscriptionPlanById planId)
  execute (markRedeemed now userId item.id)
  pure (.plan planId (plan.map SubscriptionPlan.name) (item.durationDays.getD 0) subscription)

/-- The first half of the transaction: the row, once it may be redeemed. -/
def redeemableCode (now : ℤ) (normalized : String) : Db RedemptionCode := do
  let row ← query (lockRedemptionCode normalized)
  let item ← orThrow "兑换码无效" (row.filter RedemptionCode.isActive)
  throwIf item.used "兑换码已被使用"
  throwIf (item.startsAt.any (now < milliseconds ·)) "兑换码尚未生效"
  throwIf (item.expiresAt.any (milliseconds · ≤ now)) "兑换码已过期"
  pure item

/-- The second half: what the row is worth, and the mark on it. -/
def grantCode (env : Env) (now userId : ℤ) (normalized : String) (item : RedemptionCode) : Db Redeemed :=
  match item.type with
  | .balance => redeemBalance now userId normalized item
  | .plan => redeemPlan env now userId item
  | .other => throw "兑换码类型无效"

def redeemInTransaction (env : Env) (now userId : ℤ) (normalized : String) : Db Redeemed := do
  let item ← redeemableCode now normalized
  grantCode env now userId normalized item

def redeemCode (env : Env) (now userId : ℤ) (retryAfterSeconds : ℤ) (normalized : String) : Db Redeemed := do
  throwIf (0 < retryAfterSeconds) ("兑换过于频繁，请 " ++ toString retryAfterSeconds ++ " 秒后再试")
  withDatabaseTransaction (redeemInTransaction env now userId normalized)

/-! ## What a successful call did -/

/-- The code is marked: a call that looks it up finds it used. -/
def Marked (normalized : String) (db : Database) : Prop :=
  ∃ item, lockRedemptionCode normalized db = some item ∧ item.used

section

variable {env : Env} {now userId : ℤ} {normalized : String} {db db' : Database} {r : Redeemed}

theorem lockRedemptionCode_markRedeemed (id : ℤ) :
    lockRedemptionCode normalized (markRedeemed now userId id db) =
      (lockRedemptionCode normalized db).map fun c =>
        if c.id = id then c.mark now userId else c := by
  unfold lockRedemptionCode markRedeemed
  simp only
  rw [byKey_updateWhere (f := RedemptionCode.mark now userId) (fun _ _ => rfl)]
  cases byKey RedemptionCode.code normalized db.redemptionCodes with
  | none => rfl
  | some locked =>
    have hid : (if locked.id = id then locked.mark now userId else locked).id = locked.id := by
      split <;> rfl
    simp only [Option.map_some, Option.bind_some, decide_eq_true_eq, hid]
    rw [byKey_updateWhere (f := RedemptionCode.mark now userId) (fun _ _ => rfl)]
    simp only [decide_eq_true_eq]

theorem Marked.markRedeemed (h : Marked normalized db) (id : ℤ) :
    Marked normalized (markRedeemed now userId id db) := by
  obtain ⟨item, hitem, hused⟩ := h
  refine ⟨_, by rw [lockRedemptionCode_markRedeemed, hitem, Option.map_some], ?_⟩
  split
  · rfl
  · exact hused

variable {item : RedemptionCode}

theorem marked_of_markRedeemed (hitem : lockRedemptionCode normalized db = some item) :
    Marked normalized (Panel.markRedeemed now userId item.id db) := by
  refine ⟨_, by rw [lockRedemptionCode_markRedeemed, hitem, Option.map_some], ?_⟩
  rw [if_pos rfl]
  rfl

theorem lockRedemptionCode_congr (h : db'.redemptionCodes = db.redemptionCodes)
    (normalized : String) : lockRedemptionCode normalized db' = lockRedemptionCode normalized db := by
  unfold lockRedemptionCode
  rw [h]

/-- What the call grants: the amount of the code, posted to the user's balance, or
a new subscription of the user. -/
def GrantsWorth (now userId : ℤ) (item : RedemptionCode) (db db' : Database) : Prop :=
  (∃ row, row.userId = userId ∧ row.amountCents = item.amountCents ∧ db' = db.post row) ∨
    ∃ req, req.userId = userId ∧ Grants now req db db' ∧ db'.outside = db.outside

theorem redeemBalance_spec
    (h : Returns (redeemBalance now userId normalized item) db r db') :
    ∃ db₁, GrantsWorth now userId item db db₁ ∧ db₁.redemptionCodes = db.redemptionCodes ∧
      db' = markRedeemed now userId item.id db₁ := by
  obtain ⟨-, h⟩ := h.bind_throwIf
  obtain ⟨balance, db₁, hadd, hrest⟩ := h.of_bind
  obtain ⟨-, rfl⟩ := hrest.bind_execute.of_pure
  obtain ⟨-, user, -, -, -, rfl⟩ := addUserBalance_spec hadd
  refine ⟨_, .inl ⟨_, rfl, ?_, rfl⟩, rfl, rfl⟩
  exact mathRound_intCast item.amountCents

theorem redeemPlan_spec (h : Returns (redeemPlan env now userId item) db r db') :
    ∃ db₁, GrantsWorth now userId item db db₁ ∧ db₁.redemptionCodes = db.redemptionCodes ∧
      db' = markRedeemed now userId item.id db₁ := by
  obtain ⟨planId, -, h⟩ := h.bind_orThrow
  obtain ⟨subscription, db₁, happly, hrest⟩ := h.of_bind
  obtain ⟨-, rfl⟩ := hrest.bind_query.bind_execute.of_pure
  obtain ⟨⟨hgrant, -⟩ | ⟨sub, htarget, -⟩, hout, -⟩ := applySubscriptionToUser_spec happly
  · have hcodes := congrArg Database.redemptionCodes hout
    exact ⟨db₁, .inr ⟨_, rfl, hgrant, hout⟩, hcodes, rfl⟩
  · cases htarget

theorem redeemableCode_spec (h : Returns (redeemableCode now normalized) db item db') :
    lockRedemptionCode normalized db = some item ∧ item.used = false ∧ db' = db := by
  obtain ⟨item₀, hitem, h⟩ := h.bind_query.bind_orThrow
  rw [Option.filter_eq_some_iff] at hitem
  obtain ⟨hused, h⟩ := h.bind_throwIf
  obtain ⟨-, h⟩ := h.bind_throwIf
  obtain ⟨-, h⟩ := h.bind_throwIf
  obtain ⟨rfl, rfl⟩ := h.of_pure
  exact ⟨hitem.1, by simpa using hused, rfl⟩

/-- The code is worth something to the user, is credited with it, and is marked. -/
theorem grantCode_spec (h : Returns (grantCode env now userId normalized item) db r db') :
    ∃ db₁, GrantsWorth now userId item db db₁ ∧ db₁.redemptionCodes = db.redemptionCodes ∧
      db' = markRedeemed now userId item.id db₁ := by
  unfold grantCode at h
  cases htype : item.type with
  | balance =>
    rw [htype] at h
    exact redeemBalance_spec h
  | plan =>
    rw [htype] at h
    exact redeemPlan_spec h
  | other =>
    rw [htype] at h
    exact absurd h not_returns_throw

theorem failsClean_redeemCode (retryAfterSeconds : ℤ) :
    FailsClean (redeemCode env now userId retryAfterSeconds normalized) := by
  apply FailsClean.throwIf_bind
  exact failsClean_transaction _

end

/-! ## Calls under the lock of their code

`withRedemptionLock` chains the calls on one key as `withKeyedTaskLock` does, so its state is a
`LockState`, and the key of a call is its code. -/

/-- What a call brings with it: the answers that its requests get, and its user. -/
structure RedeemTask where
  env : Env
  userId : ℤ

/-- A transaction that has checked its row and has not ended. -/
structure OpenRedemption where
  now : ℤ
  item : RedemptionCode

/-- The database, the lock, the open transactions by the number of their call, and the codes of the
calls that succeeded, in their order. -/
structure RedemptionPanel where
  db : Database
  lock : LockState String RedeemTask
  opened : GoMap ℕ OpenRedemption
  granted : List String

def RedemptionPanel.start (db : Database) : RedemptionPanel := ⟨db, {}, ∅, []⟩

/-- `fault` is what the database refuses. `crash` is the end of the process: the database rolls back
what is open, and the locks are gone. The rest of the panel does what it likes, to every table
but that of the codes. -/
inductive RedemptionEvent where
  | redeem (env : Env) (userId retryAfterSeconds : ℤ) (normalized : String)
  | resume (c : ℕ)
  | read (c : ℕ) (now : ℤ) (fault : ℕ → Option String)
  | finish (c : ℕ) (fault : ℕ → Option String)
  | release (c : ℕ)
  | crash
  | other (edit : Database → Database)

namespace RedemptionPanel

/-- The transaction is begun and its row read and checked, by a call that has the lock. -/
def read (w : RedemptionPanel) (c : ℕ) (now : ℤ) (fault : ℕ → Option String) : RedemptionPanel :=
  match w.lock.calls[c]? with
  | none => w
  | some call =>
    if call.phase = .running ∧ w.opened.lookup c = none then
      match ((redeemableCode now call.key).run fault w.db).1 with
      | .ok item => { w with opened := w.opened.insert c ⟨now, item⟩ }
      | .error _ => { w with lock := w.lock.settle c true }
    else w

/-- The writes of the transaction and its commit, by the row that was read. Others see them together,
when it commits. -/
def finish (w : RedemptionPanel) (c : ℕ) (fault : ℕ → Option String) : RedemptionPanel :=
  match w.lock.calls[c]?, w.opened.lookup c with
  | some call, some tx =>
    let grant := withDatabaseTransaction
      (grantCode call.task.env tx.now call.task.userId call.key tx.item)
    match grant.run fault w.db with
    | (.ok _, db') => ⟨db', w.lock.settle c false, w.opened.erase c, w.granted ++ [call.key]⟩
    | (.error _, db') => ⟨db', w.lock.settle c true, w.opened.erase c, w.granted⟩
  | _, _ => w

end RedemptionPanel

def stepRedemption (w : RedemptionPanel) : RedemptionEvent → RedemptionPanel
  | .redeem env userId retryAfterSeconds normalized =>
    if 0 < retryAfterSeconds then w
    else { w with lock := w.lock.request normalized ⟨env, userId⟩ }
  | .resume c => { w with lock := w.lock.resume c }
  | .read c now fault => w.read c now fault
  | .finish c fault => w.finish c fault
  | .release c => { w with lock := w.lock.release c }
  | .crash => { w with lock := {}, opened := ∅ }
  | .other edit => { w with db := { edit w.db with redemptionCodes := w.db.redemptionCodes } }

/-! ## One call at a time has read the row of a code -/

/-- The call `c` has the lock of its code, which nobody has granted and which still has its row. -/
structure RedemptionPanel.Unspent (w : RedemptionPanel) (c : ℕ) (tx : OpenRedemption)
    (call : LockCall String RedeemTask) : Prop where
  listed : w.lock.calls[c]? = some call
  running : call.phase = .running
  fresh : call.key ∉ w.granted
  row : ∃ row, lockRedemptionCode call.key w.db = some row ∧ row.id = tx.item.id

structure GrantedOnce (w : RedemptionPanel) : Prop where
  lock : w.lock.Kept
  once : ∀ c, w.granted.count c ≤ 1 ∧ (c ∈ w.granted → Marked c w.db)
  opened : ∀ c tx, w.opened.lookup c = some tx → ∃ call, w.Unspent c tx call

theorem GrantedOnce.start (db : Database) : GrantedOnce (.start db) where
  lock := LockState.Kept.empty
  once c := ⟨Nat.zero_le _, nofun⟩
  opened c tx h := by rw [RedemptionPanel.start, AList.lookup_empty] at h; cases h

section

variable {w : RedemptionPanel} {lock : LockState String RedeemTask} {c : ℕ}

/-- The lock moves on, and every call that has read its row keeps it. -/
theorem GrantedOnce.move (h : GrantedOnce w) (hkept : lock.Kept)
    (hcalls : ∀ c tx call, w.opened.lookup c = some tx → w.lock.calls[c]? = some call →
      call.phase = .running → lock.calls[c]? = some call) : GrantedOnce { w with lock } where
  lock := hkept
  once := h.once
  opened c tx htx := by
    obtain ⟨call, hcall⟩ := h.opened c tx htx
    exact ⟨call, hcalls c tx call htx hcall.listed hcall.running, hcall.running, hcall.fresh, hcall.row⟩

theorem calls_resume_of_running {lock : LockState String RedeemTask} {call : LockCall String RedeemTask}
    (h : lock.calls[c]? = some call) (hrunning : call.phase = .running) (c' : ℕ) :
    (lock.resume c').calls[c]? = some call := by
  unfold LockState.resume
  split
  · exact h
  · rename_i other hother
    split
    · rename_i hready
      refine LockState.calls_toPhase_iff.mpr ⟨call, h, (if_neg ?_).symm⟩
      rintro rfl
      obtain rfl := Option.some.inj (h.symm.trans hother)
      exact absurd (hrunning.symm.trans hready.1) nofun
    · exact h

theorem calls_settle_of_ne {lock : LockState String RedeemTask} {call : LockCall String RedeemTask}
    {c' : ℕ} (h : lock.calls[c]? = some call) (hne : c ≠ c') (failed : Bool) :
    (lock.settle c' failed).calls[c]? = some call := by
  unfold LockState.settle
  split
  · exact LockState.calls_toPhase_iff.mpr ⟨call, h, (if_neg hne).symm⟩
  · exact h

/-- A call that has not read its row, or whose transaction has ended, settles. -/
theorem GrantedOnce.settle (h : GrantedOnce w) (hclosed : w.opened.lookup c = none) (failed : Bool) :
    GrantedOnce { w with lock := w.lock.settle c failed } := by
  refine h.move (h.lock.settle c failed) fun c' tx call htx hcall _ => ?_
  refine calls_settle_of_ne hcall ?_ failed
  rintro rfl
  rw [hclosed] at htx
  cases htx

theorem GrantedOnce.read (h : GrantedOnce w) (c : ℕ) (now : ℤ) (fault : ℕ → Option String) :
    GrantedOnce (w.read c now fault) := by
  unfold RedemptionPanel.read
  rcases hcall : w.lock.calls[c]? with _ | call
  · exact h
  dsimp only
  split_ifs with hready
  · rcases hrun : (redeemableCode now call.key).run fault w.db with ⟨_ | item, db'⟩
    · exact h.settle hready.2 true
    · obtain ⟨hrow, hused, -⟩ := redeemableCode_spec (Returns.of_run hrun)
      refine ⟨h.lock, h.once, fun c' tx htx => ?_⟩
      obtain ⟨rfl, rfl⟩ | ⟨-, hold⟩ := GoMap.lookup_insert_eq_some htx
      -- its row is unused, so its code is not among the granted ones
      · refine ⟨call, hcall, hready.1, fun hmem => ?_, item, hrow, rfl⟩
        obtain ⟨item', hitem', hused'⟩ := (h.once call.key).2 hmem
        obtain rfl := Option.some.inj (hrow.symm.trans hitem')
        rw [hused] at hused'
        cases hused'
      · obtain ⟨call', hunspent⟩ := h.opened c' tx hold
        exact ⟨call', hunspent.listed, hunspent.running, hunspent.fresh, hunspent.row⟩
  · exact h

/-- A transaction ends without a grant, and its call settles. -/
theorem GrantedOnce.rollBack (h : GrantedOnce w) (c : ℕ) :
    GrantedOnce { w with lock := w.lock.settle c true, opened := w.opened.erase c } := by
  have herased : GrantedOnce { w with opened := w.opened.erase c } := by
    refine ⟨h.lock, h.once, fun c' tx htx => ?_⟩
    obtain ⟨call, hcall⟩ := h.opened c' tx (GoMap.lookup_erase_eq_some htx).2
    exact ⟨call, hcall.listed, hcall.running, hcall.fresh, hcall.row⟩
  exact herased.settle (AList.lookup_erase _ _) true

variable {db₁ : Database} {tx : OpenRedemption} {call : LockCall String RedeemTask}

/-- The row of a code is still there when a row is marked, its own or another one. -/
theorem row_markRedeemed {now userId : ℤ} {normalized : String} {db : Database} (id : ℤ)
    (hcodes : db₁.redemptionCodes = db.redemptionCodes)
    (h : ∃ row, lockRedemptionCode normalized db = some row ∧ row.id = tx.item.id) :
    ∃ row, lockRedemptionCode normalized (markRedeemed now userId id db₁) = some row ∧
      row.id = tx.item.id := by
  obtain ⟨row, hrow, hid⟩ := h
  refine ⟨_, by rw [lockRedemptionCode_markRedeemed, lockRedemptionCode_congr hcodes, hrow,
    Option.map_some], ?_⟩
  split <;> exact hid

/-- **A grant.** Its call holds the lock of its code, so every other call that has read a row has
read that of another code, and the code of this one has not been granted before. -/
theorem GrantedOnce.grant (h : GrantedOnce w)
    (hcall : w.Unspent c tx call) (hcodes : db₁.redemptionCodes = w.db.redemptionCodes)
    (now userId : ℤ) : GrantedOnce ⟨markRedeemed now userId tx.item.id db₁, w.lock.settle c false,
      w.opened.erase c, w.granted ++ [call.key]⟩ where
  lock := h.lock.settle c false
  once k := by
    by_cases hk : k = call.key
    · subst hk
      refine ⟨?_, fun _ => ?_⟩
      · rw [List.count_append, List.count_eq_zero_of_not_mem hcall.fresh]
        simp
      · obtain ⟨row, hrow, hid⟩ := hcall.row
        rw [← hid]
        exact marked_of_markRedeemed ((lockRedemptionCode_congr hcodes call.key).trans hrow)
    · refine ⟨?_, fun hmem => ?_⟩
      · rw [List.count_append, List.count_singleton]
        have hone := (h.once k).1
        simp [Ne.symm hk, hone]
      · have hold : k ∈ w.granted := by simpa [hk] using hmem
        obtain ⟨item, hitem, hused⟩ := (h.once k).2 hold
        have hmarked : Marked k db₁ := ⟨item, (lockRedemptionCode_congr hcodes k).trans hitem, hused⟩
        exact hmarked.markRedeemed tx.item.id
  opened c' tx' htx' := by
    obtain ⟨hne, hold⟩ := GoMap.lookup_erase_eq_some htx'
    obtain ⟨other, hother⟩ := h.opened c' tx' hold
    have hkey : other.key ≠ call.key := fun hsame => hne <|
      h.lock.chained.exclusive hother.listed hcall.listed hsame
        (LockCall.holds_of_running hother.running) (LockCall.holds_of_running hcall.running)
    refine ⟨other, calls_settle_of_ne hother.listed hne false, hother.running, ?_,
      row_markRedeemed tx.item.id hcodes hother.row⟩
    rw [List.mem_append, List.mem_singleton]
    rintro (hmem | hsame)
    · exact hother.fresh hmem
    · exact hkey hsame

/-- Either the step leaves the database alone, or it is a call's grant of what its code is worth
to its user, with the code marked. -/
theorem finish_cases (h : GrantedOnce w) (c : ℕ) (fault : ℕ → Option String) :
    (w.finish c fault = w ∨ w.finish c fault =
      { w with lock := w.lock.settle c true, opened := w.opened.erase c }) ∨
    ∃ tx call db₁, w.opened.lookup c = some tx ∧ w.Unspent c tx call ∧
      GrantsWorth tx.now call.task.userId tx.item w.db db₁ ∧
      db₁.redemptionCodes = w.db.redemptionCodes ∧
      w.finish c fault = ⟨markRedeemed tx.now call.task.userId tx.item.id db₁, w.lock.settle c false,
        w.opened.erase c, w.granted ++ [call.key]⟩ := by
  unfold RedemptionPanel.finish
  rcases htx : w.opened.lookup c with _ | tx
  · exact .inl (.inl (by split <;> simp_all))
  obtain ⟨call, hunspent⟩ := h.opened c tx htx
  rw [hunspent.listed]
  dsimp only
  rcases hrun : (withDatabaseTransaction (grantCode call.task.env tx.now call.task.userId call.key
    tx.item)).run fault w.db with ⟨_ | r, db'⟩
  · obtain rfl := (failsClean_transaction _).run_error hrun
    exact .inl (.inr rfl)
  · obtain ⟨db₁, hworth, hcodes, rfl⟩ := grantCode_spec (Returns.of_run hrun).of_transaction
    exact .inr ⟨tx, call, db₁, rfl, hunspent, hworth, hcodes, rfl⟩

theorem grantedOnce_step (w : RedemptionPanel) (e : RedemptionEvent) (h : GrantedOnce w) :
    GrantedOnce (stepRedemption w e) := by
  cases e with
  | redeem env userId retryAfterSeconds normalized =>
    unfold stepRedemption
    dsimp only
    split_ifs
    · exact h
    · exact h.move (h.lock.request normalized _) fun _ _ _ _ hcall _ =>
        LockState.calls_request_old hcall
  | resume c => exact h.move (h.lock.resume c) fun _ _ _ _ hcall hrunning =>
      calls_resume_of_running hcall hrunning c
  | read c now fault => exact h.read c now fault
  | finish c fault =>
    show GrantedOnce (w.finish c fault)
    rcases finish_cases h c fault with (hsame | hback) |
      ⟨tx, call, db₁, -, hunspent, -, hcodes, hgrant⟩
    · rw [hsame]; exact h
    · rw [hback]; exact h.rollBack c
    · rw [hgrant]; exact h.grant hunspent hcodes tx.now call.task.userId
  | release c => exact h.move (h.lock.release c) fun _ _ _ _ hcall hrunning =>
      LockState.calls_release_of_unsettled hcall (by simp [hrunning]) c
  | crash =>
    refine ⟨LockState.Kept.empty, h.once, fun c tx htx => ?_⟩
    have htx : (∅ : GoMap ℕ OpenRedemption).lookup c = some tx := htx
    rw [AList.lookup_empty] at htx
    cases htx
  | other edit =>
    have hsame : ({ edit w.db with redemptionCodes := w.db.redemptionCodes } :
        Database).redemptionCodes = w.db.redemptionCodes := rfl
    refine ⟨h.lock, fun c => ⟨(h.once c).1, fun hc => ?_⟩, fun c tx htx => ?_⟩
    · obtain ⟨item, hitem, hused⟩ := (h.once c).2 hc
      exact ⟨item, (lockRedemptionCode_congr hsame c).trans hitem, hused⟩
    · obtain ⟨call, hcall, hrunning, hfresh, row, hrow, hid⟩ := h.opened c tx htx
      exact ⟨call, hcall, hrunning, hfresh, row, (lockRedemptionCode_congr hsame call.key).trans hrow,
        hid⟩

end

/-- A call that reads and checks its row writes nothing, whatever comes of it. -/
theorem same_read (w : RedemptionPanel) (c : ℕ) (now : ℤ) (fault : ℕ → Option String) :
    (w.read c now fault).granted = w.granted ∧ (w.read c now fault).db = w.db := by
  unfold RedemptionPanel.read
  split
  · exact ⟨rfl, rfl⟩
  · split_ifs
    · split <;> exact ⟨rfl, rfl⟩
    · exact ⟨rfl, rfl⟩

/-- **Redemption codes are single-use.** However the calls interleave, at most one call on a code
grants what it is worth. Every step of a call either leaves the database alone, as each one does in
which the call fails, or grants what its code is worth to its user and marks the code; and so a
whole call that fails, at whichever statement, leaves the database as it found it. -/
theorem redeemed_at_most_once (db : Database) (es : List RedemptionEvent) (c : String) :
    let w := run stepRedemption (.start db) es
    w.granted.count c ≤ 1 ∧
      (∀ e, (∀ edit, e ≠ .other edit) →
        ((stepRedemption w e).granted = w.granted ∧ (stepRedemption w e).db = w.db) ∨
        ∃ id fault tx call db₁, e = .finish id fault ∧ w.opened.lookup id = some tx ∧
          w.lock.calls[id]? = some call ∧ (stepRedemption w e).granted = w.granted ++ [call.key] ∧
          GrantsWorth tx.now call.task.userId tx.item w.db db₁ ∧
          (stepRedemption w e).db = markRedeemed tx.now call.task.userId tx.item.id db₁) ∧
      ∀ env now userId retryAfterSeconds,
        FailsClean (redeemCode env now userId retryAfterSeconds c) := by
  intro w
  have h : GrantedOnce w := run_invariant grantedOnce_step es _ (.start db)
  refine ⟨(h.once c).1, fun e hother => ?_, fun env now userId retry => failsClean_redeemCode retry⟩
  cases e with
  | other edit => exact absurd rfl (hother edit)
  | finish id fault =>
    rcases finish_cases h id fault with hnothing | ⟨tx, call, db₁, htx, hunspent, hworth, -, hgrant⟩
    · refine .inl ?_
      show (w.finish id fault).granted = w.granted ∧ (w.finish id fault).db = w.db
      rcases hnothing with hsame | hback
      · rw [hsame]; exact ⟨rfl, rfl⟩
      · rw [hback]; exact ⟨rfl, rfl⟩
    · exact .inr ⟨id, fault, tx, call, db₁, rfl, htx, hunspent.listed,
        congrArg RedemptionPanel.granted hgrant, hworth, congrArg RedemptionPanel.db hgrant⟩
  | redeem env userId retryAfterSeconds normalized =>
    refine .inl ?_
    rw [stepRedemption]
    split_ifs <;> exact ⟨rfl, rfl⟩
  | read id now fault => exact .inl (same_read w id now fault)
  | resume id => exact .inl ⟨rfl, rfl⟩
  | release id => exact .inl ⟨rfl, rfl⟩
  | crash => exact .inl ⟨rfl, rfl⟩

end ForwardX.Panel
