/-
Passes that restore a user's rules after an access recovery, `server/repositories/userForwardAccessRecovery.ts`.

A call made in a transaction waits for its commit, and a call that finds a pass of its user queued
adds none. So a pass must start after every call; the proof keeps a log of calls and starts and says
of each call where its pass is to come from.
-/
import ForwardX.Panel.BillingUserLock
import Mathlib.Data.Finset.Erase
import Mathlib.Data.Finset.Insert

namespace ForwardX.Panel.AccessRecovery

open Run TaskLock List

/-! ## Calls and passes -/

inductive LockJob where
  | billing
  | recovery (userId : JsNumber)

inductive TxState where
  | active
  | committed
  | aborted

/-- A transaction with its `afterCommit` callbacks, which are calls here. -/
structure Tx where
  afterCommit : List (ℕ × JsNumber) := []
  state : TxState := .active

inductive LogEntry where
  | called (n : ℕ) (userId : JsNumber)
  | dropped (n : ℕ)
  | passStarted (userId : JsNumber)
  | accessChanged (userId : JsNumber)

structure RecoveryWorld where
  lock : LockState JsString LockJob := {}
  queuedRecoveryUsers : Finset JsNumber := ∅
  /-- The calls of the lock behind which the flag was cleared. -/
  cleared : List ℕ := []
  transactions : List Tx := []
  scheduled : ℕ := 0
  log : List LogEntry := []

namespace RecoveryWorld

def called (w : RecoveryWorld) (userId : JsNumber) : RecoveryWorld :=
  { w with scheduled := w.scheduled + 1, log := w.log ++ [.called w.scheduled userId] }

/-- The callback: a pass at once, or one behind the lock, or none if one is flagged. -/
def recover (w : RecoveryWorld) (userId : JsNumber) : RecoveryWorld :=
  let lockKey := trafficBillingUserLockKey userId
  if w.lock.depth lockKey = 0 then { w with log := w.log ++ [.passStarted userId] }
  else if userId ∈ w.queuedRecoveryUsers then w
  else { w with
    queuedRecoveryUsers := insert userId w.queuedRecoveryUsers
    lock := w.lock.request lockKey (.recovery userId) }

def scheduleUserForwardRulesAfterAccessRecovery (w : RecoveryWorld) (transaction : Option ℕ)
    (userId : JsNumber) : RecoveryWorld :=
  match transaction with
  | none => (w.called userId).recover userId
  | some t =>
    match w.transactions[t]? with
    | some ⟨afterCommit, .active⟩ =>
      { w.called userId with
        transactions := w.transactions.set t ⟨afterCommit ++ [(w.scheduled, userId)], .active⟩ }
    | _ => w

def runAfterCommitCallback (w : RecoveryWorld) (t : ℕ) : RecoveryWorld :=
  match w.transactions[t]? with
  | some ⟨(_, userId) :: rest, .committed⟩ =>
    RecoveryWorld.recover { w with transactions := w.transactions.set t ⟨rest, .committed⟩ } userId
  | _ => w

def commit (w : RecoveryWorld) (t : ℕ) : RecoveryWorld :=
  match w.transactions[t]? with
  | some ⟨afterCommit, .active⟩ =>
    { w with transactions := w.transactions.set t ⟨afterCommit, .committed⟩ }
  | _ => w

/-- What the calls of the transaction were made for has not happened. -/
def rollBack (w : RecoveryWorld) (t : ℕ) : RecoveryWorld :=
  match w.transactions[t]? with
  | some ⟨afterCommit, .active⟩ => { w with
      transactions := w.transactions.set t ⟨[], .aborted⟩
      log := w.log ++ afterCommit.map fun call => .dropped call.1 }
  | _ => w

/-- A callback of a committed transaction throws: those behind it never run. -/
def callbackThrows (w : RecoveryWorld) (t : ℕ) : RecoveryWorld :=
  match w.transactions[t]? with
  | some ⟨_, .committed⟩ => { w with transactions := w.transactions.set t ⟨[], .aborted⟩ }
  | _ => w

/-- A call of the lock is let in; if it is a queued pass, this is its start. -/
def resume (w : RecoveryWorld) (c : ℕ) : RecoveryWorld :=
  match w.lock.calls[c]? with
  | none => w
  | some call =>
    if w.lock.Resumable call then
      let log := match call.task with
        | .recovery userId => w.log ++ [.passStarted userId]
        | .billing => w.log
      { w with lock := w.lock.resume c, log }
    else w

/-- The `finally` behind a queued pass. -/
def clearFlag (w : RecoveryWorld) (c : ℕ) : RecoveryWorld :=
  match w.lock.calls[c]? with
  | some ⟨_, _, .released, .recovery userId⟩ =>
    if c ∈ w.cleared then w
    else { w with
      queuedRecoveryUsers := w.queuedRecoveryUsers.erase userId
      cleared := w.cleared ++ [c] }
  | _ => w

end RecoveryWorld

inductive RecoveryEvent where
  | schedule (transaction : Option ℕ) (userId : JsNumber)
  | beginTransaction
  | commit (t : ℕ)
  | callback (t : ℕ)
  | rollBack (t : ℕ)
  | callbackThrows (t : ℕ)
  | acquire (key : JsString)
  | resume (c : ℕ)
  | settle (c : ℕ) (failed : Bool)
  | release (c : ℕ)
  | clearFlag (c : ℕ)
  | changeAccess (userId : JsNumber)

def stepRecovery (w : RecoveryWorld) : RecoveryEvent → RecoveryWorld
  | .schedule transaction userId => w.scheduleUserForwardRulesAfterAccessRecovery transaction userId
  | .beginTransaction => { w with transactions := w.transactions ++ [{}] }
  | .commit t => w.commit t
  | .callback t => w.runAfterCommitCallback t
  | .rollBack t => w.rollBack t
  | .callbackThrows t => w.callbackThrows t
  | .acquire key => { w with lock := w.lock.request key .billing }
  | .resume c => w.resume c
  | .settle c failed => { w with lock := w.lock.settle c failed }
  | .release c => { w with lock := w.lock.release c }
  | .clearFlag c => w.clearFlag c
  | .changeAccess userId => { w with log := w.log ++ [.accessChanged userId] }

/-! ## What becomes of a call -/

def StartedAfter (log : List LogEntry) (n : ℕ) (userId : JsNumber) : Prop :=
  ∃ before after, log = before ++ .called n userId :: after ∧ .passStarted userId ∈ after

def RecoveryWorld.PassWaits (w : RecoveryWorld) (userId : JsNumber) : Prop :=
  ∃ (c : ℕ) (call : LockCall JsString LockJob),
    w.lock.calls[c]? = some call ∧ call.task = .recovery userId ∧ call.phase = .waiting

/-- A pass has started after the call or waits for the lock, unless the transaction of the call was rolled back
or has not come to it yet. -/
def RecoveryWorld.Follows (w : RecoveryWorld) (n : ℕ) (userId : JsNumber) : Prop :=
  .dropped n ∈ w.log ∨ (∃ tx ∈ w.transactions, (n, userId) ∈ tx.afterCommit) ∨
    StartedAfter w.log n userId ∨ w.PassWaits userId

/-- A queued pass of the user has started, and its flag is not cleared. -/
def RecoveryWorld.PassUnderway (w : RecoveryWorld) (userId : JsNumber) : Prop :=
  ∃ (c : ℕ) (call : LockCall JsString LockJob),
    w.lock.calls[c]? = some call ∧ call.task = .recovery userId ∧ call.phase ≠ .waiting ∧ c ∉ w.cleared

def RecoveryWorld.ClearOf (w : RecoveryWorld) (userId : JsNumber) : Prop :=
  w.lock.depth (trafficBillingUserLockKey userId) = 0 ∨ ¬ w.PassUnderway userId

/-- No call does its work while a queued pass of its user is under way, and no callback throws in front of
one. -/
def Unhindered (w : RecoveryWorld) : RecoveryEvent → Prop
  | .schedule none userId => w.ClearOf userId
  | .callback t => ∀ n userId rest, w.transactions[t]? = some ⟨(n, userId) :: rest, .committed⟩ →
      w.ClearOf userId
  | .callbackThrows t => ∀ call rest, w.transactions[t]? ≠ some ⟨call :: rest, .committed⟩
  | _ => True

/-! ## Steps that only add -/

variable {userId : JsNumber} {n : ℕ} {w : RecoveryWorld}

theorem StartedAfter.append {log : List LogEntry}
    (h : StartedAfter log n userId) (more : List LogEntry) : StartedAfter (log ++ more) n userId := by
  obtain ⟨before, after, rfl, hstarted⟩ := h
  exact ⟨before, after ++ more, by simp, mem_append_left more hstarted⟩

theorem startedAfter_of_mem {log : List LogEntry}
    (h : .called n userId ∈ log) : StartedAfter (log ++ [.passStarted userId]) n userId := by
  obtain ⟨before, after, rfl⟩ := append_of_mem h
  exact ⟨before, after ++ [.passStarted userId], by simp, by simp⟩

theorem RecoveryWorld.Follows.grow {w w' : RecoveryWorld}
    (h : w.Follows n userId) {more : List LogEntry} (hlog : w'.log = w.log ++ more)
    (htxs : ∀ tx ∈ w.transactions, (n, userId) ∈ tx.afterCommit →
      .dropped n ∈ w'.log ∨ ∃ tx' ∈ w'.transactions, (n, userId) ∈ tx'.afterCommit)
    (hwaits : w.PassWaits userId → StartedAfter w'.log n userId ∨ w'.PassWaits userId) :
    w'.Follows n userId := by
  rcases h with hdropped | ⟨tx, hmem, hcall⟩ | hstarted | hpass
  · rw [RecoveryWorld.Follows, hlog]
    exact .inl (mem_append_left more hdropped)
  · rcases htxs tx hmem hcall with hdropped | htx
    · exact .inl hdropped
    · exact .inr (.inl htx)
  · rw [RecoveryWorld.Follows, hlog]
    exact .inr (.inr (.inl (hstarted.append more)))
  · exact .inr (.inr (hwaits hpass))

theorem RecoveryWorld.Follows.move (h : w.Follows n userId) {lock : LockState JsString LockJob}
    (hcalls : ∀ (c : ℕ) (call : LockCall JsString LockJob), w.lock.calls[c]? = some call →
      call.phase = .waiting → lock.calls[c]? = some call) :
    RecoveryWorld.Follows { w with lock } n userId := by
  refine h.grow (append_nil _).symm (fun tx hmem hcall => .inr ⟨tx, hmem, hcall⟩) ?_
  rintro ⟨c, call, hcall, htask, hphase⟩
  exact .inr ⟨c, call, hcalls c call hcall hphase, htask, hphase⟩

/-! ## The lock and the flags -/

/-- Behind every flag is a queued pass that has not cleared it. -/
structure RecoveryWorld.Kept (w : RecoveryWorld) : Prop where
  lock : w.lock.Kept
  clearedOld : ∀ c ∈ w.cleared, c < w.lock.labels.length
  flagged : ∀ userId ∈ w.queuedRecoveryUsers, ∃ (c : ℕ) (key : JsString),
    w.lock.labels[c]? = some (key, .recovery userId) ∧ c ∉ w.cleared

theorem RecoveryWorld.Kept.empty : RecoveryWorld.Kept {} where
  lock := LockState.Kept.empty
  clearedOld := forall_mem_nil _
  flagged _ h := absurd h (Finset.notMem_empty _)

theorem RecoveryWorld.Kept.move (h : w.Kept) {lock : LockState JsString LockJob}
    (hkept : lock.Kept) (hlabels : lock.labels = w.lock.labels) : RecoveryWorld.Kept { w with lock } where
  lock := hkept
  clearedOld := by
    rw [hlabels]
    exact h.clearedOld
  flagged := by
    rw [hlabels]
    exact h.flagged

theorem RecoveryWorld.Kept.request (h : w.Kept) (key : JsString) (job : LockJob) :
    RecoveryWorld.Kept { w with lock := w.lock.request key job } where
  lock := h.lock.request key job
  clearedOld := by
    intro c hc
    have hlt := h.clearedOld c hc
    rw [LockState.labels_request, length_append]
    omega
  flagged := by
    intro userId hflag
    obtain ⟨c, key', hlabel, hc⟩ := h.flagged userId hflag
    refine ⟨c, key', ?_, hc⟩
    rw [LockState.labels_request, getElem?_append_left (List.getElem?_eq_some_iff.mp hlabel).1]
    exact hlabel

theorem RecoveryWorld.Kept.recover (h : w.Kept) (userId : JsNumber) : (w.recover userId).Kept := by
  unfold RecoveryWorld.recover
  dsimp only
  split
  · exact ⟨h.lock, h.clearedOld, h.flagged⟩
  · split
    · exact h
    · have hrequest := h.request (trafficBillingUserLockKey userId) (.recovery userId)
      refine ⟨hrequest.lock, hrequest.clearedOld, ?_⟩
      intro other hother
      rcases Finset.mem_insert.mp hother with rfl | hother
      · refine ⟨w.lock.labels.length, trafficBillingUserLockKey other, ?_, ?_⟩
        · rw [LockState.labels_request, getElem?_append_right le_rfl, Nat.sub_self]
          rfl
        · intro hcleared
          exact lt_irrefl _ (h.clearedOld _ hcleared)
      · exact hrequest.flagged other hother

theorem RecoveryWorld.Kept.clearFlag (h : w.Kept) (c : ℕ) : (w.clearFlag c).Kept := by
  unfold RecoveryWorld.clearFlag
  split
  · rename_i key previous userId hcall
    split
    · exact h
    · have hlabel : w.lock.labels[c]? = some (key, .recovery userId) := by
        rw [LockState.labels, getElem?_map, hcall]
        rfl
      refine ⟨h.lock, ?_, ?_⟩
      · rw [forall_mem_append, forall_mem_singleton]
        exact ⟨h.clearedOld, (List.getElem?_eq_some_iff.mp hlabel).1⟩
      · intro other hother
        obtain ⟨hne, hother⟩ := Finset.mem_erase.mp hother
        obtain ⟨c', key', hlabel', hc'⟩ := h.flagged other hother
        refine ⟨c', key', hlabel', ?_⟩
        rw [mem_append, mem_singleton, not_or]
        refine ⟨hc', ?_⟩
        rintro rfl
        rw [hlabel, Option.some.injEq, Prod.mk.injEq, LockJob.recovery.injEq] at hlabel'
        exact hne hlabel'.2.symm
  · exact h

/-! ## One callback -/

theorem RecoveryWorld.Kept.recover_follows (h : w.Kept)
    (hclear : w.ClearOf userId) (hcalled : .called n userId ∈ w.log) :
    (w.recover userId).Follows n userId := by
  unfold RecoveryWorld.recover
  dsimp only
  split
  · exact .inr (.inr (.inl (startedAfter_of_mem hcalled)))
  · rename_i hdepth
    split
    · rename_i hflag
      obtain ⟨c, key, hlabel, hc⟩ := h.flagged userId hflag
      rw [LockState.labels, getElem?_map] at hlabel
      obtain ⟨call, hcall, hpair⟩ := Option.map_eq_some_iff.mp hlabel
      have htask : call.task = .recovery userId := (Prod.mk.inj hpair).2
      have hphase : call.phase = .waiting := by
        by_contra hstarted
        rcases hclear with hzero | hunder
        · exact hdepth hzero
        · exact hunder ⟨c, call, hcall, htask, hstarted, hc⟩
      exact .inr (.inr (.inr ⟨c, call, hcall, htask, hphase⟩))
    · -- something is pending for the key, so the queued pass waits
      have hpending : w.lock.pendingTasks.get (trafficBillingUserLockKey userId) ≠ none := by
        intro hnone
        exact hdepth ((h.lock.depth_eq_zero_iff _).mpr hnone)
      refine .inr (.inr (.inr ⟨w.lock.calls.length, _, LockState.calls_request_iff.mpr (.inr ⟨rfl, rfl⟩), rfl, ?_⟩))
      rw [if_pos (Option.isSome_iff_ne_none.mpr hpending)]

theorem RecoveryWorld.Follows.recover
    (h : w.Follows n userId) (other : JsNumber) : (w.recover other).Follows n userId := by
  unfold RecoveryWorld.recover
  dsimp only
  split
  · exact h.grow rfl (fun tx hmem hcall => .inr ⟨tx, hmem, hcall⟩) .inr
  · split
    · exact h
    · refine h.grow (append_nil _).symm (fun tx hmem hcall => .inr ⟨tx, hmem, hcall⟩) ?_
      rintro ⟨c, call, hcall, htask, hphase⟩
      exact .inr ⟨c, call, LockState.calls_request_old hcall, htask, hphase⟩

theorem RecoveryWorld.called_recover {userId other : JsNumber}
    (h : .called n userId ∈ (w.recover other).log) : .called n userId ∈ w.log := by
  unfold RecoveryWorld.recover at h
  dsimp only at h
  split at h
  · simpa using h
  · split at h <;> exact h

/-! ## One step -/

def RecoveryWorld.AllFollow (w : RecoveryWorld) : Prop :=
  ∀ n userId, .called n userId ∈ w.log → w.Follows n userId

theorem mem_set_of_mem {l : List Tx} {t : ℕ} {old tx : Tx} (new : Tx) (ht : l[t]? = some old) (h : tx ∈ l) :
    tx = old ∨ tx ∈ l.set t new := by
  obtain ⟨i, hi⟩ := mem_iff_getElem?.mp h
  by_cases hit : t = i
  · subst hit
    exact .inl (Option.some.inj (hi.symm.trans ht))
  · refine .inr (mem_of_getElem? (i := i) ?_)
    rw [getElem?_set_ne hit, hi]

theorem RecoveryWorld.Follows.setTx
    (h : w.Follows n userId) {t : ℕ} {old new : Tx} (ht : w.transactions[t]? = some old)
    (hcalls : (n, userId) ∈ old.afterCommit → (n, userId) ∈ new.afterCommit) :
    RecoveryWorld.Follows { w with transactions := w.transactions.set t new } n userId := by
  refine h.grow (append_nil _).symm ?_ .inr
  intro tx hmem hcall
  rcases mem_set_of_mem new ht hmem with rfl | hset
  · exact .inr ⟨new, mem_set (List.getElem?_eq_some_iff.mp ht).1 new, hcalls hcall⟩
  · exact .inr ⟨tx, hset, hcall⟩

theorem RecoveryWorld.Kept.called (h : w.Kept) (userId : JsNumber) : (w.called userId).Kept :=
  ⟨h.lock, h.clearedOld, h.flagged⟩

theorem RecoveryWorld.Kept.setTx (h : w.Kept) (transactions : List Tx) :
    RecoveryWorld.Kept { w with transactions } :=
  ⟨h.lock, h.clearedOld, h.flagged⟩

theorem RecoveryWorld.AllFollow.called (h : w.AllFollow)
    {other : JsNumber} (hcalled : .called n other ∈ (w.called userId).log) :
    (n = w.scheduled ∧ other = userId) ∨ (w.called userId).Follows n other := by
  rcases mem_append.mp hcalled with hold | hnew
  · exact .inr ((h n other hold).grow rfl (fun tx hmem hcall => .inr ⟨tx, hmem, hcall⟩) .inr)
  · obtain ⟨rfl, rfl⟩ := LogEntry.called.inj (mem_singleton.mp hnew)
    exact .inl ⟨rfl, rfl⟩

theorem RecoveryWorld.AllFollow.resume (h : w.AllFollow) (c : ℕ) : (w.resume c).AllFollow := by
  unfold RecoveryWorld.resume
  split
  · exact h
  rename_i call hcall
  split
  · rename_i hready
    dsimp only
    obtain ⟨more, hmore, hnone⟩ : ∃ more, (match call.task with
        | .recovery userId => w.log ++ [.passStarted userId]
        | .billing => w.log) = w.log ++ more ∧ ∀ n userId, .called n userId ∉ more := by
      split
      · exact ⟨_, rfl, by simp⟩
      · exact ⟨[], by simp, by simp⟩
    intro n userId hcalled
    dsimp only at hcalled
    have hold : .called n userId ∈ w.log := by
      rw [hmore] at hcalled
      exact (mem_append.mp hcalled).resolve_right (hnone n userId)
    refine (h n userId hold).grow hmore (fun tx hmem hcall => .inr ⟨tx, hmem, hcall⟩) ?_
    rintro ⟨c', call', hcall', htask, hphase⟩
    by_cases hc : c' = c
    · subst hc
      obtain rfl := Option.some.inj (hcall.symm.trans hcall')
      rw [htask]
      exact .inl (startedAfter_of_mem hold)
    · refine .inr ⟨c', call', ?_, htask, hphase⟩
      change (w.lock.resume c).calls[c']? = some call'
      rw [LockState.resume, hcall]
      simp only [if_pos hready]
      exact LockState.calls_toPhase_iff.mpr ⟨call', hcall', (if_neg hc).symm⟩
  · exact h

theorem RecoveryWorld.Kept.resume (h : w.Kept) (c : ℕ) : (w.resume c).Kept := by
  unfold RecoveryWorld.resume
  split
  · exact h
  · split
    · have hmove := h.move (h.lock.resume c) (LockState.labels_resume w.lock c)
      exact ⟨hmove.lock, hmove.clearedOld, hmove.flagged⟩
    · exact h

theorem RecoveryWorld.Kept.step (h : w.Kept) (e : RecoveryEvent) : (stepRecovery w e).Kept := by
  cases e with
  | schedule transaction userId =>
    dsimp only [stepRecovery]
    unfold RecoveryWorld.scheduleUserForwardRulesAfterAccessRecovery
    split
    · exact (h.called userId).recover userId
    · split
      · exact ⟨h.lock, h.clearedOld, h.flagged⟩
      · exact h
  | beginTransaction => exact ⟨h.lock, h.clearedOld, h.flagged⟩
  | commit t =>
    dsimp only [stepRecovery, RecoveryWorld.commit]
    split
    · exact ⟨h.lock, h.clearedOld, h.flagged⟩
    · exact h
  | callback t =>
    dsimp only [stepRecovery, RecoveryWorld.runAfterCommitCallback]
    split
    · exact (h.setTx _).recover _
    · exact h
  | rollBack t =>
    dsimp only [stepRecovery, RecoveryWorld.rollBack]
    split
    · exact ⟨h.lock, h.clearedOld, h.flagged⟩
    · exact h
  | callbackThrows t =>
    dsimp only [stepRecovery, RecoveryWorld.callbackThrows]
    split
    · exact ⟨h.lock, h.clearedOld, h.flagged⟩
    · exact h
  | acquire key => exact h.request key .billing
  | resume c => exact h.resume c
  | settle c failed => exact h.move (h.lock.settle c failed) (LockState.labels_settle w.lock c failed)
  | release c => exact h.move (h.lock.release c) (LockState.labels_release w.lock c)
  | clearFlag c => exact h.clearFlag c
  | changeAccess userId => exact ⟨h.lock, h.clearedOld, h.flagged⟩

section

variable (h : w.AllFollow)

include h

theorem RecoveryWorld.AllFollow.schedule (hkept : w.Kept) {transaction : Option ℕ}
    (hclear : Unhindered w (.schedule transaction userId)) :
    (w.scheduleUserForwardRulesAfterAccessRecovery transaction userId).AllFollow := by
  unfold RecoveryWorld.scheduleUserForwardRulesAfterAccessRecovery
  split
  · intro n other hcalled
    have hold := RecoveryWorld.called_recover hcalled
    rcases h.called hold with ⟨rfl, rfl⟩ | hfollows
    · exact (hkept.called other).recover_follows hclear hold
    · exact hfollows.recover userId
  · rename_i t
    split
    · rename_i afterCommit ht
      intro n other hcalled
      rcases h.called hcalled with ⟨rfl, rfl⟩ | hfollows
      · refine .inr (.inl ⟨_, mem_set (List.getElem?_eq_some_iff.mp ht).1 _, ?_⟩)
        simp
      · exact hfollows.setTx ht (mem_append_left _)
    · exact h

theorem RecoveryWorld.AllFollow.commit (t : ℕ) : (w.commit t).AllFollow := by
  unfold RecoveryWorld.commit
  split
  · rename_i afterCommit ht
    intro n userId hcalled
    exact (h n userId hcalled).setTx ht id
  · exact h

theorem RecoveryWorld.AllFollow.callback (hkept : w.Kept) {t : ℕ}
    (hclear : Unhindered w (.callback t)) : (w.runAfterCommitCallback t).AllFollow := by
  unfold RecoveryWorld.runAfterCommitCallback
  split
  · rename_i m userId rest ht
    intro n other hcalled
    have hold := RecoveryWorld.called_recover hcalled
    by_cases hother : other = userId
    · subst hother
      exact (hkept.setTx (w.transactions.set t ⟨rest, .committed⟩)).recover_follows (hclear m other rest ht) hold
    · refine RecoveryWorld.Follows.recover ((h n other hold).setTx ht fun hmem => ?_) userId
      rcases mem_cons.mp hmem with heq | hrest
      · exact absurd (Prod.mk.inj heq).2 hother
      · exact hrest
  · exact h

theorem RecoveryWorld.AllFollow.callbackThrows {t : ℕ} (hclear : Unhindered w (.callbackThrows t)) :
    (w.callbackThrows t).AllFollow := by
  unfold RecoveryWorld.callbackThrows
  split
  · rename_i afterCommit ht
    intro n userId hcalled
    refine (h n userId hcalled).setTx ht fun hmem => ?_
    obtain ⟨call, rest, rfl⟩ := exists_cons_of_ne_nil (ne_nil_of_mem hmem)
    exact absurd ht (hclear call rest)
  · exact h

theorem RecoveryWorld.AllFollow.rollBack (t : ℕ) : (w.rollBack t).AllFollow := by
  unfold RecoveryWorld.rollBack
  split
  · rename_i afterCommit ht
    intro n userId hcalled
    have hold : .called n userId ∈ w.log := by simpa using hcalled
    refine (h n userId hold).grow rfl ?_ .inr
    intro tx hmem hcall
    rcases mem_set_of_mem ⟨[], .aborted⟩ ht hmem with rfl | hset
    · exact .inl (mem_append_right _ (mem_map.mpr ⟨_, hcall, rfl⟩))
    · exact .inr ⟨tx, hset, hcall⟩
  · exact h

theorem RecoveryWorld.AllFollow.clearFlag (c : ℕ) : (w.clearFlag c).AllFollow := by
  unfold RecoveryWorld.clearFlag
  split
  · split
    · exact h
    · exact h
  · exact h

theorem RecoveryWorld.AllFollow.step (hkept : w.Kept)
    {e : RecoveryEvent} (hclear : Unhindered w e) : (stepRecovery w e).AllFollow := by
  cases e with
  | schedule transaction userId => exact h.schedule hkept hclear
  | beginTransaction =>
    intro n userId hcalled
    refine (h n userId hcalled).grow (append_nil _).symm ?_ .inr
    intro tx hmem hcall
    exact .inr ⟨tx, mem_append_left _ hmem, hcall⟩
  | commit t => exact h.commit t
  | callback t => exact h.callback hkept hclear
  | rollBack t => exact h.rollBack t
  | callbackThrows t => exact h.callbackThrows hclear
  | acquire key =>
    intro n userId hcalled
    exact (h n userId hcalled).move fun c call hcall _ => LockState.calls_request_old hcall
  | resume c => exact h.resume c
  | settle c failed =>
    intro n userId hcalled
    exact (h n userId hcalled).move fun i call hcall hphase =>
      LockState.calls_settle_of_waiting hcall hphase c failed
  | release c =>
    intro n userId hcalled
    exact (h n userId hcalled).move fun i call hcall hphase =>
      LockState.calls_release_of_unsettled hcall (by simp [hphase]) c
  | clearFlag c => exact h.clearFlag c
  | changeAccess other =>
    intro n userId hcalled
    have hold : .called n userId ∈ w.log := by simpa [stepRecovery] using hcalled
    exact (h n userId hold).grow rfl (fun tx hmem hcall => .inr ⟨tx, hmem, hcall⟩) .inr

end

/-! ## Runs -/

/-- **No call is lost in a run that is clear of passes under way**, and in which no callback throws in front of
one: a pass of its user starts after it, or waits for the lock, where nothing is stuck. Only a call whose own
transaction was rolled back needs none. -/
theorem recovery_follows (es : List RecoveryEvent) (hclear : Admissible Unhindered stepRecovery {} es) :
    (∀ n userId, .called n userId ∈ (run stepRecovery {} es).log →
      (run stepRecovery {} es).Follows n userId) ∧
    ∀ (c : ℕ) (call : LockCall JsString LockJob), (run stepRecovery {} es).lock.calls[c]? = some call →
      call.phase = .waiting → ∃ (i : ℕ) (first : LockCall JsString LockJob),
        (run stepRecovery {} es).lock.calls[i]? = some first ∧ first.key = call.key ∧
        (first.Holds ∨ (run stepRecovery {} es).lock.Resumable first) := by
  have hboth : (run stepRecovery {} es).Kept ∧ (run stepRecovery {} es).AllFollow := by
    refine run_invariant_of_admissible (I := fun w => w.Kept ∧ w.AllFollow)
      (fun w e hclear hw => ⟨hw.1.step e, hw.2.step hw.1 hclear⟩) es _ hclear ⟨.empty, ?_⟩
    intro n userId hcalled
    cases hcalled
  refine ⟨hboth.2, ?_⟩
  intro c call hcall hphase
  refine hboth.1.lock.first_ready hcall ?_
  rw [hphase]
  nofun

/-- A call behind a billing operation, up to the start of its pass. -/
def queuedCall : List RecoveryEvent :=
  [.acquire (js "traffic-billing-user:1"), .schedule none (.finite 1), .settle 0 false, .release 0, .resume 1]

theorem recovery_follows_queued : (run stepRecovery {} queuedCall).Follows 0 (.finite 1) := by
  have hclear : Admissible Unhindered stepRecovery {} queuedCall := by
    refine ⟨trivial, .inr ?_, trivial, trivial, trivial, trivial⟩
    rintro ⟨c, call, hcall, htask, -⟩
    match c with
    | 0 =>
      obtain rfl := Option.some.inj hcall
      cases htask
    | c + 1 => cases hcall
  exact (recovery_follows queuedCall hclear).1 0 (.finite 1) (List.mem_of_getElem? (i := 0) rfl)

/-- A second call while the queued pass of the first is under way. -/
def lateCall : List RecoveryEvent :=
  queuedCall ++ [.changeAccess (.finite 1), .schedule none (.finite 1), .settle 1 false, .release 1,
    .clearFlag 1]

/-- When all is over, no pass has started after the second call, and none waits. -/
theorem recovery_lost : .called 1 (.finite 1) ∈ (run stepRecovery {} lateCall).log ∧
    ¬ (run stepRecovery {} lateCall).Follows 1 (.finite 1) := by
  have hlog : (run stepRecovery {} lateCall).log = [.called 0 (.finite 1), .passStarted (.finite 1),
      .accessChanged (.finite 1), .called 1 (.finite 1)] := rfl
  have hcalls : (run stepRecovery {} lateCall).lock.calls.map LockCall.phase
      = [.released, .released] := rfl
  have htxs : (run stepRecovery {} lateCall).transactions = [] := rfl
  refine ⟨by simp [hlog], ?_⟩
  rintro (hdropped | ⟨tx, hmem, -⟩ | ⟨before, after, hsplit, hstarted⟩ | ⟨c, call, hcall, -, hphase⟩)
  · simp [hlog] at hdropped
  · rw [htxs] at hmem
    cases hmem
  · rw [hlog] at hsplit
    rcases before with _ | ⟨_, _ | ⟨_, _ | ⟨_, _ | ⟨_, _⟩⟩⟩⟩ <;> simp at hsplit
    rw [hsplit.2.2.2] at hstarted
    cases hstarted
  · have hwaiting : Phase.waiting ∈ (run stepRecovery {} lateCall).lock.calls.map LockCall.phase :=
      hphase ▸ List.mem_map_of_mem (List.mem_of_getElem? hcall)
    rw [hcalls] at hwaiting
    simp at hwaiting

end ForwardX.Panel.AccessRecovery
