/-
The locks of `server/keyedTaskLock.ts` as their callers see them.

A billing task that starts another one of the same user must not wait for itself: the asynchronous
context carries the tokens of the locks that are held, and a call that finds its own token there, and
the token still active, runs at once. So not every task that runs for a key has the lock. What is
proved is that this is all there is: the calls that do take the lock run one at a time and in order,
and whatever else runs for the key was let in under the one that has it. That no two tasks run side
by side is then a matter of the callers, who must not end before what they have let in.
-/
import ForwardX.Lib.Run
import ForwardX.Panel.JsValues
import ForwardX.Panel.KeyedTaskLock
import Mathlib.Data.Rat.Floor

namespace ForwardX.Panel.TaskLock

open Run List

/-! ## Calls -/

/-- `Number.isFinite(id) && id > 0 ? Math.floor(id) : 0`. -/
def floorPositive : JsNumber → ℕ
  | .finite q => if 0 < q then ⌊q⌋.toNat else 0
  | _ => 0

/-- From what `Number` makes of `userId || 0`. -/
def trafficBillingUserLockKey (userId : JsNumber) : JsString :=
  js "traffic-billing-user:" ++ decimalText (floorPositive userId)

/-- What a call wants to run. A token is named by the call whose task made it. -/
inductive LockTask where
  | keyed
  | billing (inheritedLocks : JsMap JsString ℕ)

/-- A task that runs without a call of the lock, `owner` being the holder that it is let in
under. -/
structure DirectTask where
  key : JsString
  owner : Option ℕ
  running : Bool

structure TaskWorld where
  lock : LockState JsString LockTask := {}
  direct : List DirectTask := []

namespace TaskWorld

def withKeyedTaskLock (w : TaskWorld) (keyValue : JsString) (task : LockTask) : TaskWorld :=
  let key := trim keyValue
  if key = [] then { w with direct := w.direct ++ [⟨key, none, true⟩] }
  else { w with lock := w.lock.request key task }

/-- `token.active`: the task that made it has not ended. -/
def active (w : TaskWorld) (token : ℕ) : Bool := w.lock.phase token = some .running

/-- The store of the asynchronous context: none outside, else that of a task that has
started. -/
def getStore (w : TaskWorld) : Option ℕ → Option (JsMap JsString ℕ)
  | none => some ∅
  | some c =>
    match w.lock.calls[c]? with
    | some ⟨key, _, phase, .billing inheritedLocks⟩ =>
      if phase = .waiting then none else some (inheritedLocks.set key c)
    | _ => none

def withTrafficBillingUserLock (w : TaskWorld) (inheritedLocks : JsMap JsString ℕ) (userId : JsNumber) :
    TaskWorld :=
  let key := trafficBillingUserLockKey userId
  match inheritedLocks.get key with
  | none => w.withKeyedTaskLock key (.billing inheritedLocks)
  | some token =>
    if w.active token then { w with direct := w.direct ++ [⟨key, some token, true⟩] }
    else w.withKeyedTaskLock key (.billing inheritedLocks)

def finishDirect (w : TaskWorld) (d : ℕ) : TaskWorld :=
  { w with direct := w.direct.modify d fun task => { task with running := false } }

end TaskWorld

inductive TaskEvent where
  | keyed (keyValue : JsString)
  | billing (caller : Option ℕ) (userId : JsNumber)
  | resume (c : ℕ)
  | settle (c : ℕ) (failed : Bool)
  | release (c : ℕ)
  | finishDirect (d : ℕ) (failed : Bool)

def stepTask (w : TaskWorld) : TaskEvent → TaskWorld
  | .keyed keyValue => w.withKeyedTaskLock keyValue .keyed
  | .billing caller userId =>
    match w.getStore caller with
    | none => w
    | some inheritedLocks => w.withTrafficBillingUserLock inheritedLocks userId
  | .resume c => { w with lock := w.lock.resume c }
  | .settle c failed => { w with lock := w.lock.settle c failed }
  | .release c => { w with lock := w.lock.release c }
  | .finishDirect d _ => w.finishDirect d

/-- A holder ends only after what was let in under it. -/
def EndsOutermost (w : TaskWorld) : TaskEvent → Prop
  | .settle c _ => ∀ task ∈ w.direct, task.owner = some c → task.running = false
  | _ => True

/-- A task for the key is running that is the task of the call or was let in under it. -/
def TaskWorld.RunsUnder (w : TaskWorld) (key : JsString) (c : ℕ) : Prop :=
  (∃ call, w.lock.calls[c]? = some call ∧ call.key = key ∧ call.phase = .running) ∨
    ∃ task ∈ w.direct, task.key = key ∧ task.owner = some c ∧ task.running

/-! ## Tokens -/

/-- Every token of the store is that of a call for the key that it is under. -/
def TaskWorld.Tokens (w : TaskWorld) (locks : JsMap JsString ℕ) : Prop :=
  ∀ key token, locks.get key = some token → ∃ task, w.lock.labels[token]? = some (key, task)

/-- The locks, the tokens that tasks inherit, and the holders that tasks are let in under. -/
structure TaskWorld.Kept (w : TaskWorld) : Prop where
  lock : w.lock.Kept
  inherited : ∀ key locks, (key, LockTask.billing locks) ∈ w.lock.labels → w.Tokens locks
  owned : ∀ task ∈ w.direct, task.key ≠ [] →
    ∃ c work, task.owner = some c ∧ w.lock.labels[c]? = some (task.key, work)

theorem TaskWorld.Kept.empty : TaskWorld.Kept {} where
  lock := LockState.Kept.empty
  inherited _ _ h := by cases h
  owned := forall_mem_nil _

variable {w : TaskWorld} {locks : JsMap JsString ℕ}

theorem TaskWorld.Kept.getStore (h : w.Kept) {caller : Option ℕ}
    (hstore : w.getStore caller = some locks) : w.Tokens locks := by
  unfold TaskWorld.getStore at hstore
  split at hstore
  · obtain rfl := Option.some.inj hstore
    intro key token hget
    cases hget
  · rename_i c
    split at hstore
    · rename_i key previous phase inheritedLocks hcall
      split at hstore
      · cases hstore
      · obtain rfl := Option.some.inj hstore
        have hlabel : w.lock.labels[c]? = some (key, .billing inheritedLocks) := by
          rw [LockState.labels, getElem?_map, hcall]
          rfl
        intro key' token hget
        rw [JsMap.get_set] at hget
        split at hget
        · rename_i hkey
          obtain rfl := Option.some.inj hget
          exact ⟨_, hkey ▸ hlabel⟩
        · exact h.inherited key inheritedLocks (mem_of_getElem? hlabel) key' token hget
    · cases hstore

variable {lock : LockState JsString LockTask}

theorem TaskWorld.Kept.move (h : w.Kept)
    (hkept : lock.Kept) (hlabels : lock.labels = w.lock.labels) : TaskWorld.Kept { w with lock } where
  lock := hkept
  inherited := by
    intro key locks hmem
    unfold TaskWorld.Tokens
    rw [hlabels] at hmem ⊢
    exact h.inherited key locks hmem
  owned := by
    rw [hlabels]
    exact h.owned

theorem TaskWorld.Kept.withKeyedTaskLock (h : w.Kept) (keyValue : JsString)
    {task : LockTask} (htask : ∀ locks, task = .billing locks → w.Tokens locks) :
    (w.withKeyedTaskLock keyValue task).Kept := by
  unfold TaskWorld.withKeyedTaskLock
  dsimp only
  split
  · rename_i hempty
    refine ⟨h.lock, h.inherited, forall_mem_append.mpr ⟨h.owned, ?_⟩⟩
    rw [forall_mem_singleton]
    intro hkey
    exact absurd hempty hkey
  · -- what was known of the old calls is still known
    have hold : ∀ {c : ℕ} {label}, w.lock.labels[c]? = some label →
        (w.lock.request (trim keyValue) task).labels[c]? = some label := by
      intro c label hlabel
      rw [LockState.labels_request, getElem?_append_left (List.getElem?_eq_some_iff.mp hlabel).1]
      exact hlabel
    have htokens : ∀ locks, w.Tokens locks →
        TaskWorld.Tokens { w with lock := w.lock.request (trim keyValue) task } locks := by
      intro locks htokens key token hget
      obtain ⟨work, hwork⟩ := htokens key token hget
      exact ⟨work, hold hwork⟩
    refine ⟨h.lock.request _ _, ?_, ?_⟩
    · intro key locks hmem
      rw [LockState.labels_request, mem_append, mem_singleton, Prod.mk.injEq] at hmem
      rcases hmem with hmem | ⟨-, hnew⟩
      · exact htokens locks (h.inherited key locks hmem)
      · exact htokens locks (htask locks hnew.symm)
    · intro other hother hkey
      obtain ⟨c, work, howner, hlabel⟩ := h.owned other hother hkey
      exact ⟨c, work, howner, hold hlabel⟩

theorem TaskWorld.Kept.withTrafficBillingUserLock (h : w.Kept)
    (hlocks : w.Tokens locks) (userId : JsNumber) :
    (w.withTrafficBillingUserLock locks userId).Kept := by
  have hqueued : (w.withKeyedTaskLock (trafficBillingUserLockKey userId) (.billing locks)).Kept := by
    refine h.withKeyedTaskLock _ fun locks' heq => ?_
    obtain rfl := LockTask.billing.inj heq
    exact hlocks
  unfold TaskWorld.withTrafficBillingUserLock
  dsimp only
  split
  · exact hqueued
  · rename_i token hget
    split
    · obtain ⟨work, hwork⟩ := hlocks _ token hget
      refine ⟨h.lock, h.inherited, forall_mem_append.mpr ⟨h.owned, ?_⟩⟩
      rw [forall_mem_singleton]
      intro _
      exact ⟨token, work, rfl, hwork⟩
    · exact hqueued

theorem TaskWorld.mem_finishDirect {d : ℕ} {task : DirectTask}
    (h : task ∈ (w.finishDirect d).direct) : ∃ before ∈ w.direct,
      task.key = before.key ∧ task.owner = before.owner ∧ (task.running → before.running) := by
  obtain ⟨i, hi⟩ := mem_iff_getElem?.mp h
  rw [TaskWorld.finishDirect, getElem?_modify] at hi
  obtain ⟨before, hbefore, rfl⟩ := Option.map_eq_some_iff.mp hi
  refine ⟨before, mem_of_getElem? hbefore, ?_⟩
  split
  · exact ⟨rfl, rfl, nofun⟩
  · exact ⟨rfl, rfl, id⟩

theorem TaskWorld.Kept.step (h : w.Kept) (e : TaskEvent) : (stepTask w e).Kept := by
  cases e with
  | keyed keyValue => exact h.withKeyedTaskLock keyValue nofun
  | billing caller userId =>
    dsimp only [stepTask]
    split
    · exact h
    · rename_i locks hstore
      exact h.withTrafficBillingUserLock (h.getStore hstore) userId
  | resume c => exact h.move (h.lock.resume c) (LockState.labels_resume w.lock c)
  | settle c failed => exact h.move (h.lock.settle c failed) (LockState.labels_settle w.lock c failed)
  | release c => exact h.move (h.lock.release c) (LockState.labels_release w.lock c)
  | finishDirect d failed =>
    refine ⟨h.lock, h.inherited, ?_⟩
    intro task hmem hkey
    obtain ⟨before, hbefore, hsame, howner, -⟩ := TaskWorld.mem_finishDirect hmem
    rw [hsame] at hkey ⊢
    rw [howner]
    exact h.owned before hbefore hkey

/-! ## Tasks inside tasks -/

/-- Whatever was let in under a holder runs no longer than the holder. -/
def TaskWorld.Nested (w : TaskWorld) : Prop :=
  ∀ task ∈ w.direct, task.running → ∀ c, task.owner = some c → w.lock.phase c = some .running

theorem TaskWorld.Nested.move (h : w.Nested)
    (hphase : ∀ task ∈ w.direct, task.running → ∀ c, task.owner = some c → w.lock.phase c = some .running →
      lock.phase c = some .running) : TaskWorld.Nested { w with lock } := by
  intro task hmem hrunning c howner
  exact hphase task hmem hrunning c howner (h task hmem hrunning c howner)

theorem TaskWorld.Nested.withKeyedTaskLock (h : w.Nested) (keyValue : JsString)
    (task : LockTask) : (w.withKeyedTaskLock keyValue task).Nested := by
  unfold TaskWorld.withKeyedTaskLock
  dsimp only
  split
  · refine forall_mem_append.mpr ⟨h, ?_⟩
    rw [forall_mem_singleton]
    intro _ c howner
    cases howner
  · exact h.move fun _ _ _ _ _ hphase => LockState.phase_request_old hphase _ _

theorem TaskWorld.Nested.step (h : w.Nested) {e : TaskEvent} (hends : EndsOutermost w e) :
    (stepTask w e).Nested := by
  cases e with
  | keyed keyValue => exact h.withKeyedTaskLock keyValue .keyed
  | billing caller userId =>
    dsimp only [stepTask]
    split
    · exact h
    · rename_i locks _
      unfold TaskWorld.withTrafficBillingUserLock
      dsimp only
      split
      · exact h.withKeyedTaskLock _ _
      · rename_i token _
        split
        · rename_i hactive
          refine forall_mem_append.mpr ⟨h, ?_⟩
          rw [forall_mem_singleton]
          intro _ c howner
          obtain rfl := Option.some.inj howner
          exact of_decide_eq_true hactive
        · exact h.withKeyedTaskLock _ _
  | resume c => exact h.move fun _ _ _ _ _ hphase => LockState.phase_resume_of_ne hphase nofun c
  | settle c failed =>
    refine h.move fun task hmem hrunning c' howner hphase => ?_
    rw [LockState.phase_settle, if_neg]
    · exact hphase
    · rintro ⟨rfl, -⟩
      rw [hends task hmem howner] at hrunning
      cases hrunning
  | release c =>
    refine h.move fun task _ _ c' _ hphase => ?_
    rw [LockState.phase_release, if_neg]
    · exact hphase
    · rintro ⟨rfl, failed, hsettled⟩
      rw [hphase] at hsettled
      cases hsettled
  | finishDirect d failed =>
    intro task hmem hrunning c howner
    obtain ⟨before, hbefore, -, hsame, hran⟩ := TaskWorld.mem_finishDirect hmem
    exact h before hbefore (hran hrunning) c (hsame ▸ howner)

theorem TaskWorld.Nested.holder (h : w.Nested) (hkept : w.Kept) {key : JsString}
    (hkey : key ≠ []) {c : ℕ} (hruns : w.RunsUnder key c) :
    ∃ call, w.lock.calls[c]? = some call ∧ call.key = key ∧ call.phase = .running := by
  rcases hruns with hcall | ⟨task, hmem, rfl, howner, hrunning⟩
  · exact hcall
  · obtain ⟨call, hcall, hphase⟩ := LockState.phase_eq_some_iff.mp (h task hmem hrunning c howner)
    obtain ⟨c', work, howner', hlabel⟩ := hkept.owned task hmem hkey
    obtain rfl := Option.some.inj (howner.symm.trans howner')
    rw [LockState.labels, getElem?_map, hcall, Option.map_some] at hlabel
    exact ⟨call, hcall, (Prod.mk.inj (Option.some.inj hlabel)).1, hphase⟩

/-! ## What is let in -/

theorem TaskWorld.owner_withKeyedTaskLock {keyValue : JsString} {work : LockTask} {task : DirectTask}
    (h : (w.withKeyedTaskLock keyValue work).direct = w.direct ++ [task]) : task.owner = none := by
  unfold TaskWorld.withKeyedTaskLock at h
  dsimp only at h
  split at h
  · obtain rfl := singleton_inj.mp (append_cancel_left h)
    rfl
  · simp at h

/-- A task that is let in under a holder is let in while the holder runs. -/
theorem TaskWorld.running_of_let_in {caller : Option ℕ} {userId : JsNumber} {task : DirectTask}
    (h : (stepTask w (.billing caller userId)).direct = w.direct ++ [task]) {c : ℕ}
    (howner : task.owner = some c) : w.lock.phase c = some .running := by
  have hqueued {key : JsString} {work : LockTask}
      (h : (w.withKeyedTaskLock key work).direct = w.direct ++ [task]) :
      w.lock.phase c = some .running := by
    rw [TaskWorld.owner_withKeyedTaskLock h] at howner
    cases howner
  dsimp only [stepTask] at h
  split at h
  · simp at h
  · unfold TaskWorld.withTrafficBillingUserLock at h
    dsimp only at h
    split at h
    · exact hqueued h
    · split at h
      · rename_i hactive
        obtain rfl := singleton_inj.mp (append_cancel_left h)
        obtain rfl := Option.some.inj howner
        exact of_decide_eq_true hactive
      · exact hqueued h

/-! ## Runs -/

theorem TaskWorld.Kept.run (es : List TaskEvent) : (run stepTask {} es).Kept :=
  run_invariant (fun _ e h => h.step e) es _ TaskWorld.Kept.empty

/-- **The lock, over every run.** Of the calls that take the lock for a key, one at a time has it and
they start in order. None waits for ever behind a call that is over, and the table is empty for a key
when all its calls are. A task that runs without the lock of its key was let in under a call of the
key, which had the lock at that step. -/
theorem keyed_lock_excludes (es : List TaskEvent) : let w := run stepTask {} es
    (∀ (i j : ℕ) (a b : LockCall JsString LockTask), w.lock.calls[i]? = some a →
      w.lock.calls[j]? = some b → a.key = b.key → a.Holds → b.Holds → i = j) ∧
    (∀ (i j : ℕ) (a b : LockCall JsString LockTask), i < j → w.lock.calls[i]? = some a →
      w.lock.calls[j]? = some b → a.key = b.key → b.phase ≠ .waiting → a.phase = .released) ∧
    (∀ (i : ℕ) (a : LockCall JsString LockTask), w.lock.calls[i]? = some a → a.phase ≠ .released →
      ∃ (c : ℕ) (first : LockCall JsString LockTask), w.lock.calls[c]? = some first ∧ first.key = a.key ∧
        (first.Holds ∨ w.lock.Resumable first)) ∧
    (∀ (c : ℕ) (failed : Bool), w.lock.phase c = some (.settled failed) →
      (stepTask w (.release c)).lock.phase c = some .released) ∧
    (∀ key, w.lock.pendingTasks.get key = none ↔ ∀ (i : ℕ) (call : LockCall JsString LockTask),
      w.lock.calls[i]? = some call → call.key = key → call.phase = .released) ∧
    (∀ task ∈ w.direct, task.key ≠ [] → ∃ c call, task.owner = some c ∧
      w.lock.calls[c]? = some call ∧ call.key = task.key) ∧
    (∀ caller userId task, (stepTask w (.billing caller userId)).direct = w.direct ++ [task] →
      ∀ c, task.owner = some c → w.lock.phase c = some .running) ∧
    (Admissible EndsOutermost stepTask {} es →
      ∀ key ≠ [], ∀ c c', w.RunsUnder key c → w.RunsUnder key c' → c = c') := by
  intro w
  have hkept : w.Kept := TaskWorld.Kept.run es
  refine ⟨?_, hkept.lock.chained.inOrder, ?_, ?_, hkept.lock.get_eq_none_iff, ?_,
    fun caller userId task h c howner => TaskWorld.running_of_let_in h howner, ?_⟩
  · intro i j a b ha hb hkey
    exact hkept.lock.chained.exclusive ha hb hkey
  · intro i a ha hopen
    exact hkept.lock.first_ready ha hopen
  · intro c failed hsettled
    rw [stepTask, LockState.phase_release, if_pos ⟨rfl, failed, hsettled⟩]
  · intro task hmem hkey
    obtain ⟨c, work, howner, hlabel⟩ := hkept.owned task hmem hkey
    rw [LockState.labels, List.getElem?_map] at hlabel
    obtain ⟨call, hcall, hpair⟩ := Option.map_eq_some_iff.mp hlabel
    exact ⟨c, call, howner, hcall, (Prod.mk.inj hpair).1⟩
  · intro hadm key hkey c c' hc hc'
    have hnested : w.Nested :=
      run_invariant_of_admissible (fun _ _ hends hw => hw.step hends) es _ hadm (List.forall_mem_nil _)
    obtain ⟨a, ha, hakey, haphase⟩ := hnested.holder hkept hkey hc
    obtain ⟨b, hb, hbkey, hbphase⟩ := hnested.holder hkept hkey hc'
    exact hkept.lock.chained.exclusive ha hb (hakey.trans hbkey.symm)
      (LockCall.holds_of_running haphase) (LockCall.holds_of_running hbphase)

/-- Two tasks that run for the empty key. -/
theorem keyed_lock_overlaps :
    (∃ a b, (run stepTask {} [.keyed [], .keyed []]).direct = [a, b] ∧ a.key = b.key ∧
      a.running ∧ b.running) ∧
    ∃ call task, (run stepTask {} [.billing none (.finite 1), .billing (some 0) (.finite 1),
        .settle 0 false, .release 0, .billing none (.finite 1)]).lock.calls[1]? = some call ∧
      (run stepTask {} [.billing none (.finite 1), .billing (some 0) (.finite 1),
        .settle 0 false, .release 0, .billing none (.finite 1)]).direct = [task] ∧
      call.key = task.key ∧ call.phase = .running ∧ task.running :=
  ⟨⟨_, _, rfl, rfl, rfl, rfl⟩, ⟨_, _, rfl, rfl, rfl, rfl, rfl⟩⟩

end ForwardX.Panel.TaskLock
