/-
Reservations of a user's rule quota: `server/ruleQuotaReservations.ts`.
-/
import ForwardX.Lib.Run
import ForwardX.Panel.JsValues
import ForwardX.Panel.KeyedTaskLock
import Mathlib.Data.Finset.Card

namespace ForwardX.Panel.RuleQuota

open Chain Run TaskLock List

/-! ## Quotas -/

inductive QuotaKind where
  | rules
  | ports
  deriving DecidableEq

/-- `maxRules` and `maxPorts` of a user. -/
structure QuotaLimits where
  maxRules : ℤ
  maxPorts : ℤ

/-- `Math.max(0, Number(value) || 0)`; 0 is no limit. -/
def QuotaLimits.limit (limits : QuotaLimits) : QuotaKind → ℕ
  | .rules => limits.maxRules.toNat
  | .ports => limits.maxPorts.toNat

def QuotaLimits.unlimited (limits : QuotaLimits) : Bool :=
  limits.limit .rules = 0 && limits.limit .ports = 0

structure PendingQuota where
  rules : ℕ
  ports : ℕ

def noneQuota : PendingQuota := ⟨0, 0⟩

/-- What one reservation counts for: `maxRules > 0 ? 1 : 0`. -/
def QuotaLimits.share (limits : QuotaLimits) (kind : QuotaKind) : ℕ := if 0 < limits.limit kind then 1 else 0

/-- The decision of a reserving task, from what it has read. -/
def checkQuota (limits : QuotaLimits) (pending : PendingQuota) (ruleCount portCount : ℕ) :
    Except String PendingQuota :=
  let maxRules := limits.limit .rules
  let maxPorts := limits.limit .ports
  if 0 < maxRules ∧ maxRules ≤ ruleCount + pending.rules then
    .error s!"您已达到最大规则数量限制（{maxRules} 条）"
  else if 0 < maxPorts ∧ maxPorts ≤ portCount + pending.ports then
    .error s!"您已达到最大端口数量限制（{maxPorts} 个）"
  else .ok ⟨pending.rules + limits.share .rules, pending.ports + limits.share .ports⟩

def releaseQuota (limits : QuotaLimits) (pendingByUser : JsMap ℕ PendingQuota) (userId : ℕ) :
    JsMap ℕ PendingQuota :=
  match pendingByUser.get userId with
  | none => pendingByUser
  | some current =>
    let next : PendingQuota := ⟨current.rules - limits.share .rules, current.ports - limits.share .ports⟩
    if next.rules = 0 ∧ next.ports = 0 then pendingByUser.delete userId else pendingByUser.set userId next

/-! ## Reservations -/

inductive QuotaTask where
  | reserve (userId : ℕ)
  | release (reservation userId : ℕ)

def QuotaTask.userId : QuotaTask → ℕ
  | .reserve userId => userId
  | .release _ userId => userId

def quotaLockKey (userId : ℕ) : JsString := js "rule-create-quota:" ++ decimalText userId

/-- `released` is the flag of the source; `done`, that the release has been carried out. -/
structure Reservation where
  userId : ℕ
  inserted : Bool := false
  released : Bool := false
  done : Bool := false

structure RuleRow where
  userId : ℕ
  sourcePort : ℕ

/-- What a reserving task has read so far. -/
structure ReserveLocals where
  pending : Option PendingQuota := none
  ruleCount : Option ℕ := none
  portCount : Option ℕ := none

def ReserveLocals.count (locals : ReserveLocals) : QuotaKind → Option ℕ
  | .rules => locals.ruleCount
  | .ports => locals.portCount

def ReserveLocals.setCount (locals : ReserveLocals) (kind : QuotaKind) (n : ℕ) : ReserveLocals :=
  match kind with
  | .rules => { locals with ruleCount := some n }
  | .ports => { locals with portCount := some n }

structure QuotaWorld where
  lock : LockState JsString QuotaTask := {}
  pendingByUser : JsMap ℕ PendingQuota := ∅
  /-- The locals of the lock's calls. -/
  locals : ℕ → ReserveLocals := fun _ => {}
  reservations : List Reservation := []
  rules : List RuleRow := []

namespace QuotaWorld

/-- The store's counts: the rules of the user, and their distinct source ports. -/
def stored (w : QuotaWorld) (userId : ℕ) : QuotaKind → ℕ
  | .rules => (w.rules.filter fun rule => rule.userId = userId).length
  | .ports => ((w.rules.filter fun rule => rule.userId = userId).map RuleRow.sourcePort).toFinset.card

def runningTask (w : QuotaWorld) (c : ℕ) : Option QuotaTask :=
  match w.lock.calls[c]? with
  | some ⟨_, _, .running, task⟩ => some task
  | _ => none

section

variable (limits : ℕ → QuotaLimits)

def reserveRuleCreateQuota (w : QuotaWorld) (userId : ℕ) : QuotaWorld :=
  if (limits userId).unlimited then { w with reservations := w.reservations ++ [⟨userId, false, false, false⟩] }
  else { w with lock := w.lock.request (quotaLockKey userId) (.reserve userId) }

/-- The first step of a reserving task. -/
def readPending (w : QuotaWorld) (c : ℕ) : QuotaWorld :=
  match w.runningTask c with
  | some (.reserve userId) =>
    if (w.locals c).pending = none then
      let pending := (w.pendingByUser.get userId).getD noneQuota
      { w with locals := Function.update w.locals c { w.locals c with pending := some pending } }
    else w
  | _ => w

/-- `getRuleCount` and `getPortCount`, each at a moment of its own. -/
def readCount (w : QuotaWorld) (c : ℕ) (kind : QuotaKind) : QuotaWorld :=
  match w.runningTask c with
  | some (.reserve userId) =>
    if (w.locals c).pending.isSome ∧ (w.locals c).count kind = none ∧ 0 < (limits userId).limit kind then
      { w with locals := Function.update w.locals c ((w.locals c).setCount kind (w.stored userId kind)) }
    else w
  | _ => w

/-- What `Promise.all` gives for the count: 0 without a limit. -/
def countRead (w : QuotaWorld) (c userId : ℕ) (kind : QuotaKind) : Option ℕ :=
  if 0 < (limits userId).limit kind then (w.locals c).count kind else some 0

def decideQuota (w : QuotaWorld) (c : ℕ) : QuotaWorld :=
  match w.runningTask c with
  | some (.reserve userId) =>
    match (w.locals c).pending, w.countRead limits c userId .rules, w.countRead limits c userId .ports with
    | some pending, some ruleCount, some portCount =>
      match checkQuota (limits userId) pending ruleCount portCount with
      | .error _ => { w with lock := w.lock.settle c true }
      | .ok next => { w with
          lock := w.lock.settle c false
          pendingByUser := w.pendingByUser.set userId next
          reservations := w.reservations ++ [⟨userId, false, false, false⟩] }
    | _, _, _ => w
  | _ => w

def failReserve (w : QuotaWorld) (c : ℕ) : QuotaWorld :=
  match w.runningTask c with
  | some (.reserve _) => { w with lock := w.lock.settle c true }
  | _ => w

def toReservation (w : QuotaWorld) (r : ℕ) (f : Reservation → Reservation) : QuotaWorld :=
  { w with reservations := w.reservations.modify r f }

def release (w : QuotaWorld) (r : ℕ) : QuotaWorld :=
  match w.reservations[r]? with
  | none => w
  | some reservation =>
    if (limits reservation.userId).unlimited then
      w.toReservation r fun reservation => { reservation with released := true, done := true }
    else if reservation.released then w
    else { w.toReservation r fun reservation => { reservation with released := true } with
      lock := w.lock.request (quotaLockKey reservation.userId) (.release r reservation.userId) }

def runRelease (w : QuotaWorld) (c : ℕ) : QuotaWorld :=
  match w.runningTask c with
  | some (.release r userId) =>
    { w.toReservation r fun reservation => { reservation with done := true } with
      lock := w.lock.settle c false
      pendingByUser := releaseQuota (limits userId) w.pendingByUser userId }
  | _ => w

/-- The rule of a reservation that is held, and was not inserted before. -/
def insert (w : QuotaWorld) (r : ℕ) (sourcePort : ℕ) : QuotaWorld :=
  match w.reservations[r]? with
  | none => w
  | some reservation =>
    if reservation.done ∨ reservation.inserted then w
    else { w.toReservation r fun reservation => { reservation with inserted := true } with
      rules := w.rules ++ [⟨reservation.userId, sourcePort⟩] }

end

end QuotaWorld

inductive QuotaEvent where
  | reserve (userId : ℕ)
  | readPending (c : ℕ)
  | readCount (c : ℕ) (kind : QuotaKind)
  | decideQuota (c : ℕ)
  | failReserve (c : ℕ)
  | insert (r : ℕ) (sourcePort : ℕ)
  | release (r : ℕ)
  | runRelease (c : ℕ)
  | deleteRule (i : ℕ)
  | resume (c : ℕ)
  | unlock (c : ℕ)

def stepQuota (limits : ℕ → QuotaLimits) (w : QuotaWorld) : QuotaEvent → QuotaWorld
  | .reserve userId => w.reserveRuleCreateQuota limits userId
  | .readPending c => w.readPending c
  | .readCount c kind => w.readCount limits c kind
  | .decideQuota c => w.decideQuota limits c
  | .failReserve c => w.failReserve c
  | .insert r sourcePort => w.insert r sourcePort
  | .release r => w.release limits r
  | .runRelease c => w.runRelease limits c
  | .deleteRule i => { w with rules := w.rules.eraseIdx i }
  | .resume c => { w with lock := w.lock.resume c }
  | .unlock c => { w with lock := w.lock.release c }

/-! ## The lock and its tasks -/

namespace QuotaWorld

open LockState

variable {w : QuotaWorld} {task : QuotaTask}

theorem runningTask_eq_some_iff {c : ℕ} : w.runningTask c = some task ↔
    ∃ call, w.lock.calls[c]? = some call ∧ call.phase = .running ∧ call.task = task := by
  unfold runningTask
  split
  · rename_i key previous task' hcall
    simp [hcall]
  · rename_i hnot
    simp only [reduceCtorEq, false_iff, not_exists, not_and]
    rintro ⟨key, previous, phase, task'⟩ hcall rfl
    exact absurd hcall (hnot key previous task')

def tasks (w : QuotaWorld) : List QuotaTask := w.lock.labels.map Prod.snd

theorem task_of_runningTask {c : ℕ} (h : w.runningTask c = some task) :
    w.tasks[c]? = some task := by
  obtain ⟨call, hcall, -, rfl⟩ := runningTask_eq_some_iff.mp h
  rw [tasks, labels, map_map, getElem?_map, hcall, Option.map_some]
  rfl

theorem phase_of_runningTask {c : ℕ} (h : w.runningTask c = some task) :
    w.lock.phase c = some .running := by
  obtain ⟨call, hcall, hphase, -⟩ := runningTask_eq_some_iff.mp h
  exact phase_eq_some_iff.mpr ⟨call, hcall, hphase⟩

/-- A task is of its user's key, and locals are those of tasks that have started. -/
structure Jobs (w : QuotaWorld) : Prop where
  lock : w.lock.Kept
  keys : ∀ label ∈ w.lock.labels, label.1 = quotaLockKey label.2.userId
  fresh : ∀ c, (∀ phase, w.lock.phase c = some phase → phase = .waiting) → w.locals c = {}
  once : ∀ c c' r userId userId' : ℕ, w.tasks[c]? = some (.release r userId) →
    w.tasks[c']? = some (.release r userId') → c = c'
  released : ∀ c r userId : ℕ, w.tasks[c]? = some (.release r userId) →
    ∃ reservation : Reservation, w.reservations[r]? = some reservation ∧ reservation.userId = userId ∧
      reservation.released
  undone : ∀ c r userId : ℕ, w.tasks[c]? = some (.release r userId) →
    ∀ phase, w.lock.phase c = some phase → phase.rank ≤ 1 →
    ∀ reservation : Reservation, w.reservations[r]? = some reservation → reservation.done = false
  flagged : ∀ reservation ∈ w.reservations, reservation.done → reservation.released

theorem Jobs.empty (rules : List RuleRow) : Jobs { rules } where
  lock := LockState.Kept.empty
  keys := forall_mem_nil _
  fresh _ _ := rfl
  once _ _ _ _ _ h := by cases h
  released _ _ _ h := by cases h
  undone _ _ _ h := by cases h
  flagged := forall_mem_nil _

section

variable (h : w.Jobs)

include h

theorem Jobs.exclusive {c c' : ℕ} {task task' : QuotaTask}
    (hc : w.runningTask c = some task) (hc' : w.runningTask c' = some task')
    (huser : task.userId = task'.userId) : c = c' := by
  obtain ⟨call, hcall, hphase, rfl⟩ := runningTask_eq_some_iff.mp hc
  obtain ⟨call', hcall', hphase', rfl⟩ := runningTask_eq_some_iff.mp hc'
  have hkey : ∀ {i : ℕ} {call : LockCall JsString QuotaTask}, w.lock.calls[i]? = some call →
      call.key = quotaLockKey call.task.userId := by
    intro i call hcall
    exact h.keys (call.key, call.task) (mem_map_of_mem (mem_of_getElem? hcall))
  refine h.lock.chained.exclusive hcall hcall' ?_ (LockCall.holds_of_running hphase)
    (LockCall.holds_of_running hphase')
  change call.key = call'.key
  rw [hkey hcall, hkey hcall', huser]

theorem Jobs.move {lock : LockState JsString QuotaTask} (hkept : lock.Kept)
    (hlabels : lock.labels = w.lock.labels) (hforward : w.lock.Forward lock) : Jobs { w with lock } := by
  have htasks : tasks { w with lock } = w.tasks := congrArg (List.map Prod.snd) hlabels
  refine ⟨hkept, ?_, ?_, ?_, ?_, ?_, h.flagged⟩
  · rw [hlabels]
    exact h.keys
  · intro c hwaits
    refine h.fresh c fun phase hphase => ?_
    obtain ⟨phase', hphase', hle⟩ := hforward c phase hphase
    rw [hwaits phase' hphase'] at hle
    cases phase with
    | waiting => rfl
    | running => exact absurd hle (by decide)
    | settled failed => exact absurd hle (Nat.not_succ_le_zero 1)
    | released => exact absurd hle (by decide)
  · rw [htasks]
    exact h.once
  · rw [htasks]
    exact h.released
  · rw [htasks]
    intro c r userId htask phase hphase hrank
    have hlt : c < w.lock.calls.length := by
      have hlt := lt_length_of_getElem? htask
      rwa [tasks, labels, length_map, length_map] at hlt
    have hbefore : w.lock.phase c = some w.lock.calls[c].phase :=
      phase_eq_some_iff.mpr ⟨_, getElem?_eq_getElem hlt, rfl⟩
    obtain ⟨phase', hphase', hle⟩ := hforward c _ hbefore
    obtain rfl := Option.some.inj (hphase.symm.trans hphase')
    exact h.undone c r userId htask _ hbefore (hle.trans hrank)

theorem Jobs.request (task : QuotaTask) (htask : ∀ r userId, task = .release r userId →
      (∀ c userId' : ℕ, w.tasks[c]? ≠ some (.release r userId')) ∧
      ∃ reservation : Reservation, w.reservations[r]? = some reservation ∧ reservation.userId = userId ∧
        reservation.released ∧ reservation.done = false) :
    Jobs { w with lock := w.lock.request (quotaLockKey task.userId) task } := by
  have htasks : tasks { w with lock := w.lock.request (quotaLockKey task.userId) task } = w.tasks ++ [task] := by
    rw [tasks, labels_request, map_append]
    rfl
  refine ⟨h.lock.request _ _, ?_, ?_, ?_, ?_, ?_, h.flagged⟩
  · rw [labels_request, forall_mem_append, forall_mem_singleton]
    exact ⟨h.keys, rfl⟩
  · intro c hwaits
    refine h.fresh c fun phase hphase => ?_
    exact hwaits phase (phase_request_old hphase _ _)
  · rw [htasks]
    intro c c' r userId userId' hc hc'
    rcases getElem?_concat_iff.mp hc with hc | ⟨rfl, hnew⟩
    · rcases getElem?_concat_iff.mp hc' with hc' | ⟨rfl, hnew'⟩
      · exact h.once c c' r userId userId' hc hc'
      · exact absurd hc ((htask r userId' hnew'.symm).1 c userId)
    · rcases getElem?_concat_iff.mp hc' with hc' | ⟨rfl, -⟩
      · exact absurd hc' ((htask r userId hnew.symm).1 c' userId')
      · rfl
  · rw [htasks]
    intro c r userId hc
    rcases getElem?_concat_iff.mp hc with hc | ⟨-, hnew⟩
    · exact h.released c r userId hc
    · obtain ⟨-, reservation, hr, huser, hreleased, -⟩ := htask r userId hnew.symm
      exact ⟨reservation, hr, huser, hreleased⟩
  · rw [htasks]
    intro c r userId hc phase hphase hrank reservation hr
    rcases getElem?_concat_iff.mp hc with hc | ⟨-, hnew⟩
    · have hlt : c < w.lock.calls.length := by
        have hlt := lt_length_of_getElem? hc
        rwa [tasks, labels, length_map, length_map] at hlt
      have hold : w.lock.phase c = some w.lock.calls[c].phase :=
        phase_eq_some_iff.mpr ⟨_, getElem?_eq_getElem hlt, rfl⟩
      obtain rfl := Option.some.inj (hphase.symm.trans (phase_request_old hold _ _))
      exact h.undone c r userId hc _ hold hrank reservation hr
    · obtain ⟨-, reservation', hr', -, -, hdone⟩ := htask r userId hnew.symm
      obtain rfl := Option.some.inj (hr.symm.trans hr')
      exact hdone

theorem Jobs.toReservation {r : ℕ} {reservation : Reservation}
    {f : Reservation → Reservation} (hr : w.reservations[r]? = some reservation)
    (huser : (f reservation).userId = reservation.userId)
    (hreleased : reservation.released → (f reservation).released)
    (hdone : ∀ c userId : ℕ, w.tasks[c]? = some (.release r userId) →
      (∃ phase, w.lock.phase c = some phase ∧ phase.rank ≤ 1) →
      reservation.done = false → (f reservation).done = false)
    (hflagged : (f reservation).done → (f reservation).released) : (w.toReservation r f).Jobs where
  lock := h.lock
  keys := h.keys
  fresh := h.fresh
  once := h.once
  released := by
    intro c i userId htask
    obtain ⟨old, hi, rfl, hreleased'⟩ := h.released c i userId htask
    refine ⟨_, getElem?_modify_iff.mpr ⟨old, hi, rfl⟩, ?_⟩
    split
    · rename_i hir
      subst hir
      obtain rfl := Option.some.inj (hr.symm.trans hi)
      exact ⟨huser, hreleased hreleased'⟩
    · exact ⟨rfl, hreleased'⟩
  undone := by
    intro c i userId htask phase hphase hrank changed hi
    obtain ⟨old, hold, rfl⟩ := getElem?_modify_iff.mp hi
    have hundone := h.undone c i userId htask phase hphase hrank old hold
    split
    · rename_i hir
      subst hir
      obtain rfl := Option.some.inj (hr.symm.trans hold)
      exact hdone c userId htask ⟨phase, hphase, hrank⟩ hundone
    · exact hundone
  flagged := forall_mem_modify hr h.flagged hflagged

theorem Jobs.addReservation (userId : ℕ) :
    Jobs { w with reservations := w.reservations ++ [⟨userId, false, false, false⟩] } where
  lock := h.lock
  keys := h.keys
  fresh := h.fresh
  once := h.once
  released := by
    intro c r userId htask
    obtain ⟨reservation, hr, huser⟩ := h.released c r userId htask
    exact ⟨reservation, getElem?_concat_of_some hr, huser⟩
  undone := by
    intro c r userId htask phase hphase hrank reservation hr
    obtain ⟨old, hold, -⟩ := h.released c r userId htask
    obtain rfl := Option.some.inj (hr.symm.trans (getElem?_concat_of_some hold))
    exact h.undone c r userId htask phase hphase hrank _ hold
  flagged := by
    rw [forall_mem_append, forall_mem_singleton]
    exact ⟨h.flagged, nofun⟩

theorem Jobs.settle (c : ℕ) (failed : Bool) : Jobs { w with lock := w.lock.settle c failed } :=
  h.move (h.lock.settle c failed) (labels_settle w.lock c failed)
    (forward_settle w.lock c failed)

theorem Jobs.setLocals {c : ℕ} {task : QuotaTask} (hc : w.runningTask c = some task) (locals : ReserveLocals) :
    Jobs { w with locals := Function.update w.locals c locals } where
  lock := h.lock
  keys := h.keys
  fresh := by
    intro i hwaits
    have hne : i ≠ c := by
      rintro rfl
      exact absurd (hwaits _ (phase_of_runningTask hc)) nofun
    exact (Function.update_of_ne hne locals w.locals).trans (h.fresh i hwaits)
  once := h.once
  released := h.released
  undone := h.undone
  flagged := h.flagged

end

section

variable {limits : ℕ → QuotaLimits}

def Limited (limits : ℕ → QuotaLimits) (w : QuotaWorld) : Prop :=
  ∀ task ∈ w.tasks, (limits task.userId).unlimited = false

variable {w : QuotaWorld}

section

variable (h : w.Jobs)

include h

theorem Jobs.reserve (userId : ℕ) : (w.reserveRuleCreateQuota limits userId).Jobs := by
  unfold reserveRuleCreateQuota
  split
  · exact h.addReservation _
  · exact h.request (.reserve userId) nofun

theorem Jobs.readPending (c : ℕ) : (w.readPending c).Jobs := by
  unfold QuotaWorld.readPending
  split
  · rename_i userId hc
    split
    · exact h.setLocals hc _
    · exact h
  · exact h

theorem Jobs.readCount (c : ℕ) (kind : QuotaKind) : (w.readCount limits c kind).Jobs := by
  unfold QuotaWorld.readCount
  split
  · rename_i userId hc
    split
    · exact h.setLocals hc _
    · exact h
  · exact h

theorem Jobs.setPending (pendingByUser : JsMap ℕ PendingQuota) : Jobs { w with pendingByUser } :=
  ⟨h.lock, h.keys, h.fresh, h.once, h.released, h.undone, h.flagged⟩

theorem Jobs.setRules (rules : List RuleRow) : Jobs { w with rules } :=
  ⟨h.lock, h.keys, h.fresh, h.once, h.released, h.undone, h.flagged⟩

theorem Jobs.decideQuota (c : ℕ) : (w.decideQuota limits c).Jobs := by
  unfold QuotaWorld.decideQuota
  split
  · split
    · split
      · exact h.settle c true
      · exact ((h.settle c false).addReservation _).setPending _
    · exact h
  · exact h

theorem Jobs.failReserve (c : ℕ) : (w.failReserve c).Jobs := by
  unfold QuotaWorld.failReserve
  split
  · exact h.settle c true
  · exact h

theorem Jobs.insert (r sourcePort : ℕ) : (w.insert r sourcePort).Jobs := by
  unfold QuotaWorld.insert
  split
  · exact h
  · rename_i reservation hr
    split
    · exact h
    · exact (h.toReservation (f := fun reservation => { reservation with inserted := true }) hr rfl id
        (fun _ _ _ _ hdone => hdone) (h.flagged reservation (mem_of_getElem? hr))).setRules _

theorem Jobs.no_task_of_unlimited (hlimited : Limited limits w) {r : ℕ}
    {reservation : Reservation} (hr : w.reservations[r]? = some reservation)
    (hunlimited : (limits reservation.userId).unlimited) (c userId : ℕ) :
    w.tasks[c]? ≠ some (.release r userId) := by
  intro htask
  obtain ⟨reservation', hr', rfl, -⟩ := h.released c r userId htask
  obtain rfl := Option.some.inj (hr.symm.trans hr')
  have hnot := hlimited _ (mem_of_getElem? htask)
  rw [QuotaTask.userId, hunlimited] at hnot
  cases hnot

theorem Jobs.flag {r : ℕ} {reservation : Reservation} (hr : w.reservations[r]? = some reservation) :
    (w.toReservation r fun reservation => { reservation with released := true }).Jobs :=
  h.toReservation hr rfl (fun _ => rfl) (fun _ _ _ _ hdone => hdone) (fun _ => rfl)

theorem Jobs.release (hlimited : Limited limits w) (r : ℕ) : (w.release limits r).Jobs := by
  unfold QuotaWorld.release
  split
  · exact h
  · rename_i reservation hr
    split
    · rename_i hunlimited
      refine h.toReservation hr rfl (fun _ => rfl) (fun c userId htask => ?_) (fun _ => rfl)
      exact absurd htask (h.no_task_of_unlimited hlimited hr hunlimited c userId)
    · split
      · exact h
      · rename_i hreleased
        refine (h.flag hr).request (.release r reservation.userId) fun r' userId heq => ?_
        obtain ⟨rfl, rfl⟩ := QuotaTask.release.inj heq
        constructor
        · -- a task that releases it would have set the flag
          intro c userId' htask
          obtain ⟨reservation', hr', -, hreleased'⟩ := h.released c r userId' htask
          obtain rfl := Option.some.inj (hr.symm.trans hr')
          exact hreleased hreleased'
        · refine ⟨_, getElem?_modify_iff.mpr ⟨reservation, hr, rfl⟩, ?_⟩
          rw [if_pos rfl]
          refine ⟨rfl, rfl, ?_⟩
          by_contra hdone
          exact hreleased (h.flagged reservation (mem_of_getElem? hr) (by simpa using hdone))

theorem Jobs.runRelease (c : ℕ) : (w.runRelease limits c).Jobs := by
  unfold QuotaWorld.runRelease
  split
  · rename_i r userId hc
    obtain ⟨reservation, hr, -, hreleased⟩ := h.released c r userId (task_of_runningTask hc)
    -- the only task that releases it has ended now
    have hsettle := h.settle c false
    refine Jobs.setPending (Jobs.toReservation hsettle hr rfl id ?_ fun _ => hreleased) _
    intro c' userId' htask hlive
    obtain ⟨phase, hphase, hrank⟩ := hlive
    have hsame : c = c' := by
      refine h.once c c' r userId userId' (task_of_runningTask hc) ?_
      have htasks : tasks { w with lock := w.lock.settle c false } = w.tasks :=
        congrArg (List.map Prod.snd) (labels_settle w.lock c false)
      exact htasks ▸ htask
    subst hsame
    change (w.lock.settle c false).phase c = some phase at hphase
    rw [phase_settle, if_pos ⟨rfl, phase_of_runningTask hc⟩] at hphase
    obtain rfl := Option.some.inj hphase
    exact absurd hrank (Nat.not_succ_le_self 1)
  · exact h

theorem Jobs.step (hlimited : Limited limits w) (e : QuotaEvent) : (stepQuota limits w e).Jobs := by
  cases e with
  | reserve userId => exact h.reserve userId
  | readPending c => exact h.readPending c
  | readCount c kind => exact h.readCount c kind
  | decideQuota c => exact h.decideQuota c
  | failReserve c => exact h.failReserve c
  | insert r sourcePort => exact h.insert r sourcePort
  | release r => exact h.release hlimited r
  | runRelease c => exact h.runRelease c
  | deleteRule i => exact h.setRules _
  | resume c => exact h.move (h.lock.resume c) (labels_resume w.lock c) (forward_resume w.lock c)
  | unlock c => exact h.move (h.lock.release c) (labels_release w.lock c) (forward_release w.lock c)

end

theorem Limited.request (h : Limited limits w) {task : QuotaTask} {key : JsString}
    (htask : (limits task.userId).unlimited = false) :
    Limited limits { w with lock := w.lock.request key task } := by
  have htasks : tasks { w with lock := w.lock.request key task } = w.tasks ++ [task] := by
    rw [tasks, labels_request, map_append]
    rfl
  rw [Limited, htasks, forall_mem_append, forall_mem_singleton]
  exact ⟨h, htask⟩

theorem Limited.of_labels {w w' : QuotaWorld} (h : Limited limits w) (hlabels : w'.lock.labels = w.lock.labels) :
    Limited limits w' := by
  have htasks : w'.tasks = w.tasks := congrArg (List.map Prod.snd) hlabels
  unfold Limited
  rw [htasks]
  exact h

theorem Limited.step (h : Limited limits w) (e : QuotaEvent) : Limited limits (stepQuota limits w e) := by
  cases e <;> dsimp only [stepQuota]
  case reserve userId =>
    unfold reserveRuleCreateQuota
    split
    · exact h
    · rename_i hlimited
      exact h.request (Bool.eq_false_iff.mpr hlimited)
  case readPending c =>
    unfold QuotaWorld.readPending
    split
    · split <;> exact h
    · exact h
  case readCount c kind =>
    unfold QuotaWorld.readCount
    split
    · split <;> exact h
    · exact h
  case decideQuota c =>
    unfold QuotaWorld.decideQuota
    split
    · split
      · split
        · exact h.of_labels (labels_settle w.lock c true)
        · exact h.of_labels (labels_settle w.lock c false)
      · exact h
    · exact h
  case failReserve c =>
    unfold QuotaWorld.failReserve
    split
    · exact h.of_labels (labels_settle w.lock c true)
    · exact h
  case insert r sourcePort =>
    unfold QuotaWorld.insert
    split
    · exact h
    · split <;> exact h
  case release r =>
    unfold QuotaWorld.release
    split
    · exact h
    · rename_i reservation hr
      split
      · exact h
      · rename_i hlimited
        split
        · exact h
        · exact Limited.request (w := w.toReservation r _) h (Bool.eq_false_iff.mpr hlimited)
  case runRelease c =>
    unfold QuotaWorld.runRelease
    split
    · exact h.of_labels (labels_settle w.lock c false)
    · exact h
  case deleteRule i => exact h
  case resume c => exact h.of_labels (labels_resume w.lock c)
  case unlock c => exact h.of_labels (labels_release w.lock c)

end

end QuotaWorld

end ForwardX.Panel.RuleQuota
