/-
The queue of group evaluations: `ForwardGroupEvaluationQueue` of
`server/forwardGroupHealthRecheck.ts`.

Groups come in while a batch is being evaluated, and a group that fails comes back with a delay.
Each group that was asked for is in the batch, in the next one, or has a timer; that is what every
step keeps.
-/
import ForwardX.Lib.Run
import ForwardX.Lib.Timers
import ForwardX.Panel.JsValues

namespace ForwardX.Panel.EvaluationQueue

open Run List

/-! ## The queue -/

structure ForwardGroupEvaluationQueueOptions where
  debounceMs : ℚ := 250
  retryBaseMs : ℚ := 1000
  retryMaxMs : ℚ := 30000

namespace ForwardGroupEvaluationQueueOptions

def debounce (o : ForwardGroupEvaluationQueueOptions) : ℚ := max 0 o.debounceMs

def retryBase (o : ForwardGroupEvaluationQueueOptions) : ℚ := max 1 o.retryBaseMs

def retryMax (o : ForwardGroupEvaluationQueueOptions) : ℚ := max o.retryBase o.retryMaxMs

end ForwardGroupEvaluationQueueOptions

inductive QueueJob where
  | flush
  | retry (groupId : ℕ)

/-- `pending` is a `Set`: its groups in the order they came. `reports` are the delays that
`onError` was called with; `none` is the `Math.min()` of nothing. -/
structure ForwardGroupEvaluationQueue where
  pending : List ℕ := []
  retryTimers : JsMap ℕ ℕ := ∅
  consecutiveFailures : JsMap ℕ ℕ := ∅
  timer : Option ℕ := none
  running : Bool := false
  timers : Timers QueueJob := ∅
  reports : List (Option ℚ) := []

inductive EvaluationError where
  | batch (groupIds : List JsNumber)
  | other

/-- Of a `ForwardGroupEvaluationBatchError`. -/
def retryGroupIds (groupIds : List JsNumber) : List ℕ :=
  JsSet.ofList ((groupIds.map positiveInteger).filter (0 < ·))

namespace ForwardGroupEvaluationQueue

section

variable (o : ForwardGroupEvaluationQueueOptions)

def addPending (q : ForwardGroupEvaluationQueue) (groupId : ℕ) : ForwardGroupEvaluationQueue :=
  { q with pending := JsSet.add q.pending groupId }

def arm (q : ForwardGroupEvaluationQueue) (delayMs : ℚ) : ForwardGroupEvaluationQueue :=
  if q.timer.isSome ∨ q.running ∨ q.pending = [] then q
  else { q with timer := some q.timers.next, timers := q.timers.setTimer .flush delayMs }

def enqueue (q : ForwardGroupEvaluationQueue) (groupIds : List JsNumber) : ForwardGroupEvaluationQueue :=
  (groupIds.foldl (fun q value => if positiveInteger value = 0 then q else q.addPending (positiveInteger value))
    q).arm o.debounce

def failures (q : ForwardGroupEvaluationQueue) (groupId : ℕ) : ℕ := (q.consecutiveFailures.get groupId).getD 0 + 1

def retryDelayMs (failures : ℕ) : ℚ := min o.retryMax (o.retryBase * 2 ^ min (failures - 1) 30)

def clearRetry (q : ForwardGroupEvaluationQueue) (groupId : ℕ) : ForwardGroupEvaluationQueue :=
  { q with
    consecutiveFailures := q.consecutiveFailures.delete groupId
    timers := q.timers.clear (q.retryTimers.get groupId)
    retryTimers := q.retryTimers.delete groupId }

def scheduleRetry (q : ForwardGroupEvaluationQueue) (groupId : ℕ) : ForwardGroupEvaluationQueue :=
  { q with
    consecutiveFailures := q.consecutiveFailures.set groupId (q.failures groupId)
    timers := (q.timers.clear (q.retryTimers.get groupId)).setTimer (.retry groupId)
      (retryDelayMs o (q.failures groupId))
    retryTimers := q.retryTimers.set groupId (q.timers.clear (q.retryTimers.get groupId)).next }

/-- The queue, and the delays that were returned. -/
def scheduleRetries (q : ForwardGroupEvaluationQueue) : List ℕ → ForwardGroupEvaluationQueue × List ℚ
  | [] => (q, [])
  | groupId :: rest =>
    let (last, delays) := scheduleRetries (q.scheduleRetry o groupId) rest
    (last, retryDelayMs o (q.failures groupId) :: delays)

/-- `flush` up to its `await`, with the batch that is evaluated. -/
def flush (q : ForwardGroupEvaluationQueue) : ForwardGroupEvaluationQueue × Option (List ℕ) :=
  if q.running ∨ q.pending = [] then (q, none)
  else ({ q with pending := [], running := true }, some q.pending)

def retryIds (groupIds : List ℕ) (error : EvaluationError) : List ℕ :=
  let requested := match error with
    | .batch failed => (retryGroupIds failed).filter (· ∈ groupIds)
    | .other => groupIds
  if requested ≠ [] then requested else groupIds

/-- The `finally` of `flush`. -/
def finish (q : ForwardGroupEvaluationQueue) : ForwardGroupEvaluationQueue :=
  arm { q with running := false } o.debounce

/-- `flush` after its `await`, with the calls of `enqueue` that `onError` makes. -/
def succeed (q : ForwardGroupEvaluationQueue) (groupIds : List ℕ) : ForwardGroupEvaluationQueue :=
  (groupIds.foldl clearRetry q).finish o

def fail (q : ForwardGroupEvaluationQueue) (groupIds : List ℕ) (error : EvaluationError)
    (onError : List (List JsNumber)) : ForwardGroupEvaluationQueue :=
  let cleared := (groupIds.filter (· ∉ retryIds groupIds error)).foldl clearRetry q
  let (scheduled, delays) := cleared.scheduleRetries o (retryIds groupIds error)
  let reported := { scheduled with reports := scheduled.reports ++ [delays.min?] }
  (onError.foldl (enqueue o) reported).finish o

end

def fireRetry (q : ForwardGroupEvaluationQueue) (groupId timer : ℕ) : ForwardGroupEvaluationQueue :=
  if q.retryTimers.get groupId ≠ some timer then q
  else (addPending { q with retryTimers := q.retryTimers.delete groupId } groupId).arm 0

end ForwardGroupEvaluationQueue

/-! ## Evaluations -/

inductive GroupEvaluation where
  | running
  | succeeded
  | failed

/-- `inFlight` are the batches whose `evaluate` has not settled. -/
structure EvaluationWorld where
  queue : ForwardGroupEvaluationQueue := {}
  inFlight : List (List ℕ) := []
  latest : JsMap ℕ GroupEvaluation := ∅

inductive EvaluationEvent where
  | enqueue (groupIds : List JsNumber)
  | fire (timer : ℕ)
  | succeeded (i : ℕ)
  | failed (i : ℕ) (error : EvaluationError) (onError : List (List JsNumber))

/-- The group's own evaluation failed. An error that names no group of the batch is the whole
batch's. -/
def Failed (groupIds : List ℕ) (error : EvaluationError) (groupId : ℕ) : Prop :=
  match error with
  | .batch failed => groupId ∈ retryGroupIds failed ∨ ∀ other ∈ groupIds, other ∉ retryGroupIds failed
  | .other => True

instance Failed.decidable (groupIds : List ℕ) (error : EvaluationError) (groupId : ℕ) :
    Decidable (Failed groupIds error groupId) :=
  match error with
  | .batch failed => inferInstanceAs (Decidable (groupId ∈ retryGroupIds failed ∨ _))
  | .other => .isTrue trivial

def note (latest : JsMap ℕ GroupEvaluation) (groupIds : List ℕ) (evaluation : ℕ → GroupEvaluation) :
    JsMap ℕ GroupEvaluation :=
  groupIds.foldl (fun latest groupId => latest.set groupId (evaluation groupId)) latest

namespace EvaluationWorld

variable (o : ForwardGroupEvaluationQueueOptions)

def flush (w : EvaluationWorld) : EvaluationWorld :=
  match w.queue.flush with
  | (queue, none) => { w with queue }
  | (queue, some groupIds) => ⟨queue, w.inFlight ++ [groupIds], note w.latest groupIds fun _ => .running⟩

def fire (w : EvaluationWorld) (timer : ℕ) : EvaluationWorld :=
  match w.queue.timers.job timer with
  | none => w
  | some .flush => flush { w with queue := { w.queue with timers := w.queue.timers.clearTimer timer, timer := none } }
  | some (.retry groupId) =>
    let fired := { w.queue with timers := w.queue.timers.clearTimer timer }
    { w with queue := fired.fireRetry groupId timer }

def succeed (w : EvaluationWorld) (i : ℕ) : EvaluationWorld :=
  match w.inFlight[i]? with
  | none => w
  | some groupIds => ⟨w.queue.succeed o groupIds, w.inFlight.eraseIdx i, note w.latest groupIds fun _ => .succeeded⟩

def fail (w : EvaluationWorld) (i : ℕ) (error : EvaluationError) (onError : List (List JsNumber)) : EvaluationWorld :=
  match w.inFlight[i]? with
  | none => w
  | some groupIds => ⟨w.queue.fail o groupIds error onError, w.inFlight.eraseIdx i,
      note w.latest groupIds fun groupId => if Failed groupIds error groupId then .failed else .succeeded⟩

end EvaluationWorld

def stepEvaluation (o : ForwardGroupEvaluationQueueOptions) (w : EvaluationWorld) : EvaluationEvent → EvaluationWorld
  | .enqueue groupIds => { w with queue := w.queue.enqueue o groupIds }
  | .fire timer => w.fire timer
  | .succeeded i => w.succeed o i
  | .failed i error onError => w.fail o i error onError

open ForwardGroupEvaluationQueue

/-! ## The timers of a queue -/

section

variable {o : ForwardGroupEvaluationQueueOptions} {q : ForwardGroupEvaluationQueue}

/-- The slots of the queue are right about its timers. -/
structure TimersKept (q : ForwardGroupEvaluationQueue) : Prop where
  flush : q.timers.Owned (· = .flush) q.timer
  retry : ∀ groupId, q.timers.Owned (· = .retry groupId) (q.retryTimers.get groupId)

theorem TimersKept.start : TimersKept {} where
  flush := Timers.owned_empty _
  retry _ := Timers.owned_empty _

section

variable (h : TimersKept q)

include h

theorem TimersKept.addPending (groupId : ℕ) : TimersKept (q.addPending groupId) :=
  ⟨h.flush, h.retry⟩

theorem TimersKept.arm (delayMs : ℚ) : TimersKept (q.arm delayMs) := by
  rw [ForwardGroupEvaluationQueue.arm]
  split
  · exact h
  · rename_i hfree
    have hnone : q.timer = none := by
      rw [← Option.not_isSome_iff_eq_none]
      exact fun hsome => hfree (.inl hsome)
    constructor
    · exact (hnone ▸ h.flush).setTimer rfl delayMs
    · intro groupId
      exact (h.retry groupId).setTimer_other (a := .flush) nofun delayMs

theorem TimersKept.enqueue (groupIds : List JsNumber) : TimersKept (q.enqueue o groupIds) := by
  refine TimersKept.arm ?_ _
  induction groupIds generalizing q with
  | nil => exact h
  | cons value rest ih =>
    rw [foldl_cons]
    split
    · exact ih h
    · exact ih (h.addPending _)

theorem TimersKept.clearRetry (groupId : ℕ) : TimersKept (q.clearRetry groupId) where
  flush := h.flush.clear_other (h.retry groupId) (by rintro _ rfl; exact nofun)
  retry := by
    intro other
    rw [ForwardGroupEvaluationQueue.clearRetry, JsMap.get_delete]
    split
    · rename_i heq
      subst heq
      exact (h.retry other).clear
    · rename_i hne
      refine (h.retry other).clear_other (h.retry groupId) ?_
      rintro _ rfl heq
      exact hne (QueueJob.retry.inj heq).symm

theorem TimersKept.scheduleRetry (groupId : ℕ) : TimersKept (q.scheduleRetry o groupId) where
  flush := (h.flush.clear_other (h.retry groupId) (by rintro _ rfl; exact nofun)).setTimer_other
    (a := .retry groupId) nofun _
  retry := by
    intro other
    rw [ForwardGroupEvaluationQueue.scheduleRetry, JsMap.get_set]
    split
    · rename_i heq
      subst heq
      exact (h.retry other).clear.setTimer rfl _
    · rename_i hne
      refine Timers.Owned.setTimer_other ((h.retry other).clear_other (h.retry groupId) ?_) ?_ _
      · rintro _ rfl heq
        exact hne (QueueJob.retry.inj heq).symm
      · intro heq
        exact hne (QueueJob.retry.inj heq).symm

theorem TimersKept.clearRetries (groupIds : List ℕ) :
    TimersKept (groupIds.foldl ForwardGroupEvaluationQueue.clearRetry q) := by
  induction groupIds generalizing q with
  | nil => exact h
  | cons groupId rest ih => exact ih (h.clearRetry groupId)

theorem TimersKept.scheduleRetries (groupIds : List ℕ) : TimersKept (q.scheduleRetries o groupIds).1 := by
  induction groupIds generalizing q with
  | nil => exact h
  | cons groupId rest ih => exact ih (h.scheduleRetry groupId)

theorem TimersKept.finish : TimersKept (q.finish o) :=
  TimersKept.arm (q := { q with running := false }) ⟨h.flush, h.retry⟩ _

theorem TimersKept.succeed (groupIds : List ℕ) : TimersKept (q.succeed o groupIds) :=
  (h.clearRetries groupIds).finish

theorem TimersKept.fail (groupIds : List ℕ) (error : EvaluationError)
    (onError : List (List JsNumber)) : TimersKept (q.fail o groupIds error onError) := by
  have hscheduled := (h.clearRetries (groupIds.filter
    (· ∉ retryIds groupIds error))).scheduleRetries (o := o)
    (retryIds groupIds error)
  refine TimersKept.finish ?_
  refine List.foldlRecOn onError _ (motive := TimersKept) ⟨hscheduled.flush, hscheduled.retry⟩ ?_
  intro q hq values _
  exact hq.enqueue values

end

end

/-! ## What waits

A group waits that is pending or has a retry timer. -/

section

variable {o : ForwardGroupEvaluationQueueOptions} {q : ForwardGroupEvaluationQueue}

def Waits (q : ForwardGroupEvaluationQueue) (groupId : ℕ) : Prop :=
  groupId ∈ q.pending ∨ (q.retryTimers.get groupId).isSome

/-- Groups are enqueued and the flush timer is set, and nothing else. -/
structure Grown (q q' : ForwardGroupEvaluationQueue) : Prop where
  retryTimers : q'.retryTimers = q.retryTimers
  running : q'.running = q.running
  pending : ∀ groupId ∈ q.pending, groupId ∈ q'.pending

theorem Grown.refl (q : ForwardGroupEvaluationQueue) : Grown q q := ⟨rfl, rfl, fun _ h => h⟩

theorem Grown.trans {q' q'' : ForwardGroupEvaluationQueue} (h : Grown q q') (h' : Grown q' q'') : Grown q q'' :=
  ⟨h'.retryTimers.trans h.retryTimers, h'.running.trans h.running,
    fun groupId hmem => h'.pending groupId (h.pending groupId hmem)⟩

variable {groupId : ℕ} {groupIds : List ℕ}

theorem Grown.waits {q' : ForwardGroupEvaluationQueue} (h : Grown q q') (hwaits : Waits q groupId) :
    Waits q' groupId := by
  rcases hwaits with hpending | hretry
  · exact .inl (h.pending groupId hpending)
  · exact .inr (h.retryTimers ▸ hretry)

theorem grown_arm (delayMs : ℚ) : Grown q (q.arm delayMs) := by
  rw [arm]
  split
  · exact Grown.refl q
  · exact ⟨rfl, rfl, fun _ h => h⟩

theorem pending_arm (delayMs : ℚ) : (q.arm delayMs).pending = q.pending := by
  rw [arm]
  split
  · rfl
  · rfl

theorem grown_addPending (groupId : ℕ) : Grown q (q.addPending groupId) :=
  ⟨rfl, rfl, fun _ h => JsSet.mem_add.mpr (.inl h)⟩

theorem grown_enqueue (groupIds : List JsNumber) : Grown q (q.enqueue o groupIds) := by
  refine Grown.trans ?_ (grown_arm _)
  refine List.foldlRecOn groupIds _ (motive := Grown q) (Grown.refl q) ?_
  intro q' hq' value _
  split
  · exact hq'
  · exact hq'.trans (grown_addPending _)

/-- The flush timer is set when it is needed. -/
def Armed (q : ForwardGroupEvaluationQueue) : Prop := q.running = false → q.pending ≠ [] → q.timer.isSome

theorem armed_arm (delayMs : ℚ) : Armed (q.arm delayMs) := by
  intro hrunning hpending
  rw [(grown_arm delayMs).running] at hrunning
  rw [pending_arm] at hpending
  rw [arm]
  split
  · rename_i hidle
    simpa [hrunning, hpending] using hidle
  · rfl

theorem armed_enqueue (groupIds : List JsNumber) : Armed (q.enqueue o groupIds) := armed_arm _

theorem armed_finish : Armed (q.finish o) := armed_arm _

theorem running_finish : (q.finish o).running = false :=
  (grown_arm (q := { q with running := false }) o.debounce).running

theorem waits_finish (h : Waits q groupId) : Waits (q.finish o) groupId :=
  (grown_arm (q := { q with running := false }) o.debounce).waits h

theorem pending_clearRetries (groupIds : List ℕ) :
    (groupIds.foldl clearRetry q).pending = q.pending := by
  induction groupIds generalizing q with
  | nil => rfl
  | cons groupId rest ih => rw [foldl_cons, ih]; rfl

theorem get_clearRetries (groupIds : List ℕ) (groupId : ℕ) :
    (groupIds.foldl clearRetry q).retryTimers.get groupId
      = if groupId ∈ groupIds then none else q.retryTimers.get groupId := by
  induction groupIds generalizing q with
  | nil => rfl
  | cons first rest ih =>
    have hfirst : (q.clearRetry first).retryTimers.get groupId
        = if groupId = first then none else q.retryTimers.get groupId := JsMap.get_delete _ _ _
    rw [foldl_cons, ih, hfirst]
    by_cases hmem : groupId ∈ rest
    · simp [hmem]
    · simp [hmem]

theorem waits_clearRetries (hother : groupId ∉ groupIds) (h : Waits q groupId) :
    Waits (groupIds.foldl clearRetry q) groupId := by
  rw [Waits, pending_clearRetries, get_clearRetries, if_neg hother]
  exact h

theorem waits_scheduleRetries (h : groupId ∈ groupIds ∨ Waits q groupId) :
    Waits (q.scheduleRetries o groupIds).1 groupId := by
  induction groupIds generalizing q with
  | nil =>
    rcases h with hmem | hwaits
    · cases hmem
    · exact hwaits
  | cons first rest ih =>
    refine ih (q := q.scheduleRetry o first) ?_
    have hset : (q.scheduleRetry o first).retryTimers.get groupId
        = if groupId = first then some _ else q.retryTimers.get groupId := JsMap.get_set _ _ _ _
    by_cases hfirst : groupId = first
    · right
      right
      rw [hset, if_pos hfirst]
      rfl
    · rcases h with hmem | hpending | hretry
      · exact .inl ((mem_cons.mp hmem).resolve_left hfirst)
      · exact .inr (.inl hpending)
      · right
        right
        rw [hset, if_neg hfirst]
        exact hretry

theorem mem_retryIds_iff {error : EvaluationError} (hmem : groupId ∈ groupIds) :
    groupId ∈ retryIds groupIds error ↔ Failed groupIds error groupId := by
  cases error with
  | other => simp [retryIds, Failed, hmem]
  | batch failed =>
    have hnil : (retryGroupIds failed).filter (· ∈ groupIds) = []
        ↔ ∀ other ∈ groupIds, other ∉ retryGroupIds failed := by
      simp only [filter_eq_nil_iff, decide_eq_true_eq]
      constructor
      · intro h other hother hfailed
        exact h other hfailed hother
      · intro h other hfailed hother
        exact h other hother hfailed
    rw [retryIds, Failed]
    split
    · rename_i hsome
      rw [ne_eq, hnil] at hsome
      simp [hmem, hsome]
    · rename_i hnone
      rw [not_not, hnil] at hnone
      exact ⟨fun _ => .inr hnone, fun _ => hmem⟩

theorem waits_fail {error : EvaluationError} (onError : List (List JsNumber))
    (h : (groupId ∈ groupIds ∧ Failed groupIds error groupId) ∨ (groupId ∉ groupIds ∧ Waits q groupId)) :
    Waits (q.fail o groupIds error onError) groupId := by
  have hgrown : ∀ q', Grown q' (onError.foldl (enqueue o) q') := by
    intro q'
    refine List.foldlRecOn onError _ (motive := Grown q') (Grown.refl q') ?_
    intro q'' hq'' values _
    exact hq''.trans (grown_enqueue values)
  refine waits_finish ((hgrown _).waits ?_)
  refine waits_scheduleRetries (q := List.foldl _ q _) ?_
  rcases h with ⟨hmem, hfailed⟩ | ⟨hother, hwaits⟩
  · exact .inl ((mem_retryIds_iff hmem).mpr hfailed)
  · refine .inr (waits_clearRetries ?_ hwaits)
    intro hcleared
    exact hother (mem_filter.mp hcleared).1

theorem waits_succeed (hother : groupId ∉ groupIds) (h : Waits q groupId) :
    Waits (q.succeed o groupIds) groupId :=
  waits_finish (waits_clearRetries hother h)

end

/-! ## What every step keeps -/

section

variable {o : ForwardGroupEvaluationQueueOptions}

theorem get_note (latest : JsMap ℕ GroupEvaluation) (groupIds : List ℕ) (evaluation : ℕ → GroupEvaluation)
    (groupId : ℕ) : (note latest groupIds evaluation).get groupId
      = if groupId ∈ groupIds then some (evaluation groupId) else latest.get groupId := by
  induction groupIds generalizing latest with
  | nil => rfl
  | cons first rest ih =>
    rw [note, foldl_cons, ← note, ih, JsMap.get_set]
    by_cases hmem : groupId ∈ rest
    · simp [hmem]
    · by_cases hfirst : groupId = first
      · simp [hfirst]
      · simp [hmem, hfirst]

/-- `current` ties `latest` to the batches in flight. -/
structure Kept (w : EvaluationWorld) : Prop where
  timers : TimersKept w.queue
  armed : Armed w.queue
  inFlight : w.inFlight.length = if w.queue.running then 1 else 0
  current : ∀ groupId, w.latest.get groupId = some .running ↔ ∃ groupIds ∈ w.inFlight, groupId ∈ groupIds
  failed : ∀ groupId, w.latest.get groupId = some .failed → Waits w.queue groupId

theorem Kept.start : Kept {} where
  timers := TimersKept.start
  armed _ h := absurd rfl h
  inFlight := rfl
  current := by simp
  failed := by simp

variable {w : EvaluationWorld} {queue : ForwardGroupEvaluationQueue}

theorem Kept.grow (h : Kept w)
    (hgrown : Grown w.queue queue) (htimers : TimersKept queue) (harmed : Armed queue) : Kept { w with queue } where
  timers := htimers
  armed := harmed
  inFlight := by
    rw [hgrown.running]
    exact h.inFlight
  current := h.current
  failed groupId hfailed := hgrown.waits (h.failed groupId hfailed)

theorem Kept.flush (htimers : TimersKept w.queue)
    (hinFlight : w.inFlight.length = if w.queue.running then 1 else 0)
    (hcurrent : ∀ groupId, w.latest.get groupId = some .running ↔ ∃ groupIds ∈ w.inFlight, groupId ∈ groupIds)
    (hfailed : ∀ groupId, w.latest.get groupId = some .failed → Waits w.queue groupId) : Kept w.flush := by
  rw [EvaluationWorld.flush, ForwardGroupEvaluationQueue.flush]
  by_cases hskip : w.queue.running ∨ w.queue.pending = []
  · rw [if_pos hskip]
    refine ⟨htimers, ?_, hinFlight, hcurrent, hfailed⟩
    intro hrunning hpending
    dsimp only at hrunning
    rcases hskip with hrun | hnil
    · rw [hrun] at hrunning
      cases hrunning
    · exact absurd hnil hpending
  · rw [if_neg hskip]
    have hrunning : w.queue.running = false := by
      cases hrun : w.queue.running with
      | false => rfl
      | true => exact absurd (.inl hrun) hskip
    have hnone : w.inFlight = [] := by
      rw [hrunning] at hinFlight
      exact length_eq_zero_iff.mp hinFlight
    constructor
    · exact ⟨htimers.flush, htimers.retry⟩
    · intro hrun
      cases hrun
    · simp [hnone]
    · intro groupId
      have hbefore := hcurrent groupId
      rw [get_note, hnone]
      simp only [hnone, not_mem_nil, false_and, exists_false, iff_false] at hbefore
      by_cases hmem : groupId ∈ w.queue.pending
      · simp [hmem]
      · simp [hmem, hbefore]
    · -- a group of the batch is being evaluated, any other has its retry timer
      intro groupId hlatest
      rw [get_note] at hlatest
      split at hlatest
      · cases hlatest
      · rename_i hother
        exact .inr ((hfailed groupId hlatest).resolve_left hother)

theorem Kept.fireRetry (h : Kept w) {timer groupId : ℕ}
    (hjob : w.queue.timers.job timer = some (.retry groupId)) : Kept (w.fire timer) := by
  have hown := (h.timers.retry groupId).eq_some hjob rfl
  have hfire : w.fire timer = { w with queue :=
      (addPending { w.queue with
        timers := w.queue.timers.clearTimer timer
        retryTimers := w.queue.retryTimers.delete groupId } groupId).arm 0 } := by
    rw [EvaluationWorld.fire, hjob]
    dsimp only
    rw [ForwardGroupEvaluationQueue.fireRetry, if_neg (not_not.mpr hown)]
  have htimers : TimersKept { w.queue with
      timers := w.queue.timers.clearTimer timer, retryTimers := w.queue.retryTimers.delete groupId } := by
    constructor
    · exact h.timers.flush.clearTimer_other (h.timers.flush.ne_some hjob nofun)
    · intro other
      rw [JsMap.get_delete]
      split
      · rename_i heq
        subst heq
        have hclear := (h.timers.retry other).clear
        rw [hown] at hclear
        exact hclear
      · rename_i hne
        refine (h.timers.retry other).clearTimer_other ((h.timers.retry other).ne_some hjob ?_)
        intro heq
        exact hne (QueueJob.retry.inj heq).symm
  rw [hfire]
  constructor
  · exact (htimers.addPending groupId).arm 0
  · exact armed_arm 0
  · rw [(grown_arm 0).running]
    exact h.inFlight
  · exact h.current
  · intro other hfailed
    refine (grown_arm 0).waits ?_
    rcases h.failed other hfailed with hpending | hretry
    · exact .inl (JsSet.mem_add.mpr (.inl hpending))
    · by_cases heq : other = groupId
      · exact .inl (JsSet.mem_add.mpr (.inr heq))
      · right
        simp only [addPending, JsMap.get_delete, if_neg heq]
        exact hretry

theorem Kept.fire (h : Kept w) (timer : ℕ) : Kept (w.fire timer) := by
  cases hjob : w.queue.timers.job timer with
  | none =>
    rw [EvaluationWorld.fire, hjob]
    exact h
  | some job =>
    cases job with
    | retry groupId => exact h.fireRetry hjob
    | flush =>
      rw [EvaluationWorld.fire, hjob]
      refine Kept.flush ⟨?_, ?_⟩ h.inFlight h.current h.failed
      · have hclear := h.timers.flush.clear
        rw [h.timers.flush.eq_some hjob rfl] at hclear
        exact hclear
      · intro groupId
        exact (h.timers.retry groupId).clearTimer_other ((h.timers.retry groupId).ne_some hjob nofun)

theorem Kept.settle (h : Kept w) {i : ℕ} {groupIds : List ℕ}
    (hi : w.inFlight[i]? = some groupIds)
    {evaluation : ℕ → GroupEvaluation} (hevaluation : ∀ groupId, evaluation groupId ≠ .running)
    (htimers : TimersKept queue) (harmed : Armed queue) (hrunning : queue.running = false)
    (hwaits : ∀ groupId, (groupId ∈ groupIds ∧ evaluation groupId = .failed) ∨
      (groupId ∉ groupIds ∧ Waits w.queue groupId) → Waits queue groupId) :
    Kept ⟨queue, w.inFlight.eraseIdx i, note w.latest groupIds evaluation⟩ := by
  have honly : w.inFlight = [groupIds] ∧ i = 0 := by
    have hlt := (List.getElem?_eq_some_iff.mp hi).1
    have hlength := h.inFlight
    have hone : w.inFlight.length = 1 := by
      split at hlength
      · exact hlength
      · omega
    obtain ⟨only, hsingle⟩ := length_eq_one_iff.mp hone
    obtain rfl : i = 0 := by omega
    rw [hsingle] at hi ⊢
    exact ⟨congrArg (fun x => [x]) (Option.some.inj hi), rfl⟩
  obtain ⟨hsingle, rfl⟩ := honly
  constructor
  · exact htimers
  · exact harmed
  · simp [hsingle, hrunning]
  · intro groupId
    have hbefore := h.current groupId
    rw [hsingle] at hbefore ⊢
    rw [get_note]
    split
    · simp [hevaluation]
    · rename_i hother
      simpa [hother] using hbefore
  · intro groupId hfailed
    rw [get_note] at hfailed
    split at hfailed
    · rename_i hmem
      exact hwaits groupId (.inl ⟨hmem, Option.some.inj hfailed⟩)
    · rename_i hother
      exact hwaits groupId (.inr ⟨hother, h.failed groupId hfailed⟩)

theorem Kept.succeed (h : Kept w) (i : ℕ) : Kept (w.succeed o i) := by
  rw [EvaluationWorld.succeed]
  split
  · exact h
  · rename_i groupIds hi
    refine h.settle hi (fun _ => nofun) (h.timers.succeed groupIds) armed_finish running_finish ?_
    rintro groupId (⟨-, hfailed⟩ | ⟨hother, hwaits⟩)
    · cases hfailed
    · exact waits_succeed hother hwaits

theorem Kept.fail (h : Kept w) (i : ℕ) (error : EvaluationError)
    (onError : List (List JsNumber)) : Kept (w.fail o i error onError) := by
  rw [EvaluationWorld.fail]
  split
  · exact h
  · rename_i groupIds hi
    refine h.settle hi ?_ (h.timers.fail groupIds error onError) armed_finish running_finish ?_
    · intro groupId
      split
      · exact nofun
      · exact nofun
    · rintro groupId (⟨hmem, hfailed⟩ | hother)
      · refine waits_fail onError (.inl ⟨hmem, ?_⟩)
        by_contra hnot
        rw [if_neg hnot] at hfailed
        cases hfailed
      · exact waits_fail onError (.inr hother)

theorem Kept.step (e : EvaluationEvent) (h : Kept w) : Kept (stepEvaluation o w e) := by
  cases e with
  | enqueue groupIds => exact h.grow (grown_enqueue groupIds) (h.timers.enqueue groupIds) (armed_enqueue groupIds)
  | fire timer => exact h.fire timer
  | succeeded i => exact h.succeed i
  | failed i error onError => exact h.fail i error onError

end

end ForwardX.Panel.EvaluationQueue
