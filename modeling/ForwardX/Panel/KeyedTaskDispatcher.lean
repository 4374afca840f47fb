/-
The dispatcher of keyed tasks: `server/keyedTaskDispatcher.ts`.

Tasks of one key run one after the other and each once, over promises that settle in microtasks. The
chain of `Lib/Chain` gives the order; what is added is that the table of keys is empty when all is
done.
-/
import ForwardX.Lib.Chain
import ForwardX.Lib.JsMap
import ForwardX.Lib.Run
import ForwardX.Panel.JsValues
import Mathlib.Data.Rat.Floor

namespace ForwardX.Panel.Dispatcher

open Chain Run List

/-! ## Tasks -/

/-- How far a task is: behind the one before it, in line for a slot, with a slot, running,
ended, with its slot given up, and with its tail settled. -/
inductive DispatchPhase where
  | chained
  | waitingSlot
  | granted
  | running
  | finished (failed : Bool)
  | released
  | settled
  deriving DecidableEq

def DispatchPhase.holdsSlot : DispatchPhase → Bool
  | .granted | .running | .finished _ => true
  | _ => false

def DispatchPhase.started : DispatchPhase → Bool
  | .running | .finished _ | .released | .settled => true
  | _ => false

/-- The task's own promise has settled. -/
def DispatchPhase.ended : DispatchPhase → Bool
  | .finished _ | .released | .settled => true
  | _ => false

/-- `runs` is how often the task was called. -/
structure DispatchTask where
  key : JsString
  previous : Option ℕ
  phase : DispatchPhase
  runs : ℕ

/-- `Math.max(1, Math.floor(Number(value) || 1))`; `none` is `Infinity`. -/
def concurrencyOf : JsNumber → Option ℕ
  | .nan => some 1
  | .infinity negative => if negative then some 1 else none
  | .finite q => some (if q = 0 then 1 else (max 1 ⌊q⌋).toNat)

structure KeyedTaskDispatcher where
  concurrency : Option ℕ
  keyTails : JsMap JsString ℕ := ∅
  slotWaiters : List ℕ := []
  idleWaiters : ℕ := 0
  activeSlots : ℕ := 0
  pendingTasks : ℕ := 0
  tasks : List DispatchTask := []

namespace KeyedTaskDispatcher

def new (concurrencyValue : JsNumber) : KeyedTaskDispatcher where
  concurrency := concurrencyOf concurrencyValue

def pendingCount (d : KeyedTaskDispatcher) : ℕ := d.pendingTasks

def phase (d : KeyedTaskDispatcher) (c : ℕ) : Option DispatchPhase := d.tasks[c]?.map DispatchTask.phase

def toPhase (d : KeyedTaskDispatcher) (c : ℕ) (phase : DispatchPhase) : KeyedTaskDispatcher :=
  { d with tasks := d.tasks.modify c fun task => { task with phase } }

/-! ## Slots -/

def acquireSlot (d : KeyedTaskDispatcher) (c : ℕ) : KeyedTaskDispatcher :=
  if ∀ n ∈ d.concurrency, d.activeSlots < n then
    { d.toPhase c .granted with activeSlots := d.activeSlots + 1 }
  else { d.toPhase c .waitingSlot with slotWaiters := d.slotWaiters ++ [c] }

def releaseSlot (d : KeyedTaskDispatcher) : KeyedTaskDispatcher :=
  match d.slotWaiters with
  | next :: rest => { d.toPhase next .granted with slotWaiters := rest }
  | [] => { d with activeSlots := d.activeSlots - 1 }

/-! ## The steps of a task -/

def enqueue (d : KeyedTaskDispatcher) (keyValue : JsString) : KeyedTaskDispatcher :=
  let key := if trim keyValue = [] then js "default" else trim keyValue
  { d with
    pendingTasks := d.pendingTasks + 1
    keyTails := d.keyTails.set key d.tasks.length
    tasks := d.tasks ++ [⟨key, d.keyTails.get key, .chained, 0⟩] }

/-- The tail that the task is chained to has settled. -/
def Startable (d : KeyedTaskDispatcher) (task : DispatchTask) : Prop :=
  task.phase = .chained ∧ ∀ p ∈ task.previous, d.phase p = some .settled

instance Startable.decidable (d : KeyedTaskDispatcher) (task : DispatchTask) : Decidable (d.Startable task) :=
  inferInstanceAs (Decidable (_ ∧ _))

def start (d : KeyedTaskDispatcher) (c : ℕ) : KeyedTaskDispatcher :=
  match d.tasks[c]? with
  | none => d
  | some task => if d.Startable task then d.acquireSlot c else d

def runTask (d : KeyedTaskDispatcher) (c : ℕ) : KeyedTaskDispatcher :=
  if d.phase c = some .granted then
    { d with tasks := d.tasks.modify c fun task => { task with phase := .running, runs := task.runs + 1 } }
  else d

def finish (d : KeyedTaskDispatcher) (c : ℕ) (failed : Bool) : KeyedTaskDispatcher :=
  if d.phase c = some .running then d.toPhase c (.finished failed) else d

/-- The `finally` behind the task. -/
def leave (d : KeyedTaskDispatcher) (c : ℕ) : KeyedTaskDispatcher :=
  match d.phase c with
  | some (.finished _) => (d.toPhase c .released).releaseSlot
  | _ => d

/-- The `finally` of the tail. -/
def settle (d : KeyedTaskDispatcher) (c : ℕ) : KeyedTaskDispatcher :=
  match d.tasks[c]? with
  | none => d
  | some task =>
    if task.phase = .released then
      { d.toPhase c .settled with
        keyTails := if d.keyTails.get task.key = some c then d.keyTails.delete task.key else d.keyTails
        pendingTasks := d.pendingTasks - 1
        idleWaiters := if d.pendingTasks - 1 = 0 then 0 else d.idleWaiters }
    else d

def waitForIdle (d : KeyedTaskDispatcher) : KeyedTaskDispatcher :=
  if d.pendingTasks = 0 then d else { d with idleWaiters := d.idleWaiters + 1 }

end KeyedTaskDispatcher

inductive DispatchEvent where
  | enqueue (keyValue : JsString)
  | start (c : ℕ)
  | runTask (c : ℕ)
  | finish (c : ℕ) (failed : Bool)
  | leave (c : ℕ)
  | settle (c : ℕ)
  | waitForIdle

def stepDispatch (d : KeyedTaskDispatcher) : DispatchEvent → KeyedTaskDispatcher
  | .enqueue keyValue => d.enqueue keyValue
  | .start c => d.start c
  | .runTask c => d.runTask c
  | .finish c failed => d.finish c failed
  | .leave c => d.leave c
  | .settle c => d.settle c
  | .waitForIdle => d.waitForIdle

/-! ## The invariant -/

namespace KeyedTaskDispatcher

def dispatchChain : View JsString DispatchTask where
  key := DispatchTask.key
  previous := DispatchTask.previous
  Waiting task := task.phase = .chained
  Over task := task.phase = .settled
  not_waiting_of_over := by
    intro task hover
    rw [hover]
    nofun

structure Queued (d : KeyedTaskDispatcher) : Prop where
  chained : Chained dispatchChain d.tasks
  listed : Listed dispatchChain d.keyTails.get d.tasks
  pending : d.pendingTasks = d.tasks.countP fun task => task.phase ≠ .settled
  runs : ∀ task ∈ d.tasks, task.runs = if task.phase.started then 1 else 0
  idle : d.pendingTasks = 0 → d.idleWaiters = 0

/-- The slots: those in use are those that tasks hold, and nobody is in line for one while one
is free. -/
structure Slotted (d : KeyedTaskDispatcher) : Prop where
  waiters : ∀ c, c ∈ d.slotWaiters ↔ d.phase c = some .waitingSlot
  nodup : d.slotWaiters.Nodup
  active : d.activeSlots = d.tasks.countP fun task => task.phase.holdsSlot
  bounded : ∀ n ∈ d.concurrency, d.activeSlots ≤ n
  full : d.slotWaiters ≠ [] → d.concurrency = some d.activeSlots

variable {d : KeyedTaskDispatcher} {c : ℕ} {task : DispatchTask} {f : DispatchTask → DispatchTask}

open KeyedTaskDispatcher

variable {phase : DispatchPhase}

theorem phase_eq_some_iff :
    d.phase c = some phase ↔ ∃ task, d.tasks[c]? = some task ∧ task.phase = phase := by
  rw [KeyedTaskDispatcher.phase, Option.map_eq_some_iff]

theorem phase_of_getElem? (ht : d.tasks[c]? = some task) : d.phase c = some task.phase := by
  rw [phase, ht, Option.map_some]

variable {d d' : KeyedTaskDispatcher}

theorem phase_modify
    (ht : d.tasks[c]? = some task) (htasks : d'.tasks = d.tasks.modify c f) (i : ℕ) :
    d'.phase i = if i = c then some (f task).phase else d.phase i := by
  rw [phase, htasks, getElem?_modify]
  split
  · rename_i hci
    subst hci
    rw [if_pos rfl, ht]
    rfl
  · rename_i hci
    rw [if_neg (Ne.symm hci)]
    cases hread : d.tasks[i]? with
    | none => simp [phase, hread]
    | some other => simp [phase, hread]

theorem phase_toPhase (ht : d.tasks[c]? = some task) (i : ℕ) :
    (d.toPhase c phase).phase i = if i = c then some phase else d.phase i := by
  have hmoved : (d.toPhase c phase).tasks = d.tasks.modify c fun task => { task with phase } := rfl
  exact phase_modify ht hmoved i

/-- A task that is not settled moves on: out of its chain only when it can start. -/
structure Forward (d : KeyedTaskDispatcher) (task task' : DispatchTask) : Prop where
  key : task'.key = task.key
  previous : task'.previous = task.previous
  not_settled : task.phase ≠ .settled
  not_chained : task'.phase ≠ .chained
  ready : task.phase = .chained → d.Startable task
  runs : task.runs = (if task.phase.started then 1 else 0) →
    task'.runs = if task'.phase.started then 1 else 0

theorem Forward.moves {task task' : DispatchTask} (h : Forward d task task') :
    Moves dispatchChain d.tasks task task' where
  key := h.key
  previous := h.previous
  not_over := h.not_settled
  waiting hwaiting := absurd hwaiting h.not_chained
  ready := by
    intro hwaiting _ p hp
    obtain ⟨before, hbefore, hover⟩ := phase_eq_some_iff.mp ((h.ready hwaiting).2 p hp)
    exact ⟨before, hbefore, hover⟩

theorem Queued.forward (h : d.Queued)
    (ht : d.tasks[c]? = some task) (hforward : Forward d task (f task))
    (hlive : (f task).phase ≠ .settled) (htasks : d'.tasks = d.tasks.modify c f)
    (htails : d'.keyTails = d.keyTails) (hpending : d'.pendingTasks = d.pendingTasks)
    (hidle : d'.idleWaiters = d.idleWaiters) : d'.Queued where
  chained := htasks ▸ h.chained.modify ht hforward.moves
  listed := htasks ▸ htails ▸ h.listed.modify ht hforward.moves hlive
  pending := by
    have hcount := countP_modify (fun task : DispatchTask => decide (task.phase ≠ .settled)) (f := f) ht
    have hbefore : decide (task.phase ≠ .settled) = true := decide_eq_true hforward.not_settled
    have hafter : decide ((f task).phase ≠ .settled) = true := decide_eq_true hlive
    simp only [hbefore, hafter, if_true] at hcount
    rw [htasks, hpending, h.pending]
    exact (Nat.add_right_cancel hcount).symm
  runs := by
    rw [htasks]
    exact forall_mem_modify ht h.runs (hforward.runs (h.runs task (mem_of_getElem? ht)))
  idle := by
    rw [hpending, hidle]
    exact h.idle

/-! ## Slots -/

theorem Slotted.forward (h : d.Slotted) (ht : d.tasks[c]? = some task)
    (hholds : (f task).phase.holdsSlot = task.phase.holdsSlot) (hwaits : task.phase ≠ .waitingSlot)
    (hwaits' : (f task).phase ≠ .waitingSlot) (htasks : d'.tasks = d.tasks.modify c f)
    (hwaiters : d'.slotWaiters = d.slotWaiters) (hactive : d'.activeSlots = d.activeSlots)
    (hconcurrency : d'.concurrency = d.concurrency) : d'.Slotted where
  waiters := by
    intro i
    rw [hwaiters, h.waiters, phase_modify ht htasks]
    split
    · rename_i hic
      subst hic
      rw [phase_of_getElem? ht]
      simp [hwaits, hwaits']
    · rfl
  nodup := hwaiters ▸ h.nodup
  active := by
    have hcount := countP_modify (fun task : DispatchTask => task.phase.holdsSlot) (f := f) ht
    simp only [hholds] at hcount
    rw [hactive, htasks, h.active]
    omega
  bounded := by
    rw [hconcurrency, hactive]
    exact h.bounded
  full := by
    rw [hwaiters, hconcurrency, hactive]
    exact h.full

open DispatchPhase

theorem Slotted.acquireSlot (h : d.Slotted)
    (ht : d.tasks[c]? = some task) (hphase : task.phase = .chained) : (d.acquireSlot c).Slotted := by
  have hnot : c ∉ d.slotWaiters := by
    rw [h.waiters, phase_of_getElem? ht, hphase]
    nofun
  unfold KeyedTaskDispatcher.acquireSlot
  split
  · rename_i hfree
    -- nobody is in line, or there would be no free slot
    have hempty : d.slotWaiters = [] := by
      by_contra hsome
      exact lt_irrefl _ (hfree _ (h.full hsome))
    refine ⟨?_, h.nodup, ?_, ?_, fun hsome => absurd hempty hsome⟩
    · intro i
      rw [phase_modify (d := d) ht rfl]
      change i ∈ d.slotWaiters ↔ _
      split
      · rename_i hic
        subst hic
        simp [hnot]
      · exact h.waiters i
    · have hcount := countP_modify (fun task : DispatchTask => task.phase.holdsSlot)
        (f := fun task : DispatchTask => { task with phase := .granted }) ht
      have hbefore : task.phase.holdsSlot = false := by rw [hphase]; rfl
      have hafter : granted.holdsSlot = true := rfl
      simp only [hbefore, hafter, Bool.false_eq_true, if_false, if_true, Nat.add_zero] at hcount
      change d.activeSlots + 1 = List.countP _ (d.tasks.modify c _)
      rw [hcount, h.active]
    · intro n hn
      exact hfree n hn
  · rename_i hbusy
    refine ⟨?_, ?_, ?_, h.bounded, ?_⟩
    · intro i
      rw [phase_modify (d := d) ht rfl]
      change i ∈ d.slotWaiters ++ [c] ↔ _
      rw [mem_append, mem_singleton]
      split
      · rename_i hic
        simp [hic]
      · rename_i hic
        simp only [hic, or_false]
        exact h.waiters i
    · change (d.slotWaiters ++ [c]).Nodup
      simpa [nodup_append, h.nodup] using fun a ha (heq : a = c) => hnot (heq ▸ ha)
    · have hcount := countP_modify (fun task : DispatchTask => task.phase.holdsSlot)
        (f := fun task : DispatchTask => { task with phase := .waitingSlot }) ht
      have hbefore : task.phase.holdsSlot = false := by rw [hphase]; rfl
      have hafter : waitingSlot.holdsSlot = false := rfl
      simp only [hbefore, hafter, Bool.false_eq_true, if_false, Nat.add_zero] at hcount
      change d.activeSlots = List.countP _ (d.tasks.modify c _)
      rw [hcount, h.active]
    · intro _
      rw [not_forall] at hbusy
      obtain ⟨n, hn⟩ := hbusy
      rw [Classical.not_imp] at hn
      have hle := h.bounded n hn.1
      have heq : d.activeSlots = n := by omega
      exact heq ▸ hn.1

theorem countP_released {failed : Bool}
    (ht : d.tasks[c]? = some task) (hphase : task.phase = .finished failed) :
    (d.toPhase c .released).tasks.countP (fun task => task.phase.holdsSlot) + 1
      = d.tasks.countP fun task => task.phase.holdsSlot := by
  have hcount := countP_modify (fun task : DispatchTask => task.phase.holdsSlot)
    (f := fun task : DispatchTask => { task with phase := .released }) ht
  have hbefore : task.phase.holdsSlot = true := by rw [hphase]; rfl
  have hafter : released.holdsSlot = false := rfl
  simp only [hbefore, hafter, Bool.false_eq_true, if_false, if_true, Nat.add_zero] at hcount
  exact hcount

theorem Slotted.leave (h : d.Slotted) {failed : Bool}
    (ht : d.tasks[c]? = some task) (hphase : task.phase = .finished failed) :
    ((d.toPhase c .released).releaseSlot).Slotted := by
  have hreleased := countP_released ht hphase
  have hone : ∀ i, (d.toPhase c .released).phase i = if i = c then some .released else d.phase i :=
    phase_toPhase ht
  have hnot : c ∉ d.slotWaiters := by
    rw [h.waiters, phase_of_getElem? ht, hphase]
    nofun
  unfold releaseSlot
  split
  · rename_i next rest hline
    change d.slotWaiters = next :: rest at hline
    have hnodup := h.nodup
    rw [hline, nodup_cons] at hnodup
    have hnext : d.phase next = some .waitingSlot := (h.waiters next).mp (hline ▸ mem_cons_self)
    have hne : next ≠ c := by
      rintro rfl
      exact hnot (hline ▸ mem_cons_self)
    obtain ⟨waiter, hwaiter, hwaits⟩ :=
      phase_eq_some_iff.mp ((hone next).trans ((if_neg hne).trans hnext))
    refine ⟨?_, hnodup.2, ?_, h.bounded, ?_⟩
    · intro i
      rw [phase_modify (d := d.toPhase c .released) hwaiter rfl, hone]
      change i ∈ rest ↔ _
      split
      · rename_i hi
        subst hi
        simp [hnodup.1]
      · rename_i hi
        split
        · rename_i hic
          subst hic
          rw [hline] at hnot
          simp [not_mem_of_not_mem_cons hnot]
        · rw [← h.waiters, hline, mem_cons]
          simp [hi]
    · have hcount := countP_modify (fun task : DispatchTask => task.phase.holdsSlot)
        (f := fun task : DispatchTask => { task with phase := .granted }) hwaiter
      have hbefore : waiter.phase.holdsSlot = false := by rw [hwaits]; rfl
      have hafter : granted.holdsSlot = true := rfl
      simp only [hbefore, hafter, Bool.false_eq_true, if_false, if_true, Nat.add_zero] at hcount
      change d.activeSlots = List.countP _ ((d.toPhase c .released).tasks.modify next _)
      rw [hcount, hreleased, h.active]
    · intro _
      exact h.full (by simp [hline])
  · rename_i hline
    change d.slotWaiters = [] at hline
    refine ⟨?_, h.nodup, ?_, ?_, fun hsome => absurd hline hsome⟩
    · intro i
      change i ∈ d.slotWaiters ↔ (d.toPhase c .released).phase i = some .waitingSlot
      rw [hone]
      split
      · rename_i hic
        subst hic
        simp [hnot]
      · exact h.waiters i
    · change d.activeSlots - 1 = List.countP _ (d.toPhase c .released).tasks
      have hactive := h.active
      omega
    · intro n hn
      exact (Nat.sub_le _ _).trans (h.bounded n hn)

/-! ## Steps -/

structure Kept (d : KeyedTaskDispatcher) : Prop where
  queued : d.Queued
  slotted : d.Slotted

theorem kept_new (concurrencyValue : JsNumber) : (new concurrencyValue).Kept where
  queued := ⟨chained_nil, listed_nil, rfl, forall_mem_nil _, fun _ => rfl⟩
  slotted := by
    refine ⟨?_, nodup_nil, rfl, fun _ _ => Nat.zero_le _, fun hsome => absurd rfl hsome⟩
    intro c
    simp [new, phase]

theorem Kept.enqueue (h : d.Kept) (keyValue : JsString) : (d.enqueue keyValue).Kept := by
  unfold KeyedTaskDispatcher.enqueue
  generalize (if trim keyValue = [] then js "default" else trim keyValue) = key
  refine ⟨⟨?_, ?_, ?_, ?_, nofun⟩, ⟨?_, h.slotted.nodup, ?_, h.slotted.bounded, h.slotted.full⟩⟩
  · exact h.queued.chained.concat h.queued.listed rfl fun hstart => absurd rfl hstart
  · refine h.queued.listed.concat (nofun : chained ≠ .settled) fun k => ?_
    exact JsMap.get_set _ _ _ _
  · rw [countP_append, countP_singleton, h.queued.pending]
    rfl
  · rw [forall_mem_append, forall_mem_singleton]
    exact ⟨h.queued.runs, rfl⟩
  · intro c
    rw [h.slotted.waiters, phase_eq_some_iff, phase_eq_some_iff]
    constructor
    · rintro ⟨task, ht, hphase⟩
      exact ⟨task, getElem?_concat_of_some ht, hphase⟩
    · rintro ⟨task, ht, hphase⟩
      rcases getElem?_concat_iff.mp ht with hold | ⟨-, rfl⟩
      · exact ⟨task, hold, hphase⟩
      · cases hphase
  · rw [countP_append, countP_singleton, h.slotted.active]
    rfl

theorem forward_toPhase
    (hlive : task.phase ≠ .settled) (hphase : phase ≠ .chained)
    (hready : task.phase = .chained → d.Startable task) (hstarted : phase.started = task.phase.started) :
    Forward d task { task with phase } where
  key := rfl
  previous := rfl
  not_settled := hlive
  not_chained := hphase
  ready := hready
  runs hruns := by rw [hruns, hstarted]

theorem Kept.start (h : d.Kept) (c : ℕ) : (d.start c).Kept := by
  unfold KeyedTaskDispatcher.start
  split
  · exact h
  · rename_i task ht
    split
    · rename_i hready
      have hlive : task.phase ≠ .settled := by
        rw [hready.1]
        nofun
      refine ⟨?_, h.slotted.acquireSlot ht hready.1⟩
      unfold acquireSlot
      split
      · have hforward : Forward d task { task with phase := .granted } := by
          refine forward_toPhase hlive nofun (fun _ => hready) ?_
          rw [hready.1]
          rfl
        exact h.queued.forward ht hforward (nofun : granted ≠ .settled) rfl rfl rfl rfl
      · have hforward : Forward d task { task with phase := .waitingSlot } := by
          refine forward_toPhase hlive nofun (fun _ => hready) ?_
          rw [hready.1]
          rfl
        exact h.queued.forward ht hforward (nofun : waitingSlot ≠ .settled) rfl rfl rfl rfl
    · exact h

theorem Kept.runTask (h : d.Kept) (c : ℕ) : (d.runTask c).Kept := by
  unfold KeyedTaskDispatcher.runTask
  split
  · rename_i hgranted
    obtain ⟨task, ht, hphase⟩ := phase_eq_some_iff.mp hgranted
    have hforward : Forward d task { task with phase := .running, runs := task.runs + 1 } := by
      refine ⟨rfl, rfl, ?_, nofun, ?_, ?_⟩
      · rw [hphase]
        nofun
      · rw [hphase]
        nofun
      · -- before its run it has run zero times
        rw [hphase]
        intro hruns
        exact congrArg (· + 1) hruns
    refine ⟨h.queued.forward ht hforward (nofun : running ≠ .settled) rfl rfl rfl rfl,
      h.slotted.forward ht ?_ ?_ (nofun : running ≠ .waitingSlot) rfl rfl rfl rfl⟩
    · rw [hphase]
      rfl
    · rw [hphase]
      nofun
  · exact h

theorem Kept.finish (h : d.Kept) (c : ℕ) (failed : Bool) : (d.finish c failed).Kept := by
  unfold KeyedTaskDispatcher.finish
  split
  · rename_i hrunning
    obtain ⟨task, ht, hphase⟩ := phase_eq_some_iff.mp hrunning
    have hforward : Forward d task { task with phase := .finished failed } := by
      refine forward_toPhase ?_ nofun ?_ ?_ <;> rw [hphase]
      · nofun
      · nofun
      · rfl
    refine ⟨h.queued.forward ht hforward (nofun : finished failed ≠ .settled) rfl rfl rfl rfl,
      h.slotted.forward ht ?_ ?_ (nofun : finished failed ≠ .waitingSlot) rfl rfl rfl rfl⟩
    · rw [hphase]
      rfl
    · rw [hphase]
      nofun
  · exact h

theorem Kept.leave (h : d.Kept) (c : ℕ) : (d.leave c).Kept := by
  unfold KeyedTaskDispatcher.leave
  split
  · rename_i failed hfinished
    obtain ⟨task, ht, hphase⟩ := phase_eq_some_iff.mp hfinished
    have hforward : Forward d task { task with phase := .released } := by
      refine forward_toPhase ?_ nofun ?_ ?_ <;> rw [hphase]
      · nofun
      · nofun
      · rfl
    have hreleased : (d.toPhase c .released).Queued := h.queued.forward ht hforward (nofun : released ≠ .settled) rfl rfl rfl rfl
    refine ⟨?_, h.slotted.leave ht hphase⟩
    unfold releaseSlot
    split
    · rename_i next rest hline
      change d.slotWaiters = next :: rest at hline
      have hnext : d.phase next = some .waitingSlot := (h.slotted.waiters next).mp (hline ▸ mem_cons_self)
      have hne : next ≠ c := by
        rintro rfl
        rw [hfinished] at hnext
        cases hnext
      have hstill : (d.toPhase c .released).phase next = some .waitingSlot := by
        rw [phase_toPhase ht, if_neg hne, hnext]
      obtain ⟨waiter, hwaiter, hwaits⟩ := phase_eq_some_iff.mp hstill
      have hgranted : Forward (d.toPhase c .released) waiter { waiter with phase := .granted } := by
        refine forward_toPhase ?_ nofun ?_ ?_ <;> rw [hwaits]
        · nofun
        · nofun
        · rfl
      exact hreleased.forward hwaiter hgranted (nofun : granted ≠ .settled) rfl rfl rfl rfl
    · exact ⟨hreleased.chained, hreleased.listed, hreleased.pending, hreleased.runs, hreleased.idle⟩
  · exact h

theorem Kept.settle (h : d.Kept) (c : ℕ) : (d.settle c).Kept := by
  unfold KeyedTaskDispatcher.settle
  split
  · exact h
  rename_i task ht
  split
  · rename_i hphase
    have hforward : Forward d task { task with phase := .settled } := by
      refine forward_toPhase ?_ (by simp) ?_ ?_ <;> rw [hphase]
      · simp
      · simp
      · rfl
    have hstarted : task.phase ≠ .chained := by
      rw [hphase]
      simp
    have hlive : 0 < d.tasks.countP fun task => task.phase ≠ .settled := by
      rw [countP_pos_iff]
      exact ⟨task, mem_of_getElem? ht, by rw [hphase]; rfl⟩
    refine ⟨⟨h.queued.chained.modify ht hforward.moves, ?_, ?_, ?_, ?_⟩, ?_⟩
    · refine h.queued.listed.finish h.queued.chained ht hforward.moves hstarted rfl fun k => ?_
      change JsMap.get (if d.keyTails.get task.key = some c then _ else _) k
        = if k = task.key ∧ d.keyTails.get k = some c then none else _
      by_cases hown : d.keyTails.get task.key = some c
      · rw [if_pos hown, JsMap.get_delete]
        by_cases hk : k = task.key
        · subst hk
          rw [if_pos rfl, if_pos ⟨rfl, hown⟩]
        · rw [if_neg hk, if_neg (not_and_of_not_left _ hk)]
      · rw [if_neg hown, if_neg]
        rintro ⟨rfl, hown'⟩
        exact hown hown'
    · have hcount := countP_modify (fun task : DispatchTask => decide (task.phase ≠ .settled))
        (f := fun task : DispatchTask => { task with phase := .settled }) ht
      have hbefore : decide (task.phase ≠ .settled) = true := decide_eq_true hforward.not_settled
      have hafter : decide (settled ≠ .settled) = false := rfl
      simp only [hbefore, hafter, Bool.false_eq_true, if_false, if_true, Nat.add_zero] at hcount
      change d.pendingTasks - 1 = List.countP _ (d.tasks.modify c _)
      rw [h.queued.pending, ← hcount, Nat.add_sub_cancel]
    · exact forall_mem_modify ht h.queued.runs (hforward.runs (h.queued.runs task (mem_of_getElem? ht)))
    · intro hzero
      exact if_pos hzero
    · refine h.slotted.forward ht ?_ ?_ (by simp : settled ≠ .waitingSlot) rfl rfl rfl rfl
      · rw [hphase]
        rfl
      · rw [hphase]
        simp
  · exact h

theorem Kept.step (h : d.Kept) (e : DispatchEvent) : (stepDispatch d e).Kept := by
  cases e with
  | enqueue keyValue => exact h.enqueue keyValue
  | start c => exact h.start c
  | runTask c => exact h.runTask c
  | finish c failed => exact h.finish c failed
  | leave c => exact h.leave c
  | settle c => exact h.settle c
  | waitForIdle =>
    dsimp only [stepDispatch]
    unfold waitForIdle
    split
    · exact h
    · rename_i hpending
      refine ⟨⟨h.queued.chained, h.queued.listed, h.queued.pending, h.queued.runs, ?_⟩,
        ⟨h.slotted.waiters, h.slotted.nodup, h.slotted.active, h.slotted.bounded, h.slotted.full⟩⟩
      intro hzero
      exact absurd hzero hpending

theorem concurrency_step (d : KeyedTaskDispatcher) (e : DispatchEvent) :
    (stepDispatch d e).concurrency = d.concurrency := by
  cases e <;> dsimp only [stepDispatch]
  case enqueue => rfl
  case start c =>
    unfold start
    split
    · rfl
    · split
      · unfold acquireSlot
        split <;> rfl
      · rfl
  case runTask => unfold runTask; split <;> rfl
  case finish => unfold finish; split <;> rfl
  case leave c =>
    unfold leave
    split
    · unfold releaseSlot
      split <;> rfl
    · rfl
  case settle c =>
    unfold settle
    split
    · rfl
    · split <;> rfl
  case waitForIdle => unfold waitForIdle; split <;> rfl

/-! ## Nothing is stuck -/

/-- The task runs, or the dispatcher has a step to take for it. -/
def Movable (d : KeyedTaskDispatcher) (task : DispatchTask) : Prop :=
  d.Startable task ∨ task.phase.holdsSlot ∨ task.phase = .released

theorem concurrencyOf_pos {value : JsNumber} {n : ℕ} (h : n ∈ concurrencyOf value) : 0 < n := by
  cases value with
  | nan =>
    obtain rfl := Option.some.inj h
    exact Nat.one_pos
  | infinity negative =>
    cases negative with
    | false => cases h
    | true =>
      obtain rfl := Option.some.inj h
      exact Nat.one_pos
  | finite q =>
    obtain rfl := Option.some.inj h
    split
    · exact Nat.one_pos
    · have hle : 1 ≤ max 1 ⌊q⌋ := le_max_left _ _
      omega

theorem Kept.exists_movable (h : d.Kept) (hpos : ∀ n ∈ d.concurrency, 0 < n)
    (hmem : task ∈ d.tasks) (hlive : task.phase ≠ .settled) :
    ∃ other ∈ d.tasks, d.Movable other := by
  obtain ⟨i, hi⟩ := mem_iff_getElem?.mp hmem
  obtain ⟨c, first, hfirst, -, hopen, hready⟩ := h.queued.chained.first_ready hi hlive
  have hmem' := mem_of_getElem? hfirst
  cases hphase : first.phase with
  | chained =>
    refine ⟨first, hmem', .inl ⟨hphase, fun p hp => ?_⟩⟩
    obtain ⟨before, hbefore, hover⟩ := hready hphase p hp
    exact phase_eq_some_iff.mpr ⟨before, hbefore, hover⟩
  | waitingSlot =>
    have hwaiter : c ∈ d.slotWaiters :=
      (h.slotted.waiters c).mpr (phase_eq_some_iff.mpr ⟨first, hfirst, hphase⟩)
    have hfull := h.slotted.full (ne_nil_of_mem hwaiter)
    have hactive : 0 < d.tasks.countP fun task => task.phase.holdsSlot := by
      rw [← h.slotted.active]
      exact hpos _ hfull
    obtain ⟨holder, hholder, hholds⟩ := countP_pos_iff.mp hactive
    exact ⟨holder, hholder, .inr (.inl hholds)⟩
  | granted => exact ⟨first, hmem', .inr (.inl (by rw [hphase]; rfl))⟩
  | running => exact ⟨first, hmem', .inr (.inl (by rw [hphase]; rfl))⟩
  | finished failed => exact ⟨first, hmem', .inr (.inl (by rw [hphase]; rfl))⟩
  | released => exact ⟨first, hmem', .inr (.inr hphase)⟩
  | settled => exact absurd hphase hopen

theorem kept_run (concurrencyValue : JsNumber) (es : List DispatchEvent) :
    (run stepDispatch (new concurrencyValue) es).Kept ∧
      (run stepDispatch (new concurrencyValue) es).concurrency = concurrencyOf concurrencyValue :=
  run_invariant (I := fun d => d.Kept ∧ d.concurrency = concurrencyOf concurrencyValue)
    (fun d e h => ⟨h.1.step e, (concurrency_step d e).trans h.2⟩) es _ ⟨kept_new concurrencyValue, rfl⟩

/-! ## Runs -/

/-- **The dispatcher, over every run.** A task runs once, and has when nothing can move any more. -/
theorem dispatches (concurrencyValue : JsNumber) (es : List DispatchEvent) :
    let d := run stepDispatch (new concurrencyValue) es
    (∀ task ∈ d.tasks, task.runs = if task.phase.started then 1 else 0) ∧
    ((∀ task ∈ d.tasks, ¬ d.Movable task) → ∀ task ∈ d.tasks, task.phase = .settled ∧ task.runs = 1) ∧
    (∀ (i j : ℕ) (a b : DispatchTask), i < j → d.tasks[i]? = some a → d.tasks[j]? = some b →
      a.key = b.key → b.phase ≠ .chained → a.phase = .settled) ∧
    (∀ n ∈ concurrencyOf concurrencyValue, d.tasks.countP (fun task => task.phase = .running) ≤ n) ∧
    (∀ task ∈ d.tasks, task.phase = .waitingSlot →
      concurrencyOf concurrencyValue = some (d.tasks.countP fun task => task.phase.holdsSlot)) ∧
    d.pendingCount = d.tasks.countP (fun task => task.phase ≠ .settled) ∧
    ((∀ task ∈ d.tasks, task.phase.ended → task.phase = .settled) →
      d.pendingCount = d.tasks.countP fun task => !task.phase.ended) := by
  intro d
  obtain ⟨hkept, hconcurrency⟩ : d.Kept ∧ d.concurrency = concurrencyOf concurrencyValue :=
    kept_run concurrencyValue es
  refine ⟨hkept.queued.runs, ?_, hkept.queued.chained.inOrder, ?_, ?_, hkept.queued.pending, ?_⟩
  · intro hstill task hmem
    have hsettled : task.phase = .settled := by
      by_contra hlive
      obtain ⟨other, hother, hmovable⟩ :=
        hkept.exists_movable (fun n hn => concurrencyOf_pos (hconcurrency ▸ hn)) hmem hlive
      exact hstill other hother hmovable
    refine ⟨hsettled, ?_⟩
    rw [hkept.queued.runs task hmem, hsettled]
    rfl
  · intro n hn
    have hle : d.tasks.countP (fun task => task.phase = .running)
        ≤ d.tasks.countP fun task => task.phase.holdsSlot := by
      refine List.countP_mono_left fun task _ hrunning => ?_
      rw [of_decide_eq_true hrunning]
      rfl
    rw [← hkept.slotted.active] at hle
    exact hle.trans (hkept.slotted.bounded n (hconcurrency ▸ hn))
  · intro task hmem hwaits
    obtain ⟨c, hc⟩ := List.mem_iff_getElem?.mp hmem
    have hwaiter : c ∈ d.slotWaiters :=
      (hkept.slotted.waiters c).mpr (phase_eq_some_iff.mpr ⟨task, hc, hwaits⟩)
    rw [← hconcurrency, ← hkept.slotted.active]
    exact hkept.slotted.full (List.ne_nil_of_mem hwaiter)
  · intro hquiet
    rw [pendingCount, hkept.queued.pending]
    refine List.countP_congr fun task hmem => ?_
    rw [decide_eq_true_eq, Bool.not_eq_true']
    constructor
    · intro hlive
      by_contra hended
      exact hlive (hquiet task hmem (by simpa using hended))
    · intro hnot hsettled
      rw [hsettled] at hnot
      cases hnot

/-- A task whose result has settled is counted until the next microtasks. -/
theorem pendingCount_after_result :
    (run stepDispatch (new (.finite 2)) [.enqueue (js "chat:1"), .start 0, .runTask 0, .finish 0 false,
      .leave 0]).pendingCount = 1 ∧
    (run stepDispatch (new (.finite 2)) [.enqueue (js "chat:1"), .start 0, .runTask 0, .finish 0 false,
      .leave 0]).tasks.countP (fun task => !task.phase.ended) = 0 :=
  ⟨rfl, rfl⟩

end KeyedTaskDispatcher

end ForwardX.Panel.Dispatcher
