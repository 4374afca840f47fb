/-
The supervisor of the agent's Xray process: `agent/xray_supervisor.go`.
-/
import ForwardX.Lib.Run
import ForwardX.Lib.Threads
import Mathlib.Algebra.Order.Field.Rat

namespace ForwardX.Agent.XraySupervision

open Threads

/-! ## Data -/

structure XrayLaunchSpec where
  binaryPath : String
  binarySHA256 : String
  configPath : String
  version : String
  generation : ℤ
  configHash : String
  deriving DecidableEq, Inhabited

inductive XrayServiceStatus where
  | running
  | stopped
  | error
  | unknown
  deriving DecidableEq

inductive XrayErrorCode where
  | runtimeStartFailed
  | internal
  deriving DecidableEq

/-- A process as the system has it. `told` is that it was sent an interrupt or killed. -/
structure XrayManagedProcess where
  adopted : Bool := false
  alive : Bool := true
  told : Bool := false
  done : Bool := false

/-- What is known of a process that was started or adopted; `process` is its identity. -/
structure TrackedXrayProcess where
  process : ℕ
  spec : XrayLaunchSpec
  startedAt : ℚ
  epoch : ℕ
  deriving DecidableEq

structure XraySupervisorRecord where
  desiredRunning : Bool
  spec : XrayLaunchSpec
  process : Option ℕ

structure XraySupervisorStatus where
  serviceStatus : XrayServiceStatus
  tracked : Option TrackedXrayProcess
  spec : XrayLaunchSpec
  restartAttempts : ℕ
  errorCode : Option XrayErrorCode
  reused : Bool
  deriving DecidableEq

inductive XraySupervisorError where
  | invalidSpec
  | processIdentityMismatch
  | runtimeAlreadyRunning
  | start
  | persist
  | signal
  | kill
  | didNotExit
  | record
  | adopt
  deriving DecidableEq

structure XraySupervisorOptions where
  stableWindow : ℚ := 300
  maxRestarts : ℕ := 4

/-- The supervisor, its record on the disk and the processes it launched or adopted. The last
three are no variables of the source: the process that is launched and not tracked yet, how many
the watchdog has launched since its attempts were last set to zero, and whether a Stop that
returned success was the last call but for Stops. -/
structure XraySupervisor where
  transitionMu : Option ℕ := none
  current : Option TrackedXrayProcess := none
  spec : XrayLaunchSpec := default
  desiredRunning : Bool := false
  status : XrayServiceStatus := .stopped
  errorCode : Option XrayErrorCode := none
  restartAttempts : ℕ := 0
  epoch : ℕ := 0
  record : Option XraySupervisorRecord := none
  processes : List XrayManagedProcess := []
  launching : Option ℕ := none
  watchdogLaunches : ℕ := 0
  quiet : Bool := false

structure Outcome where
  valid : Bool := true
  inspected : Bool := true
  launched : Bool := true
  adopted : Bool := true
  signalled : Bool := true
  killed : Bool := true
  persisted : Bool := true
  readable : Bool := true
  timedOut : Bool := false
  delayed : Bool := true
  now : ℚ := 0

/-! ## Threads -/

inductive Task where
  | Start (spec : XrayLaunchSpec)
  | Stop
  | Restart (spec : XrayLaunchSpec)
  | Recover
  | watch (tracked : TrackedXrayProcess)
  | restartAfterUnexpectedExit (epoch : ℕ)
  deriving DecidableEq

inductive Result where
  | status (status : XraySupervisorStatus)
  | done
  | failed (error : XraySupervisorError)
  deriving DecidableEq

/-- Where a thread is. The points between `locked` ones hold `transitionMu`, see `Pc.Locked`. -/
inductive Pc where
  | entered
  | lock
  | readRecord
  | stopLocked
  | stopInspect (tracked : TrackedXrayProcess)
  | stopSignal (tracked : TrackedXrayProcess)
  | stopWait (tracked : TrackedXrayProcess)
  | stopInspectAgain (tracked : TrackedXrayProcess)
  | stopKill (tracked : TrackedXrayProcess)
  | stopWaitKilled (tracked : TrackedXrayProcess)
  | startLocked (spec : XrayLaunchSpec)
  | launch (spec : XrayLaunchSpec) (epoch : ℕ)
  | inspect (spec : XrayLaunchSpec) (epoch : ℕ) (process : ℕ)
  | track (tracked : TrackedXrayProcess)
  | discard (process : ℕ) (error : XraySupervisorError)
  | unlock (result : Result)
  | over (result : Result)
  | wait (tracked : TrackedXrayProcess)
  | clear (tracked : TrackedXrayProcess)
  | retry
  | delay (spec : XrayLaunchSpec)
  | relock (spec : XrayLaunchSpec)
  | recheck (spec : XrayLaunchSpec)
  deriving DecidableEq

structure Thread where
  task : Task
  pc : Pc
  deriving DecidableEq

def Pc.Locked : Pc → Prop
  | .entered | .lock | .over _ | .wait _ | .clear _ | .retry | .delay _ | .relock _ => False
  | _ => True

instance : (pc : Pc) → Decidable pc.Locked
  | .entered | .lock | .over _ | .wait _ | .clear _ | .retry | .delay _ | .relock _ => .isFalse not_false
  | .readRecord | .stopLocked | .stopInspect _ | .stopSignal _ | .stopWait _ | .stopInspectAgain _ | .stopKill _
  | .stopWaitKilled _ | .startLocked _ | .launch _ _ | .inspect _ _ _ | .track _ | .discard _ _ | .unlock _
  | .recheck _ => .isTrue trivial

abbrev After := XraySupervisor × Thread × Option Thread

namespace Thread

def goto (x : Thread) (pc : Pc) : Thread := { x with pc }

/-- `startLocked` is called with `watchdog`. -/
def watchdog (x : Thread) : Bool :=
  match x.task with
  | .restartAfterUnexpectedExit _ => true
  | _ => false

def afterStop (x : Thread) : Pc :=
  match x.task with
  | .Restart spec => .startLocked spec
  | _ => .unlock .done

end Thread

/-! ## Processes -/

namespace XraySupervisor

def alive (s : XraySupervisor) (p : ℕ) : Bool := s.processes[p]?.any XrayManagedProcess.alive

variable (s : XraySupervisor) (p : ℕ)

def isDone : Bool := s.processes[p]?.any XrayManagedProcess.done

def isAdopted : Bool := s.processes[p]?.any XrayManagedProcess.adopted

/-- The process is alive and has not been told to stop or killed. -/
def Loose : Prop := ∃ process, s.processes[p]? = some process ∧ process.alive ∧ ¬ process.told

instance  : Decidable (s.Loose p) :=
  match h : s.processes[p]? with
  | none => .isFalse fun ⟨_, hp, _⟩ => by simp [h] at hp
  | some process =>
    decidable_of_iff (process.alive ∧ ¬ process.told)
      ⟨fun hp => ⟨process, h, hp⟩, fun ⟨_, hp, hloose⟩ => Option.some.inj (h.symm.trans hp) ▸ hloose⟩

def exit : XraySupervisor :=
  { s with processes := s.processes.modify p fun process => { process with alive := false } }

def tell : XraySupervisor :=
  { s with processes := s.processes.modify p fun process => { process with told := true } }

def close : XraySupervisor :=
  { s with processes := s.processes.modify p fun process => { process with done := true } }

/-! ## Under the lock -/

def statusLocked (reused : Bool) : XraySupervisorStatus :=
  ⟨s.status, s.current, s.spec, s.restartAttempts, s.errorCode, reused⟩

def persistLocked (out : Outcome) : XraySupervisor :=
  if out.persisted then
    { s with record := some ⟨s.desiredRunning, s.spec, s.current.map TrackedXrayProcess.process⟩ }
  else s

def startFailed : XraySupervisor :=
  { s with status := .error, errorCode := some .runtimeStartFailed }

def stopped (s : XraySupervisor) : XraySupervisor := { s with status := .stopped, errorCode := none }

/-! ## Stop -/

variable (x : Thread)

/-- `stopLocked` up to the first look at the process. -/
def stopLocked (out : Outcome) : After :=
  let s := { s with epoch := s.epoch + 1, desiredRunning := false }
  match s.current with
  | none =>
    (s.stopped.persistLocked out,
      x.goto (if out.persisted then x.afterStop else .unlock (.failed .persist)), none)
  | some tracked =>
    (s.persistLocked out, x.goto (if out.persisted then .stopInspect tracked else .unlock (.failed .persist)), none)

variable (tracked : TrackedXrayProcess)

def stopInspect (out : Outcome) : After :=
  if out.inspected then (s, x.goto (.stopSignal tracked), none)
  else (s.startFailed.persistLocked out, x.goto (.unlock (.failed .processIdentityMismatch)), none)

def stopSignal (out : Outcome) : After :=
  if out.signalled then (s.tell tracked.process, x.goto (.stopWait tracked), none)
  else (s, x.goto (.unlock (.failed .signal)), none)

def waitXrayProcessDone (out : Outcome)
    (late : Pc) : After :=
  if out.timedOut then (s, x.goto late, none)
  else if s.isDone tracked.process then (s, x.goto x.afterStop, none)
  else (s, x, none)

def stopInspectAgain (out : Outcome) : After :=
  (s, x.goto (if out.inspected then .stopKill tracked else .unlock (.failed .processIdentityMismatch)), none)

def stopKill (out : Outcome) : After :=
  if out.killed then (s.tell tracked.process, x.goto (.stopWaitKilled tracked), none)
  else (s, x.goto (.unlock (.failed .kill)), none)

/-! ## Start -/

def startLocked (spec : XrayLaunchSpec) (out : Outcome) : After :=
  if out.valid then
    match s.current with
    | some tracked =>
      if out.inspected then
        (s, x.goto (.unlock (if tracked.spec = spec then .status (s.statusLocked true)
          else .failed .runtimeAlreadyRunning)), none)
      else (s.startFailed, x.goto (.unlock (.failed .processIdentityMismatch)), none)
    | none =>
      let s := if x.watchdog then s
        else { s with epoch := s.epoch + 1, restartAttempts := 0, watchdogLaunches := 0 }
      (s, x.goto (.launch spec s.epoch), none)
  else (s, x.goto (.unlock (.failed .invalidSpec)), none)

def launch (spec : XrayLaunchSpec) (epoch : ℕ) (out : Outcome) : After :=
  if out.launched then
    ({ s with
        processes := s.processes ++ [{}]
        launching := some s.processes.length
        watchdogLaunches := if x.watchdog then s.watchdogLaunches + 1 else s.watchdogLaunches },
      x.goto (.inspect spec epoch s.processes.length), none)
  else (s.startFailed, x.goto (.unlock (.failed .start)), none)

def inspect (spec : XrayLaunchSpec) (epoch process : ℕ) (out : Outcome) : After :=
  (s, x.goto (if out.inspected then .track ⟨process, spec, out.now, epoch⟩
    else .discard process .processIdentityMismatch), none)

/-- What `startLocked` writes for a process that it tracks from now on. -/
def adopt : XraySupervisor :=
  { s with
    current := some tracked
    spec := tracked.spec
    desiredRunning := true
    status := .running
    errorCode := none
    launching := none }

def track (out : Outcome) : After :=
  if s.epoch ≠ tracked.epoch ∨ s.current ≠ none then
    (s, x.goto (.discard tracked.process .runtimeAlreadyRunning), none)
  else if out.persisted then
    ((s.adopt tracked).persistLocked out, x.goto (.unlock (.status ((s.adopt tracked).statusLocked false))),
      some ⟨.watch tracked, .wait tracked⟩)
  else
    ({ s with
        spec := tracked.spec
        desiredRunning := false
        status := .error
        errorCode := some .internal },
      x.goto (.discard tracked.process .persist), none)

/-- `process.Kill()`, whatever becomes of it. -/
def discard (process : ℕ) (error : XraySupervisorError) (out : Outcome) : After :=
  let s := if out.killed then s.tell process else s
  ({ s with launching := none }, x.goto (.unlock (.failed error)), none)

/-! ## Recover -/

/-- `Recover` up to the start of a new process, or all of it where it adopts the old one. -/
def readRecord (out : Outcome) : After :=
  if out.readable then
    match s.record with
    | none => (s, x.goto (.unlock .done), none)
    | some record =>
      if record.desiredRunning then
        if out.valid then
          if record.process.isSome ∧ out.inspected then
            if out.adopted then
              let tracked : TrackedXrayProcess := ⟨s.processes.length, record.spec, out.now, s.epoch + 1⟩
              let s := adopt { s with
                processes := s.processes ++ [{ adopted := true }]
                epoch := s.epoch + 1 } tracked
              (s, x.goto (.unlock (.status (s.statusLocked true))), some ⟨.watch tracked, .wait tracked⟩)
            else (s, x.goto (.unlock (.failed .adopt)), none)
          else (s, x.goto (.startLocked record.spec), none)
        else (s, x.goto (.unlock (.failed .invalidSpec)), none)
      else (s, x.goto (.unlock .done), none)
  else (s, x.goto (.unlock (.failed .record)), none)

/-! ## The watcher and the watchdog -/

/-- `Wait` of a process that the agent launched returns when it has exited, and that of an adopted
one when an inspection does not find it. -/
def present (out : Outcome) : Bool := if s.isAdopted p then out.inspected else s.alive p

def wait (out : Outcome) : After :=
  if s.present tracked.process out then (s, x, none)
  else (s.close tracked.process, x.goto (.clear tracked), none)

variable (options : XraySupervisorOptions)

/-- `watch` behind its `Wait`. -/
def clear (s : XraySupervisor) (x : Thread) (tracked : TrackedXrayProcess)
    (out : Outcome) : After :=
  if s.current = some tracked then
    if s.desiredRunning ∧ s.epoch = tracked.epoch then
      let stable := options.stableWindow ≤ out.now - tracked.startedAt
      (persistLocked (startFailed { s with
          current := none
          restartAttempts := if stable then 0 else s.restartAttempts
          watchdogLaunches := if stable then 0 else s.watchdogLaunches }) out,
        x.goto (.over .done), some ⟨.restartAfterUnexpectedExit tracked.epoch, .retry⟩)
    else (persistLocked (stopped { s with current := none }) out, x.goto (.over .done), none)
  else (s, x.goto (.over .done), none)

/-- `restartAfterUnexpectedExit` up to the delay. -/
def retry (s : XraySupervisor) (x : Thread) (epoch : ℕ) (out : Outcome) : After :=
  if s.desiredRunning ∧ s.epoch = epoch ∧ s.current = none then
    if options.maxRestarts ≤ s.restartAttempts then (s.startFailed.persistLocked out, x.goto (.over .done), none)
    else
      (persistLocked { s with restartAttempts := s.restartAttempts + 1 } out, x.goto (.delay s.spec), none)
  else (s, x.goto (.over .done), none)

def delay (spec : XrayLaunchSpec) (out : Outcome) : After :=
  (s, x.goto (if out.delayed then .relock spec else .over .done), none)

def recheck (epoch : ℕ) (spec : XrayLaunchSpec) : After :=
  (s, x.goto (if s.desiredRunning ∧ s.epoch = epoch ∧ s.current = none then .startLocked spec else .unlock .done), none)

/-! ## Steps -/

def entered (out : Outcome) : After :=
  (s, x.goto (if out.valid then .lock else .over (.failed .invalidSpec)), none)

def lock (t : ℕ) (x : Thread) : After :=
  if s.transitionMu = none then
    match x.task with
    | .Start spec => ({ s with transitionMu := some t, quiet := false }, x.goto (.startLocked spec), none)
    | .Restart _ => ({ s with transitionMu := some t, quiet := false }, x.goto .stopLocked, none)
    | _ => ({ s with transitionMu := some t }, x.goto .stopLocked, none)
  else (s, x, none)

def relock (t : ℕ) (x : Thread) (spec : XrayLaunchSpec) : After :=
  if s.transitionMu = none then ({ s with transitionMu := some t }, x.goto (.recheck spec), none) else (s, x, none)

/-- The thread returns, but for a watchdog whose start has failed. -/
def unlock (result : Result) : After :=
  ({ s with
      transitionMu := none
      quiet := if x.task = .Stop ∧ result = .done then true else s.quiet },
    x.goto (match x.task, result with
      | .restartAfterUnexpectedExit _, .failed _ => .retry
      | _, _ => .over result), none)

def step (s : XraySupervisor) (t : ℕ) (x : Thread) (out : Outcome) : After :=
  match x.pc with
  | .entered => s.entered x out
  | .lock => s.lock t x
  | .readRecord => s.readRecord x out
  | .stopLocked => s.stopLocked x out
  | .stopInspect tracked => s.stopInspect x tracked out
  | .stopSignal tracked => s.stopSignal x tracked out
  | .stopWait tracked => s.waitXrayProcessDone x tracked out (.stopInspectAgain tracked)
  | .stopInspectAgain tracked => s.stopInspectAgain x tracked out
  | .stopKill tracked => s.stopKill x tracked out
  | .stopWaitKilled tracked => s.waitXrayProcessDone x tracked out (.unlock (.failed .didNotExit))
  | .startLocked spec => s.startLocked x spec out
  | .launch spec epoch => s.launch x spec epoch out
  | .inspect spec epoch process => s.inspect x spec epoch process out
  | .track tracked => s.track x tracked out
  | .discard process error => s.discard x process error out
  | .unlock result => s.unlock x result
  | .over _ => (s, x, none)
  | .wait tracked => s.wait x tracked out
  | .clear tracked => s.clear options x tracked out
  | .retry =>
    match x.task with
    | .restartAfterUnexpectedExit epoch => s.retry options x epoch out
    | _ => (s, x, none)
  | .delay spec => s.delay x spec out
  | .relock spec => s.relock t x spec
  | .recheck spec =>
    match x.task with
    | .restartAfterUnexpectedExit epoch => s.recheck x epoch spec
    | _ => (s, x, none)

end XraySupervisor

/-! ## Runs -/

inductive Event where
  | Recover
  | Start (spec : XrayLaunchSpec)
  | Stop
  | Restart (spec : XrayLaunchSpec)
  | exit (process : ℕ)
  | step (t : ℕ) (out : Outcome)

abbrev Supervision := World XraySupervisor Thread

def init (record : Option XraySupervisorRecord) : Supervision := ⟨{ record }, []⟩

/-- `Recover` is the first call if it is called at all. -/
def next (options : XraySupervisorOptions) (w : Supervision) : Event → Supervision
  | .Recover => if w.threads = [] then w.spawn { w.shared with transitionMu := some 0 } ⟨.Recover, .readRecord⟩ else w
  | .Start spec => w.spawn w.shared ⟨.Start spec, .entered⟩
  | .Stop => w.spawn w.shared ⟨.Stop, .lock⟩
  | .Restart spec => w.spawn w.shared ⟨.Restart spec, .entered⟩
  | .exit process => { w with shared := w.shared.exit process }
  | .step t out =>
    match w.threads[t]? with
    | none => w
    | some x => w.move t (w.shared.step options t x out)

end ForwardX.Agent.XraySupervision
