/-
How the agent applies a desired Xray configuration: `agent/xray_runtime.go` and
`agent/xray_persistence.go`.
-/
import ForwardX.Agent.XraySupervision
import ForwardX.Agent.XrayTypes

namespace ForwardX.Agent.XrayApply

open XrayTypes
open XraySupervision (XrayLaunchSpec XrayServiceStatus)

/-! ## Files -/

structure Disk where
  config : Option String := none
  configHash : Option String := none
  current : Option String := none
  state : Option XrayRuntimeState := none
  lastGood : Option String := none
  lastGoodHash : Option String := none
  marker : Option XrayRuntimeState := none

inductive FileOp where
  | config (config : String)
  | configHash (hash : String)
  | current (version : String)
  | state (state : XrayRuntimeState)
  | lastGood (config : String)
  | lastGoodHash (hash : String)
  | marker (previousState : XrayRuntimeState)
  | removeConfig
  | removeConfigHash
  | removeCurrent
  | removeState
  | removeMarker
  deriving DecidableEq

inductive FileOutcome where
  | ok
  | failedBefore
  | failedAfter
  deriving DecidableEq

section

variable (tools : XrayTools)

def FileOp.allowed : FileOp → Bool
  | .state committed => committed.Validate
  | .current version => xrayVersionPattern version && (tools.binary version).isSome
  | _ => true

variable (d : Disk)

def FileOp.run : FileOp → Disk
  | .config bytes => { d with config := some bytes }
  | .configHash hash => { d with configHash := some hash }
  | .current version => { d with current := some version }
  | .state committed => { d with state := some committed }
  | .lastGood bytes => { d with lastGood := some bytes }
  | .lastGoodHash hash => { d with lastGoodHash := some hash }
  | .marker previousState => { d with marker := some previousState }
  | .removeConfig => { d with config := none }
  | .removeConfigHash => { d with configHash := none }
  | .removeCurrent => { d with current := none }
  | .removeState => { d with state := none }
  | .removeMarker => { d with marker := none }

/-- The disk after the operation was tried, and whether it reports success. -/
def FileOp.attempt (op : FileOp) (out : FileOutcome) : Disk × Bool :=
  if op.allowed tools then
    match out with
    | .ok => (op.run d, true)
    | .failedBefore => (d, false)
    | .failedAfter => (op.run d, false)
  else (d, false)

def runAll (d : Disk) : List FileOp → Option Disk
  | [] => some d
  | op :: ops => if op.allowed tools then runAll (op.run d) ops else none

/-! ## Reads -/

structure Snapshot where
  state : Option XrayRuntimeState := none
  config : String := ""
  configHash : String := ""
  hasConfig : Bool := false
  currentBinary : String := ""
  hasCurrent : Bool := false
  deriving DecidableEq

/-- `readXrayRuntimeStateAt`, `none` being its error. -/
def readState : Option (Option XrayRuntimeState) :=
  match d.state with
  | none => some none
  | some state => if state.Validate then some (some state) else none

def readMarker : Option (Option XrayRuntimeState) :=
  match d.marker with
  | none => some none
  | some previousState => if previousState.Validate then some (some previousState) else none

/-- `readCurrentXrayBinary`; a link that does not exist is no error here. -/
def readCurrent : Option (Option String) :=
  match d.current with
  | none => some none
  | some version => if xrayVersionPattern version && (tools.binary version).isSome then some (some version) else none

/-- The end of `snapshot`, where the state is compared with the files. -/
def compareFiles (state : XrayRuntimeState) (config configHash : String) (current : Option String) : Option Snapshot :=
  match current with
  | none => none
  | some version =>
    if configHash = state.appliedConfigHash ∧ tools.binary version = some state.currentBinarySHA256 ∧
        version = state.currentVersion then
      some ⟨some state, config, configHash, true, version, true⟩
    else none

def snapshot : Option Snapshot :=
  match readState d, readCurrent tools d with
  | some none, some _ => some {}
  | some (some state), some current =>
    match d.config, d.configHash with
    | some config, some configHash =>
      if xraySHA256Pattern configHash ∧ tools.hashXrayBytes config = configHash then
        compareFiles tools state config configHash current
      else none
    | _, _ => none
  | _, _ => none

/-! ## Recovery -/

/-- What `recoverInterruptedApply` writes to complete the old side. -/
def restoreOps (config : String) (previousState : XrayRuntimeState) : List FileOp :=
  [.config config, .configHash previousState.appliedConfigHash, .current previousState.currentVersion,
    .state previousState]

/-- The operations of `recoverInterruptedApply`, or its error. -/
def recoverOps : Option (List FileOp) :=
  match readMarker d with
  | none => none
  | some none => some []
  | some (some previousState) =>
    match readState d with
    | none => none
    | some currentState =>
      if currentState.all (· = previousState) then
        match d.lastGood, d.lastGoodHash with
        | some config, some configHash =>
          if configHash = previousState.appliedConfigHash ∧ tools.hashXrayBytes config = configHash ∧
              tools.binary previousState.currentVersion = some previousState.currentBinarySHA256 then
            some (restoreOps config previousState ++ [.removeMarker])
          else none
        | _, _ => none
      else (snapshot tools d).map fun _ => [.removeMarker]

def recoverInterruptedApply : Option Disk := (recoverOps tools d).bind (runAll tools d)

/-- The state that is committed once an interrupted Apply has been recovered from. -/
def committed : Option XrayRuntimeState :=
  ((recoverInterruptedApply tools d).bind (snapshot tools)).bind Snapshot.state

end

/-! ## The supervisor -/

/-- The supervisor between two calls: the spec of its process, if there is one. -/
structure Supervisor where
  status : XrayServiceStatus := .stopped
  current : Option XrayLaunchSpec := none

structure CallOutcome where
  valid : Bool := true
  persisted : Bool := true
  inspected : Bool := true
  stopped : Bool := true
  launched : Bool := true
  identified : Bool := true
  tracked : Bool := true

namespace Supervisor

/-- `Start`. A process that is tracked is not launched again. -/
def start (s : Supervisor) (spec : XrayLaunchSpec) (out : CallOutcome) : Supervisor × Bool :=
  if out.valid then
    match s.current with
    | some tracked => if out.inspected then (s, tracked = spec) else ({ s with status := .error }, false)
    | none =>
      if out.launched then
        if out.identified then
          if out.tracked then (⟨.running, some spec⟩, true) else ({ s with status := .error }, false)
        else (s, false)
      else ({ s with status := .error }, false)
  else (s, false)

/-- `Stop`. The process is gone when it returns success. -/
def stop (s : Supervisor) (out : CallOutcome) : Supervisor × Bool :=
  match s.current with
  | none => (⟨.stopped, none⟩, out.persisted)
  | some _ =>
    if out.persisted then
      if out.inspected then (if out.stopped then (⟨.stopped, none⟩, true) else (s, false))
      else ({ s with status := .error }, false)
    else (s, false)

def restart (s : Supervisor) (spec : XrayLaunchSpec) (out : CallOutcome) : Supervisor × Bool :=
  if out.valid then
    match s.stop out with
    | (s, true) => s.start spec out
    | (s, false) => (s, false)
  else (s, false)

end Supervisor

/-! ## Apply -/

structure XrayApplyResult where
  applied : Bool := false
  reused : Bool := false
  rolledBack : Bool := false
  errorCode : Option XrayAgentErrorCode := none
  deriving DecidableEq

structure Context where
  snapshot : Snapshot
  binarySHA256 : String := ""
  deriving DecidableEq

/-- Where an Apply is. A `code` is that of the failure that is rolled back. -/
inductive Pc where
  | idle
  | entered
  | recovering (ops : List FileOp)
  | deciding
  | preparing (snapshot : Snapshot)
  | saving (ctx : Context) (ops : List FileOp)
  | activating (ctx : Context) (ops : List FileOp)
  | stopping (ctx : Context)
  | starting (ctx : Context)
  | probing (ctx : Context)
  | committing (ctx : Context)
  | finishing (ctx : Context)
  | restoring (ctx : Context) (code : XrayAgentErrorCode) (ops : List FileOp)
  | restarting (ctx : Context) (code : XrayAgentErrorCode)
  | reprobing (ctx : Context) (code : XrayAgentErrorCode)
  | refinishing (ctx : Context) (code : XrayAgentErrorCode)
  | withdrawing (ctx : Context) (code : XrayAgentErrorCode)
  | cleaning (ctx : Context) (code : XrayAgentErrorCode) (ops : List FileOp) (failed : Bool)
  | returned (result : XrayApplyResult)
  deriving DecidableEq

/-- The last three are no variables of the source: the state that was committed when the Apply was
called, whether its write of state.json took effect and reported failure, and whether, after that, a
file has been restored or removed and state.json has not. -/
structure XrayRuntime where
  disk : Disk := {}
  supervisor : Supervisor := {}
  desired : XrayDesiredState := ⟨1, 0, "", "", "", "", "", []⟩
  pc : Pc := .idle
  before : Option XrayRuntimeState := none
  doubtful : Bool := false
  torn : Bool := false

structure Outcome where
  file : FileOutcome := .ok
  call : CallOutcome := {}
  storage : Bool := true
  resolved : Bool := true
  pending : Bool := true
  tested : Bool := true
  ready : Bool := true

namespace XrayRuntime

section

variable (tools : XrayTools)

variable (w : XrayRuntime)

def goto (pc : Pc) : XrayRuntime := { w with pc }

def fail (code : XrayAgentErrorCode) (rolledBack : Bool := false) : XrayRuntime :=
  w.goto (.returned { rolledBack, errorCode := some code })

/-- `currentRuntimeReady` and `waitForReady`. A running process has an id. -/
def currentRuntimeReady (out : Outcome) : Bool :=
  w.supervisor.status == .running && w.supervisor.current.isSome && out.ready

def launchSpec (version binarySHA256 : String) (generation : ℤ) (configHash : String) : XrayLaunchSpec :=
  ⟨"versions/" ++ version ++ "/xray", binarySHA256, "config.json", version, generation, configHash⟩

def desiredSpec (ctx : Context) : XrayLaunchSpec :=
  launchSpec w.desired.targetVersion ctx.binarySHA256 w.desired.generation w.desired.configHash

def stateSpec (state : XrayRuntimeState) : XrayLaunchSpec :=
  launchSpec state.currentVersion state.currentBinarySHA256 state.appliedGeneration state.appliedConfigHash

def newState (desired : XrayDesiredState) (binarySHA256 : String) : XrayRuntimeState :=
  ⟨!desired.expectedListeners.isEmpty, desired.generation, desired.configHash, desired.targetVersion, binarySHA256,
    desired.expectedListeners⟩

def rollbackAfterFailure (ctx : Context) (code : XrayAgentErrorCode) : XrayRuntime :=
  match ctx.snapshot.state with
  | some state =>
    if ctx.snapshot.hasConfig ∧ ctx.snapshot.hasCurrent then
      w.goto (.restoring ctx code [.config ctx.snapshot.config, .configHash ctx.snapshot.configHash,
        .current ctx.snapshot.currentBinary, .state state])
    else w.goto (.withdrawing ctx code)
  | none => w.goto (.withdrawing ctx code)

/-- The checks of `Apply` before it reads a file. -/
def enter (out : Outcome) : XrayRuntime :=
  if w.desired.Validate tools ∧ w.desired.targetVersion = xrayManagedVersion then
    if tools.hashXrayBytes w.desired.configJSON = w.desired.configHash then
      if out.storage then
        match recoverOps tools w.disk with
        | none => w.fail .rollbackFailed
        | some ops => w.goto (.recovering ops)
      else w.fail .internal
    else w.fail .configInvalid
  else w.fail .configInvalid

/-- `Apply` when it has read the state that is committed. -/
def decide (out : Outcome) : XrayRuntime :=
  match snapshot tools w.disk with
  | none => w.fail .internal
  | some snapshot =>
    match snapshot.state with
    | none => w.goto (.preparing snapshot)
    | some state =>
      if 0 < compareXrayVersions state.currentVersion w.desired.targetVersion then w.fail .versionMismatch
      else if w.desired.generation < state.appliedGeneration ∨
          (w.desired.generation = state.appliedGeneration ∧ w.desired.configHash ≠ state.appliedConfigHash) then
        w.fail .generationHashConflict
      else if w.desired.generation = state.appliedGeneration then
        if !state.desiredRunning ∧ w.desired.expectedListeners.isEmpty ∧ w.supervisor.status = .stopped then
          w.goto (.returned { applied := true, reused := true })
        else if w.currentRuntimeReady out then w.goto (.returned { applied := true, reused := true })
        else w.goto (.preparing snapshot)
      else w.goto (.preparing snapshot)

/-- The binary, the pending file and the config test, and what is saved before the first file is
replaced. -/
def prepare (snapshot : Snapshot) (out : Outcome) : XrayRuntime :=
  match tools.binary w.desired.targetVersion with
  | none => w.fail .artifactNotFound
  | some binarySHA256 =>
    if out.resolved ∧ xraySHA256Pattern binarySHA256 then
      if out.pending then
        if out.tested then
          w.goto (.saving ⟨snapshot, binarySHA256⟩
            (if snapshot.hasConfig then
              [.lastGood snapshot.config, .lastGoodHash snapshot.configHash] ++
                (if snapshot.hasCurrent then snapshot.state.toList.map .marker else [])
            else []))
        else w.fail .configInvalid
      else w.fail .internal
    else w.fail .artifactNotFound

/-- The operations that put the new binary and config in place. -/
def activateOps : List FileOp :=
  [.current w.desired.targetVersion, .config w.desired.configJSON, .configHash w.desired.configHash]

/-- A file operation of a phase that ends with the first failure. -/
def perform (op : FileOp) (out : Outcome) (next : XrayRuntime → XrayRuntime)
    (failed : XrayRuntime → XrayRuntime) : XrayRuntime :=
  let after := op.attempt tools w.disk out.file
  if after.2 then next { w with disk := after.1 } else failed { w with disk := after.1 }

/-- The process of the new config is started, or the old one stopped. -/
def callSupervisor (result : Supervisor × Bool) (next : XrayRuntime → XrayRuntime)
    (failed : XrayRuntime → XrayRuntime) : XrayRuntime :=
  if result.2 then next { w with supervisor := result.1 } else failed { w with supervisor := result.1 }

def startResult (ctx : Context) (out : CallOutcome) : Supervisor × Bool :=
  if w.supervisor.status = .running then w.supervisor.restart (w.desiredSpec ctx) out
  else w.supervisor.start (w.desiredSpec ctx) out

def commit (ctx : Context) (out : Outcome) : XrayRuntime :=
  let new := newState w.desired ctx.binarySHA256
  w.perform tools (.state new) out (·.goto (.finishing ctx)) fun w' =>
    { w' with doubtful := out.file == FileOutcome.failedAfter && w.before != some new }.rollbackAfterFailure ctx .internal

def effective (op : FileOp) (out : FileOutcome) : Bool := op.allowed tools && out != .failedBefore

def restoreStep (op : FileOp) (isState : Bool) (out : FileOutcome) : XrayRuntime :=
  if effective tools op out then
    if isState then { w with doubtful := false, torn := false } else { w with torn := w.doubtful }
  else w

def step (out : Outcome) : XrayRuntime :=
  match w.pc with
  | .idle | .returned _ => w
  | .entered => w.enter tools out
  | .recovering [] => w.goto .deciding
  | .recovering (op :: ops) => w.perform tools op out (·.goto (.recovering ops)) (·.fail .rollbackFailed)
  | .deciding => w.decide tools out
  | .preparing snapshot => w.prepare tools snapshot out
  | .saving ctx [] => w.goto (.activating ctx w.activateOps)
  | .saving ctx (op :: ops) => w.perform tools op out (·.goto (.saving ctx ops)) (·.fail .internal)
  | .activating ctx [] => w.goto (if w.desired.expectedListeners.isEmpty then .stopping ctx else .starting ctx)
  | .activating ctx (op :: ops) =>
    w.perform tools op out (·.goto (.activating ctx ops)) (·.rollbackAfterFailure ctx .internal)
  | .stopping ctx =>
    w.callSupervisor (w.supervisor.stop out.call) (·.goto (.committing ctx))
      (·.rollbackAfterFailure ctx .runtimeStartFailed)
  | .starting ctx =>
    w.callSupervisor (w.startResult ctx out.call) (·.goto (.probing ctx)) (·.rollbackAfterFailure ctx .runtimeStartFailed)
  | .probing ctx =>
    if w.currentRuntimeReady out then w.goto (.committing ctx) else w.rollbackAfterFailure ctx .runtimeNotReady
  | .committing ctx => w.commit tools ctx out
  | .finishing _ =>
    w.perform tools .removeMarker out (·.goto (.returned { applied := true })) (·.fail .internal)
  | .restoring ctx code [] => w.goto (.restarting ctx code)
  | .restoring ctx code (op :: ops) =>
    (w.restoreStep tools op ops.isEmpty out.file).perform tools op out (·.goto (.restoring ctx code ops))
      (·.fail .rollbackFailed)
  | .restarting ctx code =>
    match ctx.snapshot.state with
    | none => w
    | some state =>
      w.callSupervisor (w.supervisor.restart (stateSpec state) out.call) (·.goto (.reprobing ctx code))
        (·.fail .rollbackFailed)
  | .reprobing ctx code =>
    if w.currentRuntimeReady out then w.goto (.refinishing ctx code) else w.fail .rollbackFailed
  | .refinishing _ code => w.perform tools .removeMarker out (·.fail code true) (·.fail .rollbackFailed)
  | .withdrawing ctx code =>
    w.callSupervisor (w.supervisor.stop out.call)
      (·.goto (.cleaning ctx code [.removeConfig, .removeConfigHash, .removeCurrent, .removeState] false))
      (·.fail .rollbackFailed)
  | .cleaning _ code [] failed => w.fail (if failed then .rollbackFailed else code)
  | .cleaning ctx code (op :: ops) failed =>
    (w.restoreStep tools op ops.isEmpty out.file).perform tools op out (·.goto (.cleaning ctx code ops failed))
      (·.goto (.cleaning ctx code ops true))

end

end XrayRuntime

/-! ## Runs -/

inductive Event where
  | apply (desired : XrayDesiredState)
  | step (out : Outcome)
  | crash (supervisor : Supervisor)

def Pc.Resting : Pc → Prop
  | .idle | .returned _ => True
  | _ => False

instance : (pc : Pc) → Decidable pc.Resting
  | .idle | .returned _ => .isTrue trivial
  | .entered | .recovering _ | .deciding | .preparing _ | .saving _ _ | .activating _ _ | .stopping _ | .starting _
  | .probing _ | .committing _ | .finishing _ | .restoring _ _ _ | .restarting _ _ | .reprobing _ _ | .refinishing _ _
  | .withdrawing _ _ | .cleaning _ _ _ _ => .isFalse not_false

/-- `mu` keeps an Apply from beginning before the last one has ended. After a crash the agent is
started again, and finds the supervisor in whatever condition. -/
def next (tools : XrayTools) (w : XrayRuntime) : Event → XrayRuntime
  | .apply desired =>
    if w.pc.Resting then
      { w with desired, pc := .entered, before := committed tools w.disk, doubtful := false, torn := false }
    else w
  | .step out => w.step tools out
  | .crash supervisor => { w with pc := .idle, supervisor, doubtful := false, torn := false }

/-! ## A host -/

def sampleTools : XrayTools where
  hashXrayBytes bytes :=
    if bytes = "\x7b\x7d" then "44136fa355b3678a1146ad16f7e8649e94fb4fc21fe77e8310c060f61caaff8a"
    else "7f959f83ac84e60f296a95caeab65b3f9c65c33b48fed012ef357acd741cadef"
  binary version := if version = xrayManagedVersion then some (String.ofList (List.replicate 64 'b')) else none
  isTimestamp value := value == "2026-01-01T00:00:00Z"
  isJsonObject bytes := bytes == "\x7b\x7d" || bytes == "\x7b\"log\":\x7b\x7d\x7d"

def sampleDesired (generation : ℤ) (configJSON : String) (listeners : List XrayExpectedListener) : XrayDesiredState :=
  ⟨1, generation, "2026-01-01T00:00:00Z", xrayManagedVersion, sampleTools.hashXrayBytes configJSON, "JSON_UTF8", configJSON,
    listeners⟩

/-- The first generation has no listener, so its Apply stops the process. -/
def stoppedDesired : XrayDesiredState := sampleDesired 1 "\x7b\x7d" []

def runningDesired : XrayDesiredState :=
  sampleDesired 2 "\x7b\"log\":\x7b\x7d\x7d" [⟨1, "in-1", "tcp", "0.0.0.0", 2000⟩]

def applied (desired : XrayDesiredState) (steps : ℕ) : List Event :=
  .apply desired :: List.replicate steps (.step {})

end ForwardX.Agent.XrayApply
