/-
What the agent reports of its Xray runtime, `agent/xray_state.go`.
-/
import ForwardX.Agent.XrayHeartbeat
import ForwardX.Agent.XrayScheduler
import ForwardX.Lib.Calendar
import ForwardX.Lib.Json
import Mathlib.Data.List.DropRight
import Mathlib.Data.List.Infix

/-! ## Checks -/

namespace ForwardX.Agent.XrayHeartbeat

open XrayTypes

def XrayObservedListener.Validate (listener : XrayObservedListener) : Bool :=
  validateXrayIdentifier listener.runtimeTag && (listener.network == "tcp" || listener.network == "udp") &&
    validateXrayPort listener.port && listener.errorCode.all validateXrayErrorCode

def XrayObservedError.Validate (tools : XrayTools) (observedError : XrayObservedError) : Bool :=
  validateXrayErrorCode observedError.code && observedError.message.utf8ByteSize ≤ xrayMaxErrorMessageBytes &&
    0 ≤ observedError.generation && observedError.generation ≤ xrayMaxSafeInteger &&
    tools.isTimestamp observedError.occurredAt

def XrayObservedState.Validate (tools : XrayTools) (state : XrayObservedState) : Bool :=
  state.schemaVersion == 1 && state.installedVersion.all validateXrayVersion &&
    state.runningVersion.all validateXrayVersion &&
    state.processID.all (fun pid => 0 < pid && pid ≤ xrayMaxSafeInteger) &&
    state.binarySHA256.all xraySHA256Pattern &&
    0 ≤ state.appliedGeneration && state.appliedGeneration ≤ xrayMaxSafeInteger &&
    state.appliedConfigHash.all xraySHA256Pattern &&
    state.listeners.length ≤ xrayMaxExpectedListeners &&
    state.listeners.all XrayObservedListener.Validate &&
    state.lastError.all (XrayObservedError.Validate tools) && tools.isTimestamp state.observedAt

end ForwardX.Agent.XrayHeartbeat

/-! ## Texts -/

namespace ForwardX.Agent.XraySupervision

def XrayServiceStatus.text : XrayServiceStatus → String
  | running => "RUNNING"
  | stopped => "STOPPED"
  | error => "ERROR"
  | unknown => "UNKNOWN"

end ForwardX.Agent.XraySupervision

namespace ForwardX.Agent.XrayHeartbeat

def XrayListenerStatus.text : XrayListenerStatus → String
  | ready => "READY"
  | missing => "MISSING"
  | wrongProcess => "WRONG_PROCESS"
  | unknown => "UNKNOWN"

/-- A pointer, which is `null` if it is nil. -/
def orNull {α : Type*} (json : α → Json) : Option α → Json
  | none => .null
  | some a => json a

/-- The error code is left out if it is nil. -/
def XrayObservedListener.json (listener : XrayObservedListener) : Json :=
  .obj ([("runtimeTag", .str listener.runtimeTag), ("network", .str listener.network),
    ("port", .int listener.port), ("status", .str listener.status.text)] ++
    match listener.errorCode with
    | none => []
    | some code => [("errorCode", .str code)])

def XrayObservedError.json (observedError : XrayObservedError) : Json :=
  .obj [("code", .str observedError.code), ("message", .str observedError.message),
    ("generation", .int observedError.generation), ("occurredAt", .str observedError.occurredAt)]

def XrayObservedState.json (state : XrayObservedState) : Json :=
  .obj [("schemaVersion", .int state.schemaVersion), ("isInstalled", .bool state.isInstalled),
    ("installedVersion", orNull .str state.installedVersion),
    ("runningVersion", orNull .str state.runningVersion),
    ("serviceStatus", .str state.serviceStatus.text), ("processId", orNull .int state.processID),
    ("binarySha256", orNull .str state.binarySHA256),
    ("appliedGeneration", .int state.appliedGeneration),
    ("appliedConfigHash", orNull .str state.appliedConfigHash),
    ("listeners", .arr (state.listeners.map XrayObservedListener.json)),
    ("lastError", orNull XrayObservedError.json state.lastError), ("observedAt", .str state.observedAt)]

def marshal (state : XrayObservedState) : String := state.json.render Json.goEscape

end ForwardX.Agent.XrayHeartbeat

namespace ForwardX.Agent.XrayObserved

open XrayTypes XrayHeartbeat List
open XraySupervision (XrayServiceStatus)
open XrayScheduler (validateXrayDesiredPayload)
open Calendar (Date)
open Run (run run_invariant_of_forall)

/-! ## Times -/

structure Time where
  date : Date
  hour : ℕ
  minute : ℕ
  second : ℕ
  nanosecond : ℕ
  year_range : 0 ≤ date.year ∧ date.year ≤ 9999
  hour_lt : hour < 24
  minute_lt : minute < 60
  second_lt : second < 60
  nanosecond_lt : nanosecond < 10 ^ 9

/-- The last `width` decimals of a number. -/
def decimals (width n : ℕ) : List Char :=
  (List.range width).reverse.map fun i => Nat.digitChar (n / 10 ^ i % 10)

def fraction (nanosecond : ℕ) : List Char :=
  let digits := (decimals 9 nanosecond).rdropWhile (· == '0')
  if digits = [] then [] else '.' :: digits

def rfc3339Nano (t : Time) : String :=
  String.ofList (decimals 4 t.date.year.toNat ++ ['-'] ++ decimals 2 t.date.month.toNat ++ ['-'] ++
    decimals 2 t.date.day.toNat ++ ['T'] ++ decimals 2 t.hour ++ [':'] ++ decimals 2 t.minute ++ [':'] ++
    decimals 2 t.second ++ fraction t.nanosecond ++ ['Z'])

/-! ## Rejected desired states -/

structure XrayDesiredFailure where
  code : XrayAgentErrorCode
  message : String
  generation : ℤ
  occurredAt : Time

def xrayDesiredFailureMessage : XrayAgentErrorCode → String
  | .capabilityUnsupported | .hostPlatformUnsupported => "Managed Xray is not supported on this Agent"
  | .configInvalid => "Managed Xray rejected the desired configuration"
  | .generationHashConflict => "Managed Xray rejected a conflicting desired generation"
  | .artifactNotFound | .artifactHashMismatch | .artifactArchMismatch =>
    "The managed Xray binary is unavailable"
  | .runtimeStartFailed => "Managed Xray could not be started"
  | .runtimeNotReady => "Managed Xray listeners did not become ready"
  | .rollbackFailed => "Managed Xray could not restore the last-good runtime"
  | _ => "Managed Xray could not apply the desired state"

def recordXrayDesiredFailure (code : XrayAgentErrorCode) (generation : ℤ) (now : Time) :
    Option XrayDesiredFailure :=
  some ⟨code, xrayDesiredFailureMessage code, generation, now⟩

/-- `xrayApplyResult` and the error of a call of `apply`, with the code of an `xrayRuntimeApplyError`. -/
structure ApplyOutcome where
  applied : Bool
  errorCode : Option XrayAgentErrorCode
  err : Option (Option XrayAgentErrorCode)

/-- The failure that is left behind. `supported` is that the capability is valid and says so. -/
def reconcileXrayDesiredState (tools : XrayTools) (desired : XrayDesiredState) (supported : Bool)
    (apply : Option ApplyOutcome) (now : Time) : Option XrayDesiredFailure :=
  if validateXrayDesiredPayload tools desired = false then
    recordXrayDesiredFailure .configInvalid desired.generation now
  else if supported = false then
    recordXrayDesiredFailure .capabilityUnsupported desired.generation now
  else match apply with
    | none => recordXrayDesiredFailure .internal desired.generation now
    | some outcome =>
      if outcome.err ≠ none ∨ outcome.applied = false then
        let code := (outcome.errorCode.or outcome.err.join).getD .internal
        recordXrayDesiredFailure code desired.generation now
      else none

/-- What happens to a desired state that was received. -/
inductive Event where
  /-- It goes to the scheduler, which rejects it if it is not valid. -/
  | schedule (desired : XrayDesiredState) (now : Time)
  /-- It conflicts with another one that the agent holds. -/
  | conflict (desired : XrayDesiredState) (now : Time)
  | reconcile (desired : XrayDesiredState) (supported : Bool) (apply : Option ApplyOutcome) (now : Time)

def Event.desired : Event → XrayDesiredState
  | .schedule desired _ => desired
  | .conflict desired _ => desired
  | .reconcile desired _ _ _ => desired

def step (tools : XrayTools) (failure : Option XrayDesiredFailure) : Event → Option XrayDesiredFailure
  | .schedule desired now =>
    if validateXrayDesiredPayload tools desired = false then
      recordXrayDesiredFailure .configInvalid desired.generation now
    else failure
  | .conflict desired now => recordXrayDesiredFailure .generationHashConflict desired.generation now
  | .reconcile desired supported apply now => reconcileXrayDesiredState tools desired supported apply now

/-! ## The sockets of a process -/

structure XrayProcListener where
  network : String
  address : String
  port : ℤ
  inode : String

/-- The files under `/proc`: the sockets of a process, and the listeners of a network. -/
structure XrayProc where
  socketInodes : ℤ → Option (List String)
  networkListeners : String → Option (List XrayProcListener)
  addressMatches : String → String → Bool

def listenerStatus (proc : XrayProc) (owned : List String) (wanted : XrayExpectedListener) :
    XrayListenerStatus → List XrayProcListener → XrayListenerStatus
  | status, [] => status
  | status, actual :: rest =>
    if actual.network ≠ wanted.network ∨ actual.port ≠ wanted.port ∨
        proc.addressMatches wanted.listenAddress actual.address = false then
      listenerStatus proc owned wanted status rest
    else if actual.inode ∈ owned then .ready
    else listenerStatus proc owned wanted .wrongProcess rest

def probeManagedXrayListeners (proc : XrayProc) (pid : ℤ) (expected : List XrayExpectedListener) :
    Option (List XrayObservedListener) := do
  let owned ← proc.socketInodes pid
  let needed := ["tcp", "udp"].filter fun network => expected.any fun wanted => wanted.network == network
  let listeners ← needed.mapM proc.networkListeners
  return expected.map fun wanted =>
    { runtimeTag := wanted.runtimeTag
      network := wanted.network
      port := wanted.port
      status := listenerStatus proc owned wanted .missing listeners.flatten
      errorCode := none }

/-- Each expected listener is observed once, and ready. -/
def allXrayListenersReady (expected : List XrayExpectedListener) (observed : List XrayObservedListener) :
    Bool :=
  let identities := observed.map fun listener => (listener.runtimeTag, listener.network, listener.port)
  expected.length == observed.length && decide identities.Nodup && expected.all fun listener =>
    observed.any fun actual => actual.runtimeTag == listener.runtimeTag &&
      actual.network == listener.network && actual.port == listener.port && actual.status == .ready

def missingXrayListeners (expected : List XrayExpectedListener) : List XrayObservedListener :=
  expected.map fun listener => ⟨listener.runtimeTag, listener.network, listener.port, .missing, none⟩

def unknownXrayListeners (expected : List XrayExpectedListener) (code : XrayAgentErrorCode) :
    List XrayObservedListener :=
  expected.map fun listener =>
    ⟨listener.runtimeTag, listener.network, listener.port, .unknown, some code.text⟩

/-! ## The report -/

/-- What the report reads of `xraySupervisorStatus`. A process of the system has a number up to 2²². -/
structure XraySupervisorStatus where
  serviceStatus : XrayServiceStatus
  pid : ℤ
  binaryPath : String
  version : String
  generation : ℤ
  configHash : String
  pid_le : pid ≤ 2 ^ 22

/-- What the agent finds on its host. An error is `none`; for the committed state it is the outer one. -/
structure Host where
  state : Option (Option XrayRuntimeState)
  state_valid : ∀ state', state = some (some state') → state'.Validate = true
  currentBinary : Option String
  sha256File : String → Option String
  sha256File_pattern : ∀ path hash, sha256File path = some hash → xraySHA256Pattern hash = true
  snapshotOk : Bool
  status : XraySupervisorStatus
  clean : String → String
  proc : XrayProc

/-- The committed state, if it can be read. -/
def Host.committed (host : Host) : Option XrayRuntimeState := host.state.join

def newXrayObservedError (code : XrayAgentErrorCode) (message : String) (generation : ℤ) (now : Time) :
    XrayObservedError :=
  ⟨code.text, message, generation, rfc3339Nano now⟩

def initialState (now : Time) : XrayObservedState where
  schemaVersion := 1
  isInstalled := false
  installedVersion := none
  runningVersion := none
  serviceStatus := .stopped
  processID := none
  binarySHA256 := none
  appliedGeneration := 0
  appliedConfigHash := none
  listeners := []
  lastError := none
  observedAt := rfc3339Nano now

/-- `observed.IsInstalled`, with the version and the hash of the binary. -/
def installed (observed : XrayObservedState) (version binaryHash : String) : XrayObservedState :=
  { observed with
    isInstalled := true
    installedVersion := some version
    binarySHA256 := some binaryHash }

/-- The first part of `ObservedState`, about the files: the report, whether `stateErr` is set, and
the path of the binary. -/
def observeFiles (tools : XrayTools) (host : Host) (now : Time) : XrayObservedState × Bool × String :=
  let observed := initialState now
  match host.state with
  | none => (observed, true, "")
  | some none =>
    match tools.binary xrayManagedVersion with
    | none => (observed, false, "")
    | some binaryHash => (installed observed xrayManagedVersion binaryHash, false, "")
  | some (some state) =>
    let observed := { observed with
      appliedGeneration := state.appliedGeneration
      appliedConfigHash := some state.appliedConfigHash }
    match host.currentBinary with
    | none => (observed, true, "")
    | some binaryPath =>
      match host.sha256File binaryPath with
      | none => (observed, true, binaryPath)
      | some binaryHash =>
        if binaryHash ≠ state.currentBinarySHA256 ∨
            ¬('/' :: state.currentVersion.toList ++ ['/']) <:+: binaryPath.toList then
          (observed, true, binaryPath)
        else (installed observed state.currentVersion binaryHash, !host.snapshotOk, binaryPath)

/-- That the supervisor's process is the one of the committed state. -/
def runsState (host : Host) (state : XrayRuntimeState) (binaryPath : String) : Bool :=
  state.desiredRunning && host.status.serviceStatus == .running && 0 < host.status.pid &&
    host.status.generation == state.appliedGeneration && host.status.configHash == state.appliedConfigHash &&
    host.status.version == state.currentVersion &&
    host.clean host.status.binaryPath == host.clean binaryPath

/-- The second part, about the process and its listeners. -/
def observeProcess (host : Host) (now : Time) (observed : XrayObservedState) (stateErr : Bool)
    (binaryPath : String) : XrayObservedState :=
  match host.committed with
  | none => observed
  | some state =>
    if stateErr = false ∧ runsState host state binaryPath = true then
      let observed := { observed with
        serviceStatus := .running
        runningVersion := some state.currentVersion
        processID := some host.status.pid }
      match probeManagedXrayListeners host.proc host.status.pid state.expectedListeners with
      | some listeners =>
        { observed with
          listeners
          lastError :=
            if allXrayListenersReady state.expectedListeners listeners = false then
              some (newXrayObservedError .runtimeNotReady "Managed Xray listeners are not ready"
                state.appliedGeneration now)
            else none }
      | none =>
        { observed with
          listeners := unknownXrayListeners state.expectedListeners .internal
          lastError := some (newXrayObservedError .internal
            "Managed Xray listeners could not be inspected" state.appliedGeneration now) }
    else
      let observed := { observed with listeners := missingXrayListeners state.expectedListeners }
      if state.desiredRunning = true ∧ stateErr = false then
        { observed with
          serviceStatus := .error
          lastError := some (newXrayObservedError .runtimeStartFailed "Managed Xray is not running"
            state.appliedGeneration now) }
      else if state.desiredRunning = false ∧ stateErr = false ∧ host.status.serviceStatus = .running then
        { observed with
          serviceStatus := .error
          lastError := some (newXrayObservedError .internal
            "Managed Xray supervisor state conflicts with runtime state" state.appliedGeneration now) }
      else observed

/-- The third part, about the state itself and the supervisor. -/
def observeErrors (host : Host) (now : Time) (observed : XrayObservedState) (stateErr : Bool) :
    XrayObservedState :=
  if stateErr = true then
    let generation := (host.committed.map fun state => state.appliedGeneration).getD 0
    { observed with
      serviceStatus := .error
      lastError := some (newXrayObservedError .internal "Managed Xray runtime state is invalid"
        generation now) }
  else if host.status.serviceStatus = .error ∧ observed.lastError = none then
    { observed with
      serviceStatus := .error
      lastError := some (newXrayObservedError .runtimeStartFailed
        "Managed Xray supervisor reported an error" observed.appliedGeneration now) }
  else observed

def decorateXrayObservedStateWithDesiredFailure (observed : XrayObservedState)
    (failure : Option XrayDesiredFailure) : XrayObservedState :=
  match failure with
  | none => observed
  | some failure =>
    if failure.generation < observed.appliedGeneration then observed
    else
      { observed with
        lastError := some ⟨failure.code.text, failure.message, failure.generation,
          rfc3339Nano failure.occurredAt⟩ }

def ObservedState (tools : XrayTools) (host : Host) (failure : Option XrayDesiredFailure) (now : Time) :
    XrayObservedState :=
  let (observed, stateErr, binaryPath) := observeFiles tools host now
  let observed := observeProcess host now observed stateErr binaryPath
  let observed := observeErrors host now observed stateErr
  decorateXrayObservedStateWithDesiredFailure observed failure

/-! ## Plain texts -/

section

open Json (Plain PlainText)

variable {c : Char}

theorem plain_of_isDigit (h : c.isDigit = true) : Plain c := by
  have hrange : 48 ≤ c.toNat ∧ c.toNat ≤ 57 := by
    rw [Char.isDigit, Bool.and_eq_true, decide_eq_true_eq, decide_eq_true_eq] at h
    exact ⟨UInt32.le_iff_toNat_le.mp h.1, UInt32.le_iff_toNat_le.mp h.2⟩
  refine ⟨by omega, by omega, ?_⟩
  simp only [mem_cons, not_mem_nil, or_false, not_or]
  omega

theorem plain_of_isAlphanum (h : c.isAlphanum = true) : Plain c := by
  change (c.isUpper || c.isLower || c.isDigit) = true at h
  rw [Bool.or_eq_true, Bool.or_eq_true] at h
  obtain (hupper | hlower) | hdigit := h
  · have hrange : 65 ≤ c.toNat ∧ c.toNat ≤ 90 := by
      have hupper : 65 ≤ c.val ∧ c.val ≤ 90 := of_decide_eq_true hupper
      exact ⟨UInt32.le_iff_toNat_le.mp hupper.1, UInt32.le_iff_toNat_le.mp hupper.2⟩
    refine ⟨by omega, by omega, ?_⟩
    simp only [mem_cons, not_mem_nil, or_false, not_or]
    omega
  · have hrange : 97 ≤ c.toNat ∧ c.toNat ≤ 122 := by
      have hlower := Bool.and_eq_true_iff.mp hlower
      rw [decide_eq_true_eq, decide_eq_true_eq] at hlower
      exact ⟨UInt32.le_iff_toNat_le.mp hlower.1, UInt32.le_iff_toNat_le.mp hlower.2⟩
    refine ⟨by omega, by omega, ?_⟩
    simp only [mem_cons, not_mem_nil, or_false, not_or]
    omega
  · exact plain_of_isDigit hdigit

theorem plainText_identifier {s : String} (h : xrayIdentifierPattern s = true) : PlainText s := by
  intro c hc
  unfold xrayIdentifierPattern at h
  cases hs : s.toList with
  | nil =>
    rw [hs] at hc
    cases hc
  | cons d rest =>
    rw [hs] at h hc
    rw [Bool.and_eq_true, all_eq_true] at h
    obtain rfl | hrest := mem_cons.mp hc
    · exact plain_of_isAlphanum h.1
    · have hchar := h.2 c hrest
      simp only [Bool.or_eq_true, beq_iff_eq] at hchar
      obtain (((halnum | rfl) | rfl) | rfl) | rfl := hchar
      · exact plain_of_isAlphanum halnum
      all_goals decide

theorem plainText_sha256 {s : String} (h : xraySHA256Pattern s = true) : PlainText s := by
  intro c hc
  rw [xraySHA256Pattern, Bool.and_eq_true, all_eq_true] at h
  have hchar := h.2 c hc
  rw [Bool.or_eq_true, Bool.and_eq_true, decide_eq_true_eq, decide_eq_true_eq] at hchar
  obtain hdigit | ⟨hlow, hhigh⟩ := hchar
  · exact plain_of_isDigit hdigit
  · refine plain_of_isAlphanum ?_
    have hlow' : (97 : UInt32) ≤ c.val := hlow
    have hhigh' : c.val ≤ (122 : UInt32) := UInt32.le_trans hhigh (by decide)
    have hlower : c.isLower = true := Bool.and_eq_true_iff.mpr ⟨decide_eq_true hlow', decide_eq_true hhigh'⟩
    change (c.isUpper || c.isLower || c.isDigit) = true
    rw [hlower, Bool.or_true, Bool.true_or]

theorem mem_splitOnP {α : Type*} {p : α → Bool} {l : List α} {a : α} (h : a ∈ l) :
    p a = true ∨ ∃ part ∈ l.splitOnP p, a ∈ part := by
  induction l with
  | nil => cases h
  | cons b rest ih =>
    rw [splitOnP_cons_eq_if_modifyHead]
    cases hb : p b with
    | true =>
      rw [if_pos rfl]
      obtain rfl | hrest := mem_cons.mp h
      · exact .inl hb
      · exact (ih hrest).imp_right fun ⟨part, hpart, ha⟩ => ⟨part, mem_cons_of_mem _ hpart, ha⟩
    | false =>
      rw [if_neg Bool.false_ne_true]
      cases hsplit : rest.splitOnP p with
      | nil => exact absurd hsplit (splitOnP_ne_nil p rest)
      | cons part parts =>
        rw [hsplit] at ih
        rw [modifyHead_cons]
        obtain rfl | hrest := mem_cons.mp h
        · exact .inr ⟨_, mem_cons_self, mem_cons_self⟩
        · refine (ih hrest).imp_right fun ⟨part', hpart, ha⟩ => ?_
          obtain rfl | hparts := mem_cons.mp hpart
          · exact ⟨_, mem_cons_self, mem_cons_of_mem _ ha⟩
          · exact ⟨part', mem_cons_of_mem _ hparts, ha⟩

theorem plainText_version {s : String} (h : xrayVersionPattern s = true) : PlainText s := by
  unfold xrayVersionPattern at h
  intro c hc
  split at h
  · rename_i rest hs
    dsimp only at h
    rw [Bool.and_eq_true, all_eq_true] at h
    rw [hs] at hc
    obtain rfl | hrest := mem_cons.mp hc
    · decide
    · obtain hdot | ⟨part, hpart, hmem⟩ := mem_splitOnP (p := fun c => c == '.') hrest
      · rw [beq_iff_eq] at hdot
        rw [hdot]
        decide
      · have hdigits := h.2 part hpart
        rw [Bool.and_eq_true, all_eq_true] at hdigits
        exact plain_of_isDigit (hdigits.2 c hmem)
  · cases h

theorem isDigit_decimals {width n : ℕ} (h : c ∈ decimals width n) : c.isDigit = true := by
  obtain ⟨i, -, rfl⟩ := mem_map.mp h
  have hlt : n / 10 ^ i % 10 < 10 := Nat.mod_lt _ (by decide)
  interval_cases n / 10 ^ i % 10 <;> decide

theorem length_decimals (width n : ℕ) : (decimals width n).length = width := by
  rw [decimals, length_map, length_reverse, length_range]

theorem plain_fraction {n : ℕ} (h : c ∈ fraction n) : Plain c := by
  unfold fraction at h
  dsimp only at h
  split at h
  · cases h
  · obtain rfl | hdigit := mem_cons.mp h
    · decide
    · exact plain_of_isDigit (isDigit_decimals ((List.rdropWhile_prefix _ _).subset hdigit))

theorem length_fraction_le (n : ℕ) : (fraction n).length ≤ 10 := by
  have hle := (List.rdropWhile_prefix (· == '0') (decimals 9 n)).length_le
  rw [length_decimals] at hle
  unfold fraction
  dsimp only
  split
  · exact Nat.zero_le _
  · rw [length_cons]
    omega

theorem toList_rfc3339Nano (t : Time) : (rfc3339Nano t).toList =
    decimals 4 t.date.year.toNat ++ ['-'] ++ decimals 2 t.date.month.toNat ++ ['-'] ++
      decimals 2 t.date.day.toNat ++ ['T'] ++ decimals 2 t.hour ++ [':'] ++ decimals 2 t.minute ++ [':'] ++
      decimals 2 t.second ++ fraction t.nanosecond ++ ['Z'] := String.toList_ofList

theorem plainText_rfc3339Nano (t : Time) : PlainText (rfc3339Nano t) := by
  intro c hc
  rw [toList_rfc3339Nano] at hc
  simp only [mem_append, mem_singleton] at hc
  have hdigit {width n : ℕ} (h : c ∈ decimals width n) : Plain c := plain_of_isDigit (isDigit_decimals h)
  obtain ((((((((((((h | rfl) | h) | rfl) | h) | rfl) | h) | rfl) | h) | rfl) | h) | h) | rfl) := hc
  case inl.inr => exact plain_fraction h
  all_goals first | exact hdigit h | decide

theorem size_rfc3339Nano_le (t : Time) : (rfc3339Nano t).utf8ByteSize ≤ 120 := by
  have hlength : (rfc3339Nano t).toList.length ≤ 30 := by
    have hfraction := length_fraction_le t.nanosecond
    rw [toList_rfc3339Nano]
    simp only [length_append, length_decimals, length_singleton]
    omega
  have hbytes := Json.utf8Len_le (rfc3339Nano t).toList
  rw [String.utf8Len_toList] at hbytes
  omega

end

/-! ## What is reported -/

open Json (Plain PlainText plainText_ofList size_ofList)

structure BuiltListener (listener : XrayObservedListener) : Prop where
  runtimeTag : validateXrayIdentifier listener.runtimeTag = true
  network : listener.network = "tcp" ∨ listener.network = "udp"
  port : 1000 ≤ listener.port ∧ listener.port ≤ 65535
  errorCode : ∀ code ∈ listener.errorCode, ∃ known : XrayAgentErrorCode, code = known.text

structure BuiltError (observedError : XrayObservedError) : Prop where
  code : ∃ known : XrayAgentErrorCode, observedError.code = known.text
  message : PlainText observedError.message ∧ observedError.message.utf8ByteSize ≤ 128
  generation : 0 ≤ observedError.generation ∧ observedError.generation ≤ xrayMaxSafeInteger
  occurredAt : ∃ t, observedError.occurredAt = rfc3339Nano t

/-- A report as `ObservedState` builds it. -/
structure Built (state : XrayObservedState) : Prop where
  schemaVersion : state.schemaVersion = 1
  installedVersion : ∀ version ∈ state.installedVersion, validateXrayVersion version = true
  runningVersion : ∀ version ∈ state.runningVersion, validateXrayVersion version = true
  processID : ∀ pid ∈ state.processID, 0 < pid ∧ pid ≤ 2 ^ 22
  binarySHA256 : ∀ hash ∈ state.binarySHA256, xraySHA256Pattern hash = true
  appliedGeneration : 0 ≤ state.appliedGeneration ∧ state.appliedGeneration ≤ xrayMaxSafeInteger
  appliedConfigHash : ∀ hash ∈ state.appliedConfigHash, xraySHA256Pattern hash = true
  listeners_length : state.listeners.length ≤ xrayMaxExpectedListeners
  listeners : ∀ listener ∈ state.listeners, BuiltListener listener
  lastError : ∀ lastError ∈ state.lastError, BuiltError lastError
  observedAt : ∃ t, state.observedAt = rfc3339Nano t

theorem plainMessage_ofList {cs : List Char} (hplain : (cs.all fun c => Plain c) = true)
    (hlength : cs.length ≤ 128) : PlainText (String.ofList cs) ∧ (String.ofList cs).utf8ByteSize ≤ 128 := by
  refine ⟨plainText_ofList hplain, (size_ofList fun c hc => ?_).trans_le hlength⟩
  exact of_decide_eq_true (all_eq_true.mp hplain c hc)

theorem messages_plain (code : XrayAgentErrorCode) :
    PlainText (xrayDesiredFailureMessage code) ∧ (xrayDesiredFailureMessage code).utf8ByteSize ≤ 128 := by
  cases code <;> exact plainMessage_ofList (by decide) (by decide)

theorem builtError_new (code : XrayAgentErrorCode) {message : String}
    (hmessage : PlainText message ∧ message.utf8ByteSize ≤ 128) {generation : ℤ}
    (hgeneration : 0 ≤ generation ∧ generation ≤ xrayMaxSafeInteger) (now : Time) :
    BuiltError (newXrayObservedError code message generation now) :=
  ⟨⟨code, rfl⟩, hmessage, hgeneration, now, rfl⟩

/-! ### Listeners -/

def Observes (wanted : XrayExpectedListener) (listener : XrayObservedListener) : Prop :=
  listener.runtimeTag = wanted.runtimeTag ∧ listener.network = wanted.network ∧
    listener.port = wanted.port ∧ ∀ code ∈ listener.errorCode, ∃ known : XrayAgentErrorCode, code = known.text

theorem Observes.built {wanted : XrayExpectedListener} {listener : XrayObservedListener}
    (h : Observes wanted listener) (hvalid : wanted.Validate = true) : BuiltListener listener := by
  obtain ⟨htag, hnetwork, hport, hcode⟩ := h
  simp only [XrayExpectedListener.Validate, validateXrayPort, Bool.and_eq_true, Bool.or_eq_true,
    beq_iff_eq, decide_eq_true_eq] at hvalid
  obtain ⟨⟨⟨⟨-, hidentifier⟩, hnet⟩, -⟩, hrange⟩ := hvalid
  exact ⟨htag ▸ hidentifier, hnetwork ▸ hnet, hport ▸ hrange, hcode⟩

theorem observes_missing (expected : List XrayExpectedListener) :
    List.Forall₂ Observes expected (missingXrayListeners expected) := by
  refine forall₂_map_right_iff.mpr (forall₂_same.mpr fun wanted _ => ?_)
  exact ⟨rfl, rfl, rfl, nofun⟩

theorem observes_unknown (expected : List XrayExpectedListener) (code : XrayAgentErrorCode) :
    List.Forall₂ Observes expected (unknownXrayListeners expected code) := by
  refine forall₂_map_right_iff.mpr (forall₂_same.mpr fun wanted _ => ?_)
  exact ⟨rfl, rfl, rfl, fun _ h => ⟨code, (Option.some.inj h).symm⟩⟩

variable {listeners : List XrayObservedListener}

theorem observes_probe {proc : XrayProc} {pid : ℤ} {expected : List XrayExpectedListener}
    (h : probeManagedXrayListeners proc pid expected = some listeners) :
    List.Forall₂ Observes expected listeners := by
  simp only [probeManagedXrayListeners, Option.bind_eq_bind, Option.pure_def, Option.bind_eq_some_iff,
    Option.some.injEq] at h
  obtain ⟨owned, -, found, -, rfl⟩ := h
  refine forall₂_map_right_iff.mpr (forall₂_same.mpr fun wanted _ => ?_)
  exact ⟨rfl, rfl, rfl, nofun⟩

theorem built_of_observes {state : XrayRuntimeState} (hvalid : state.Validate = true)
    (h : List.Forall₂ Observes state.expectedListeners listeners) :
    listeners.length ≤ xrayMaxExpectedListeners ∧ ∀ listener ∈ listeners, BuiltListener listener := by
  simp only [XrayRuntimeState.Validate, Bool.and_eq_true, decide_eq_true_eq, all_eq_true] at hvalid
  refine ⟨h.length_eq ▸ hvalid.1.2, fun listener hmem => ?_⟩
  obtain ⟨i, hi, rfl⟩ := getElem_of_mem hmem
  have hi' : i < state.expectedListeners.length := h.length_eq ▸ hi
  exact (h.get hi' hi).built (hvalid.2 _ (getElem_mem hi'))

/-! ### The parts of the report -/

section

variable {tools : XrayTools} {host : Host} {observed : XrayObservedState} {state : XrayRuntimeState}

theorem Host.valid_of_committed (h : host.committed = some state) : state.Validate = true :=
  host.state_valid state (Option.join_eq_some_iff.mp h)

theorem generation_of_validate (h : state.Validate = true) :
    0 ≤ state.appliedGeneration ∧ state.appliedGeneration ≤ xrayMaxSafeInteger := by
  simp only [XrayRuntimeState.Validate, Bool.and_eq_true, decide_eq_true_eq] at h
  exact h.1.1.1.1.1

theorem configHash_of_validate (h : state.Validate = true) :
    xraySHA256Pattern state.appliedConfigHash = true := by
  simp only [XrayRuntimeState.Validate, Bool.and_eq_true, decide_eq_true_eq] at h
  exact h.1.1.1.1.2

theorem version_valid (h : state.Validate = true)
    (hshort : state.currentVersion.utf8ByteSize ≤ 64) : validateXrayVersion state.currentVersion = true := by
  have hpattern := XrayRuntimeState.version_of_validate h
  have hne : 1 ≤ state.currentVersion.utf8ByteSize := by
    refine Nat.pos_of_ne_zero fun hzero => ?_
    rw [String.utf8ByteSize_eq_zero_iff] at hzero
    rw [hzero] at hpattern
    exact absurd hpattern (by decide)
  simp only [validateXrayVersion, Bool.and_eq_true, decide_eq_true_eq]
  exact ⟨⟨hne, hshort⟩, hpattern⟩

theorem built_initial (now : Time) : Built (initialState now) where
  schemaVersion := rfl
  installedVersion := nofun
  runningVersion := nofun
  processID := nofun
  binarySHA256 := nofun
  appliedGeneration := by
    show (0 : ℤ) ≤ 0 ∧ (0 : ℤ) ≤ xrayMaxSafeInteger
    decide
  appliedConfigHash := nofun
  listeners_length := Nat.zero_le _
  listeners := nofun
  lastError := nofun
  observedAt := ⟨now, rfl⟩

theorem Built.installed (h : Built observed) {version binaryHash : String}
    (hversion : validateXrayVersion version = true) (hhash : xraySHA256Pattern binaryHash = true) :
    Built (installed observed version binaryHash) :=
  { h with
    installedVersion := fun _ hmem => (Option.some.inj hmem) ▸ hversion
    binarySHA256 := fun _ hmem => (Option.some.inj hmem) ▸ hhash }

theorem Built.withError (h : Built observed) (status : XrayServiceStatus) {lastError : XrayObservedError}
    (herror : BuiltError lastError) :
    Built { observed with serviceStatus := status, lastError := some lastError } :=
  { h with lastError := fun _ hmem => (Option.some.inj hmem) ▸ herror }

theorem Built.withListeners (h : Built observed) (hvalid : state.Validate = true)
    {listeners : List XrayObservedListener} (hlisteners : List.Forall₂ Observes state.expectedListeners listeners) :
    Built { observed with listeners } :=
  { h with
    listeners_length := (built_of_observes hvalid hlisteners).1
    listeners := (built_of_observes hvalid hlisteners).2 }

theorem built_observeFiles
    (hbinary : ∀ version hash, tools.binary version = some hash → xraySHA256Pattern hash = true)
    (hversion : ∀ state ∈ host.committed, state.currentVersion.utf8ByteSize ≤ 64) (now : Time) :
    Built (observeFiles tools host now).1 := by
  have hinitial := built_initial now
  unfold observeFiles
  dsimp only
  cases hstate : host.state with
  | none => exact hinitial
  | some committed =>
    cases committed with
    | none =>
      dsimp only
      cases hhash : tools.binary xrayManagedVersion with
      | none => exact hinitial
      | some binaryHash => exact hinitial.installed (by decide) (hbinary _ _ hhash)
    | some state =>
      have hcommitted : host.committed = some state := by rw [Host.committed, hstate]; rfl
      have hvalid := host.valid_of_committed hcommitted
      have happlied : Built { initialState now with
          appliedGeneration := state.appliedGeneration
          appliedConfigHash := some state.appliedConfigHash } :=
        { hinitial with
          appliedGeneration := generation_of_validate hvalid
          appliedConfigHash := fun _ hmem => (Option.some.inj hmem) ▸ configHash_of_validate hvalid }
      dsimp only
      cases host.currentBinary with
      | none => exact happlied
      | some binaryPath =>
        dsimp only
        cases hhash : host.sha256File binaryPath with
        | none => exact happlied
        | some binaryHash =>
          dsimp only
          split
          · exact happlied
          · exact happlied.installed (version_valid hvalid (hversion state hcommitted))
              (host.sha256File_pattern _ _ hhash)

theorem Built.observeProcess (h : Built observed)
    (hversion : ∀ state ∈ host.committed, state.currentVersion.utf8ByteSize ≤ 64)
    (now : Time) (stateErr : Bool) (binaryPath : String) :
    Built (observeProcess host now observed stateErr binaryPath) := by
  unfold XrayObserved.observeProcess
  cases hcommitted : host.committed with
  | none => exact h
  | some state =>
    have hvalid := host.valid_of_committed hcommitted
    have hgeneration := generation_of_validate hvalid
    dsimp only
    split
    · rename_i hruns
      have hpid : 0 < host.status.pid := by
        have hruns := hruns.2
        simp only [runsState, Bool.and_eq_true, decide_eq_true_eq] at hruns
        exact hruns.1.1.1.1.2
      have hrunning : Built { observed with
          serviceStatus := .running
          runningVersion := some state.currentVersion
          processID := some host.status.pid } :=
        { h with
          runningVersion := fun _ hmem =>
            (Option.some.inj hmem) ▸ version_valid hvalid (hversion state hcommitted)
          processID := fun _ hmem => (Option.some.inj hmem) ▸ ⟨hpid, host.status.pid_le⟩ }
      cases hprobe : probeManagedXrayListeners host.proc host.status.pid state.expectedListeners with
      | some listeners =>
        have hlisteners := hrunning.withListeners hvalid (observes_probe hprobe)
        dsimp only
        split
        · exact hlisteners.withError _
            (builtError_new _ (plainMessage_ofList (by decide) (by decide)) hgeneration now)
        · exact { hlisteners with lastError := nofun }
      | none =>
        exact (hrunning.withListeners hvalid (observes_unknown _ _)).withError _
          (builtError_new _ (plainMessage_ofList (by decide) (by decide)) hgeneration now)
    · have hmissing := h.withListeners hvalid (observes_missing state.expectedListeners)
      split
      · exact hmissing.withError _
          (builtError_new _ (plainMessage_ofList (by decide) (by decide)) hgeneration now)
      · split
        · exact hmissing.withError _
            (builtError_new _ (plainMessage_ofList (by decide) (by decide)) hgeneration now)
        · exact hmissing

theorem Built.observeErrors (h : Built observed) (now : Time) (stateErr : Bool) :
    Built (observeErrors host now observed stateErr) := by
  unfold XrayObserved.observeErrors
  split
  · refine h.withError _ (builtError_new _ (plainMessage_ofList (by decide) (by decide)) ?_ now)
    cases hcommitted : host.committed with
    | none => decide
    | some state => exact generation_of_validate (host.valid_of_committed hcommitted)
  · split
    · exact h.withError _
        (builtError_new _ (plainMessage_ofList (by decide) (by decide)) h.appliedGeneration now)
    · exact h

/-- A failure of a safe generation, with its own message. -/
def Recorded (failure : Option XrayDesiredFailure) : Prop :=
  ∀ f ∈ failure, f.message = xrayDesiredFailureMessage f.code ∧ f.generation ≤ xrayMaxSafeInteger

variable {failure : Option XrayDesiredFailure}

theorem Built.decorate (h : Built observed) (hfailure : Recorded failure) :
    Built (decorateXrayObservedStateWithDesiredFailure observed failure) := by
  unfold decorateXrayObservedStateWithDesiredFailure
  cases failure with
  | none => exact h
  | some f =>
    obtain ⟨hmessage, hsafe⟩ := hfailure f rfl
    dsimp only
    split
    · exact h
    · rename_i hlater
      have hgeneration : 0 ≤ f.generation := h.appliedGeneration.1.trans (Int.not_lt.mp hlater)
      refine h.withError _ ⟨⟨f.code, rfl⟩, ?_, ⟨hgeneration, hsafe⟩, f.occurredAt, rfl⟩
      dsimp only
      rw [hmessage]
      exact messages_plain f.code

theorem built_observedState
    (hbinary : ∀ version hash, tools.binary version = some hash → xraySHA256Pattern hash = true)
    (hversion : ∀ state ∈ host.committed, state.currentVersion.utf8ByteSize ≤ 64)
    (hfailure : Recorded failure) (now : Time) :
    Built (ObservedState tools host failure now) :=
  (((built_observeFiles hbinary hversion now).observeProcess hversion now _ _).observeErrors now _).decorate
    hfailure

end

/-! ### The failures of a run -/

section

variable {tools : XrayTools}

theorem recorded_record (code : XrayAgentErrorCode) {generation : ℤ} (h : generation ≤ xrayMaxSafeInteger)
    (now : Time) : Recorded (recordXrayDesiredFailure code generation now) := by
  intro f hf
  cases hf
  exact ⟨rfl, h⟩

theorem recorded_none : Recorded none := nofun

theorem recorded_reconcile {desired : XrayDesiredState} (h : desired.generation ≤ xrayMaxSafeInteger)
    (supported : Bool) (apply : Option ApplyOutcome) (now : Time) :
    Recorded (reconcileXrayDesiredState tools desired supported apply now) := by
  unfold reconcileXrayDesiredState
  split
  · exact recorded_record _ h now
  split
  · exact recorded_record _ h now
  split
  · exact recorded_record _ h now
  · dsimp only
    split
    · exact recorded_record _ h now
    · exact recorded_none

theorem recorded_step {failure : Option XrayDesiredFailure} (hfailure : Recorded failure) {e : Event}
    (h : e.desired.generation ≤ xrayMaxSafeInteger) : Recorded (step tools failure e) := by
  cases e with
  | schedule desired now =>
    rw [step]
    split
    · exact recorded_record _ h now
    · exact hfailure
  | conflict desired now => exact recorded_record _ h now
  | reconcile desired supported apply now => exact recorded_reconcile h supported apply now

theorem recorded_run {events : List Event} (h : ∀ e ∈ events, e.desired.generation ≤ xrayMaxSafeInteger) :
    Recorded (run (step tools) none events) := by
  have hstep : ∀ failure e, e.desired.generation ≤ xrayMaxSafeInteger → Recorded failure →
      Recorded (step tools failure e) := fun _ _ hsafe hfailure => recorded_step hfailure hsafe
  exact run_invariant_of_forall hstep events h none recorded_none

end

/-! ### The agent's own check -/

theorem BuiltListener.validate {listener : XrayObservedListener} (h : BuiltListener listener) :
    listener.Validate = true := by
  have hcode : listener.errorCode.all validateXrayErrorCode = true := by
    cases hlistener : listener.errorCode with
    | none => rfl
    | some code =>
      obtain ⟨known, rfl⟩ := h.errorCode code hlistener
      exact known.validate_text
  simp only [XrayObservedListener.Validate, validateXrayPort, Bool.and_eq_true, Bool.or_eq_true,
    beq_iff_eq, decide_eq_true_eq]
  exact ⟨⟨⟨h.runtimeTag, h.network⟩, h.port⟩, hcode⟩

theorem BuiltError.validate {tools : XrayTools} (htimes : ∀ t, tools.isTimestamp (rfc3339Nano t) = true)
    {observedError : XrayObservedError} (h : BuiltError observedError) :
    observedError.Validate tools = true := by
  obtain ⟨known, hcode⟩ := h.code
  obtain ⟨t, htime⟩ := h.occurredAt
  have hmessage : observedError.message.utf8ByteSize ≤ xrayMaxErrorMessageBytes :=
    h.message.2.trans (by decide)
  simp only [XrayObservedError.Validate, Bool.and_eq_true, decide_eq_true_eq]
  exact ⟨⟨⟨⟨hcode ▸ known.validate_text, hmessage⟩, h.generation.1⟩, h.generation.2⟩, htime ▸ htimes t⟩

theorem all_of_forall {α : Type*} {p : α → Bool} {o : Option α} (h : ∀ a ∈ o, p a = true) : o.all p = true := by
  cases o with
  | none => rfl
  | some a => exact h a rfl

theorem Built.validate {tools : XrayTools} (htimes : ∀ t, tools.isTimestamp (rfc3339Nano t) = true)
    {state : XrayObservedState} (h : Built state) : state.Validate tools = true := by
  obtain ⟨t, htime⟩ := h.observedAt
  have hpid : ∀ pid ∈ state.processID, (0 < pid && pid ≤ xrayMaxSafeInteger) = true := by
    intro pid hmem
    have hrange := h.processID pid hmem
    have hmax : (2 : ℤ) ^ 22 ≤ xrayMaxSafeInteger := by decide
    simp only [Bool.and_eq_true, decide_eq_true_eq]
    exact ⟨hrange.1, hrange.2.trans hmax⟩
  simp only [XrayObservedState.Validate, Bool.and_eq_true, decide_eq_true_eq, beq_iff_eq,
    all_eq_true]
  exact ⟨⟨⟨⟨⟨⟨⟨⟨⟨⟨⟨h.schemaVersion, all_of_forall h.installedVersion⟩, all_of_forall h.runningVersion⟩,
    all_of_forall hpid⟩, all_of_forall h.binarySHA256⟩, h.appliedGeneration.1⟩, h.appliedGeneration.2⟩,
    all_of_forall h.appliedConfigHash⟩, h.listeners_length⟩, fun l hl => (h.listeners l hl).validate⟩,
    all_of_forall fun e he => (h.lastError e he).validate htimes⟩, htime ▸ htimes t⟩

end ForwardX.Agent.XrayObserved
