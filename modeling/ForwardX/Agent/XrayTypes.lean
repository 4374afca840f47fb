/-
The records of the Xray runtime and their checks: `agent/xray_types.go`, and the committed state of
`agent/xray_persistence.go`.
-/
import Mathlib.Algebra.Group.Int.Defs
import Mathlib.Algebra.Group.Nat.Defs

namespace ForwardX.Agent.XrayTypes

/-- Code that the agent calls. `binary` is the hash of the installed binary of a version, if there
is one. -/
structure XrayTools where
  hashXrayBytes : String → String
  binary : String → Option String
  isTimestamp : String → Bool
  isJsonObject : String → Bool

/-! ## Patterns -/

def xrayMaxSafeInteger : ℤ := 2 ^ 53 - 1

def xrayMaxConfigJSONBytes : ℕ := 1024 * 1024

def xrayMaxExpectedListeners : ℕ := 256

def xrayMaxErrorMessageBytes : ℕ := 2 * 1024

def xrayMaxProtocolIdentifierLen : ℕ := 128

def xrayManagedVersion : String := "v26.3.27"

/-- `^[A-Za-z0-9][A-Za-z0-9._:-]*$` -/
def xrayIdentifierPattern (s : String) : Bool :=
  match s.toList with
  | c :: rest => c.isAlphanum && rest.all fun c => c.isAlphanum || c == '.' || c == '_' || c == ':' || c == '-'
  | [] => false

def xrayErrorCodePattern (s : String) : Bool :=
  match s.toList with
  | c :: rest => c.isUpper && rest.all fun c => c.isUpper || c.isDigit || c == '_'
  | [] => false

def xraySHA256Pattern (s : String) : Bool :=
  s.toList.length == 64 && s.toList.all fun c => c.isDigit || ('a' ≤ c && c ≤ 'f')

def xrayVersionPattern (s : String) : Bool :=
  match s.toList with
  | 'v' :: rest =>
    let parts := rest.splitOnP (· == '.')
    parts.length == 3 && parts.all fun part => !part.isEmpty && part.all Char.isDigit
  | _ => false

def validateXrayIdentifier (value : String) : Bool :=
  1 ≤ value.utf8ByteSize && value.utf8ByteSize ≤ xrayMaxProtocolIdentifierLen && xrayIdentifierPattern value

def validateXrayErrorCode (value : String) : Bool :=
  1 ≤ value.utf8ByteSize && value.utf8ByteSize ≤ 64 && xrayErrorCodePattern value

def validateXrayVersion (value : String) : Bool :=
  1 ≤ value.utf8ByteSize && value.utf8ByteSize ≤ 64 && xrayVersionPattern value

def validateXrayPort (port : ℤ) : Bool := 1000 ≤ port && port ≤ 65535

def validateXrayString (value : String) (maxBytes : ℕ) : Bool := 1 ≤ value.utf8ByteSize && value.utf8ByteSize ≤ maxBytes

/-! ## Error codes -/

inductive XrayAgentErrorCode where
  | capabilityUnsupported
  | taskExpired
  | taskAlreadyCompleted
  | invalidPayload
  | hostPlatformUnsupported
  | portInUse
  | portBindDenied
  | realityTargetBlocked
  | realityTLSUnsupported
  | artifactNotFound
  | artifactSizeMismatch
  | artifactHashMismatch
  | artifactArchMismatch
  | versionMismatch
  | configInvalid
  | generationHashConflict
  | runtimeStartFailed
  | runtimeNotReady
  | rollbackFailed
  | internal
  deriving DecidableEq

def XrayAgentErrorCode.text : XrayAgentErrorCode → String
  | capabilityUnsupported => "CAPABILITY_UNSUPPORTED"
  | taskExpired => "TASK_EXPIRED"
  | taskAlreadyCompleted => "TASK_ALREADY_COMPLETED"
  | invalidPayload => "INVALID_PAYLOAD"
  | hostPlatformUnsupported => "HOST_PLATFORM_UNSUPPORTED"
  | portInUse => "PORT_IN_USE"
  | portBindDenied => "PORT_BIND_DENIED"
  | realityTargetBlocked => "REALITY_TARGET_BLOCKED"
  | realityTLSUnsupported => "REALITY_TLS_UNSUPPORTED"
  | artifactNotFound => "ARTIFACT_NOT_FOUND"
  | artifactSizeMismatch => "ARTIFACT_SIZE_MISMATCH"
  | artifactHashMismatch => "ARTIFACT_HASH_MISMATCH"
  | artifactArchMismatch => "ARTIFACT_ARCH_MISMATCH"
  | versionMismatch => "XRAY_VERSION_MISMATCH"
  | configInvalid => "CONFIG_INVALID"
  | generationHashConflict => "GENERATION_HASH_CONFLICT"
  | runtimeStartFailed => "RUNTIME_START_FAILED"
  | runtimeNotReady => "RUNTIME_NOT_READY"
  | rollbackFailed => "ROLLBACK_FAILED"
  | internal => "INTERNAL_ERROR"

theorem XrayAgentErrorCode.validate_text (code : XrayAgentErrorCode) : validateXrayErrorCode code.text = true := by
  cases code <;> decide +kernel

/-! ## Desired states -/

structure XrayExpectedListener where
  inboundID : ℤ
  runtimeTag : String
  network : String
  listenAddress : String
  port : ℤ
  deriving DecidableEq

def XrayExpectedListener.Validate (listener : XrayExpectedListener) : Bool :=
  0 < listener.inboundID && listener.inboundID ≤ xrayMaxSafeInteger && validateXrayIdentifier listener.runtimeTag &&
    (listener.network == "tcp" || listener.network == "udp") && validateXrayString listener.listenAddress 64 &&
    validateXrayPort listener.port

structure XrayDesiredState where
  schemaVersion : ℤ
  generation : ℤ
  issuedAt : String
  targetVersion : String
  configHash : String
  configEncoding : String
  configJSON : String
  expectedListeners : List XrayExpectedListener

def XrayDesiredState.Validate (tools : XrayTools) (desired : XrayDesiredState) : Bool :=
  desired.schemaVersion == 1 && 0 ≤ desired.generation && desired.generation ≤ xrayMaxSafeInteger &&
    tools.isTimestamp desired.issuedAt && validateXrayVersion desired.targetVersion &&
    xraySHA256Pattern desired.configHash && desired.configEncoding == "JSON_UTF8" &&
    2 ≤ desired.configJSON.utf8ByteSize && desired.configJSON.utf8ByteSize ≤ xrayMaxConfigJSONBytes &&
    tools.isJsonObject desired.configJSON && desired.expectedListeners.length ≤ xrayMaxExpectedListeners &&
    desired.expectedListeners.all XrayExpectedListener.Validate

/-! ## The committed state -/

/-- The record's own version is always the one that this agent writes. -/
structure XrayRuntimeState where
  desiredRunning : Bool
  appliedGeneration : ℤ
  appliedConfigHash : String
  currentVersion : String
  currentBinarySHA256 : String
  expectedListeners : List XrayExpectedListener
  deriving DecidableEq

def XrayRuntimeState.Validate (state : XrayRuntimeState) : Bool :=
  0 ≤ state.appliedGeneration && state.appliedGeneration ≤ xrayMaxSafeInteger &&
    xraySHA256Pattern state.appliedConfigHash && xraySHA256Pattern state.currentBinarySHA256 &&
    xrayVersionPattern state.currentVersion && state.expectedListeners.length ≤ xrayMaxExpectedListeners &&
    state.expectedListeners.all XrayExpectedListener.Validate

theorem XrayRuntimeState.version_of_validate {state : XrayRuntimeState} (h : state.Validate = true) :
    xrayVersionPattern state.currentVersion = true := by
  simp only [XrayRuntimeState.Validate, Bool.and_eq_true] at h
  exact h.1.1.2

section

variable {tools : XrayTools} {desired : XrayDesiredState} (h : desired.Validate tools = true)

include h

theorem XrayDesiredState.version_of_validate : xrayVersionPattern desired.targetVersion = true := by
  simp only [XrayDesiredState.Validate, validateXrayVersion, Bool.and_eq_true] at h
  exact h.1.1.1.1.1.1.1.2.2

theorem XrayDesiredState.state_validate {binarySHA256 : String} (hbinary : xraySHA256Pattern binarySHA256 = true)
    (desiredRunning : Bool) :
    XrayRuntimeState.Validate ⟨desiredRunning, desired.generation, desired.configHash, desired.targetVersion,
      binarySHA256, desired.expectedListeners⟩ = true := by
  have hversion := version_of_validate h
  simp only [XrayDesiredState.Validate, Bool.and_eq_true] at h
  obtain ⟨⟨⟨⟨⟨⟨⟨⟨⟨⟨⟨-, hlow⟩, hhigh⟩, -⟩, -⟩, hhash⟩, -⟩, -⟩, -⟩, -⟩, hlength⟩, hlisteners⟩ := h
  simp only [XrayRuntimeState.Validate, hlow, hhigh, hhash, hbinary, hversion, hlength, hlisteners, Bool.and_true]

end

/-! ## Versions -/

/-- `strconv.ParseInt` of a part of a version, which fails beyond 64 bits. A sign is no version's. -/
def parseVersionPart (part : List Char) : Option ℤ :=
  match part with
  | [] => none
  | digits =>
    if digits.all Char.isDigit then
      let number := digits.foldl (fun n c => n * 10 + (c.toNat - '0'.toNat)) 0
      if number < 2 ^ 63 then some number else none
    else none

def parseVersion (value : String) : Option (ℤ × ℤ × ℤ) :=
  let value := match value.toList with
    | 'v' :: rest => rest
    | chars => chars
  match (value.splitOnP (· == '.')).map parseVersionPart with
  | [some a, some b, some c] => some (a, b, c)
  | _ => none

def compareXrayVersions (left right : String) : ℤ :=
  match parseVersion left, parseVersion right with
  | some (a, b, c), some (a', b', c') =>
    if a ≠ a' then (if a < a' then -1 else 1)
    else if b ≠ b' then (if b < b' then -1 else 1)
    else if c ≠ c' then (if c < c' then -1 else 1)
    else 0
  | _, _ => 0

end ForwardX.Agent.XrayTypes
