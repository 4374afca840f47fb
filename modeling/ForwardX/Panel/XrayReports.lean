/-
What the panel makes of a report of the Xray runtime, `shared/xrayTypes.ts`.

The agent checks what it sends and the panel checks it again with a schema of its own. The proof
shows field by field that the first check implies the second, and that both sides sign the same
text.
-/
import ForwardX.Agent.XrayObserved
import Mathlib.Data.List.Sigma

namespace ForwardX.Panel.XrayReports

open Agent.XrayTypes Agent.XrayObserved
open Agent.XrayHeartbeat (XrayListenerStatus XrayObservedListener XrayObservedError
  XrayObservedState encodeToString orNull marshal)
open Agent.XraySupervision (XrayServiceStatus)
open Json (PlainText plainText_ofList)
open Agent.XrayScheduler (validateXrayDesiredPayload)
open Json
open List hiding keys
open Run (run run_append)

/-! ## Schemas -/

section

variable {α : Type}

/-- What a schema makes of a value, if it finds no issue. -/
abbrev Schema (α : Type) := Json → Option α

def string (check : String → Bool) : Schema String
  | .str s => if check s then some s else none
  | _ => none

def integer (low high : ℤ) : Schema ℤ
  | .int n => if low ≤ n ∧ n ≤ high then some n else none
  | _ => none

def boolean : Schema Bool
  | .bool b => some b
  | _ => none

def nullable (schema : Schema α) : Schema (Option α)
  | .null => some none
  | v => (schema v).map some

def enumeration (values : List α) (text : α → String) : Schema α
  | .str s => values.find? fun value => text value == s
  | _ => none

def array (schema : Schema α) (max : ℕ) : Schema (List α)
  | .arr items => if items.length ≤ max then items.mapM schema else none
  | _ => none

/-- A property that has to be there. Properties with other keys are left out of the result. -/
def required (fields : List (String × Json)) (key : String) (schema : Schema α) : Option α :=
  (Json.field fields key).bind schema

inductive Nullish (α : Type) where
  | undefined
  | null
  | value (a : α)

def nullish (fields : List (String × Json)) (key : String) (schema : Schema α) : Option (Nullish α) :=
  match Json.field fields key with
  | none => some .undefined
  | some .null => some .null
  | some v => (schema v).map .value

end

def utf16Length (s : String) : ℕ := (s.toList.map fun c => if c.toNat < 0x10000 then 1 else 2).sum

/-- Code of packages: `z.string().datetime({ offset: true })` and `sha256`. -/
structure PanelTools where
  isDatetime : String → Bool
  sum256 : String → Fin 32 → UInt8

section

variable (tools : PanelTools)

def schemaVersionSchema : Schema ℤ := integer 1 1
def nonNegativeIntegerSchema : Schema ℤ := integer 0 xrayMaxSafeInteger
def positiveIntegerSchema : Schema ℤ := integer 1 xrayMaxSafeInteger
def portSchema : Schema ℤ := integer 1000 65535
def sha256Schema : Schema String := string xraySHA256Pattern
def timestampSchema : Schema String := string tools.isDatetime

def versionSchema : Schema String :=
  string fun s => 1 ≤ utf16Length s && utf16Length s ≤ 64 && xrayVersionPattern s

def identifierSchema : Schema String :=
  string fun s => 1 ≤ utf16Length s && utf16Length s ≤ 128 && xrayIdentifierPattern s

def errorCodeSchema : Schema String :=
  string fun s => 1 ≤ utf16Length s && utf16Length s ≤ 64 && xrayErrorCodePattern s

def errorMessageSchema : Schema String := string fun s => s.utf8ByteSize ≤ 2 * 1024

def listenerNetworkSchema : Schema String := enumeration ["tcp", "udp"] id

def serviceStatusSchema : Schema XrayServiceStatus :=
  enumeration [.running, .stopped, .error, .unknown] XrayServiceStatus.text

def listenerStatusSchema : Schema XrayListenerStatus :=
  enumeration [.ready, .missing, .wrongProcess, .unknown] XrayListenerStatus.text

/-! ## Reports -/

structure ParsedListener where
  runtimeTag : String
  network : String
  port : ℤ
  status : XrayListenerStatus
  errorCode : Nullish String

structure ParsedState where
  schemaVersion : ℤ
  isInstalled : Bool
  installedVersion : Option String
  runningVersion : Option String
  serviceStatus : XrayServiceStatus
  processId : Option ℤ
  binarySha256 : Option String
  appliedGeneration : ℤ
  appliedConfigHash : Option String
  listeners : List ParsedListener
  lastError : Option XrayObservedError
  observedAt : String

def XrayObservedListenerSchema : Schema ParsedListener
  | .obj fields => do
    let runtimeTag ← required fields "runtimeTag" identifierSchema
    let network ← required fields "network" listenerNetworkSchema
    let port ← required fields "port" portSchema
    let status ← required fields "status" listenerStatusSchema
    let errorCode ← nullish fields "errorCode" errorCodeSchema
    return ⟨runtimeTag, network, port, status, errorCode⟩
  | _ => none

def XrayObservedErrorSchema : Schema XrayObservedError
  | .obj fields => do
    let code ← required fields "code" errorCodeSchema
    let message ← required fields "message" errorMessageSchema
    let generation ← required fields "generation" nonNegativeIntegerSchema
    let occurredAt ← required fields "occurredAt" (timestampSchema tools)
    return ⟨code, message, generation, occurredAt⟩
  | _ => none

def observedStateObjectSchema : Schema ParsedState
  | .obj fields => do
    let schemaVersion ← required fields "schemaVersion" schemaVersionSchema
    let isInstalled ← required fields "isInstalled" boolean
    let installedVersion ← required fields "installedVersion" (nullable versionSchema)
    let runningVersion ← required fields "runningVersion" (nullable versionSchema)
    let serviceStatus ← required fields "serviceStatus" serviceStatusSchema
    let processId ← required fields "processId" (nullable positiveIntegerSchema)
    let binarySha256 ← required fields "binarySha256" (nullable sha256Schema)
    let appliedGeneration ← required fields "appliedGeneration" nonNegativeIntegerSchema
    let appliedConfigHash ← required fields "appliedConfigHash" (nullable sha256Schema)
    let listeners ← required fields "listeners" (array XrayObservedListenerSchema 256)
    let lastError ← required fields "lastError" (nullable (XrayObservedErrorSchema tools))
    let observedAt ← required fields "observedAt" (timestampSchema tools)
    return ⟨schemaVersion, isInstalled, installedVersion, runningVersion, serviceStatus, processId,
      binarySha256, appliedGeneration, appliedConfigHash, listeners, lastError, observedAt⟩
  | _ => none

def observedForbiddenKeys : List String :=
  ["agenttoken", "authorization", "client", "clients", "configjson", "privatekey", "realityprivatekey",
    "shortid", "shareuri", "token", "uuid", "vlessuri"]

/-- The key in lower case, which is said for ASCII here. -/
def normalizedKey (key : String) : String :=
  String.ofList ((key.toList.filter fun c => c != '_' && c != '-').map Char.toLower)

/-- `withRawChecks`: neither too long as JSON nor with a forbidden key. -/
def rawChecks (value : Json) : Bool :=
  value.size Json.jsEscape ≤ 256 * 1024 &&
    value.keys.all fun key => !observedForbiddenKeys.contains (normalizedKey key)

def XrayObservedStateSchema : Schema ParsedState := fun value =>
  if rawChecks value then observedStateObjectSchema tools value else none

/-! ## Signatures -/

/-- A listener as `JSON.stringify` takes it. -/
def ParsedListener.json (listener : ParsedListener) : Json :=
  .obj ([("runtimeTag", .str listener.runtimeTag), ("network", .str listener.network),
    ("port", .int listener.port), ("status", .str listener.status.text)] ++
    match listener.errorCode with
    | .undefined => []
    | .null => [("errorCode", .null)]
    | .value code => [("errorCode", .str code)])

def errorJson (lastError : XrayObservedError) : Json :=
  .obj [("code", .str lastError.code), ("message", .str lastError.message),
    ("generation", .int lastError.generation), ("occurredAt", .str lastError.occurredAt)]

def ParsedState.json (state : ParsedState) : Json :=
  .obj [("schemaVersion", .int state.schemaVersion), ("isInstalled", .bool state.isInstalled),
    ("installedVersion", orNull .str state.installedVersion),
    ("runningVersion", orNull .str state.runningVersion),
    ("serviceStatus", .str state.serviceStatus.text), ("processId", orNull .int state.processId),
    ("binarySha256", orNull .str state.binarySha256),
    ("appliedGeneration", .int state.appliedGeneration),
    ("appliedConfigHash", orNull .str state.appliedConfigHash),
    ("listeners", .arr (state.listeners.map ParsedListener.json)),
    ("lastError", orNull errorJson state.lastError), ("observedAt", .str state.observedAt)]

/-- `xrayObservedStateSignature`, which throws if the value is not accepted. -/
def xrayObservedStateSignature (value : Json) : Option String := do
  let parsed ← XrayObservedStateSchema tools value
  let signatureState : ParsedState :=
    { parsed with
      lastError := parsed.lastError.map fun lastError => { lastError with occurredAt := "" }
      observedAt := "" }
  return encodeToString (tools.sum256 (signatureState.json.render Json.jsEscape))

/-- The `requestXrayState` of `processXrayHeartbeatReport`, for a compatible agent that has sent its
state. -/
def requestXrayState (rawSignature : String) (xrayState : Json) : Bool :=
  if xraySHA256Pattern rawSignature = false then true
  else match XrayObservedStateSchema tools xrayState with
    | none => true
    | some parsed => decide (xrayObservedStateSignature tools parsed.json ≠ some rawSignature)

end

/-! ## Plain texts -/

/-- The strings of a report have nothing to escape. -/
structure PlainTexts (state : XrayObservedState) : Prop where
  installedVersion : ∀ version ∈ state.installedVersion, PlainText version
  runningVersion : ∀ version ∈ state.runningVersion, PlainText version
  binarySHA256 : ∀ hash ∈ state.binarySHA256, PlainText hash
  appliedConfigHash : ∀ hash ∈ state.appliedConfigHash, PlainText hash
  listeners : ∀ listener ∈ state.listeners, PlainText listener.runtimeTag ∧ PlainText listener.network ∧
    ∀ code ∈ listener.errorCode, PlainText code
  lastError : ∀ lastError ∈ state.lastError, PlainText lastError.code ∧ PlainText lastError.message ∧
    PlainText lastError.occurredAt
  observedAt : PlainText state.observedAt

theorem plainText_version_of_validate {version : String} (h : validateXrayVersion version = true) :
    PlainText version := by
  simp only [validateXrayVersion, Bool.and_eq_true] at h
  exact plainText_version h.2

theorem plainText_code (code : XrayAgentErrorCode) : PlainText code.text := by
  cases code <;> exact plainText_ofList (by decide)

theorem plainText_serviceStatus (status : XrayServiceStatus) : PlainText status.text := by
  cases status <;> exact plainText_ofList (by decide)

theorem plainText_listenerStatus (status : XrayListenerStatus) : PlainText status.text := by
  cases status <;> exact plainText_ofList (by decide)

variable {state : XrayObservedState}

theorem plainTexts_of_built_listener {listener : XrayObservedListener} (h : BuiltListener listener) :
    PlainText listener.runtimeTag ∧ PlainText listener.network ∧
      ∀ code ∈ listener.errorCode, PlainText code := by
  have htag := h.runtimeTag
  simp only [validateXrayIdentifier, Bool.and_eq_true] at htag
  refine ⟨plainText_identifier htag.2, ?_, fun code hcode => ?_⟩
  · obtain hnet | hnet := h.network <;> rw [hnet] <;> exact plainText_ofList (by decide)
  · obtain ⟨known, rfl⟩ := h.errorCode code hcode
    exact plainText_code known

theorem plainTexts_of_built (h : Built state) : PlainTexts state where
  installedVersion version hmem := plainText_version_of_validate (h.installedVersion version hmem)
  runningVersion version hmem := plainText_version_of_validate (h.runningVersion version hmem)
  binarySHA256 hash hmem := plainText_sha256 (h.binarySHA256 hash hmem)
  appliedConfigHash hash hmem := plainText_sha256 (h.appliedConfigHash hash hmem)
  listeners listener hmem := plainTexts_of_built_listener (h.listeners listener hmem)
  lastError e hmem := by
    obtain ⟨⟨known, hcode⟩, hmessage, -, t, htime⟩ := h.lastError e hmem
    exact ⟨hcode ▸ plainText_code known, hmessage.1, htime ▸ plainText_rfc3339Nano t⟩
  observedAt := by
    obtain ⟨t, htime⟩ := h.observedAt
    exact htime ▸ plainText_rfc3339Nano t

def untimed (state : XrayObservedState) : XrayObservedState :=
  { state with
    observedAt := ""
    lastError := state.lastError.map fun lastError => { lastError with occurredAt := "" } }

theorem PlainTexts.untimed (h : PlainTexts state) : PlainTexts (untimed state) :=
  { h with
    observedAt := nofun
    lastError := by
      intro e hmem
      obtain ⟨e', he', rfl⟩ := Option.map_eq_some_iff.mp hmem
      exact ⟨(h.lastError e' he').1, (h.lastError e' he').2.1, nofun⟩ }

theorem forall_texts_orNull {α : Type} {P : String → Prop} {json : α → Json} {o : Option α} :
    (∀ s ∈ (orNull json o).texts, P s) ↔ ∀ a ∈ o, ∀ s ∈ (json a).texts, P s := by
  cases o with
  | none => simp [orNull, texts]
  | some a => simp [orNull]

theorem forall_texts_str {P : String → Prop} {s : String} : (∀ t ∈ (str s).texts, P t) ↔ P s := by
  simp [texts]

def reportKeys : List String :=
  ["schemaVersion", "isInstalled", "installedVersion", "runningVersion", "serviceStatus", "processId",
    "binarySha256", "appliedGeneration", "appliedConfigHash", "listeners", "lastError", "observedAt",
    "runtimeTag", "network", "port", "status", "errorCode", "code", "message", "generation", "occurredAt"]

theorem reportKeys_plain : ∀ key ∈ reportKeys, PlainText key := by decide

theorem texts_listener {listener : XrayObservedListener} (htag : PlainText listener.runtimeTag)
    (hnetwork : PlainText listener.network) (hcode : ∀ code ∈ listener.errorCode, PlainText code) :
    ∀ s ∈ listener.json.texts, PlainText s := by
  have hkey := reportKeys_plain
  unfold XrayObservedListener.json
  rw [texts, forall_textsFields, forall_mem_append]
  constructor
  · simp only [forall_mem_cons, not_mem_nil, false_imp_iff, implies_true, and_true,
      forall_texts_str]
    exact ⟨⟨hkey _ (by decide), htag⟩, ⟨hkey _ (by decide), hnetwork⟩, ⟨hkey _ (by decide), nofun⟩,
      hkey _ (by decide), plainText_listenerStatus _⟩
  · cases hlistener : listener.errorCode with
    | none => exact nofun
    | some code =>
      simp only [forall_mem_cons, not_mem_nil, false_imp_iff, implies_true, and_true,
        forall_texts_str]
      exact ⟨hkey _ (by decide), hcode code hlistener⟩

theorem texts_error {lastError : XrayObservedError} (hcode : PlainText lastError.code)
    (hmessage : PlainText lastError.message) (htime : PlainText lastError.occurredAt) :
    ∀ s ∈ lastError.json.texts, PlainText s := by
  have hkey := reportKeys_plain
  unfold XrayObservedError.json
  rw [texts, forall_textsFields]
  simp only [forall_mem_cons, not_mem_nil, false_imp_iff, implies_true, and_true,
    forall_texts_str]
  exact ⟨⟨hkey _ (by decide), hcode⟩, ⟨hkey _ (by decide), hmessage⟩, ⟨hkey _ (by decide), nofun⟩,
    hkey _ (by decide), htime⟩

theorem PlainTexts.texts (h : PlainTexts state) : ∀ s ∈ state.json.texts, PlainText s := by
  have hkey := reportKeys_plain
  have hlisteners : ∀ s ∈ (arr (state.listeners.map XrayObservedListener.json)).texts, PlainText s := by
    rw [Json.texts, forall_textsItems]
    intro v hv
    obtain ⟨listener, hmem, rfl⟩ := mem_map.mp hv
    obtain ⟨htag, hnetwork, hcode⟩ := h.listeners listener hmem
    exact texts_listener htag hnetwork hcode
  have herror : ∀ e ∈ state.lastError, ∀ s ∈ e.json.texts, PlainText s := fun e he =>
    texts_error (h.lastError e he).1 (h.lastError e he).2.1 (h.lastError e he).2.2
  unfold XrayObservedState.json
  rw [Json.texts, forall_textsFields]
  simp only [forall_mem_cons, not_mem_nil, false_imp_iff, implies_true, and_true,
    forall_texts_str, forall_texts_orNull]
  exact ⟨⟨hkey _ (by decide), nofun⟩, ⟨hkey _ (by decide), nofun⟩, ⟨hkey _ (by decide), h.installedVersion⟩,
    ⟨hkey _ (by decide), h.runningVersion⟩, ⟨hkey _ (by decide), plainText_serviceStatus _⟩,
    ⟨hkey _ (by decide), nofun⟩, ⟨hkey _ (by decide), h.binarySHA256⟩, ⟨hkey _ (by decide), nofun⟩,
    ⟨hkey _ (by decide), h.appliedConfigHash⟩, ⟨hkey _ (by decide), hlisteners⟩,
    ⟨hkey _ (by decide), herror⟩, hkey _ (by decide), h.observedAt⟩

theorem PlainTexts.render (h : PlainTexts state) :
    state.json.render jsEscape = state.json.render goEscape :=
  render_congr _ fun s hs c hc =>
    (jsEscape_plain (h.texts s hs c hc)).trans (goEscape_plain (h.texts s hs c hc)).symm

/-! ## What the panel takes -/

section

variable {tools : PanelTools}

theorem utf16Length_le (s : String) : utf16Length s ≤ s.utf8ByteSize := by
  have hlist : ∀ cs : List Char,
      (cs.map fun c => if c.toNat < 0x10000 then 1 else 2).sum ≤ String.utf8Len cs := by
    intro cs
    induction cs with
    | nil => exact Nat.zero_le _
    | cons c cs ih =>
      rw [map_cons, sum_cons, String.utf8Len_cons]
      have hpos := c.utf8Size_pos
      split
      · omega
      · rename_i hwide
        have hfour : c.utf8Size = 4 := Char.utf8Size_eq_four_iff.mpr (UInt32.lt_iff_toNat_lt.mpr (by
          show 65535 < c.toNat
          omega))
        omega
  rw [← String.utf8Len_toList]
  exact hlist s.toList

theorem utf16Length_pos {s : String} (h : 1 ≤ s.utf8ByteSize) : 1 ≤ utf16Length s := by
  unfold utf16Length
  cases hs : s.toList with
  | nil =>
    rw [← String.utf8Len_toList, hs] at h
    exact absurd h (by decide)
  | cons c cs =>
    rw [map_cons, sum_cons]
    split <;> omega

theorem string_sized {s : String} {max : ℕ} {pattern : String → Bool}
    (h : (1 ≤ s.utf8ByteSize && s.utf8ByteSize ≤ max && pattern s) = true) :
    string (fun s => 1 ≤ utf16Length s && utf16Length s ≤ max && pattern s) (.str s) = some s := by
  simp only [Bool.and_eq_true, decide_eq_true_eq] at h
  refine if_pos ?_
  simp only [Bool.and_eq_true, decide_eq_true_eq]
  exact ⟨⟨utf16Length_pos h.1.1, (utf16Length_le s).trans h.1.2⟩, h.2⟩

theorem string_of_check {check : String → Bool} {s : String} (h : check s = true) :
    string check (.str s) = some s := if_pos h

theorem integer_of_range {low high n : ℤ} (h : low ≤ n ∧ n ≤ high) : integer low high (.int n) = some n :=
  if_pos h

theorem nullable_orNull {α : Type} {schema : Schema α} {json : α → Json} {o : Option α}
    (hnull : ∀ a, json a ≠ .null) (h : ∀ a ∈ o, schema (json a) = some a) :
    nullable schema (orNull json o) = some o := by
  cases o with
  | none => rfl
  | some a =>
    have ha := h a rfl
    have hne := hnull a
    unfold nullable orNull
    split
    · exact absurd ‹_› hne
    · rw [ha, Option.map_some]

variable {fields : List (String × Json)}

theorem required_eq {α : Type} {key : String} {v : Json}
    {schema : Schema α} {a : α} (hfield : field fields key = some v) (hschema : schema v = some a) :
    required fields key schema = some a := by
  rw [required, hfield, Option.bind_some, hschema]

theorem nullish_str {key s a : String} {schema : Schema String}
    (hfield : field fields key = some (.str s)) (hschema : schema (.str s) = some a) :
    nullish fields key schema = some (.value a) := by
  rw [nullish, hfield]
  dsimp only
  rw [hschema, Option.map_some]

/-- The listener that the panel makes of one of the agent's. -/
def parsedListener (listener : XrayObservedListener) : ParsedListener where
  runtimeTag := listener.runtimeTag
  network := listener.network
  port := listener.port
  status := listener.status
  errorCode := match listener.errorCode with
    | none => .undefined
    | some code => .value code

def parsedState (state : XrayObservedState) : ParsedState where
  schemaVersion := state.schemaVersion
  isInstalled := state.isInstalled
  installedVersion := state.installedVersion
  runningVersion := state.runningVersion
  serviceStatus := state.serviceStatus
  processId := state.processID
  binarySha256 := state.binarySHA256
  appliedGeneration := state.appliedGeneration
  appliedConfigHash := state.appliedConfigHash
  listeners := state.listeners.map parsedListener
  lastError := state.lastError
  observedAt := state.observedAt

theorem serviceStatusSchema_text (status : XrayServiceStatus) :
    serviceStatusSchema (.str status.text) = some status := by
  cases status <;> decide

theorem listenerStatusSchema_text (status : XrayListenerStatus) :
    listenerStatusSchema (.str status.text) = some status := by
  cases status <;> decide

theorem listenerNetworkSchema_text {network : String} (h : network = "tcp" ∨ network = "udp") :
    listenerNetworkSchema (.str network) = some network := by
  obtain rfl | rfl := h <;> decide

theorem errorCodeSchema_text (code : XrayAgentErrorCode) : errorCodeSchema (.str code.text) = some code.text :=
  string_sized code.validate_text

theorem accepts_listener {listener : XrayObservedListener} (h : BuiltListener listener) :
    XrayObservedListenerSchema listener.json = some (parsedListener listener) := by
  have htag : identifierSchema (.str listener.runtimeTag) = some listener.runtimeTag :=
    string_sized h.runtimeTag
  have hport : portSchema (.int listener.port) = some listener.port := integer_of_range h.port
  unfold XrayObservedListener.json parsedListener XrayObservedListenerSchema
  cases hcode : listener.errorCode with
  | none =>
    dsimp only
    rw [required_eq rfl htag, required_eq rfl (listenerNetworkSchema_text h.network), required_eq rfl hport,
      required_eq rfl (listenerStatusSchema_text listener.status)]
    rfl
  | some code =>
    obtain ⟨known, rfl⟩ := h.errorCode code hcode
    dsimp only
    rw [required_eq rfl htag, required_eq rfl (listenerNetworkSchema_text h.network), required_eq rfl hport,
      required_eq rfl (listenerStatusSchema_text listener.status),
      nullish_str rfl (errorCodeSchema_text known)]
    rfl

theorem accepts_error (htimes : ∀ t, tools.isDatetime (rfc3339Nano t) = true)
    {lastError : XrayObservedError} (h : BuiltError lastError) :
    XrayObservedErrorSchema tools lastError.json = some lastError := by
  obtain ⟨⟨known, hcode⟩, hmessage, hrange, t, htime⟩ := h
  have herror : errorCodeSchema (.str lastError.code) = some lastError.code :=
    hcode ▸ errorCodeSchema_text known
  have hshort : errorMessageSchema (.str lastError.message) = some lastError.message :=
    string_of_check (decide_eq_true (hmessage.2.trans (by decide)))
  have hgeneration : nonNegativeIntegerSchema (.int lastError.generation) = some lastError.generation :=
    integer_of_range hrange
  have htimestamp : timestampSchema tools (.str lastError.occurredAt) = some lastError.occurredAt :=
    string_of_check (htime ▸ htimes t)
  unfold XrayObservedError.json XrayObservedErrorSchema
  dsimp only
  rw [required_eq rfl herror, required_eq rfl hshort, required_eq rfl hgeneration,
    required_eq rfl htimestamp]
  rfl

theorem mapM_map {α β γ : Type} {f : β → Option γ} {g : α → β} {k : α → γ} {l : List α}
    (h : ∀ a ∈ l, f (g a) = some (k a)) : (l.map g).mapM f = some (l.map k) := by
  induction l with
  | nil => rfl
  | cons a l ih =>
    rw [map_cons, mapM_cons, h a mem_cons_self,
      ih fun b hb => h b (mem_cons_of_mem _ hb)]
    rfl

theorem accepts_state (htimes : ∀ t, tools.isDatetime (rfc3339Nano t) = true)
    (h : Built state) : observedStateObjectSchema tools state.json = some (parsedState state) := by
  obtain ⟨t, htime⟩ := h.observedAt
  have hschema : schemaVersionSchema (.int state.schemaVersion) = some state.schemaVersion :=
    integer_of_range (by rw [h.schemaVersion]; decide)
  have hversions : ∀ version, validateXrayVersion version = true →
      versionSchema (.str version) = some version := fun _ hversion => string_sized hversion
  have hinstalled : nullable versionSchema (orNull .str state.installedVersion) = some state.installedVersion :=
    nullable_orNull nofun fun version hmem => hversions version (h.installedVersion version hmem)
  have hrunning : nullable versionSchema (orNull .str state.runningVersion) = some state.runningVersion :=
    nullable_orNull nofun fun version hmem => hversions version (h.runningVersion version hmem)
  have hpid : nullable positiveIntegerSchema (orNull .int state.processID) = some state.processID := by
    refine nullable_orNull nofun fun pid hmem => integer_of_range ?_
    have hrange := h.processID pid hmem
    have hmax : (2 : ℤ) ^ 22 ≤ xrayMaxSafeInteger := by decide
    exact ⟨hrange.1, hrange.2.trans hmax⟩
  have hbinary : nullable sha256Schema (orNull .str state.binarySHA256) = some state.binarySHA256 :=
    nullable_orNull nofun fun hash hmem => string_of_check (h.binarySHA256 hash hmem)
  have hconfig : nullable sha256Schema (orNull .str state.appliedConfigHash) = some state.appliedConfigHash :=
    nullable_orNull nofun fun hash hmem => string_of_check (h.appliedConfigHash hash hmem)
  have hgeneration : nonNegativeIntegerSchema (.int state.appliedGeneration) = some state.appliedGeneration :=
    integer_of_range h.appliedGeneration
  have hlisteners : array XrayObservedListenerSchema 256 (.arr (state.listeners.map XrayObservedListener.json))
      = some (state.listeners.map parsedListener) := by
    have hlength : (state.listeners.map XrayObservedListener.json).length ≤ 256 := by
      rw [length_map]
      exact h.listeners_length
    rw [array, if_pos hlength]
    exact mapM_map fun listener hmem => accepts_listener (h.listeners listener hmem)
  have herror : nullable (XrayObservedErrorSchema tools) (orNull XrayObservedError.json state.lastError)
      = some state.lastError :=
    nullable_orNull nofun fun e hmem => accepts_error htimes (h.lastError e hmem)
  have htimestamp : timestampSchema tools (.str state.observedAt) = some state.observedAt :=
    string_of_check (htime ▸ htimes t)
  unfold XrayObservedState.json observedStateObjectSchema
  dsimp only
  rw [required_eq rfl hschema, required_eq (a := state.isInstalled) rfl rfl, required_eq rfl hinstalled,
    required_eq rfl hrunning, required_eq rfl (serviceStatusSchema_text state.serviceStatus),
    required_eq rfl hpid, required_eq rfl hbinary, required_eq rfl hgeneration, required_eq rfl hconfig,
    required_eq rfl hlisteners, required_eq rfl herror, required_eq rfl htimestamp]
  rfl

/-! ### The raw checks -/

theorem reportKeys_allowed : ∀ key ∈ reportKeys, observedForbiddenKeys.contains (normalizedKey key) = false := by
  decide

theorem keys_listener (listener : XrayObservedListener) : ∀ key ∈ listener.json.keys, key ∈ reportKeys := by
  unfold XrayObservedListener.json
  rw [keys, forall_keysFields, forall_mem_append]
  constructor
  · simp only [forall_mem_cons, not_mem_nil, false_imp_iff, implies_true, and_true, keys]
    decide
  · cases listener.errorCode with
    | none => exact nofun
    | some code =>
      simp only [forall_mem_cons, not_mem_nil, false_imp_iff, implies_true, and_true, keys]
      decide

theorem forall_keys_orNull {α : Type} {P : String → Prop} {json : α → Json} {o : Option α} :
    (∀ key ∈ (orNull json o).keys, P key) ↔ ∀ a ∈ o, ∀ key ∈ (json a).keys, P key := by
  cases o with
  | none => simp [orNull, keys]
  | some a => simp [orNull]

theorem keys_error (lastError : XrayObservedError) : ∀ key ∈ lastError.json.keys, key ∈ reportKeys := by
  unfold XrayObservedError.json
  rw [keys, forall_keysFields]
  simp only [forall_mem_cons, not_mem_nil, false_imp_iff, implies_true, and_true, keys]
  decide

theorem keys_report (state : XrayObservedState) : ∀ key ∈ state.json.keys, key ∈ reportKeys := by
  have hlisteners : ∀ key ∈ (arr (state.listeners.map XrayObservedListener.json)).keys,
      key ∈ reportKeys := by
    rw [keys, forall_keysItems]
    intro v hv
    obtain ⟨listener, -, rfl⟩ := mem_map.mp hv
    exact keys_listener listener
  unfold XrayObservedState.json
  rw [keys, forall_keysFields]
  simp only [forall_mem_cons, not_mem_nil, false_imp_iff, implies_true, and_true,
    forall_keys_orNull]
  exact ⟨⟨by decide, nofun⟩, ⟨by decide, nofun⟩, ⟨by decide, fun _ _ => nofun⟩, ⟨by decide, fun _ _ => nofun⟩,
    ⟨by decide, nofun⟩, ⟨by decide, fun _ _ => nofun⟩, ⟨by decide, fun _ _ => nofun⟩, ⟨by decide, nofun⟩,
    ⟨by decide, fun _ _ => nofun⟩, ⟨by decide, hlisteners⟩, ⟨by decide, fun e _ => keys_error e⟩,
    by decide, nofun⟩

/-- A field with the key and a bound for the value. -/
def Within (f : String × Json) (b : String × ℕ) : Prop := f.1 = b.1 ∧ f.2.size Json.jsEscape ≤ b.2

theorem size_object {bounds : List (String × ℕ)} (h : List.Forall₂ Within fields bounds)
    (hkeys : ∀ b ∈ bounds, b.1 ∈ reportKeys) :
    (obj fields).size jsEscape ≤ 2 + (bounds.map fun b => b.2 + 21).sum := by
  have hshort : ∀ key ∈ reportKeys, key.utf8ByteSize ≤ 17 := by decide
  have hfields : (fields.map fun f => (quote jsEscape f.1).utf8ByteSize + 2 +
      f.2.size jsEscape).sum ≤ (bounds.map fun b => b.2 + 21).sum := by
    induction h with
    | nil => exact le_refl _
    | @cons f b fields bounds hf _ ih =>
      have hkey : f.1 ∈ reportKeys := hf.1 ▸ hkeys b mem_cons_self
      have hbytes := hshort f.1 hkey
      have hquote : (quote jsEscape f.1).utf8ByteSize = f.1.utf8ByteSize + 2 :=
        size_quote fun c hc => jsEscape_plain (reportKeys_plain f.1 hkey c hc)
      have hvalue := hf.2
      have hrest := ih fun b' hb' => hkeys b' (mem_cons_of_mem _ hb')
      simp only [map_cons, sum_cons]
      omega
  exact (size_obj_le jsEscape fields).trans (Nat.add_le_add_left hfields 2)

theorem size_str {s : String} (h : PlainText s) : (str s).size jsEscape = s.utf8ByteSize + 2 :=
  size_quote fun c hc => jsEscape_plain (h c hc)

theorem size_orNull {α : Type} {json : α → Json} {o : Option α} {n : ℕ} (hn : 4 ≤ n)
    (h : ∀ a ∈ o, (json a).size jsEscape ≤ n) : (orNull json o).size jsEscape ≤ n := by
  cases o with
  | none => exact hn
  | some a => exact h a rfl

theorem size_text_le {s : String} (h : PlainText s) {n : ℕ} (hn : s.utf8ByteSize ≤ n) :
    (str s).size jsEscape ≤ n + 2 :=
  (size_str h).trans_le (Nat.add_le_add_right hn 2)

theorem size_sha256_le {hash : String} (h : xraySHA256Pattern hash = true) :
    (str hash).size jsEscape ≤ 258 := by
  refine size_text_le (plainText_sha256 h) ?_
  rw [xraySHA256Pattern, Bool.and_eq_true, beq_iff_eq] at h
  have hbytes := utf8Len_le hash.toList
  rw [String.utf8Len_toList] at hbytes
  omega

theorem size_version_le {version : String} (h : validateXrayVersion version = true) :
    (str version).size jsEscape ≤ 66 := by
  refine size_text_le (plainText_version_of_validate h) ?_
  simp only [validateXrayVersion, Bool.and_eq_true, decide_eq_true_eq] at h
  exact h.1.2

theorem size_code_le (code : XrayAgentErrorCode) : (str code.text).size jsEscape ≤ 66 := by
  refine size_text_le (plainText_code code) ?_
  have hvalid := code.validate_text
  simp only [validateXrayErrorCode, Bool.and_eq_true, decide_eq_true_eq] at hvalid
  exact hvalid.1.2

theorem size_time_le {text : String} (h : ∃ t, text = rfc3339Nano t) :
    (str text).size jsEscape ≤ 122 := by
  obtain ⟨t, rfl⟩ := h
  exact size_text_le (plainText_rfc3339Nano t) (size_rfc3339Nano_le t)

theorem size_generation_le {n : ℤ} (h : 0 ≤ n ∧ n ≤ xrayMaxSafeInteger) :
    (int n).size jsEscape ≤ 64 := by
  have hmax : xrayMaxSafeInteger < 10 ^ 16 := by decide
  exact size_int_le (k := 16) (by decide) h.1 (h.2.trans_lt hmax)

theorem size_serviceStatus_le (status : XrayServiceStatus) : (str status.text).size jsEscape ≤ 9 := by
  cases status <;> decide

theorem size_listenerStatus_le (status : XrayListenerStatus) :
    (str status.text).size jsEscape ≤ 15 := by
  cases status <;> decide

theorem size_listener_le {listener : XrayObservedListener} (h : BuiltListener listener) :
    listener.json.size jsEscape + 1 ≤ 350 := by
  have hplain := (plainTexts_of_built_listener h)
  have htag : (str listener.runtimeTag).size jsEscape ≤ 130 := by
    have htag := h.runtimeTag
    simp only [validateXrayIdentifier, Bool.and_eq_true, decide_eq_true_eq] at htag
    exact size_text_le hplain.1 htag.1.2
  have hnetwork : (str listener.network).size jsEscape ≤ 5 := by
    obtain hnet | hnet := h.network <;> rw [hnet] <;> decide
  have hport : (int listener.port).size jsEscape ≤ 20 :=
    size_int_le (k := 5) (by decide) (by have := h.port; omega) (by have := h.port; norm_num; omega)
  have hstatus := size_listenerStatus_le listener.status
  have hmain : List.Forall₂ Within
      [("runtimeTag", .str listener.runtimeTag), ("network", .str listener.network),
        ("port", .int listener.port), ("status", .str listener.status.text)]
      [("runtimeTag", 130), ("network", 5), ("port", 20), ("status", 15)] :=
    .cons ⟨rfl, htag⟩ (.cons ⟨rfl, hnetwork⟩ (.cons ⟨rfl, hport⟩ (.cons ⟨rfl, hstatus⟩ .nil)))
  unfold XrayObservedListener.json
  refine Nat.succ_le_succ ?_
  cases hcode : listener.errorCode with
  | none =>
    dsimp only
    rw [append_nil]
    exact (size_object hmain (by decide)).trans (by decide)
  | some code =>
    obtain ⟨known, rfl⟩ := h.errorCode code hcode
    have hcode : List.Forall₂ Within
        [("errorCode", str known.text)] [("errorCode", 66)] := .cons ⟨rfl, size_code_le known⟩ .nil
    exact (size_object (rel_append hmain hcode) (by decide)).trans (by decide)

theorem size_error_le {lastError : XrayObservedError} (h : BuiltError lastError) :
    lastError.json.size jsEscape ≤ 500 := by
  obtain ⟨known, hcode⟩ := h.code
  have hcode : (str lastError.code).size jsEscape ≤ 66 := hcode ▸ size_code_le known
  have hmessage := size_text_le h.message.1 h.message.2
  have hgeneration := size_generation_le h.generation
  have htime := size_time_le h.occurredAt
  unfold XrayObservedError.json
  have hfields : List.Forall₂ Within
      [("code", .str lastError.code), ("message", .str lastError.message),
        ("generation", .int lastError.generation), ("occurredAt", .str lastError.occurredAt)]
      [("code", 66), ("message", 130), ("generation", 64), ("occurredAt", 122)] :=
    .cons ⟨rfl, hcode⟩ (.cons ⟨rfl, hmessage⟩ (.cons ⟨rfl, hgeneration⟩ (.cons ⟨rfl, htime⟩ .nil)))
  exact (size_object hfields (by decide)).trans (by decide)

theorem size_report_le (h : Built state) : state.json.size jsEscape ≤ 256 * 1024 := by
  have hschema : (int state.schemaVersion).size jsEscape ≤ 4 := by
    rw [h.schemaVersion]
    exact size_int_le (k := 1) (by decide) (by decide) (by decide)
  have hinstalled : (bool state.isInstalled).size jsEscape ≤ 5 := by
    cases state.isInstalled <;> decide
  have hversion : (orNull .str state.installedVersion).size jsEscape ≤ 66 :=
    size_orNull (by decide) fun version hmem => size_version_le (h.installedVersion version hmem)
  have hrunning : (orNull .str state.runningVersion).size jsEscape ≤ 66 :=
    size_orNull (by decide) fun version hmem => size_version_le (h.runningVersion version hmem)
  have hpid : (orNull .int state.processID).size jsEscape ≤ 28 := by
    refine size_orNull (by decide) fun pid hmem => ?_
    have hrange := h.processID pid hmem
    exact size_int_le (k := 7) (by decide) hrange.1.le (by norm_num at hrange ⊢; omega)
  have hbinary : (orNull .str state.binarySHA256).size jsEscape ≤ 258 :=
    size_orNull (by decide) fun hash hmem => size_sha256_le (h.binarySHA256 hash hmem)
  have hconfig : (orNull .str state.appliedConfigHash).size jsEscape ≤ 258 :=
    size_orNull (by decide) fun hash hmem => size_sha256_le (h.appliedConfigHash hash hmem)
  have hlisteners : (arr (state.listeners.map XrayObservedListener.json)).size jsEscape ≤
      2 + 256 * 350 := by
    have hitems : ∀ v ∈ state.listeners.map XrayObservedListener.json, v.size jsEscape + 1 ≤ 350 := by
      intro v hv
      obtain ⟨listener, hmem, rfl⟩ := mem_map.mp hv
      exact size_listener_le (h.listeners listener hmem)
    refine (size_arr_le hitems).trans (Nat.add_le_add_left (Nat.mul_le_mul_right 350 ?_) 2)
    rw [length_map]
    exact h.listeners_length
  have herror : (orNull XrayObservedError.json state.lastError).size jsEscape ≤ 500 :=
    size_orNull (by decide) fun e hmem => size_error_le (h.lastError e hmem)
  unfold XrayObservedState.json
  refine (size_object (?_ : List.Forall₂ Within _
    [("schemaVersion", 4), ("isInstalled", 5), ("installedVersion", 66), ("runningVersion", 66),
      ("serviceStatus", 9), ("processId", 28), ("binarySha256", 258), ("appliedGeneration", 64),
      ("appliedConfigHash", 258), ("listeners", 2 + 256 * 350), ("lastError", 500), ("observedAt", 122)])
    (by decide)).trans (by decide)
  exact .cons ⟨rfl, hschema⟩ (.cons ⟨rfl, hinstalled⟩ (.cons ⟨rfl, hversion⟩ (.cons ⟨rfl, hrunning⟩
    (.cons ⟨rfl, size_serviceStatus_le state.serviceStatus⟩ (.cons ⟨rfl, hpid⟩ (.cons ⟨rfl, hbinary⟩
    (.cons ⟨rfl, size_generation_le h.appliedGeneration⟩ (.cons ⟨rfl, hconfig⟩ (.cons ⟨rfl, hlisteners⟩
    (.cons ⟨rfl, herror⟩ (.cons ⟨rfl, size_time_le h.observedAt⟩ .nil)))))))))))

theorem rawChecks_report (h : Built state) : rawChecks state.json = true := by
  simp only [rawChecks, Bool.and_eq_true, decide_eq_true_eq, all_eq_true]
  refine ⟨size_report_le h, fun key hkey => ?_⟩
  rw [reportKeys_allowed key (keys_report state key hkey)]
  rfl

theorem accepts_report (htimes : ∀ t, tools.isDatetime (rfc3339Nano t) = true) (h : Built state) :
    XrayObservedStateSchema tools state.json = some (parsedState state) := by
  rw [XrayObservedStateSchema, if_pos (rawChecks_report h), accepts_state htimes h]

/-! ## The signature -/

theorem json_parsedState (state : XrayObservedState) : (parsedState state).json = state.json := by
  have hlistener : ∀ listener, (parsedListener listener).json = XrayObservedListener.json listener := by
    intro listener
    unfold parsedListener ParsedListener.json XrayObservedListener.json
    cases listener.errorCode <;> rfl
  have hlisteners : (parsedState state).listeners.map ParsedListener.json
      = state.listeners.map XrayObservedListener.json := by
    unfold parsedState
    rw [map_map]
    exact map_congr_left fun listener _ => hlistener listener
  unfold ParsedState.json XrayObservedState.json
  rw [hlisteners]
  rfl

/-- The signature that comes with a report, from the hash that both sides use. -/
def agentSignature (tools : PanelTools) (state : XrayObservedState) : String :=
  Agent.XrayHeartbeat.xrayObservedStateSignature ⟨marshal, tools.sum256⟩ state

theorem signature_report (htimes : ∀ t, tools.isDatetime (rfc3339Nano t) = true) (h : Built state) :
    xrayObservedStateSignature tools state.json = some (agentSignature tools state) := by
  have huntimed : ({ parsedState state with
      lastError := (parsedState state).lastError.map fun lastError => { lastError with occurredAt := "" }
      observedAt := "" } : ParsedState) = parsedState (untimed state) := rfl
  have htext := (plainTexts_of_built h).untimed.render
  rw [xrayObservedStateSignature, accepts_report htimes h]
  show some (encodeToString (tools.sum256 (render jsEscape (ParsedState.json _)))) = _
  rw [huntimed, json_parsedState, htext]
  rfl

theorem xraySHA256Pattern_encodeToString (hash : Fin 32 → UInt8) :
    xraySHA256Pattern (encodeToString hash) = true := by
  have hdigits : ∀ n < 16, ((Nat.digitChar n).isDigit ||
      decide ('a' ≤ Nat.digitChar n) && decide (Nat.digitChar n ≤ 'f')) = true := by decide
  have hlength : ∀ bytes : List UInt8, (bytes.flatMap fun b =>
      [Nat.digitChar (b.toNat / 16), Nat.digitChar (b.toNat % 16)]).length = 2 * bytes.length := by
    intro bytes
    induction bytes with
    | nil => rfl
    | cons b bytes ih =>
      rw [flatMap_cons, length_append, ih, length_cons]
      simp only [length_cons, length_nil]
      omega
  rw [xraySHA256Pattern, encodeToString, String.toList_ofList, Bool.and_eq_true, all_eq_true,
    beq_iff_eq, hlength, length_ofFn]
  refine ⟨rfl, fun c hc => ?_⟩
  obtain ⟨b, -, hb⟩ := mem_flatMap.mp hc
  have hbyte := b.toNat_lt
  simp only [mem_cons, not_mem_nil, or_false] at hb
  obtain rfl | rfl := hb
  · exact hdigits _ (by omega)
  · exact hdigits _ (Nat.mod_lt _ (by decide))

theorem requestXrayState_report (htimes : ∀ t, tools.isDatetime (rfc3339Nano t) = true) (h : Built state) :
    requestXrayState tools (agentSignature tools state) state.json = false := by
  have hpattern : xraySHA256Pattern (agentSignature tools state) ≠ false := by
    rw [agentSignature, Agent.XrayHeartbeat.xrayObservedStateSignature, xraySHA256Pattern_encodeToString]
    decide
  rw [requestXrayState, if_neg hpattern, accepts_report htimes h]
  dsimp only
  rw [json_parsedState, signature_report htimes h]
  exact decide_eq_false fun hne => hne rfl

end

/-! ## Runs -/

/-- **No report is asked for twice** while the generations received are safe: whatever desired states
the agent has got and made of them, and whatever it finds on its host, its report passes its own check
and the panel's schema, and both sides find one signature. -/
theorem reports_accepted (tools : XrayTools) (panel : PanelTools)
    (hbinary : ∀ version hash, tools.binary version = some hash → xraySHA256Pattern hash = true)
    (hagent : ∀ t, tools.isTimestamp (rfc3339Nano t) = true)
    (hpanel : ∀ t, panel.isDatetime (rfc3339Nano t) = true) {events : List Agent.XrayObserved.Event}
    (hevents : ∀ e ∈ events, e.desired.generation ≤ xrayMaxSafeInteger) {host : Agent.XrayObserved.Host}
    (hversion : ∀ state ∈ host.committed, state.currentVersion.utf8ByteSize ≤ 64) (now : Time) :
    let observed := ObservedState tools host (run (step tools) none events) now
    observed.Validate tools = true ∧
      (XrayObservedStateSchema panel observed.json).isSome = true ∧
      xrayObservedStateSignature panel observed.json = some (agentSignature panel observed) ∧
      requestXrayState panel (agentSignature panel observed) observed.json = false := by
  intro observed
  have hbuilt : Built observed := built_observedState hbinary hversion (recorded_run hevents) now
  refine ⟨hbuilt.validate hagent, ?_, signature_report hpanel hbuilt, requestXrayState_report hpanel hbuilt⟩
  rw [accepts_report hpanel hbuilt]
  rfl

/-! ### Beyond the safe generations -/

theorem validate_large {tools : XrayTools} {e : XrayObservedError} (h : state.lastError = some e)
    (hlarge : xrayMaxSafeInteger < e.generation) : state.Validate tools = false := by
  have herror : e.Validate tools = false := by
    rw [XrayObservedError.Validate, decide_eq_false (Int.not_le.mpr hlarge), Bool.and_false,
      Bool.false_and]
  rw [XrayObservedState.Validate, h, Option.all_some, herror, Bool.and_false, Bool.false_and]

theorem required_eq_some {α : Type} {fields : List (String × Json)} {key : String} {v : Json}
    {schema : Schema α} {a : α} (hfield : field fields key = some v)
    (h : required fields key schema = some a) : schema v = some a := by
  rwa [required, hfield, Option.bind_some] at h

theorem errorSchema_large {panel : PanelTools} {e : XrayObservedError}
    (hlarge : xrayMaxSafeInteger < e.generation) : XrayObservedErrorSchema panel e.json = none := by
  rw [Option.eq_none_iff_forall_ne_some]
  intro parsed hparsed
  unfold XrayObservedError.json XrayObservedErrorSchema at hparsed
  simp only [Option.bind_eq_bind, Option.bind_eq_some_iff] at hparsed
  obtain ⟨-, -, -, -, generation, hgeneration, -⟩ := hparsed
  have hrange : nonNegativeIntegerSchema (.int e.generation) = some generation :=
    required_eq_some rfl hgeneration
  rw [nonNegativeIntegerSchema, integer, if_neg fun hrange => absurd hlarge (Int.not_lt.mpr hrange.2)]
    at hrange
  cases hrange

theorem schema_large {panel : PanelTools} {e : XrayObservedError} (h : state.lastError = some e)
    (hlarge : xrayMaxSafeInteger < e.generation) : XrayObservedStateSchema panel state.json = none := by
  rw [Option.eq_none_iff_forall_ne_some]
  intro parsed hparsed
  unfold XrayObservedStateSchema at hparsed
  split at hparsed
  · unfold XrayObservedState.json observedStateObjectSchema at hparsed
    -- the ten properties before the last error
    iterate 10 obtain ⟨_, -, hparsed⟩ := Option.bind_eq_some_iff.mp hparsed
    obtain ⟨lastError, hlast, -⟩ := Option.bind_eq_some_iff.mp hparsed
    have herror : nullable (XrayObservedErrorSchema panel) (orNull XrayObservedError.json state.lastError)
        = some lastError := required_eq_some rfl hlast
    have hnone : nullable (XrayObservedErrorSchema panel) (orNull XrayObservedError.json (some e)) = none :=
      congrArg (Option.map some) (errorSchema_large hlarge)
    rw [h, hnone] at herror
    cases herror
  · cases hparsed

theorem unsafe_desired_refused {tools : XrayTools} (panel : PanelTools)
    (hbinary : ∀ version hash, tools.binary version = some hash → xraySHA256Pattern hash = true)
    (events : List Agent.XrayObserved.Event) {desired : XrayDesiredState}
    (hlarge : xrayMaxSafeInteger < desired.generation) (received : Time) {host : Agent.XrayObserved.Host}
    (hversion : ∀ state ∈ host.committed, state.currentVersion.utf8ByteSize ≤ 64) (now : Time) :
    let observed := ObservedState tools host (run (step tools) none (events ++ [.schedule desired received])) now
    observed.Validate tools = false ∧ XrayObservedStateSchema panel observed.json = none ∧
      requestXrayState panel (agentSignature panel observed) observed.json = true := by
  intro observed
  have hinvalid : validateXrayDesiredPayload tools desired = false := by
    rw [validateXrayDesiredPayload, XrayDesiredState.Validate, decide_eq_false (Int.not_le.mpr hlarge)]
    simp only [Bool.and_false, Bool.false_and]
  have hfailure : run (step tools) none (events ++ [.schedule desired received])
      = recordXrayDesiredFailure .configInvalid desired.generation received := by
    rw [run_append]
    exact if_pos hinvalid
  have hbuilt : Built (ObservedState tools host none now) :=
    built_observedState hbinary hversion recorded_none now
  have hlater : ¬desired.generation < (ObservedState tools host none now).appliedGeneration := by
    have hsafe := hbuilt.appliedGeneration.2
    omega
  have hdecorated : observed = decorateXrayObservedStateWithDesiredFailure (ObservedState tools host none now)
      (recordXrayDesiredFailure .configInvalid desired.generation received) := by
    show ObservedState tools host (run (step tools) none (events ++ [.schedule desired received])) now = _
    rw [hfailure]
    rfl
  have herror : ∃ e, observed.lastError = some e ∧ xrayMaxSafeInteger < e.generation := by
    rw [hdecorated]
    unfold decorateXrayObservedStateWithDesiredFailure recordXrayDesiredFailure
    dsimp only
    rw [if_neg hlater]
    exact ⟨_, rfl, hlarge⟩
  obtain ⟨e, he, hgeneration⟩ := herror
  have hschema : XrayObservedStateSchema panel observed.json = none := schema_large he hgeneration
  refine ⟨validate_large he hgeneration, hschema, ?_⟩
  rw [requestXrayState, hschema]
  exact ite_self _

def emptyHost : Agent.XrayObserved.Host where
  state := some none
  state_valid := nofun
  currentBinary := none
  sha256File _ := none
  sha256File_pattern := nofun
  snapshotOk := true
  status := ⟨.stopped, 0, "", "", 0, "", by decide⟩
  clean path := path
  proc := ⟨fun _ => none, fun _ => none, fun _ _ => false⟩

def emptyTools : XrayTools where
  hashXrayBytes _ := "e3b0c44298fc1c149afbf4c8996fb92427ae41e4649b934ca495991b7852b855"
  binary _ := none
  isTimestamp _ := true
  isJsonObject _ := false

def samplePanel : PanelTools where
  isDatetime _ := true
  sum256 _ i := [88, 50, 241, 43, 14, 55, 120, 228, 144, 161, 133, 160, 54, 202, 131, 203, 139, 60, 66, 159, 2, 228,
    68, 244, 163, 100, 54, 206, 162, 132, 12, 105].getD i 0

def noConfig (generation : ℤ) : XrayDesiredState :=
  ⟨1, generation, "2026-01-01T00:00:00Z", xrayManagedVersion,
    "e3b0c44298fc1c149afbf4c8996fb92427ae41e4649b934ca495991b7852b855", "JSON_UTF8", "", []⟩

def newYear : Time :=
  ⟨⟨2026, 1, 1, by decide, by decide⟩, 0, 0, 0, 0, by decide, by decide, by decide, by decide, by decide⟩

theorem reports_accepted_rejected :
    let observed := ObservedState emptyTools emptyHost
      (run (step emptyTools) none [.schedule (noConfig 7) newYear]) newYear
    observed.lastError = some ⟨"CONFIG_INVALID", "Managed Xray rejected the desired configuration", 7,
        "2026-01-01T00:00:00Z"⟩ ∧
      requestXrayState samplePanel (agentSignature samplePanel observed)
        observed.json = false := by
  have hsafe : ∀ e ∈ [Agent.XrayObserved.Event.schedule (noConfig 7) newYear],
      e.desired.generation ≤ xrayMaxSafeInteger := by
    intro e he
    rw [mem_singleton.mp he]
    decide
  have hnone : ∀ state ∈ emptyHost.committed, state.currentVersion.utf8ByteSize ≤ 64 := by
    rw [show emptyHost.committed = none from rfl]
    exact nofun
  exact ⟨by decide, (reports_accepted emptyTools samplePanel nofun (fun _ => rfl) (fun _ => rfl)
    hsafe hnone newYear).2.2.2⟩

theorem unsafe_desired_refused_at_limit :
    let observed := ObservedState emptyTools emptyHost
      (run (step emptyTools) none ([] ++ [.schedule (noConfig (2 ^ 53)) newYear])) newYear
    observed.Validate emptyTools = false ∧ XrayObservedStateSchema samplePanel observed.json = none ∧
      requestXrayState samplePanel (agentSignature samplePanel observed) observed.json = true :=
  unsafe_desired_refused samplePanel (by rintro _ _ ⟨⟩) [] (by decide) newYear (by rintro _ ⟨⟩) newYear

theorem unsafe_generation_refused :
    let observed := ObservedState emptyTools emptyHost
      (run (step emptyTools) none [.schedule (noConfig (2 ^ 53)) newYear]) newYear
    observed.Validate emptyTools = false ∧
      (XrayObservedStateSchema samplePanel observed.json).isSome = false ∧
      requestXrayState samplePanel (agentSignature samplePanel observed)
        observed.json = true := by
  exact ⟨by decide, by decide +kernel, by decide +kernel⟩

end ForwardX.Panel.XrayReports
