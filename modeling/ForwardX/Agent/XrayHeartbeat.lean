/-
The Xray part of a heartbeat: `xrayHeartbeatCache` of `agent/xray_state.go`.

Every heartbeat has the signature of the observed state.
-/
import ForwardX.Agent.XraySupervision

namespace ForwardX.Agent.XrayHeartbeat

open List

open XraySupervision (XrayServiceStatus)
open Chain (getElem?_concat_iff getElem?_modify_iff)
open Run (run run_invariant)

/-! ## Observed states -/

inductive XrayListenerStatus where
  | ready
  | missing
  | wrongProcess
  | unknown
  deriving DecidableEq

structure XrayObservedListener where
  runtimeTag : String
  network : String
  port : ℤ
  status : XrayListenerStatus
  errorCode : Option String
  deriving DecidableEq

structure XrayObservedError where
  code : String
  message : String
  generation : ℤ
  occurredAt : String
  deriving DecidableEq

structure XrayObservedState where
  schemaVersion : ℤ
  isInstalled : Bool
  installedVersion : Option String
  runningVersion : Option String
  serviceStatus : XrayServiceStatus
  processID : Option ℤ
  binarySHA256 : Option String
  appliedGeneration : ℤ
  appliedConfigHash : Option String
  listeners : List XrayObservedListener
  lastError : Option XrayObservedError
  observedAt : String
  deriving DecidableEq

/-- `json.Marshal`, which has no error for a type of this kind, and `sha256.Sum256`. -/
structure XrayHeartbeatTools where
  marshal : XrayObservedState → String
  sum256 : String → Fin 32 → UInt8

def encodeToString (hash : Fin 32 → UInt8) : String :=
  String.ofList ((List.ofFn hash).flatMap fun b => [Nat.digitChar (b.toNat / 16), Nat.digitChar (b.toNat % 16)])

def xrayObservedStateSignature (tools : XrayHeartbeatTools) (state : XrayObservedState) : String :=
  encodeToString (tools.sum256 (tools.marshal
    { state with
      observedAt := ""
      lastError := state.lastError.map fun lastError => { lastError with occurredAt := "" } }))

theorem encodeToString_ne_empty (hash : Fin 32 → UInt8) : encodeToString hash ≠ "" := by
  unfold encodeToString
  rw [ofFn_succ, flatMap_cons]
  intro hempty
  have hlength := congrArg String.length hempty
  simp at hlength

theorem xrayObservedStateSignature_ne_empty (tools : XrayHeartbeatTools) (state : XrayObservedState) :
    xrayObservedStateSignature tools state ≠ "" :=
  encodeToString_ne_empty _

/-! ## Reports -/

def xrayStateAuditInterval : ℤ := 10 * 60 * 1000000000

structure XrayHeartbeatReport where
  signature : String
  state : Option XrayObservedState
  requestGeneration : ℕ
  deriving DecidableEq

/-- The zero time is `none`. -/
structure XrayHeartbeatCache where
  lastSignature : String := ""
  lastFullReportedAt : Option ℤ := none
  requestGeneration : ℕ := 0
  committedRequestGeneration : ℕ := 0

/-- The two fields that the report adds to the heartbeat. -/
structure Payload where
  xrayStateSignature : Option String := none
  xrayState : Option XrayObservedState := none
  deriving DecidableEq

/-- `now.Sub(lastFullReportedAt) >= xrayStateAuditInterval`, or nothing was reported yet. -/
def XrayHeartbeatCache.auditDue (cache : XrayHeartbeatCache) (now : ℤ) : Bool :=
  match cache.lastFullReportedAt with
  | none => true
  | some lastFullReportedAt => xrayStateAuditInterval ≤ now - lastFullReportedAt

def xrayStateForHeartbeatAt (tools : XrayHeartbeatTools) (cache : XrayHeartbeatCache) (state : XrayObservedState)
    (now : ℤ) (force : Bool) : XrayHeartbeatReport :=
  let signature := xrayObservedStateSignature tools state
  let requestGeneration := cache.requestGeneration
  let sendFull := force || signature != cache.lastSignature ||
    decide (requestGeneration > cache.committedRequestGeneration) || cache.auditDue now
  { signature, state := if sendFull then some state else none, requestGeneration }

def appendXrayHeartbeatState (tools : XrayHeartbeatTools) (cache : XrayHeartbeatCache) (state : XrayObservedState)
    (now : ℤ) : XrayHeartbeatReport × Payload :=
  let report := xrayStateForHeartbeatAt tools cache state now false
  if report.signature = "" then (report, {})
  else (report, { xrayStateSignature := some report.signature, xrayState := report.state })

def commitXrayHeartbeatState (cache : XrayHeartbeatCache) (report : XrayHeartbeatReport) (reportedAt : ℤ) :
    XrayHeartbeatCache :=
  if report.signature = "" ∨ report.state = none then cache
  else
    { cache with
      lastSignature := report.signature
      lastFullReportedAt := some reportedAt
      committedRequestGeneration :=
        if report.requestGeneration > cache.committedRequestGeneration then report.requestGeneration
        else cache.committedRequestGeneration }

def requestXrayStateUpload (cache : XrayHeartbeatCache) : XrayHeartbeatCache :=
  { cache with requestGeneration := cache.requestGeneration + 1 }

/-! ## Heartbeats on their way -/

/-- A heartbeat that is observed, sent at a step of the clock, or over. -/
inductive Heartbeat where
  | observed (state : XrayObservedState)
  | sent (report : XrayHeartbeatReport) (payload : Payload) (builtAt : ℕ)
  | answered
  deriving DecidableEq

structure Committed where
  report : XrayHeartbeatReport
  builtAt : ℕ

/-- `requests` and `committed` are kept for the statements only, the newest first. -/
structure State where
  cache : XrayHeartbeatCache := {}
  heartbeats : List Heartbeat := []
  clock : ℕ := 0
  requests : List ℕ := []
  committed : List Committed := []

inductive Event where
  | request
  | observe (state : XrayObservedState)
  | build (i : ℕ) (now : ℤ)
  /-- The panel has answered. A heartbeat without an answer just stays. -/
  | commit (i : ℕ) (reportedAt : ℤ)

def State.act (tools : XrayHeartbeatTools) (s : State) : Event → State
  | .request => { s with cache := requestXrayStateUpload s.cache, requests := s.clock :: s.requests }
  | .observe state => { s with heartbeats := s.heartbeats ++ [.observed state] }
  | .build i now =>
    match s.heartbeats[i]? with
    | some (.observed state) =>
      let (report, payload) := appendXrayHeartbeatState tools s.cache state now
      { s with heartbeats := s.heartbeats.modify i fun _ => .sent report payload s.clock }
    | _ => s
  | .commit i reportedAt =>
    match s.heartbeats[i]? with
    | some (.sent report _ builtAt) =>
      { s with
        cache := commitXrayHeartbeatState s.cache report reportedAt
        heartbeats := s.heartbeats.modify i fun _ => .answered
        committed := if report.state = none then s.committed else ⟨report, builtAt⟩ :: s.committed }
    | _ => s

def State.step (tools : XrayHeartbeatTools) (s : State) (e : Event) : State :=
  { s.act tools e with clock := s.clock + 1 }

/-! ## What the cache knows -/

/-- The report was decided under the requests made before. -/
def State.Counted (s : State) (report : XrayHeartbeatReport) (builtAt : ℕ) : Prop :=
  builtAt < s.clock ∧ report.requestGeneration = s.requests.countP fun r => decide (r < builtAt)

structure Kept (s : State) : Prop where
  signature : s.cache.lastSignature = (s.committed.head?.map fun c => c.report.signature).getD ""
  requests : s.cache.requestGeneration = s.requests.length
  stamped : ∀ r ∈ s.requests, r < s.clock
  sent : ∀ report payload builtAt, .sent report payload builtAt ∈ s.heartbeats →
    report.signature ≠ "" ∧ s.Counted report builtAt
  committed : ∀ c ∈ s.committed, s.Counted c.report c.builtAt
  generation : s.cache.committedRequestGeneration = 0 ∨
    ∃ c ∈ s.committed, s.cache.committedRequestGeneration = c.report.requestGeneration

theorem kept_init : Kept {} where
  signature := rfl
  requests := rfl
  stamped := fun _ hmem => by cases hmem
  sent := fun _ _ _ hmem => by cases hmem
  committed := fun _ hmem => by cases hmem
  generation := .inl rfl

section

variable {tools : XrayHeartbeatTools} {s : State}

theorem State.Counted.later {report : XrayHeartbeatReport} {builtAt : ℕ} (h : s.Counted report builtAt) {s' : State}
    (hclock : s'.clock = s.clock + 1) (hrequests : s'.requests = s.requests ∨ s'.requests = s.clock :: s.requests) :
    s'.Counted report builtAt := by
  obtain ⟨hbuilt, hcount⟩ := h
  refine ⟨by omega, ?_⟩
  obtain hsame | hnew := hrequests
  · rw [hsame, hcount]
  · rw [hnew, hcount, countP_cons_of_neg]
    simp only [decide_eq_true_eq]
    omega

theorem xrayStateForHeartbeatAt_signature (cache : XrayHeartbeatCache) (state : XrayObservedState) (now : ℤ)
    (force : Bool) : (xrayStateForHeartbeatAt tools cache state now force).signature =
      xrayObservedStateSignature tools state := rfl

theorem appendXrayHeartbeatState_eq (cache : XrayHeartbeatCache) (state : XrayObservedState) (now : ℤ) :
    appendXrayHeartbeatState tools cache state now =
      (xrayStateForHeartbeatAt tools cache state now false,
        { xrayStateSignature := some (xrayObservedStateSignature tools state)
          xrayState := (xrayStateForHeartbeatAt tools cache state now false).state }) := by
  unfold appendXrayHeartbeatState
  dsimp only
  rw [xrayStateForHeartbeatAt_signature, if_neg (xrayObservedStateSignature_ne_empty tools state)]

section

variable (h : Kept s)

include h

theorem Kept.request : Kept (s.step tools .request) where
  signature := h.signature
  requests := congrArg (· + 1) h.requests
  stamped := by
    intro r hr
    show r < s.clock + 1
    obtain rfl | hold := mem_cons.mp hr
    · exact Nat.lt_succ_self _
    · exact Nat.lt_succ_of_lt (h.stamped r hold)
  sent := fun report payload builtAt hmem =>
    ⟨(h.sent report payload builtAt hmem).1, (h.sent report payload builtAt hmem).2.later rfl (.inr rfl)⟩
  committed := fun c hmem => (h.committed c hmem).later rfl (.inr rfl)
  generation := h.generation

theorem Kept.heartbeats {heartbeats : List Heartbeat}
    (hsent : ∀ report payload builtAt, .sent report payload builtAt ∈ heartbeats →
      .sent report payload builtAt ∈ s.heartbeats ∨ (report.signature ≠ "" ∧ builtAt = s.clock ∧
        report.requestGeneration = s.cache.requestGeneration)) :
    Kept { s with heartbeats := heartbeats, clock := s.clock + 1 } where
  signature := h.signature
  requests := h.requests
  stamped := fun r hr => Nat.lt_succ_of_lt (h.stamped r hr)
  sent := by
    intro report payload builtAt hmem
    obtain hold | ⟨hne, rfl, hgeneration⟩ := hsent report payload builtAt hmem
    · exact ⟨(h.sent report payload builtAt hold).1, (h.sent report payload builtAt hold).2.later rfl (.inl rfl)⟩
    · refine ⟨hne, Nat.lt_succ_self _, ?_⟩
      have hall : (s.requests.countP fun r => decide (r < s.clock)) = s.requests.length :=
        countP_eq_length.mpr fun r hr => decide_eq_true (h.stamped r hr)
      show report.requestGeneration = s.requests.countP fun r => decide (r < s.clock)
      rw [hall, hgeneration, h.requests]
  committed := fun c hmem => (h.committed c hmem).later rfl (.inl rfl)
  generation := h.generation

theorem Kept.observe (state : XrayObservedState) : Kept (s.step tools (.observe state)) := by
  refine h.heartbeats fun report payload builtAt hmem => ?_
  obtain hold | hnew := mem_append.mp hmem
  · exact .inl hold
  · cases mem_singleton.mp hnew

theorem Kept.build (i : ℕ) (now : ℤ) : Kept (s.step tools (.build i now)) := by
  unfold State.step State.act
  dsimp only
  split
  · rename_i state hstate
    rw [appendXrayHeartbeatState_eq]
    refine h.heartbeats fun report payload builtAt hmem => ?_
    obtain ⟨j, hj⟩ := mem_iff_getElem?.mp hmem
    obtain ⟨old, hold, heq⟩ := getElem?_modify_iff.mp hj
    by_cases hji : j = i
    · rw [if_pos hji] at heq
      obtain ⟨rfl, -, rfl⟩ := Heartbeat.sent.inj heq
      exact .inr ⟨xrayObservedStateSignature_ne_empty tools state, rfl, rfl⟩
    · rw [if_neg hji] at heq
      rw [heq]
      exact .inl (mem_of_getElem? hold)
  · exact h.heartbeats fun _ _ _ hmem => .inl hmem

theorem Kept.commit (i : ℕ) (reportedAt : ℤ) : Kept (s.step tools (.commit i reportedAt)) := by
  unfold State.step State.act
  dsimp only
  split
  · rename_i report payload builtAt hreport
    have hbeats : ∀ report payload builtAt,
        .sent report payload builtAt ∈ (s.heartbeats.modify i fun _ => .answered) →
        .sent report payload builtAt ∈ s.heartbeats := by
      intro report payload builtAt hmem
      obtain ⟨j, hj⟩ := mem_iff_getElem?.mp hmem
      obtain ⟨old, hold, heq⟩ := getElem?_modify_iff.mp hj
      by_cases hji : j = i
      · rw [if_pos hji] at heq
        cases heq
      · rw [if_neg hji] at heq
        rw [heq]
        exact mem_of_getElem? hold
    have hlater := h.heartbeats fun report payload builtAt hmem => .inl (hbeats report payload builtAt hmem)
    obtain ⟨hne, hcounted⟩ := h.sent report payload builtAt (mem_of_getElem? hreport)
    unfold commitXrayHeartbeatState
    by_cases hfull : report.state = none
    · rw [if_pos (.inr hfull), if_pos hfull]
      exact hlater
    · rw [if_neg (by simp only [hne, hfull, or_self, not_false_eq_true]), if_neg hfull]
      refine ⟨rfl, h.requests, hlater.stamped, hlater.sent, ?_, ?_⟩
      · intro c hmem
        obtain rfl | hold := mem_cons.mp hmem
        · exact hcounted.later rfl (.inl rfl)
        · exact (h.committed c hold).later rfl (.inl rfl)
      · dsimp only
        split
        · exact .inr ⟨_, mem_cons_self, rfl⟩
        · obtain hzero | ⟨c, hmem, hgeneration⟩ := h.generation
          · exact .inl hzero
          · exact .inr ⟨c, mem_cons_of_mem _ hmem, hgeneration⟩
  · exact h.heartbeats fun _ _ _ hmem => .inl hmem

theorem Kept.step (e : Event) : Kept (s.step tools e) := by
  cases e with
  | request => exact h.request
  | observe state => exact h.observe state
  | build i now => exact h.build i now
  | commit i reportedAt => exact h.commit i reportedAt

theorem Kept.behind {r : ℕ} (hr : r ∈ s.requests) (hafter : ∀ c ∈ s.committed, c.builtAt < r) :
    s.cache.committedRequestGeneration < s.cache.requestGeneration := by
  rw [h.requests]
  obtain hzero | ⟨c, hmem, hgeneration⟩ := h.generation
  · rw [hzero]
    exact length_pos_of_mem hr
  · rw [hgeneration, (h.committed c hmem).2]
    refine lt_of_le_of_ne countP_le_length fun hall => ?_
    have hbefore := of_decide_eq_true (countP_eq_length.mp hall r hr)
    have hbuilt := hafter c hmem
    omega

end

end

/-! ## Every run -/

/-- **The full state is sent again when needed.** Whatever heartbeats are on their way, in whatever
order the panel answers them, a heartbeat has the full state when some request came after the
decision of every full report committed so far, and when its signature is not that of the last one
committed. -/
theorem full_state_resent (tools : XrayHeartbeatTools) (events : List Event) (i : ℕ) (state : XrayObservedState)
    (now : ℤ) (hobserved : (run (State.step tools) {} events).heartbeats[i]? = some (.observed state))
    (hneeded :
      (∃ r ∈ (run (State.step tools) {} events).requests,
        ∀ c ∈ (run (State.step tools) {} events).committed, c.builtAt < r) ∨
      ((run (State.step tools) {} events).committed.head?.map fun c => c.report.signature) ≠
        some (xrayObservedStateSignature tools state)) :
    ∃ report payload,
      ((run (State.step tools) {} events).step tools (.build i now)).heartbeats[i]? =
          some (.sent report payload (run (State.step tools) {} events).clock) ∧
        payload.xrayStateSignature = some (xrayObservedStateSignature tools state) ∧
        payload.xrayState = some state ∧ report.state = some state := by
  have hkept : Kept (run (State.step tools) {} events) :=
    run_invariant (fun _ e h => h.step e) events _ kept_init
  generalize run (State.step tools) {} events = s at *
  have hfull : (xrayStateForHeartbeatAt tools s.cache state now false).state = some state := by
    refine if_pos ?_
    simp only [Bool.or_eq_true, bne_iff_ne, decide_eq_true_eq]
    obtain ⟨r, hr, hafter⟩ | hchanged := hneeded
    · exact .inl (.inr (hkept.behind hr hafter))
    · refine .inl (.inl (.inr fun hsame => ?_))
      rw [hkept.signature] at hsame
      cases hlast : s.committed.head?.map fun c => c.report.signature with
      | none =>
        rw [hlast] at hsame
        exact xrayObservedStateSignature_ne_empty tools state hsame
      | some last =>
        rw [hlast] at hsame hchanged
        exact hchanged (congrArg some hsame.symm)
  refine ⟨xrayStateForHeartbeatAt tools s.cache state now false,
    { xrayStateSignature := some (xrayObservedStateSignature tools state)
      xrayState := (xrayStateForHeartbeatAt tools s.cache state now false).state }, ?_, rfl, hfull, hfull⟩
  unfold State.step State.act
  dsimp only
  rw [hobserved]
  dsimp only
  rw [appendXrayHeartbeatState_eq]
  exact getElem?_modify_iff.mpr ⟨_, hobserved, (if_pos rfl).symm⟩

def idleState : XrayObservedState where
  schemaVersion := 1
  isInstalled := false
  installedVersion := none
  runningVersion := none
  serviceStatus := .stopped
  processID := none
  binarySHA256 := none
  appliedGeneration := 0
  appliedConfigHash := none
  listeners := []
  lastError := none
  observedAt := "2026-01-01T00:00:00Z"

/-- The text of `idleState` without its time, and the hash of it. -/
def idleTools : XrayHeartbeatTools where
  marshal _ :=
    "\x7b\"schemaVersion\":1,\"isInstalled\":false,\"installedVersion\":null,\"runningVersion\":null,\"se" ++
      "rviceStatus\":\"STOPPED\",\"processId\":null,\"binarySha256\":null,\"appliedGeneration\":0,\"applied" ++
      "ConfigHash\":null,\"listeners\":[],\"lastError\":null,\"observedAt\":\"\"\x7d"
  sum256 _ i := [47, 188, 54, 52, 105, 89, 123, 25, 124, 69, 150, 208, 152, 31, 244, 252, 107, 87, 78, 0, 120, 34,
    184, 163, 186, 243, 2, 142, 7, 54, 243, 239].getD i 0

theorem full_state_resent_requested :
    ∃ report payload,
      ((run (State.step idleTools) {} [.observe idleState, .build 0 0, .commit 0 1, .request,
          .observe idleState]).step idleTools (.build 1 2)).heartbeats[1]? = some (.sent report payload 5) ∧
        payload.xrayStateSignature = some (xrayObservedStateSignature idleTools idleState) ∧
        payload.xrayState = some idleState ∧ report.state = some idleState :=
  full_state_resent idleTools [.observe idleState, .build 0 0, .commit 0 1, .request, .observe idleState] 1
    idleState 2 (by decide +kernel) (.inl (by decide +kernel))

end ForwardX.Agent.XrayHeartbeat
