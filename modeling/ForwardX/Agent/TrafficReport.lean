/-
`collectTraffic` (`agent/metrics.go`) with the files it writes and the panel it posts to, as one
state machine.
-/
import ForwardX.Agent.TrafficCounters
import ForwardX.Lib.GoText
import ForwardX.Lib.Run
import Mathlib.Algebra.BigOperators.Group.Finset.Basic
import Mathlib.Algebra.GroupWithZero.Nat

namespace ForwardX.Agent

open Run

/-! ## Reports -/

structure TrafficBaselineUpdate where
  port : ℕ
  state : TrafficPrevState

structure PersistedTrafficBaseline where
  port : ℕ
  ruleID : ℤ
  bytesIn : ℕ
  bytesOut : ℕ
  conns : ℕ
  connSource : TrafficConnectionSource

/-- The request body. `compact` selects the keys `s` and `h` with rows as
arrays, over `stats` and `hostTraffic` with rows as objects. -/
structure TrafficPayload where
  compact : Bool
  stats : List TrafficStat
  hostTraffic : Option (ℕ × ℕ)
  reportID : String
  reportProducerID : String
  deriving DecidableEq

structure PendingTrafficReport where
  payload : TrafficPayload
  baselines : List PersistedTrafficBaseline
  identity : String
  hasRuleTraffic : Bool
  hasHostTraffic : Bool
  statCount : ℕ

def persistedTrafficBaselines (updates : List TrafficBaselineUpdate) : List PersistedTrafficBaseline :=
  updates.map fun u =>
    ⟨u.port, u.state.ruleID, u.state.bytesIn, u.state.bytesOut, u.state.conns, u.state.connSource⟩

def pendingTrafficBaselineUpdates (baselines : List PersistedTrafficBaseline) : List TrafficBaselineUpdate :=
  (baselines.filter fun b => decide (0 < b.ruleID)).map fun b =>
    ⟨b.port, TrafficPrevState.normalized
      ⟨b.ruleID, b.bytesIn, b.bytesOut, b.conns, b.connSource⟩⟩

abbrev PendingTrafficReport.updates (report : PendingTrafficReport) : List TrafficBaselineUpdate :=
  pendingTrafficBaselineUpdates report.baselines

/-! ## `validatePendingTrafficReport` -/

def trafficReportString (value : String) : Bool :=
  value != "" && !(value.toList.head?.any GoText.isSpace) && !(value.toList.getLast?.any GoText.isSpace)

def trafficReportProducerID (identity : String) : String := "agent-" ++ identity

/-- The loop over the baselines. `ruleIDs` are the rules of the rows that no
baseline has been found for yet. -/
def validateBaselines : List PersistedTrafficBaseline → List ℕ → List ℤ → Except String Unit
  | [], _, [] => .ok ()
  | [], _, _ :: _ => .error "traffic report baseline rules do not match payload"
  | b :: bs, ports, ruleIDs =>
    if b.port = 0 ∨ 65535 < b.port then .error "traffic report baseline port is invalid"
    else if b.port ∈ ports then
      .error ("traffic report contains duplicate baseline port " ++ toString b.port)
    else if b.ruleID ≤ 0 ∨ b.ruleID ∉ ruleIDs then
      .error "traffic report baseline rule does not match payload"
    else validateBaselines bs (b.port :: ports) (ruleIDs.erase b.ruleID)

def validatePendingTrafficReport (report : PendingTrafficReport) : Except String Unit :=
  let ruleIDs := report.payload.stats.map (·.ruleID)
  if ¬ validTrafficReportIdentity report.identity then
    .error "traffic report identity is invalid"
  else if ¬ trafficReportString report.payload.reportID ∨
      128 < report.payload.reportID.utf8ByteSize then .error "traffic report id is invalid"
  else if ¬ trafficReportString report.payload.reportProducerID ∨
      128 < report.payload.reportProducerID.utf8ByteSize ∨
      report.payload.reportProducerID ≠ trafficReportProducerID report.identity then
    .error "traffic report producer id is invalid"
  -- `pendingTrafficPayloadSummary`: in typed rows only a rule id can be out of range
  else if ∃ id ∈ ruleIDs, id ≤ 0 then
    .error (if report.payload.compact then "traffic report compact stats contains invalid counters"
      else "traffic report stats contains invalid counters")
  else if report.statCount ≠ ruleIDs.length ∨ report.statCount ≠ report.baselines.length then
    .error "traffic report stats and baselines do not match"
  else if report.hasRuleTraffic ≠ decide (0 < report.statCount) ∨
      report.hasHostTraffic ≠ report.payload.hostTraffic.isSome then
    .error "traffic report content flags do not match payload"
  else if report.statCount = 0 ∧ ¬ report.hasHostTraffic then
    .error "traffic report has no traffic payload"
  else validateBaselines report.baselines [] ruleIDs

/-! ## The agent, its disk and the panel -/

inductive FileResult where
  | ok
  | failed

/-- Where a call of `collectTraffic` stands; `idle` is between two calls. -/
inductive Phase where
  | idle
  /-- `clearTrafficBaselinesForIdentityChange`, with the baseline files still to
  remove; `adopt` when `ensureTrafficReportIdentity` asked for it. -/
  | clearing (snap : Snapshot) (rest : List ℕ) (adopt : Bool)
  /-- The identity file is about to be written. -/
  | identifying (snap : Snapshot)
  /-- The loop over the rules, with what it has collected so far. -/
  | sampling (snap : Snapshot) (rest : List LocalRuleState) (stats : List TrafficStat)
      (pendingBaselines : List TrafficBaselineUpdate)
  /-- `postToPanelURL` has been called. -/
  | posting (report : PendingTrafficReport)
  /-- `completePendingTrafficReport`, with the baselines still to write. -/
  | committing (report : PendingTrafficReport) (rest : List TrafficBaselineUpdate)

structure State where
  -- on disk
  prevFiles : GoMap ℕ TrafficPrevState
  pendingFile : Option PendingTrafficReport
  identityFile : Option String
  -- in the process
  trafficPrevCache : GoMap ℕ TrafficPrevState
  freshProcessConnRule : GoMap ℕ ℤ
  lastRuleTrafficReportAt : Option ℤ
  lastHostTrafficReportAt : Option ℤ
  phase : Phase
  /-- The byte counters of the rule on each port. -/
  kernel : ℕ → Direction → ℕ
  /-- Every request ever sent, arrived or not. -/
  sent : List TrafficPayload
  /-- The reports the panel has credited. -/
  credited : List TrafficPayload

abbrev State.creditedIDs (s : State) : List String := s.credited.map (·.reportID)

/-! ## Baseline files and their cache -/

def State.prevFile (s : State) (port : ℕ) : TrafficPrevState := (s.prevFiles.lookup port).getD {}

def readPrevState (s : State) (port : ℕ) : TrafficPrevState × State :=
  match s.trafficPrevCache.lookup port with
  | some cached => (cached, s)
  | none =>
    (s.prevFile port, { s with trafficPrevCache := s.trafficPrevCache.insert port (s.prevFile port) })

def freshProcessConnectionCounter (s : State) (port : ℕ) (ruleID : ℤ) : Bool :=
  decide (0 < ruleID) && s.freshProcessConnRule.lookup port == some ruleID

def clearFreshProcessConnectionCounter (s : State) (port : ℕ) (ruleID : ℤ) : State :=
  if ruleID ≤ 0 ∨ s.freshProcessConnRule.lookup port = some ruleID then
    { s with freshProcessConnRule := s.freshProcessConnRule.erase port }
  else s

def writePrevState (s : State) (port : ℕ) (next : TrafficPrevState) (w : FileResult) : State × Bool :=
  let next := next.normalized
  let clear (s : State) : State :=
    if isPersistentProcessConnectionSource next.connSource then
      clearFreshProcessConnectionCounter s port next.ruleID else s
  if s.trafficPrevCache.lookup port = some next then (clear s, true)
  else match w with
    | .failed => (s, false)
    | .ok => (clear { s with
        prevFiles := s.prevFiles.insert port next
        trafficPrevCache := s.trafficPrevCache.insert port next }, true)

/-! ## The steps of `collectTraffic` -/

def startSampling (h : Host) (snap : Snapshot) (s : State) : State :=
  let states := collectableRuleTrafficStates (readLocalRuleStates h snap.settings)
  { s with phase := .sampling snap states [] [] }

def postToPanel (report : PendingTrafficReport) (s : State) : State :=
  { s with sent := s.sent ++ [report.payload], phase := .posting report }

def loadPendingTrafficReport (h : Host) (snap : Snapshot) (s : State) : State :=
  match s.pendingFile with
  | none => startSampling h snap s
  | some report =>
    match validatePendingTrafficReport report with
    | .error _ => { s with phase := .idle }
    | .ok _ =>
      if report.identity ≠ h.identity then
        { s with phase := .clearing snap (s.prevFiles.entries.map (·.1)) false }
      else postToPanel report s

/-- `collectTraffic` up to the first thing that takes time. -/
def startCollect (h : Host) (snap : Snapshot) (s : State) : State :=
  match s.phase with
  | .idle =>
    if s.identityFile = some h.identity then loadPendingTrafficReport h snap s
    else { s with phase := .clearing snap (s.prevFiles.entries.map (·.1)) true }
  | _ => s

/-- One removal of `clearTrafficBaselinesForIdentityChange`; the pending report
is the last, and takes the memory with it. -/
def clearTrafficBaselines (h : Host) (w : FileResult) (s : State) : State :=
  match s.phase, w with
  | .clearing _ _ _, .failed => { s with phase := .idle }
  | .clearing snap (port :: rest) adopt, .ok =>
    { s with prevFiles := s.prevFiles.erase port, phase := .clearing snap rest adopt }
  | .clearing snap [] adopt, .ok =>
    let s := { s with
      pendingFile := none, trafficPrevCache := ∅, freshProcessConnRule := ∅
      lastRuleTrafficReportAt := none, lastHostTrafficReportAt := none }
    if adopt then { s with phase := .identifying snap } else startSampling h snap s
  | _, _ => s

def writeIdentity (h : Host) (w : FileResult) (s : State) : State :=
  match s.phase, w with
  | .identifying _, .failed => { s with phase := .idle }
  | .identifying snap, .ok =>
    loadPendingTrafficReport h snap { s with identityFile := some h.identity }
  | _, _ => s

def sampleRule (w : FileResult) (s : State) : State :=
  match s.phase with
  | .sampling snap (state :: rest) stats pendingBaselines =>
    if ¬ countingLayoutPresentForTrafficState state snap then
      { s with phase := .sampling snap rest stats pendingBaselines }
    else
      let (previous, s) := readPrevState s state.port
      let fresh := freshProcessConnectionCounter s state.port state.ruleID
      let (stat, nextBaseline) := collectRule snap state fresh previous
      if stat.hasTraffic then
        let pendingBaselines := pendingBaselines ++ [⟨state.port, nextBaseline⟩]
        { s with phase := .sampling snap rest (stats ++ [stat]) pendingBaselines }
      else
        -- an error is logged only
        { (writePrevState s state.port nextBaseline w).1 with
            phase := .sampling snap rest stats pendingBaselines }
  | _ => s

/-- What the clock, the counters of the host and the generator of ids answer
when the loop is over. -/
structure Answers where
  now : ℤ
  activeInterval : ℤ
  compact : Bool
  hostTrafficSnapshot : ℕ × ℕ
  newTrafficReportID : String

def idleHostTrafficReportEvery : ℤ := 5 * 60 * 1000000000

def shouldReportRuleTraffic (s : State) (statCount : ℕ) (a : Answers) : Bool :=
  decide (0 < statCount) &&
    s.lastRuleTrafficReportAt.all fun last => decide (a.activeInterval ≤ a.now - last)

def shouldIncludeHostTraffic (s : State) (reportingRuleTraffic : Bool) (a : Answers) : Bool :=
  reportingRuleTraffic ||
    s.lastHostTrafficReportAt.all fun last => decide (idleHostTrafficReportEvery ≤ a.now - last)

/-- The report over the rows of the loop. All of them go into it, also when only
the traffic of the host is due. -/
def newPendingReport (h : Host) (a : Answers) (hostTraffic : Option (ℕ × ℕ))
    (stats : List TrafficStat) (pendingBaselines : List TrafficBaselineUpdate) :
    PendingTrafficReport where
  payload := ⟨a.compact, stats, hostTraffic, a.newTrafficReportID,
    trafficReportProducerID h.identity⟩
  baselines := persistedTrafficBaselines pendingBaselines
  identity := h.identity
  hasRuleTraffic := decide (0 < stats.length)
  hasHostTraffic := hostTraffic.isSome
  statCount := stats.length

/-- After the loop: the report is saved before it is sent, or there is none. -/
def finishSampling (h : Host) (a : Answers) (w : FileResult) (s : State) : State :=
  match s.phase with
  | .sampling _ [] stats pendingBaselines =>
    let reportRuleTraffic := shouldReportRuleTraffic s stats.length a
    let hostTraffic :=
      if shouldIncludeHostTraffic s reportRuleTraffic a then some a.hostTrafficSnapshot else none
    if reportRuleTraffic || hostTraffic.isSome then
      let pending := newPendingReport h a hostTraffic stats pendingBaselines
      match validatePendingTrafficReport pending, w with
      | .ok _, .ok => postToPanel pending { s with pendingFile := some pending }
      | _, _ => { s with phase := .idle }
    else { s with phase := .idle }
  | _ => s

/-- The updates whose rule still owns its port, or the error that stops
`completePendingTrafficReport`. -/
def currentUpdates (h : Host) :
    List TrafficBaselineUpdate → Except String (List TrafficBaselineUpdate)
  | [] => .ok []
  | u :: us =>
    match h.ruleFiles.lookup u.port with
    | none => currentUpdates h us
    | some currentRuleID =>
      if currentRuleID ≤ 0 then
        .error ("read current traffic rule port " ++ toString u.port ++ ": invalid rule id")
      else match currentUpdates h us with
        | .error e => .error e
        | .ok rest => .ok (if currentRuleID = u.state.ruleID then u :: rest else rest)

/-- The answer of the panel arrives; `completePendingTrafficReport` up to its
first write. There is no answer to a report that was not credited. -/
def receiveAnswer (h : Host) (s : State) : State :=
  match s.phase with
  | .posting report =>
    if report.payload.reportID ∈ s.creditedIDs then
      match validatePendingTrafficReport report, currentUpdates h report.updates with
      | .ok _, .ok updates => { s with phase := .committing report updates }
      | _, _ => { s with phase := .idle }
    else s
  | _ => s

def failPost (s : State) : State :=
  match s.phase with
  | .posting _ => { s with phase := .idle }
  | _ => s

def commitBaseline (w : FileResult) (s : State) : State :=
  match s.phase with
  | .committing report (u :: rest) =>
    match writePrevState s u.port u.state w with
    | (s, true) => { s with phase := .committing report rest }
    | (s, false) => { s with phase := .idle }
  | _ => s

def removePending (now : ℤ) (w : FileResult) (s : State) : State :=
  match s.phase, w with
  | .committing report [], .ok =>
    { s with
      pendingFile := none
      lastRuleTrafficReportAt := if report.hasRuleTraffic then some now else s.lastRuleTrafficReportAt
      lastHostTrafficReportAt := if report.hasHostTraffic then some now else s.lastHostTrafficReportAt
      phase := .idle }
  | .committing _ [], .failed => { s with phase := .idle }
  | _, _ => s

/-! ## The other parties -/

/-- A request arrives at the panel, for the first time or again. -/
def deliver (payload : TrafficPayload) (s : State) : State :=
  if payload ∈ s.sent ∧ payload.reportID ∉ s.creditedIDs then
    { s with credited := s.credited ++ [payload] }
  else s

def countBytes (port : ℕ) (d : Direction) (n : ℕ) (s : State) : State :=
  { s with kernel := fun p d' => if p = port ∧ d' = d then s.kernel p d' + n else s.kernel p d' }

def markFreshProcessConnectionCounter (port : ℕ) (ruleID : ℤ) (s : State) : State :=
  if port = 0 ∨ ruleID ≤ 0 then s
  else { s with freshProcessConnRule := s.freshProcessConnRule.insert port ruleID }

def restart (s : State) : State :=
  { s with
    trafficPrevCache := ∅, freshProcessConnRule := ∅
    lastRuleTrafficReportAt := none, lastHostTrafficReportAt := none, phase := .idle }

/-! ## Totals -/

/-- The committed baseline of the rule on `port`: what its file holds, unless
that belongs to no rule or to another one. -/
def committedBaseline (h : Host) (port : ℕ) (s : State) : Option TrafficPrevState :=
  let v := s.prevFile port
  if 0 < v.ruleID ∧ h.ruleFiles.lookup port = some v.ruleID then some v else none

def baselineBytes (v : Option TrafficPrevState) (d : Direction) : ℕ := v.elim 0 (·.bytes d)

def rulePorts (h : Host) (ruleID : ℤ) : Finset ℕ :=
  ((h.ruleFiles.entries.filter fun e => decide (e.2 = ruleID)).map (·.1)).toFinset

def TrafficPayload.bytesOf (payload : TrafficPayload) (ruleID : ℤ) (d : Direction) : ℕ :=
  (payload.stats.map fun stat => if stat.ruleID = ruleID then stat.bytes d else 0).sum

def creditedBytes (s : State) (ruleID : ℤ) (d : Direction) : ℕ :=
  (s.credited.map (·.bytesOf ruleID d)).sum

/-! ## Runs -/

inductive Event where
  | startCollect (snap : Snapshot)
  | clearTrafficBaselines (w : FileResult)
  | writeIdentity (w : FileResult)
  | sampleRule (w : FileResult)
  | finishSampling (a : Answers) (w : FileResult)
  | receiveAnswer
  | failPost
  | commitBaseline (w : FileResult)
  | removePending (now : ℤ) (w : FileResult)
  | deliver (payload : TrafficPayload)
  | countBytes (port : ℕ) (d : Direction) (n : ℕ)
  | markFresh (port : ℕ) (ruleID : ℤ)
  | restart

def step (h : Host) (s : State) : Event → State
  | .startCollect snap => startCollect h snap s
  | .clearTrafficBaselines w => clearTrafficBaselines h w s
  | .writeIdentity w => writeIdentity h w s
  | .sampleRule w => sampleRule w s
  | .finishSampling a w => finishSampling h a w s
  | .receiveAnswer => receiveAnswer h s
  | .failPost => failPost s
  | .commitBaseline w => commitBaseline w s
  | .removePending now w => removePending now w s
  | .deliver payload => deliver payload s
  | .countBytes port d n => countBytes port d n s
  | .markFresh port ruleID => markFreshProcessConnectionCounter port ruleID s
  | .restart => restart s

/-- What the agent relies on: a counter that is read shows what the kernel has
counted, and a new report id was never sent before. -/
def Reliable (h : Host) (s : State) : Event → Prop
  | .startCollect snap =>
    ∀ state ∈ collectableRuleTrafficStates (readLocalRuleStates h snap.settings),
      countingLayoutPresentForTrafficState state snap = true →
        ∀ d, (countersForRuleTrafficState state snap).bytes d = s.kernel state.port d
  | .finishSampling a _ => ∀ payload ∈ s.sent, payload.reportID ≠ a.newTrafficReportID
  | _ => True

/-- A freshly started agent that has never reported. Its baselines were read
from the counters of the same kernel. -/
structure State.IsStart (h : Host) (s : State) : Prop where
  identity : s.identityFile = some h.identity
  pendingFile : s.pendingFile = none
  cache : s.trafficPrevCache = ∅
  phase : s.phase = .idle
  sent : s.sent = []
  credited : s.credited = []
  kernel : ∀ port v, committedBaseline h port s = some v → ∀ d, v.bytes d ≤ s.kernel port d

end ForwardX.Agent
