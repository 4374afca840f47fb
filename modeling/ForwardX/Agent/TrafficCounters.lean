/-
The per-rule part of `collectTraffic` (`agent/metrics.go`): which kernel counter a rule is read
from, what was used since the previous baseline, and which baseline replaces it.
-/
import ForwardX.Lib.GoMap
import Mathlib.Data.List.Sort

namespace ForwardX.Agent

/-! ## Counters, baselines and statistics -/

/-- The two byte counts every record here carries. -/
inductive Direction where
  | inbound
  | outbound
  deriving DecidableEq

structure TrafficCounters where
  bytesIn : ℕ := 0
  bytesOut : ℕ := 0
  connections : ℕ := 0

/-- The three `trafficConnectionSource…` texts, and the empty one of a baseline
that was never written. -/
inductive TrafficConnectionSource where
  | unset
  | conntrack
  | processNFT
  | processIptables
  deriving DecidableEq

def normalizeTrafficConnectionSource : TrafficConnectionSource → TrafficConnectionSource
  | .unset => .conntrack
  | source => source

def isPersistentProcessConnectionSource (source : TrafficConnectionSource) : Bool :=
  source == .processNFT || source == .processIptables

structure TrafficPrevState where
  ruleID : ℤ := 0
  bytesIn : ℕ := 0
  bytesOut : ℕ := 0
  conns : ℕ := 0
  connSource : TrafficConnectionSource := .unset
  deriving DecidableEq

def TrafficPrevState.normalized (v : TrafficPrevState) : TrafficPrevState :=
  { v with connSource := normalizeTrafficConnectionSource v.connSource }

structure TrafficStat where
  ruleID : ℤ
  bytesIn : ℕ
  bytesOut : ℕ
  connections : ℕ
  deriving DecidableEq

def TrafficCounters.bytes (c : TrafficCounters) : Direction → ℕ
  | .inbound => c.bytesIn
  | .outbound => c.bytesOut

def TrafficPrevState.bytes (v : TrafficPrevState) : Direction → ℕ
  | .inbound => v.bytesIn
  | .outbound => v.bytesOut

def TrafficStat.bytes (stat : TrafficStat) : Direction → ℕ
  | .inbound => stat.bytesIn
  | .outbound => stat.bytesOut

@[simp] theorem normalized_ruleID (v : TrafficPrevState) : v.normalized.ruleID = v.ruleID := rfl

@[simp] theorem normalized_bytes (v : TrafficPrevState) (d : Direction) : v.normalized.bytes d = v.bytes d := by
  cases d <;> rfl

@[simp] theorem normalized_normalized (v : TrafficPrevState) : v.normalized.normalized = v.normalized := by
  obtain ⟨ruleID, bytesIn, bytesOut, conns, source⟩ := v
  cases source <;> rfl

/-! ## The rules of the host -/

/-- `trafficCounterFamilyForForwardType`, applied to the rule's forward type. -/
inductive TrafficCounterFamily where
  | none
  | iptables
  | nativeNFT
  | process
  deriving DecidableEq

inductive Protocol where
  | tcp
  | udp
  deriving DecidableEq

/-- What `countingLayoutPresentForTrafficState` finds out about the target:
`other` is a target that is no address, or has no port. -/
inductive TargetAddress where
  | other
  | ipv4
  | ipv6

/-- The settings of a rule, from the desired rules or its state files. They may
differ from one collection to the next. -/
structure RuleSettings where
  family : TrafficCounterFamily
  protocols : List Protocol
  target : TargetAddress

structure LocalRuleState extends RuleSettings where
  port : ℕ
  ruleID : ℤ

def validTrafficReportIdentity (identity : String) : Bool :=
  identity.toList.length == 64 && identity.toList.all fun c => c.isDigit || ('a' ≤ c && c ≤ 'f')

/-- The agent's host: the identity its reports belong to, and the content of the
`port_PORT.rule` files. A rule id that does not parse reads as 0. -/
structure Host where
  identity : String
  identity_valid : validTrafficReportIdentity identity = true
  ruleFiles : GoMap ℕ ℤ

def shouldCollectRuleTraffic (state : LocalRuleState) : Bool :=
  decide (0 < state.ruleID) && decide (0 < state.port) && state.family != .none

/-- The order of `sort.Slice`: by rule id, then by the text of the port. -/
def LocalRuleState.before (a b : LocalRuleState) : Prop :=
  if a.ruleID ≠ b.ruleID then a.ruleID < b.ruleID else toString a.port ≤ toString b.port

instance (a b : LocalRuleState) : Decidable (a.before b) :=
  inferInstanceAs (Decidable (ite _ _ _))

def readLocalRuleStates (h : Host) (settings : ℕ → RuleSettings) : List LocalRuleState :=
  (h.ruleFiles.entries.map fun e =>
    { settings e.1 with port := e.1, ruleID := e.2 : LocalRuleState }).insertionSort
    LocalRuleState.before

def collectableRuleTrafficStates (states : List LocalRuleState) : List LocalRuleState :=
  states.filter shouldCollectRuleTraffic

/-! ## One reading of the kernel -/

/-- The three counters of a process rule: `PORT:PROTOCOL:in`, `…:out`, `…:conn`. -/
inductive MarkerPart where
  | inbound
  | outbound
  | conn
  deriving DecidableEq

inductive Marker where
  | port (port : ℕ)
  | counter (port : ℕ) (protocol : Protocol) (part : MarkerPart)
  deriving DecidableEq

/-- What the backends answer in one collection, with the settings of the rules
at that time. A missing key of a counter map reads as zero. -/
structure Snapshot where
  settings : ℕ → RuleSettings
  iptablesCounters : ℕ → TrafficCounters
  nftCounters : ℤ → TrafficCounters
  nftProcessCounters : ℕ → TrafficCounters
  iptablesMarkers : Marker → Bool
  ip6tablesMarkers : Marker → Bool
  nftProcessMarkers : Marker → Bool
  connTotals : ℕ → ℕ

/-- Both byte counters of every protocol of the rule are there. -/
def hasCompleteLayout (state : LocalRuleState) (markers : Marker → Bool) : Bool :=
  state.protocols.all fun protocol =>
    markers (.counter state.port protocol .inbound) &&
      markers (.counter state.port protocol .outbound)

def hasCompleteNftProcessLayout (state : LocalRuleState) (markers : Marker → Bool) : Bool :=
  hasCompleteLayout state markers

def hasCompleteIptablesProcessLayout (state : LocalRuleState) (markers : Marker → Bool) : Bool :=
  hasCompleteLayout state markers

def hasCompleteProcessConnectionLayout (state : LocalRuleState) (markers : Marker → Bool) : Bool :=
  state.protocols.all fun protocol => markers (.counter state.port protocol .conn)

def processConnectionCounterSource (state : LocalRuleState) (snap : Snapshot) : TrafficConnectionSource :=
  if state.family ≠ .process then .unset
  else if hasCompleteNftProcessLayout state snap.nftProcessMarkers then
    if hasCompleteProcessConnectionLayout state snap.nftProcessMarkers then .processNFT else .unset
  else if (hasCompleteIptablesProcessLayout state snap.iptablesMarkers &&
        hasCompleteProcessConnectionLayout state snap.iptablesMarkers) ||
      (hasCompleteIptablesProcessLayout state snap.ip6tablesMarkers &&
        hasCompleteProcessConnectionLayout state snap.ip6tablesMarkers) then .processIptables
  else .unset

def countersForRuleTrafficState (state : LocalRuleState) (snap : Snapshot) : TrafficCounters :=
  match state.family with
  | .iptables => snap.iptablesCounters state.port
  | .nativeNFT => snap.nftCounters state.ruleID
  | .process =>
    if hasCompleteNftProcessLayout state snap.nftProcessMarkers then
      snap.nftProcessCounters state.port
    else snap.iptablesCounters state.port
  | .none => {}

def countingLayoutPresentForTrafficState (state : LocalRuleState) (snap : Snapshot) : Bool :=
  match state.family with
  | .iptables =>
    match state.target with
    | .other => true
    | .ipv6 => snap.ip6tablesMarkers (.port state.port)
    | .ipv4 => snap.iptablesMarkers (.port state.port)
  | .process =>
    hasCompleteNftProcessLayout state snap.nftProcessMarkers ||
      hasCompleteIptablesProcessLayout state snap.iptablesMarkers ||
      hasCompleteIptablesProcessLayout state snap.ip6tablesMarkers
  | _ => true

def connectionCounterForTrafficState (state : LocalRuleState) (snap : Snapshot) : ℕ × TrafficConnectionSource :=
  let source := processConnectionCounterSource state snap
  if source ≠ .unset then ((countersForRuleTrafficState state snap).connections, source)
  else (snap.connTotals state.port, .conntrack)

/-! ## From a reading to a row of the report -/

/-- `delta`: a counter below its baseline was reset. -/
def delta (cur prev : ℕ) : ℕ := if prev ≤ cur then cur - prev else cur

/-- The connection total, its source, and the baseline it is compared with.
`fresh` is `freshProcessConnectionCounter`. -/
def prepareConnectionCounterBaseline (state : LocalRuleState) (previous : TrafficPrevState)
    (total : ℕ) (source : TrafficConnectionSource) (fresh : Bool) :
    ℕ × TrafficConnectionSource × ℕ :=
  let freshCounterEpoch := isPersistentProcessConnectionSource source && fresh
  if state.family = .process ∧ isPersistentProcessConnectionSource previous.connSource ∧
      source = .conntrack then
    -- the kernel marker is missing for now: connections stand still
    (previous.conns, previous.connSource, previous.conns)
  else if 0 < previous.ruleID ∧ previous.ruleID = state.ruleID ∧ previous.connSource ≠ .unset ∧
      previous.connSource ≠ source ∧ ¬ freshCounterEpoch then
    if previous.connSource = .conntrack ∧ isPersistentProcessConnectionSource source then
      (total, source, 0)
    else (total, source, total)
  else (total, source, if freshCounterEpoch then 0 else previous.conns)

def initialBaseline (state : LocalRuleState) (previous : TrafficPrevState) : Bool :=
  decide (previous.ruleID ≤ 0) || previous.ruleID != state.ruleID

/-- The body of the loop over the rules, up to the decision what to do with the
result: the row for the report, and the baseline that goes with it. -/
def collectRule (snap : Snapshot) (state : LocalRuleState) (fresh : Bool)
    (previous : TrafficPrevState) : TrafficStat × TrafficPrevState :=
  let counters := countersForRuleTrafficState state snap
  let initial := initialBaseline state previous
  let prevIn := if initial then counters.bytesIn else previous.bytesIn
  let prevOut := if initial then counters.bytesOut else previous.bytesOut
  let (total, source) := connectionCounterForTrafficState state snap
  let (connectionTotal, connectionSource, prevConns) :=
    prepareConnectionCounterBaseline state previous total source fresh
  let countFreshInitialConnections :=
    initial && isPersistentProcessConnectionSource connectionSource && fresh
  let dconns := if initial && !countFreshInitialConnections then 0
    else delta connectionTotal prevConns
  (⟨state.ruleID, delta counters.bytesIn prevIn, delta counters.bytesOut prevOut, dconns⟩,
   ⟨state.ruleID, counters.bytesIn, counters.bytesOut, connectionTotal, connectionSource⟩)

/-- `din > 0 || dout > 0 || dconns > 0`. -/
def TrafficStat.hasTraffic (stat : TrafficStat) : Bool :=
  decide (0 < stat.bytesIn) || decide (0 < stat.bytesOut) || decide (0 < stat.connections)

/-! ## What a row says -/

section

variable (snap : Snapshot) (state : LocalRuleState) (fresh : Bool) (previous : TrafficPrevState)

@[simp] theorem collectRule_next_bytes (d : Direction) :
    (collectRule snap state fresh previous).2.bytes d
      = (countersForRuleTrafficState state snap).bytes d := by
  cases d <;> rfl

theorem collectRule_stat_bytes (d : Direction) :
    (collectRule snap state fresh previous).1.bytes d
      = delta ((countersForRuleTrafficState state snap).bytes d)
          (if initialBaseline state previous
            then (countersForRuleTrafficState state snap).bytes d else previous.bytes d) := by
  cases d <;> rfl

end

@[simp] theorem delta_self (n : ℕ) : delta n n = 0 := by simp [delta]

theorem add_delta {cur prev : ℕ} (h : prev ≤ cur) : prev + delta cur prev = cur := by
  rw [delta, if_pos h]
  omega

variable {state : LocalRuleState} {previous : TrafficPrevState}

theorem collectRule_bytes_of_initial {snap : Snapshot} {fresh : Bool}
    (h : initialBaseline state previous = true) (d : Direction) :
    (collectRule snap state fresh previous).1.bytes d = 0 := by
  rw [collectRule_stat_bytes, if_pos h, delta_self]

theorem collectRule_bytes_of_measured {snap : Snapshot} {fresh : Bool}
    (h : initialBaseline state previous = false) (d : Direction)
    (hmono : previous.bytes d ≤ (countersForRuleTrafficState state snap).bytes d) :
    (collectRule snap state fresh previous).2.bytes d
      = previous.bytes d + (collectRule snap state fresh previous).1.bytes d := by
  rw [collectRule_stat_bytes, if_neg (by rw [h]; exact Bool.false_ne_true),
    collectRule_next_bytes, add_delta hmono]

theorem bytes_eq_zero_of_not_hasTraffic {stat : TrafficStat} (h : stat.hasTraffic = false)
    (d : Direction) : stat.bytes d = 0 := by
  simp only [TrafficStat.hasTraffic, Bool.or_eq_false_iff, decide_eq_false_iff_not,
    Nat.not_lt, Nat.le_zero] at h
  cases d
  · exact h.1.1
  · exact h.1.2

/-! ## The rules a collection looks at -/

theorem ruleFile_of_mem_collectable {h : Host} {settings : ℕ → RuleSettings} :
    state ∈ collectableRuleTrafficStates (readLocalRuleStates h settings) →
      h.ruleFiles.lookup state.port = some state.ruleID ∧ 0 < state.ruleID := by
  intro hmem
  obtain ⟨hread, hcollect⟩ := List.mem_filter.mp hmem
  rw [readLocalRuleStates, List.mem_insertionSort, List.mem_map] at hread
  obtain ⟨e, he, rfl⟩ := hread
  simp only [shouldCollectRuleTraffic, Bool.and_eq_true, decide_eq_true_eq] at hcollect
  exact ⟨GoMap.lookup_eq_some_iff.mpr he, hcollect.1.1⟩

theorem nodup_collectable (h : Host) (settings : ℕ → RuleSettings) :
    ((collectableRuleTrafficStates (readLocalRuleStates h settings)).map
      (·.port)).Nodup := by
  have hkeys : ((h.ruleFiles.entries.map fun e =>
      { settings e.1 with port := e.1, ruleID := e.2 : LocalRuleState }).map (·.port)).Nodup := by
    rw [List.map_map]
    exact h.ruleFiles.nodupKeys
  have hperm := (List.perm_insertionSort LocalRuleState.before (h.ruleFiles.entries.map fun e =>
    { settings e.1 with port := e.1, ruleID := e.2 : LocalRuleState })).map (·.port)
  exact ((hperm.nodup_iff).mpr hkeys).sublist (List.filter_sublist.map _)

end ForwardX.Agent
