/-
Counting connections (`agent/metrics.go`): the totals that `conntrackConnectionsSnapshot` makes of
one conntrack table after the other, and what a collection reports of a rule whose connections come
from another source than before.

A run is a list of collections, each with what it finds. `counted_once_iff` says exactly when the
totals are right and no connection is reported from two sources.
-/
import Mathlib.Data.Finset.Card
import ForwardX.Agent.TrafficCounters
import ForwardX.Lib.GoText

namespace ForwardX.Agent

open GoText

/-! ## The conntrack table -/

structure OriginalTuple where
  protocol : Bytes := []
  sourceIP : Bytes := []
  targetIP : Bytes := []
  sourcePort : Bytes := []
  targetPort : Bytes := []

def fieldText (text : String) : Bytes := ascii text.toList

/-- The loop of `conntrackOriginalTuple` over the fields of a line. -/
def tupleOfFields (tuple : OriginalTuple) : List Bytes → OriginalTuple
  | [] => tuple
  | field :: rest =>
    if tuple.protocol = [] ∧ (field = fieldText "tcp" ∨ field = fieldText "udp") then
      tupleOfFields { tuple with protocol := field } rest
    else if tuple.sourceIP = [] ∧ fieldText "src=" <+: field then
      tupleOfFields { tuple with sourceIP := field.drop 4 } rest
    else if tuple.sourceIP ≠ [] ∧ tuple.targetIP = [] ∧ fieldText "dst=" <+: field then
      tupleOfFields { tuple with targetIP := field.drop 4 } rest
    else if tuple.targetIP ≠ [] ∧ tuple.sourcePort = [] ∧ fieldText "sport=" <+: field then
      tupleOfFields { tuple with sourcePort := field.drop 6 } rest
    -- the reply tuple of the line is not looked at
    else if tuple.sourcePort ≠ [] ∧ fieldText "dport=" <+: field then { tuple with targetPort := field.drop 6 }
    else tupleOfFields tuple rest

def conntrackOriginalTuple (line : Bytes) : Option OriginalTuple :=
  let tuple := tupleOfFields {} (fields line)
  if tuple.protocol ≠ [] ∧ tuple.sourceIP ≠ [] ∧ tuple.targetIP ≠ [] ∧ tuple.sourcePort ≠ [] ∧
      tuple.targetPort ≠ [] then some tuple
  else none

def Protocol.text : Protocol → Bytes
  | .tcp => fieldText "tcp"
  | .udp => fieldText "udp"

/-- `strings.Join` with a bar. -/
def OriginalTuple.flow (tuple : OriginalTuple) : Bytes :=
  (fieldText "|").intercalate
    [tuple.protocol, tuple.sourceIP, tuple.targetIP, tuple.sourcePort, tuple.targetPort]

/-- The watched ports and their protocols. -/
def collectableRuleTrafficProtocols (states : List LocalRuleState) (port : ℕ) : Option (List Protocol) :=
  match (collectableRuleTrafficStates states).filter fun state => state.port = port with
  | [] => none
  | found => some (found.flatMap fun state => state.protocols)

def parseConntrackFlowSnapshot (raw : Bytes) (protocolsByPort : ℕ → Option (List Protocol)) (port : ℕ) :
    Option (Finset Bytes) :=
  (protocolsByPort port).map fun protocols =>
    ((raw.splitOn 0x0A).filterMap fun line =>
      (conntrackOriginalTuple line).bind fun tuple =>
        if tuple.targetPort = itoa port ∧ tuple.protocol ∈ protocols.map Protocol.text then some tuple.flow
        else none).toFinset

/-! ## From one table to the next -/

/-- `conntrackFlowsByPort` and `conntrackTotalsByPort`. -/
structure ConntrackState where
  flowsByPort : ℕ → Option (Finset Bytes) := fun _ => none
  totalsByPort : ℕ → Option ℕ := fun _ => none

/-- The new totals; `total++` is of 64 bits. -/
def updateConntrackConnectionTotals (previous current : ℕ → Option (Finset Bytes))
    (existingTotals : ℕ → Option ℕ) (baselines : ℕ → ℕ) (protocolsByPort : ℕ → Option (List Protocol))
    (port : ℕ) : Option ℕ :=
  (protocolsByPort port).map fun _ =>
    let total := (existingTotals port).getD (baselines port)
    match previous port with
    | some previousFlows => (total + ((current port).getD ∅ \ previousFlows).card) % 2 ^ 64
    | none => total

def pruneConntrackState {α : Type} (protocolsByPort : ℕ → Option (List Protocol)) (m : ℕ → Option α)
    (port : ℕ) : Option α :=
  if (protocolsByPort port).isSome then m port else none

/-- The state and the totals afterwards; `table` is `none` when neither file can be read. -/
def conntrackConnectionsSnapshot (s : ConntrackState) (states : List LocalRuleState) (baselines : ℕ → ℕ)
    (table : Option Bytes) : ConntrackState × (ℕ → Option ℕ) :=
  let protocolsByPort := collectableRuleTrafficProtocols states
  if (collectableRuleTrafficStates states).isEmpty then ({}, fun _ => none)
  else match table with
    | none =>
      let totals port := (protocolsByPort port).map fun _ => (s.totalsByPort port).getD (baselines port)
      let filled port := (totals port).or (s.totalsByPort port)
      (⟨pruneConntrackState protocolsByPort s.flowsByPort, pruneConntrackState protocolsByPort filled⟩, totals)
    | some raw =>
      let current := parseConntrackFlowSnapshot raw protocolsByPort
      let totals :=
        updateConntrackConnectionTotals s.flowsByPort current s.totalsByPort baselines protocolsByPort
      (⟨current, totals⟩, totals)

/-! ## Collections -/

/-- The rules without a persistent counter. -/
def conntrackFallbackTrafficStates (states : List LocalRuleState) (snap : Snapshot) : List LocalRuleState :=
  states.filter fun state => processConnectionCounterSource state snap = .unset

/-- A connection to a port, and when it was opened. -/
structure Connection where
  protocol : Protocol
  opened : ℕ
  deriving DecidableEq

/-- What one collection finds: the rules, the answers of the kernel, the marks and the baselines,
the connections there were on a port, when the `:conn` counter of a protocol was installed, and
which of the connections were reported before. -/
structure Collection where
  states : List LocalRuleState
  snap : Snapshot
  fresh : ℕ → Bool
  nfConntrack : Option Bytes
  ipConntrack : Option Bytes
  previous : ℕ → TrafficPrevState
  connections : ℕ → List Connection
  installed : ℕ → Protocol → ℕ
  reported : ℕ → List Connection

namespace Collection

/-- The connections that the `:conn` counters of a rule counted: those opened since a counter of
their protocol is there. -/
def counted (c : Collection) (state : LocalRuleState) : List Connection :=
  (c.connections state.port).filter fun x =>
    x.protocol ∈ state.protocols ∧ c.installed state.port x.protocol ≤ x.opened

/-- The counters count, and what was reported was there. -/
structure Sound (c : Collection) : Prop where
  counts : ∀ state ∈ c.states, processConnectionCounterSource state c.snap ≠ .unset →
    (countersForRuleTrafficState state c.snap).connections = (c.counted state).length
  reported : ∀ port, c.reported port ⊆ c.connections port

def watched (c : Collection) : ℕ → Option (List Protocol) :=
  collectableRuleTrafficProtocols (conntrackFallbackTrafficStates c.states c.snap)

/-- The flows of a watched port, if the table can be read. -/
def flows (c : Collection) (port : ℕ) : Option (Finset Bytes) :=
  (c.nfConntrack.or c.ipConntrack).bind fun raw => parseConntrackFlowSnapshot raw c.watched port

def snapshot (s : ConntrackState) (c : Collection) : ConntrackState × (ℕ → Option ℕ) :=
  conntrackConnectionsSnapshot s (conntrackFallbackTrafficStates c.states c.snap)
    (fun port => (c.previous port).conns) (c.nfConntrack.or c.ipConntrack)

def run (cs : List Collection) : ConntrackState := cs.foldl (fun s c => (snapshot s c).1) {}

/-- The last connections of those that a counter counted, as many as are reported. -/
def delivered (before : List Collection) (c : Collection) (state : LocalRuleState) : List Connection :=
  let snap := { c.snap with connTotals := fun port => ((snapshot (run before) c).2 port).getD 0 }
  let stat := (collectRule snap state (c.fresh state.port) (c.previous state.port)).1
  (c.counted state).drop ((c.counted state).length - stat.connections)

/-! ## What is expected -/

/-- The flows of the last table that could be read since the port is watched. -/
def previousFlows (port : ℕ) (before : List Collection) : Option (Finset Bytes) :=
  before.foldl (fun last c => if (c.watched port).isSome then (c.flows port).or last else none) none

def growth : Option (Finset Bytes) → Option (Finset Bytes) → ℕ
  | some now, some previous => (now \ previous).card
  | _, _ => 0

/-- The baseline of the port is one of the same rule, and the source that is read now is
another one, or a counter that starts anew. -/
def ChangesSource (c : Collection) (state : LocalRuleState) : Prop :=
  0 < (c.previous state.port).ruleID ∧ (c.previous state.port).ruleID = state.ruleID ∧
    (c.previous state.port).connSource ≠ .unset ∧
    ((c.previous state.port).connSource ≠ (connectionCounterForTrafficState state c.snap).2 ∨
      isPersistentProcessConnectionSource (connectionCounterForTrafficState state c.snap).2 = true ∧
        c.fresh state.port = true)

instance (c : Collection) (state : LocalRuleState) : Decidable (c.ChangesSource state) :=
  inferInstanceAs (Decidable (_ ∧ _ ∧ _ ∧ (_ ∨ _ ∧ _)))

/-- What a collection makes of the totals before it, and of a change of source. -/
structure CountedOnce (before : List Collection) (c : Collection) : Prop where
  entered : ∀ port, (c.watched port).isSome → ((before.getLast?.bind fun last => last.watched port) = none) →
    (snapshot (run before) c).2 port = some (c.previous port).conns
  stays : ∀ port last, (c.watched port).isSome → before.getLast? = some last → (last.watched port).isSome →
    ∃ total next, (snapshot (run before.dropLast) last).2 port = some total ∧
      (snapshot (run before) c).2 port = some next ∧ total ≤ next ∧
      next = total + growth (c.flows port) (previousFlows port before)
  once : ∀ state ∈ c.states, c.ChangesSource state → ∀ x ∈ delivered before c state, x ∉ c.reported state.port

/-- A persistent counter takes over from conntrack, or starts anew. -/
def TakesOver (c : Collection) (state : LocalRuleState) : Prop :=
  c.ChangesSource state ∧ processConnectionCounterSource state c.snap ≠ .unset ∧
    ((c.previous state.port).connSource = .conntrack ∨ c.fresh state.port = true)

/-- No total reaches `2 ^ 64`, and a counter that takes over was installed after the connections of
its protocol that are already reported. -/
structure Meets (before : List Collection) (c : Collection) : Prop where
  fits : ∀ port total now previous, (run before).totalsByPort port = some total → c.flows port = some now →
    previousFlows port before = some previous → total + (now \ previous).card < 2 ^ 64
  installed : ∀ state ∈ c.states, c.TakesOver state → ∀ x ∈ c.reported state.port,
    x.protocol ∈ state.protocols → x.opened < c.installed state.port x.protocol

/-! ## What a snapshot does to a port -/

section

variable (s : ConntrackState) (c : Collection) (port : ℕ)

theorem watched_of_flows {now : Finset Bytes} (h : c.flows port = some now) : (c.watched port).isSome := by
  obtain ⟨raw, -, hraw⟩ := Option.bind_eq_some_iff.1 h
  obtain ⟨protocols, hwatched, -⟩ := Option.map_eq_some_iff.1 hraw
  rw [hwatched]
  rfl

/-- The total of a watched port that had `total`. -/
def grow (total : ℕ) : Option (Finset Bytes) → Option (Finset Bytes) → ℕ
  | some now, some previous => (total + (now \ previous).card) % 2 ^ 64
  | _, _ => total

theorem snapshot_spec :
    (snapshot s c).1.flowsByPort port =
        (if (c.watched port).isSome then (c.flows port).or (s.flowsByPort port) else none) ∧
      (snapshot s c).1.totalsByPort port = (snapshot s c).2 port ∧
      (snapshot s c).2 port = (c.watched port).map fun _ =>
        grow ((s.totalsByPort port).getD (c.previous port).conns) (c.flows port) (s.flowsByPort port) := by
  unfold snapshot conntrackConnectionsSnapshot
  by_cases hempty :
      (collectableRuleTrafficStates (conntrackFallbackTrafficStates c.states c.snap)).isEmpty = true
  · have hnone : c.watched port = none := by
      rw [List.isEmpty_iff] at hempty
      simp [watched, collectableRuleTrafficProtocols, hempty]
    rw [if_pos hempty, hnone]
    exact ⟨rfl, rfl, rfl⟩
  · rw [if_neg hempty]
    unfold flows
    cases htable : c.nfConntrack.or c.ipConntrack with
    | none =>
      cases hwatched : c.watched port <;>
        simp only [watched] at hwatched <;> simp [pruneConntrackState, hwatched, grow]
    | some raw =>
      cases hwatched : c.watched port with
      | none =>
        simp only [watched] at hwatched
        simp [parseConntrackFlowSnapshot, updateConntrackConnectionTotals, hwatched]
      | some protocols =>
        simp only [watched] at hwatched
        simp only [Option.bind_some, parseConntrackFlowSnapshot, updateConntrackConnectionTotals, hwatched]
        cases s.flowsByPort port <;> simp [grow, hwatched, watched]

end

theorem run_append (before : List Collection) (c : Collection) :
    run (before ++ [c]) = (snapshot (run before) c).1 := by
  simp [run]

theorem flowsByPort_run (before : List Collection) (port : ℕ) :
    (run before).flowsByPort port = previousFlows port before := by
  induction before using List.reverseRecOn with
  | nil => rfl
  | append_singleton before c ih =>
    rw [run_append, (snapshot_spec _ c port).1, ih, previousFlows, previousFlows, List.foldl_append]
    rfl

/-- The totals that are kept are those of the last snapshot. -/
theorem totalsByPort_run (before : List Collection) (port : ℕ) :
    (run before).totalsByPort port
      = before.getLast?.bind fun last => (snapshot (run before.dropLast) last).2 port := by
  cases before using List.reverseRecOn with
  | nil => rfl
  | append_singleton before c =>
    rw [run_append, (snapshot_spec _ c port).2.1, List.getLast?_concat, List.dropLast_concat]
    rfl

variable {before : List Collection} {c last : Collection} {port : ℕ}

theorem totals_entered (hwatched : (c.watched port).isSome)
    (hbefore : (before.getLast?.bind fun last => last.watched port) = none) :
    (snapshot (run before) c).2 port = some (c.previous port).conns := by
  obtain ⟨protocols, hprotocols⟩ := Option.isSome_iff_exists.1 hwatched
  have hgone : (run before).totalsByPort port = none ∧ (run before).flowsByPort port = none := by
    cases before using List.reverseRecOn with
    | nil => exact ⟨rfl, rfl⟩
    | append_singleton before last =>
      rw [List.getLast?_concat, Option.bind_some] at hbefore
      obtain ⟨hflows, htotals, hout⟩ := snapshot_spec (run before) last port
      rw [run_append, htotals, hout, hflows, hbefore]
      exact ⟨rfl, rfl⟩
  rw [(snapshot_spec _ c port).2.2, hprotocols, hgone.1, hgone.2]
  cases c.flows port <;> rfl

theorem totals_stays (hwatched : (c.watched port).isSome) (hlast : before.getLast? = some last)
    (hbefore : (last.watched port).isSome) :
    ∃ total, (run before).totalsByPort port = some total ∧
      (snapshot (run before.dropLast) last).2 port = some total ∧
      (snapshot (run before) c).2 port = some (grow total (c.flows port) (previousFlows port before)) := by
  obtain ⟨protocols, hprotocols⟩ := Option.isSome_iff_exists.1 hwatched
  obtain ⟨protocols', hprotocols'⟩ := Option.isSome_iff_exists.1 hbefore
  have hout := (snapshot_spec (run before.dropLast) last port).2.2
  rw [hprotocols', Option.map_some] at hout
  have htotal := totalsByPort_run before port
  rw [hlast, Option.bind_some, hout] at htotal
  refine ⟨_, htotal, hout, ?_⟩
  rw [(snapshot_spec _ c port).2.2, hprotocols, htotal, flowsByPort_run before]
  rfl

/-! ## What a change of source reports -/

section

variable {state : LocalRuleState}

/-- With a baseline of the same rule the row has the difference to the baseline that
`prepareConnectionCounterBaseline` chooses. -/
theorem collectRule_connections {snap : Snapshot} {fresh : Bool} {previous : TrafficPrevState}
    (hpos : 0 < previous.ruleID) (hrule : previous.ruleID = state.ruleID) :
    (collectRule snap state fresh previous).1.connections
      = delta (prepareConnectionCounterBaseline state previous (connectionCounterForTrafficState state snap).1
          (connectionCounterForTrafficState state snap).2 fresh).1
        (prepareConnectionCounterBaseline state previous (connectionCounterForTrafficState state snap).1
          (connectionCounterForTrafficState state snap).2 fresh).2.2 := by
  have hinitial : initialBaseline state previous = false := by
    simp [initialBaseline, hrule, hrule ▸ hpos]
  simp [collectRule, hinitial]

theorem persistent_of_ne_unset {source : TrafficConnectionSource} (hset : source ≠ .unset)
    (hconntrack : source ≠ .conntrack) : isPersistentProcessConnectionSource source = true := by
  cases source <;> first | rfl | contradiction

theorem source_ne_conntrack (state : LocalRuleState) (snap : Snapshot) : processConnectionCounterSource state snap ≠ .conntrack := by
  unfold processConnectionCounterSource
  split_ifs <;> simp

theorem counter_of_persistent (h : processConnectionCounterSource state c.snap ≠ .unset) {totals : ℕ → ℕ} :
    connectionCounterForTrafficState state { c.snap with connTotals := totals }
      = ((countersForRuleTrafficState state c.snap).connections, processConnectionCounterSource state c.snap) :=
  if_pos h

theorem delivered_of_takesOver (hsound : c.Sound) (hmem : state ∈ c.states) (htakes : c.TakesOver state) :
    delivered before c state = c.counted state := by
  obtain ⟨⟨hpos, hrule, hset, hchange⟩, hpersistent, hepoch⟩ := htakes
  have htotal := hsound.counts state hmem hpersistent
  have hkind := persistent_of_ne_unset hpersistent (source_ne_conntrack state c.snap)
  simp only [connectionCounterForTrafficState, if_pos hpersistent] at hchange
  -- the new counter is compared with nothing
  have hbaseline : prepareConnectionCounterBaseline state (c.previous state.port)
      (countersForRuleTrafficState state c.snap).connections (processConnectionCounterSource state c.snap)
      (c.fresh state.port) = ((c.counted state).length, processConnectionCounterSource state c.snap, 0) := by
    unfold prepareConnectionCounterBaseline
    rw [if_neg fun h => source_ne_conntrack state c.snap h.2.2, htotal, hkind]
    cases hfresh : c.fresh state.port with
    | true => simp
    | false =>
      have hconntrack : (c.previous state.port).connSource = .conntrack := by simpa [hfresh] using hepoch
      have hother := (source_ne_conntrack state c.snap).symm
      simp [hconntrack, hrule, hrule ▸ hpos, hother]
  dsimp only [delivered]
  rw [collectRule_connections hpos hrule, counter_of_persistent hpersistent, hbaseline]
  simp [delta]

theorem delivered_eq_nil (hchanges : c.ChangesSource state) (htakes : ¬ c.TakesOver state) :
    delivered before c state = [] := by
  obtain ⟨hpos, hrule, hset, hchange⟩ := id hchanges
  have hzero : ∀ totals, (collectRule { c.snap with connTotals := totals } state (c.fresh state.port)
      (c.previous state.port)).1.connections = 0 := by
    intro totals
    rw [collectRule_connections hpos hrule]
    by_cases hpersistent : processConnectionCounterSource state c.snap = .unset
    · have hcounter : connectionCounterForTrafficState state { c.snap with connTotals := totals }
          = (totals state.port, .conntrack) := if_neg (not_not.2 hpersistent)
      have hother : (c.previous state.port).connSource ≠ .conntrack := by
        simpa [connectionCounterForTrafficState, hpersistent, isPersistentProcessConnectionSource] using hchange
      have hepoch : ¬ (isPersistentProcessConnectionSource .conntrack && c.fresh state.port) = true := by
        simp [isPersistentProcessConnectionSource]
      rw [hcounter, prepareConnectionCounterBaseline]
      by_cases hfreeze : state.family = .process ∧
          isPersistentProcessConnectionSource (c.previous state.port).connSource ∧
          TrafficConnectionSource.conntrack = .conntrack
      · rw [if_pos hfreeze]
        exact delta_self _
      · rw [if_neg hfreeze, if_pos ⟨hpos, hrule, hset, hother, hepoch⟩, if_neg fun h => hother h.1]
        exact delta_self _
    · have hneither : (c.previous state.port).connSource ≠ .conntrack ∧ c.fresh state.port = false := by
        by_contra h
        refine htakes ⟨hchanges, hpersistent, ?_⟩
        rcases not_and_or.1 h with h | h
        · exact .inl (not_not.1 h)
        · exact .inr (by simpa using h)
      have hother : (c.previous state.port).connSource ≠ processConnectionCounterSource state c.snap := by
        simpa [connectionCounterForTrafficState, hpersistent, hneither.2] using hchange
      rw [counter_of_persistent hpersistent, prepareConnectionCounterBaseline, hneither.2,
        if_neg fun h => source_ne_conntrack state c.snap h.2.2, if_pos ⟨hpos, hrule, hset, hother, by simp⟩, if_neg fun h => hneither.1 h.1]
      exact delta_self _
  dsimp only [delivered]
  rw [hzero, Nat.sub_zero, List.drop_length]

end

/-! ## The runs -/

theorem growth_eq {total next : ℕ} {now previous : Option (Finset Bytes)} (h : grow total now previous = next)
    (hfits : ∀ a b, now = some a → previous = some b → total + (a \ b).card < 2 ^ 64) :
    next = total + growth now previous := by
  subst h
  cases now with
  | none => rfl
  | some a =>
    cases previous with
    | none => rfl
    | some b => exact Nat.mod_eq_of_lt (hfits a b rfl rfl)

theorem countedOnce_iff_meets (hsound : c.Sound) :
    CountedOnce before c ↔ Meets before c := by
  constructor
  · intro h
    constructor
    · intro port total now previous htotal hnow hprevious
      rw [totalsByPort_run, Option.bind_eq_some_iff] at htotal
      obtain ⟨last, hlast, hout⟩ := htotal
      have hbefore : (last.watched port).isSome := by
        rw [(snapshot_spec _ last port).2.2] at hout
        cases hwatched : last.watched port with
        | none => simp [hwatched] at hout
        | some protocols => rfl
      have hwatched := watched_of_flows c port hnow
      obtain ⟨total', next, hout', hnext, -, heq⟩ := h.stays port last hwatched hlast hbefore
      obtain ⟨total'', -, hout'', hgrow⟩ := totals_stays hwatched hlast hbefore
      obtain rfl := Option.some.inj (hout.symm.trans hout')
      obtain rfl := Option.some.inj (hout.symm.trans hout'')
      rw [hnext, hnow, hprevious, Option.some.injEq] at hgrow
      rw [hnow, hprevious] at heq
      calc total + (now \ previous).card = next := heq.symm
        _ = (total + (now \ previous).card) % 2 ^ 64 := hgrow
        _ < 2 ^ 64 := Nat.mod_lt _ (by decide)
    · intro state hmem htakes x hx hprotocol
      by_contra hearlier
      refine h.once state hmem htakes.1 x ?_ hx
      rw [delivered_of_takesOver hsound hmem htakes]
      exact List.mem_filter.2 ⟨hsound.reported _ hx, by simpa using ⟨hprotocol, not_lt.1 hearlier⟩⟩
  · intro h
    refine ⟨fun port hwatched hbefore => totals_entered hwatched hbefore, ?_, ?_⟩
    · intro port last hwatched hlast hbefore
      obtain ⟨total, htotal, hout, hnext⟩ := totals_stays hwatched hlast hbefore
      have heq := growth_eq rfl fun a b ha hb => h.fits port total a b htotal ha hb
      exact ⟨total, _, hout, hnext, heq ▸ Nat.le_add_right _ _, heq⟩
    · intro state hmem hchanges x hx hreported
      by_cases htakes : c.TakesOver state
      · rw [delivered_of_takesOver hsound hmem htakes, counted, List.mem_filter, decide_eq_true_eq] at hx
        exact absurd (h.installed state hmem htakes x hreported hx.2.1) (not_lt.2 hx.2.2)
      · rw [delivered_eq_nil hchanges htakes] at hx
        cases hx

/-- **Connections are counted once exactly in the runs whose counters are new when they take
over**, as long as no total wraps. -/
theorem counted_once_iff (cs : List Collection) (hsound : ∀ c ∈ cs, c.Sound) :
    (∀ before c after, cs = before ++ c :: after → CountedOnce before c) ↔
      ∀ before c after, cs = before ++ c :: after → Meets before c := by
  have hmem : ∀ before c after, cs = before ++ c :: after → c.Sound := by
    rintro before c after rfl
    exact hsound c (by simp)
  constructor
  · intro h before c after heq
    exact (countedOnce_iff_meets (hmem before c after heq)).1 (h before c after heq)
  · intro h before c after heq
    exact (countedOnce_iff_meets (hmem before c after heq)).2 (h before c after heq)

/-! ## A counter that was there before -/

/-- A rule for both protocols; `udp` says whether the counter of its udp connections is there. The
other counter of its connections always is. -/
def bothProtocols : LocalRuleState :=
  { family := .process, protocols := [.tcp, .udp], target := .ipv4, port := 443, ruleID := 7 }

def kernel (udp : Bool) : Snapshot where
  settings _ := bothProtocols.toRuleSettings
  iptablesCounters _ := {}
  nftCounters _ := {}
  nftProcessCounters _ := { connections := 1 }
  iptablesMarkers _ := false
  ip6tablesMarkers _ := false
  nftProcessMarkers
    | .counter _ .udp .conn => udp
    | _ => true
  connTotals _ := 0

/-- The client's tcp connection, of which the table has this line. -/
def client : Connection := ⟨.tcp, 1⟩

def clientLine : Bytes :=
  fieldText "ipv4 2 tcp 6 src=10.0.0.2 dst=10.0.0.1 sport=5000 dport=443 src=10.0.0.1 dst=10.0.0.2"

def idle : Collection where
  states := [bothProtocols]
  snap := kernel false
  fresh _ := false
  nfConntrack := some []
  ipConntrack := none
  previous _ := { ruleID := 7, connSource := .conntrack }
  connections _ := []
  installed _ _ := 0
  reported _ := []

def connected : Collection :=
  { idle with nfConntrack := some clientLine, connections := fun _ => [client] }

/-- The udp counter was installed at time 2. -/
def repaired : Collection :=
  { connected with
    snap := kernel true
    fresh := fun _ => true
    previous := fun _ => { ruleID := 7, conns := 1, connSource := .conntrack }
    installed := fun _ => fun | .tcp => 0 | .udp => 2
    reported := fun _ => [client] }

def halfInstalled : List Collection := [idle, connected, repaired]

theorem sound_halfInstalled : ∀ c ∈ halfInstalled, c.Sound := by
  simp only [halfInstalled, List.forall_mem_cons]
  refine ⟨⟨?_, fun _ => List.Subset.refl _⟩, ⟨?_, fun _ => List.nil_subset _⟩,
    ⟨?_, fun _ => List.Subset.refl _⟩, nofun⟩ <;>
    rintro state hmem hset <;> obtain rfl := List.mem_singleton.1 hmem
  · exact absurd (by decide +kernel) hset
  · exact absurd (by decide +kernel) hset
  · decide +kernel

theorem counted_once_half_installed :
    (∀ before c after, halfInstalled = before ++ c :: after → CountedOnce before c) ↔
      ∀ before c after, halfInstalled = before ++ c :: after → Meets before c :=
  counted_once_iff halfInstalled sound_halfInstalled

/-- **A connection is reported from both sources**: the tcp counter counted it while conntrack
reported it, since only the udp counter was missing. -/
theorem connection_reported_twice : (∀ c ∈ halfInstalled, c.Sound) ∧
    (snapshot (run [idle]) connected).2 443 = some 1 ∧
    ¬ ∀ before c after, halfInstalled = before ++ c :: after → CountedOnce before c := by
  refine ⟨sound_halfInstalled, by decide +kernel, fun h => ?_⟩
  have honce := (h [idle, connected] repaired [] rfl).once bothProtocols (List.mem_singleton_self _)
  exact honce (by decide +kernel) client (by decide +kernel) (by decide +kernel)

end Collection

end ForwardX.Agent
