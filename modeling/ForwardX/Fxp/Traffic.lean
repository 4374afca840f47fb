/-
The traffic reporter of `forwardx-fxp/traffic.go`: counters that are batched per producer, sent to
the panel in numbered reports, and taken off the books when a report is acknowledged.

What is enqueued while a report is on its way waits for the next one, and a report that was not
acknowledged is sent again as it was. The ledger of `Lib/Ledger` keeps the books: increments
waiting, reported and acknowledged.
-/
import ForwardX.Lib.Run
import ForwardX.Lib.GoMap
import ForwardX.Lib.GoText
import ForwardX.Lib.Ledger

namespace ForwardX.Fxp

open Run Ledger List
open GoText.Runes (trimSpace)

/-! ## Configuration and keys -/

abbrev GoString := List Char

/-- The fields of `config` that the reporter reads. -/
structure TrafficConfig where
  PanelURL : GoString
  Token : GoString
  Role : GoString
  TunnelID : ℤ
  RuleID : ℤ
  ListenPort : ℤ

structure TrafficBatchKey where
  panelURL : GoString
  token : GoString
  producerID : GoString
  deriving DecidableEq

def TrafficConfig.panelURL (cfg : TrafficConfig) : GoString :=
  (trimSpace cfg.PanelURL).rdropWhile (· == '/')

/-- The string `fxpTrafficProducerID` hashes. -/
def TrafficConfig.identity (cfg : TrafficConfig) : GoString :=
  cfg.panelURL ++ '\x00' :: trimSpace cfg.Token ++ '\x00' :: (trimSpace cfg.Role).map Char.toLower
    ++ '\x00' :: (toString cfg.TunnelID).toList ++ '\x00' :: (toString cfg.RuleID).toList
    ++ '\x00' :: (toString cfg.ListenPort).toList

/-- `fxpTrafficProducerID`, over the hexadecimal SHA-256 digest `sum256`. -/
def fxpTrafficProducerID (sum256 : GoString → GoString) (cfg : TrafficConfig) : GoString :=
  ['f', 'x', 'p', '-'] ++ sum256 cfg.identity

/-! ## Counters -/

structure TrafficBatchValue where
  bytesIn : UInt64
  bytesOut : UInt64
  connections : UInt64
  deriving DecidableEq

/-- The three counters of a value, so that each is treated once. -/
inductive Counter where
  | bytesIn
  | bytesOut
  | connections
  deriving DecidableEq

def TrafficBatchValue.get (v : TrafficBatchValue) : Counter → UInt64
  | .bytesIn => v.bytesIn
  | .bytesOut => v.bytesOut
  | .connections => v.connections

def TrafficBatchValue.zero : TrafficBatchValue := ⟨0, 0, 0⟩

def TrafficBatchValue.add (v w : TrafficBatchValue) : TrafficBatchValue :=
  ⟨v.bytesIn + w.bytesIn, v.bytesOut + w.bytesOut, v.connections + w.connections⟩

/-- The subtraction of `acknowledgeTrafficBatch`, clamped at zero. -/
def clampSub (current value : UInt64) : UInt64 := if current ≥ value then current - value else 0

def TrafficBatchValue.clampSub (v w : TrafficBatchValue) : TrafficBatchValue :=
  ⟨Fxp.clampSub v.bytesIn w.bytesIn, Fxp.clampSub v.bytesOut w.bytesOut,
    Fxp.clampSub v.connections w.connections⟩

/-- `value.bytesIn > 0 || value.bytesOut > 0 || value.connections > 0`. -/
def TrafficBatchValue.positive (v : TrafficBatchValue) : Bool :=
  v.bytesIn > 0 || v.bytesOut > 0 || v.connections > 0

/-! ## The reporter's maps -/

abbrev ByRule := GoMap ℤ TrafficBatchValue

def ByRule.value (m : ByRule) (ruleID : ℤ) : TrafficBatchValue :=
  (m.lookup ruleID).getD .zero

structure PendingTrafficBatch where
  reportID : GoString
  byRule : ByRule

structure TrafficState where
  trafficBatches : GoMap TrafficBatchKey ByRule
  trafficPendingReports : GoMap TrafficBatchKey PendingTrafficBatch

def TrafficState.new : TrafficState := ⟨∅, ∅⟩

/-- The batch of a key; a missing one reads as the empty map. -/
def TrafficState.batch (s : TrafficState) (key : TrafficBatchKey) : ByRule :=
  (s.trafficBatches.lookup key).getD ∅

structure Increment where
  key : TrafficBatchKey
  ruleID : ℤ
  value : TrafficBatchValue

/-- The checks of `enqueueTraffic`: nothing to count, or a configuration without
panel, token or rule, is dropped. -/
def acceptTraffic (sum256 : GoString → GoString) (cfg : TrafficConfig) (bytesIn bytesOut : UInt64)
    (connectionDeltas : List UInt64) : Option Increment :=
  let panelURL := cfg.panelURL
  let token := trimSpace cfg.Token
  let connections := connectionDeltas.headD 0
  if bytesIn = 0 ∧ bytesOut = 0 ∧ connections = 0 then none
  else if panelURL = [] ∨ token = [] ∨ cfg.RuleID ≤ 0 then none
  else some ⟨⟨panelURL, token, fxpTrafficProducerID sum256 cfg⟩, cfg.RuleID,
    ⟨bytesIn, bytesOut, connections⟩⟩

/-- The locked part of `enqueueTraffic`. -/
def TrafficState.addTraffic (s : TrafficState) (x : Increment) : TrafficState :=
  let byRule := s.batch x.key
  let current := byRule.value x.ruleID
  { s with trafficBatches :=
      s.trafficBatches.insert x.key (byRule.insert x.ruleID (current.add x.value)) }

/-- The loop body of `acknowledgeTrafficBatch`. -/
def acknowledgeRule (byRule : ByRule) (ruleID : ℤ) (value : TrafficBatchValue) : ByRule :=
  match byRule.lookup ruleID with
  | none => byRule
  | some current =>
    let current := current.clampSub value
    if current = .zero then byRule.erase ruleID else byRule.insert ruleID current

def acknowledgeTrafficBatch (s : TrafficState) (key : TrafficBatchKey) (sent : ByRule) : TrafficState :=
  let byRule := sent.foldl acknowledgeRule (s.batch key)
  { trafficPendingReports := s.trafficPendingReports.erase key
    trafficBatches :=
      if byRule.entries = [] then s.trafficBatches.erase key
      else s.trafficBatches.insert key byRule }

/-! ## The snapshot of a flush -/

/-- The snapshot loop: the maps, how many report ids were drawn, and `out`. -/
structure Snapshot where
  st : TrafficState
  drawn : ℕ
  out : GoMap TrafficBatchKey PendingTrafficBatch

/-- One key of `trafficBatchPendingSnapshot`. `newID n` is the `n`-th result of
`newFXPTrafficReportID` in this process. -/
def Snapshot.visit (newID : ℕ → GoString) (c : Snapshot) (key : TrafficBatchKey) : Snapshot :=
  let pending := (c.st.trafficPendingReports.lookup key).getD ⟨[], ∅⟩
  if pending.byRule.entries.length > 0 then { c with out := c.out.insert key pending }
  else
    let copy := GoMap.filter (fun _ v => v.positive) (c.st.batch key)
    if copy.entries.length > 0 then
      let pending : PendingTrafficBatch := ⟨newID c.drawn, copy⟩
      { st := { c.st with trafficPendingReports := c.st.trafficPendingReports.insert key pending }
        drawn := c.drawn + 1
        out := c.out.insert key pending }
    else c

/-- The keys `trafficBatchPendingSnapshot` collects, in an order it may range
over them. -/
def TrafficState.rangesOver (s : TrafficState) (order : List TrafficBatchKey) : Bool :=
  decide (order.Nodup ∧ (∀ key ∈ s.trafficBatches.keys ++ s.trafficPendingReports.keys,
    key ∈ order) ∧ ∀ key ∈ order, key ∈ s.trafficBatches.keys ++ s.trafficPendingReports.keys)

/-! ## The reporter as a machine -/

/-- One call of `postTrafficBatch` and whether the panel accepted it. -/
structure Post where
  key : TrafficBatchKey
  report : PendingTrafficBatch
  accepted : Bool

/-- The reporter with its history. `flush` is what a running flush still has to
post, `none` while `trafficBatchFlushMu` is free; `log` and `posts` record the
accepted increments and, newest first, the posts. -/
structure Reporter where
  st : TrafficState
  drawn : ℕ
  flush : Option (GoMap TrafficBatchKey PendingTrafficBatch)
  log : List Increment
  posts : List Post

def Reporter.new : Reporter := ⟨.new, 0, none, [], []⟩

inductive TrafficEvent where
  | enqueue (cfg : TrafficConfig) (bytesIn bytesOut : UInt64) (connectionDeltas : List UInt64)
  | snapshot (order : List TrafficBatchKey)
  | post (key : TrafficBatchKey) (accepted : Bool)
  | endFlush

/-- One step. A step that the locks or the loop of `flushTrafficBatches` do not
allow now changes nothing. -/
def Reporter.step (sum256 : GoString → GoString) (newID : ℕ → GoString) (t : Reporter) :
    TrafficEvent → Reporter
  | .enqueue cfg bytesIn bytesOut connectionDeltas =>
    match acceptTraffic sum256 cfg bytesIn bytesOut connectionDeltas with
    | none => t
    | some x => { t with st := t.st.addTraffic x, log := t.log ++ [x] }
  | .snapshot order =>
    if t.flush.isNone = true ∧ t.st.rangesOver order = true then
      let c := order.foldl (Snapshot.visit newID) ⟨t.st, t.drawn, ∅⟩
      { t with st := c.st, drawn := c.drawn, flush := some c.out }
    else t
  | .post key accepted =>
    match t.flush with
    | none => t
    | some out =>
      match out.lookup key with
      | none => t
      | some pending =>
        { t with
          st := if accepted then acknowledgeTrafficBatch t.st key pending.byRule else t.st
          flush := some (out.erase key)
          posts := ⟨key, pending, accepted⟩ :: t.posts }
  | .endFlush =>
    match t.flush with
    | none => t
    | some out => if out.entries = [] then { t with flush := none } else t

/-! ## One counter of one rule

Every map operation is characterized by what it does to `value ruleID` and there
to one counter. -/

@[simp] theorem TrafficBatchValue.get_zero (c : Counter) : TrafficBatchValue.zero.get c = 0 := by
  cases c <;> rfl

theorem TrafficBatchValue.get_add (v w : TrafficBatchValue) (c : Counter) :
    (v.add w).get c = v.get c + w.get c := by
  cases c <;> rfl

theorem TrafficBatchValue.get_clampSub (v w : TrafficBatchValue) (c : Counter) :
    (v.clampSub w).get c = Fxp.clampSub (v.get c) (w.get c) := by
  cases c <;> rfl

theorem toNat_clampSub (a b : UInt64) : (clampSub a b).toNat = a.toNat - b.toNat := by
  unfold clampSub
  by_cases h : a ≥ b
  · rw [if_pos h, UInt64.toNat_sub_of_le _ _ h]
  · have hlt : a.toNat < b.toNat := UInt64.lt_iff_toNat_lt.mp (UInt64.not_le.mp h)
    rw [if_neg h, Nat.sub_eq_zero_of_le hlt.le]
    rfl

open TrafficBatchValue

theorem get_of_not_positive {v : TrafficBatchValue} (h : v.positive = false) (c : Counter) : v.get c = 0 := by
  simp only [positive, Bool.or_eq_false_iff, decide_eq_false_iff_not,
    gt_iff_lt, UInt64.not_lt, UInt64.le_zero_iff] at h
  cases c
  · exact h.1.1
  · exact h.1.2
  · exact h.2

theorem value_insert (m : ByRule) (ruleID r : ℤ) (v : TrafficBatchValue) :
    ByRule.value (m.insert ruleID v) r = if r = ruleID then v else m.value r := by
  unfold ByRule.value
  by_cases h : r = ruleID
  · rw [if_pos h, h, AList.lookup_insert, Option.getD_some]
  · rw [if_neg h, AList.lookup_insert_ne h]

theorem value_filter_positive (m : ByRule) (r : ℤ) (c : Counter) :
    (ByRule.value (GoMap.filter (fun _ v => v.positive) m) r).get c = (m.value r).get c := by
  unfold ByRule.value
  rw [GoMap.lookup_filter]
  rcases hread : m.lookup r with _ | v
  · rfl
  · cases hpos : v.positive with
    | true => simp [Option.filter, hpos]
    | false => simp [Option.filter, hpos, get_of_not_positive hpos c]

def leftOf (value : TrafficBatchValue) (entry : Option TrafficBatchValue) : Option TrafficBatchValue :=
  entry.bind fun current =>
    if current.clampSub value = .zero then none else some (current.clampSub value)

theorem lookup_acknowledgeRule_self (m : ByRule) (r : ℤ) (v : TrafficBatchValue) :
    (acknowledgeRule m r v).lookup r = leftOf v (m.lookup r) := by
  unfold acknowledgeRule leftOf
  rcases hread : m.lookup r with _ | current
  · rw [hread]; rfl
  · dsimp only [Option.bind_some]
    by_cases hzero : current.clampSub v = .zero
    · rw [if_pos hzero, if_pos hzero, AList.lookup_erase]
    · rw [if_neg hzero, if_neg hzero, AList.lookup_insert]

theorem lookup_acknowledgeRule_of_ne (m : ByRule) (ruleID : ℤ) (v : TrafficBatchValue) (r : ℤ)
    (h : r ≠ ruleID) : (acknowledgeRule m ruleID v).lookup r = m.lookup r := by
  unfold acknowledgeRule
  rcases m.lookup ruleID with _ | current
  · rfl
  · dsimp only
    by_cases hzero : current.clampSub v = .zero
    · rw [if_pos hzero, AList.lookup_erase_ne h]
    · rw [if_neg hzero, AList.lookup_insert_ne h]

theorem get_value_acknowledge (sent m : ByRule) (r : ℤ) (c : Counter) :
    (ByRule.value (sent.foldl acknowledgeRule m) r).get c
      = clampSub ((m.value r).get c) ((sent.value r).get c) := by
  have hsub_zero : ∀ a, clampSub a 0 = a := fun a => by
    rw [← UInt64.toNat_inj, toNat_clampSub]; rfl
  have hzero_sub : ∀ a, clampSub 0 a = 0 := fun a => by
    rw [← UInt64.toNat_inj, toNat_clampSub]
    exact Nat.zero_sub _
  unfold ByRule.value
  rw [GoMap.lookup_foldl lookup_acknowledgeRule_self lookup_acknowledgeRule_of_ne]
  rcases sent.lookup r with _ | v
  · simp [hsub_zero]
  · rcases m.lookup r with _ | current
    · simp [leftOf, hzero_sub]
    · by_cases hzero : current.clampSub v = .zero
      · have hget := congrArg (·.get c) hzero
        simp only [get_clampSub, get_zero] at hget
        simp [leftOf, hzero, hget]
      · simp [leftOf, hzero, get_clampSub]

theorem batch_addTraffic (s : TrafficState) (x : Increment) (key : TrafficBatchKey) (r : ℤ)
    (c : Counter) : ((((s.addTraffic x).batch key).value r).get c)
      = if key = x.key ∧ r = x.ruleID then ((s.batch key).value r).get c + x.value.get c
        else ((s.batch key).value r).get c := by
  unfold TrafficState.addTraffic TrafficState.batch
  dsimp only
  by_cases hkey : key = x.key
  · rw [hkey, AList.lookup_insert, Option.getD_some, value_insert]
    by_cases hr : r = x.ruleID
    · rw [if_pos hr, if_pos ⟨rfl, hr⟩, get_add, hr]
    · rw [if_neg hr, if_neg fun hbad => hr hbad.2]
  · rw [AList.lookup_insert_ne hkey, if_neg fun hbad => hkey hbad.1]

theorem batch_acknowledge (s : TrafficState) (key key' : TrafficBatchKey) (sent : ByRule) :
    (acknowledgeTrafficBatch s key sent).batch key'
      = if key' = key then sent.foldl acknowledgeRule (s.batch key) else s.batch key' := by
  unfold acknowledgeTrafficBatch TrafficState.batch
  dsimp only
  by_cases hkey : key' = key
  · rw [if_pos hkey, hkey]
    split_ifs with hnil
    · rw [AList.lookup_erase, Option.getD_none]
      exact (AList.ext hnil).symm
    · rw [AList.lookup_insert, Option.getD_some]
  · rw [if_neg hkey]
    split_ifs
    · rw [AList.lookup_erase_ne hkey]
    · rw [AList.lookup_insert_ne hkey]

/-! ## The reporter refines the ledger -/

abbrev Quantity := ℤ × Counter

abbrev TrafficLedger := List (Entry TrafficBatchKey Quantity GoString)

def Increment.amount (x : Increment) : Quantity → ℕ :=
  fun i => if i.1 = x.ruleID then (x.value.get i.2).toNat else 0

def PendingTrafficBatch.carries (p : PendingTrafficBatch) (i : Quantity) : ℕ :=
  ((p.byRule.value i.1).get i.2).toNat

def Reporter.onBooks (t : Reporter) (key : TrafficBatchKey) (i : Quantity) : ℕ :=
  (((t.st.batch key).value i.1).get i.2).toNat

def Reporter.enqueued (t : Reporter) (key : TrafficBatchKey) (i : Quantity) : ℕ :=
  (t.log.map fun x => if x.key = key then x.amount i else 0).sum

def Reporter.acknowledged (t : Reporter) (key : TrafficBatchKey) (i : Quantity) : ℕ :=
  (t.posts.map fun q => if q.key = key ∧ q.accepted = true then q.report.carries i else 0).sum

/-- A report of `key` that exists: pending, or posted at some time. -/
def Reporter.Made (t : Reporter) (key : TrafficBatchKey) (p : PendingTrafficBatch) : Prop :=
  t.st.trafficPendingReports.lookup key = some p ∨ ∃ q ∈ t.posts, q.key = key ∧ q.report = p

/-- A post that follows a failed post for the same key repeats it. -/
def RetriesSame : List Post → Prop
  | [] => True
  | q :: older =>
    (∀ q', older.find? (fun q' => decide (q'.key = q.key)) = some q' → q'.accepted = false →
      q'.report = q.report) ∧ RetriesSame older

/-- The reporter `t` keeps the books of the ledger `L`. -/
structure Refines (newID : ℕ → GoString) (t : Reporter) (L : TrafficLedger) : Prop where
  log : increments L = t.log.map fun x => (x.key, x.amount)
  books : ∀ key i, t.onBooks key i = outstanding key i L
  acks : ∀ key i, t.acknowledged key i = settled key i L
  contents : ∀ key p, t.Made key p → ∀ i, p.carries i = reported p.reportID key i L
  unique : ∀ key key' p p', t.Made key p → t.Made key' p' → p.reportID = p'.reportID →
    key = key' ∧ p = p'
  drawn : ∀ key p, t.Made key p → ∃ n < t.drawn, newID n = p.reportID
  labels : ∀ e ∈ L, ∀ id, e.status.report? = some id → ∃ n < t.drawn, newID n = id
  open_pending : ∀ e ∈ L, ∀ id, e.status = .inReport id →
    ∃ p, t.st.trafficPendingReports.lookup e.owner = some p ∧ p.reportID = id
  pending_open : ∀ e ∈ L, ∀ id, e.status = .acknowledged id →
    ∀ key p, t.st.trafficPendingReports.lookup key = some p → p.reportID ≠ id
  nonempty : ∀ key p, t.st.trafficPendingReports.lookup key = some p → p.byRule.entries.length > 0
  flush : ∀ out, t.flush = some out → ∀ key p, out.lookup key = some p →
    t.st.trafficPendingReports.lookup key = some p
  retries : RetriesSame t.posts
  last : ∀ key q, t.posts.find? (fun q => decide (q.key = key)) = some q → q.accepted = false →
    t.st.trafficPendingReports.lookup key = some q.report

open Reporter

theorem refines_new (newID : ℕ → GoString) : Refines newID .new [] where
  log := rfl
  books _ i := by rw [onBooks]; simp [new, TrafficState.new, TrafficState.batch,
    ByRule.value, tally]
  acks _ _ := rfl
  contents := by simp [Reporter.Made, new, TrafficState.new]
  unique := by simp [Reporter.Made, new, TrafficState.new]
  drawn := by simp [Reporter.Made, new, TrafficState.new]
  labels := by simp
  open_pending := by simp
  pending_open := by simp
  nonempty := by simp [new, TrafficState.new]
  flush := by simp [new]
  retries := trivial
  last := by simp [new]

/-! ### Enqueue -/

def Reporter.Fits (t : Reporter) (x : Increment) : Prop :=
  ∀ c, (((t.st.batch x.key).value x.ruleID).get c).toNat + (x.value.get c).toNat < 2 ^ 64

instance (t : Reporter) (x : Increment) : Decidable (t.Fits x) :=
  decidable_of_iff (∀ c ∈ [Counter.bytesIn, .bytesOut, .connections],
      (((t.st.batch x.key).value x.ruleID).get c).toNat + (x.value.get c).toNat < 2 ^ 64)
    ⟨fun h c => h c (by cases c <;> decide), fun h c _ => h c⟩

theorem onBooks_addTraffic {t : Reporter} {x : Increment} (hfits : t.Fits x)
    (key : TrafficBatchKey) (i : Quantity) :
    onBooks { t with st := t.st.addTraffic x, log := t.log ++ [x] } key i
      = t.onBooks key i + if x.key = key then x.amount i else 0 := by
  obtain ⟨r, c⟩ := i
  unfold onBooks Increment.amount
  dsimp only
  rw [batch_addTraffic]
  by_cases hkey : key = x.key
  · by_cases hr : r = x.ruleID
    · rw [if_pos ⟨hkey, hr⟩, if_pos hkey.symm, if_pos hr, hkey, hr]
      rw [UInt64.toNat_add, Nat.mod_eq_of_lt (hfits c)]
    · rw [if_neg fun hbad => hr hbad.2, if_pos hkey.symm, if_neg hr, Nat.add_zero]
  · rw [if_neg fun hbad => hkey hbad.1, if_neg fun hbad => hkey hbad.symm, Nat.add_zero]

theorem refines_enqueue {newID : ℕ → GoString} {t : Reporter} {L : TrafficLedger}
    (h : Refines newID t L) {x : Increment} (hfits : t.Fits x) :
    Refines newID { t with st := t.st.addTraffic x, log := t.log ++ [x] }
      (L ++ [⟨x.key, x.amount, .waiting⟩]) := by
  have hnew : ∀ e ∈ L ++ [(⟨x.key, x.amount, .waiting⟩ : Entry _ _ GoString)],
      e.status ≠ .waiting → e ∈ L := by
    intro e he hne
    rcases mem_append.mp he with he | he
    · exact he
    · rw [mem_singleton.mp he] at hne; exact absurd rfl hne
  refine
    { log := ?_, books := ?_, acks := ?_, contents := ?_, unique := h.unique, drawn := h.drawn
      labels := ?_, open_pending := ?_, pending_open := ?_, nonempty := h.nonempty
      flush := h.flush, retries := h.retries, last := h.last }
  · rw [increments, map_append, map_append, ← h.log]; rfl
  · intro key i
    rw [onBooks_addTraffic hfits, h.books]
    unfold outstanding
    rw [tally_append]
    simp [tally, Status.isOpen]
  · intro key i
    have hacks := h.acks key i
    unfold settled at hacks ⊢
    rw [tally_append, ← hacks]
    simp [tally, Status.isOpen, acknowledged]
  · intro key p hp i
    have hcont := h.contents key p hp i
    unfold reported at hcont ⊢
    rw [tally_append, ← hcont]
    simp [tally, Status.report?]
  · intro e he id hid
    refine h.labels e (hnew e he fun hw => ?_) id hid
    rw [hw] at hid; cases hid
  · intro e he id hid
    exact h.open_pending e (hnew e he (by rw [hid]; simp)) id hid
  · intro e he id hid
    exact h.pending_open e (hnew e he (by rw [hid]; simp)) id hid

/-! ### Snapshot -/

def Reporter.freshReport (newID : ℕ → GoString) (t : Reporter) (key : TrafficBatchKey) : PendingTrafficBatch :=
  ⟨newID t.drawn, GoMap.filter (fun _ v => v.positive) (t.st.batch key)⟩

/-- The reporter inside the snapshot loop, seen as a flush that has `c.out` to
post. -/
def Reporter.during (t : Reporter) (c : Snapshot) : Reporter :=
  { t with st := c.st, drawn := c.drawn, flush := some c.out }

def Reporter.cutAt (newID : ℕ → GoString) (t : Reporter) (key : TrafficBatchKey)
    (out : GoMap TrafficBatchKey PendingTrafficBatch) : Reporter :=
  { t with
    st := { t.st with trafficPendingReports :=
      t.st.trafficPendingReports.insert key (t.freshReport newID key) }
    drawn := t.drawn + 1
    flush := some (out.insert key (t.freshReport newID key)) }

theorem during_visit (newID : ℕ → GoString) (t : Reporter) (c : Snapshot) (key : TrafficBatchKey) :
    (∃ p, c.st.trafficPendingReports.lookup key = some p ∧
      t.during (c.visit newID key) = { t.during c with flush := some (c.out.insert key p) }) ∨
    t.during (c.visit newID key) = t.during c ∨
    ((∀ p, c.st.trafficPendingReports.lookup key = some p → ¬ p.byRule.entries.length > 0) ∧
      ((t.during c).freshReport newID key).byRule.entries.length > 0 ∧
      t.during (c.visit newID key) = (t.during c).cutAt newID key c.out) := by
  unfold Snapshot.visit
  dsimp only
  by_cases hpend : ((c.st.trafficPendingReports.lookup key).getD ⟨[], ∅⟩).byRule.entries.length > 0
  -- a report that is pending is posted again as it is
  · rw [if_pos hpend]
    rcases hread : c.st.trafficPendingReports.lookup key with _ | p
    · rw [hread] at hpend; exact absurd hpend (lt_irrefl 0)
    · exact .inl ⟨p, rfl, rfl⟩
  · rw [if_neg hpend]
    by_cases hcopy : (GoMap.filter (fun _ v => v.positive) (c.st.batch key)).entries.length > 0
    · rw [if_pos hcopy]
      refine .inr (.inr ⟨fun p hp => ?_, hcopy, rfl⟩)
      rwa [hp, Option.getD_some] at hpend
    · rw [if_neg hcopy]; exact .inr (.inl rfl)

section

variable {newID : ℕ → GoString} {t : Reporter} {L : TrafficLedger} {key : TrafficBatchKey}
  {out : GoMap TrafficBatchKey PendingTrafficBatch}

variable {p : PendingTrafficBatch} {key' : TrafficBatchKey}

theorem pending_cutAt (hp : (t.cutAt newID key out).st.trafficPendingReports.lookup key' = some p) :
    (key' = key ∧ p = t.freshReport newID key) ∨
      (key' ≠ key ∧ t.st.trafficPendingReports.lookup key' = some p) :=
  GoMap.lookup_insert_eq_some hp

theorem pending_cutAt_of_pending (hnone : t.st.trafficPendingReports.lookup key = none)
    (hp : t.st.trafficPendingReports.lookup key' = some p) :
    (t.cutAt newID key out).st.trafficPendingReports.lookup key' = some p := by
  unfold cutAt
  rw [AList.lookup_insert_ne (by rintro rfl; rw [hnone] at hp; cases hp)]
  exact hp

theorem made_cutAt (hmade : (t.cutAt newID key out).Made key' p) :
    (key' = key ∧ p = t.freshReport newID key) ∨ t.Made key' p := by
  rcases hmade with hp | hp
  · rcases pending_cutAt hp with hnew | ⟨-, hold⟩
    · exact .inl hnew
    · exact .inr (.inl hold)
  · exact .inr (.inr hp)

theorem ne_newID_drawn (hinj : Function.Injective newID) {id : GoString}
    (h : ∃ n < t.drawn, newID n = id) : id ≠ newID t.drawn := by
  obtain ⟨n, hn, rfl⟩ := h
  exact fun heq => absurd (hinj heq) (by omega)

theorem outstanding_eq_waiting (h : Refines newID t L)
    (hnone : t.st.trafficPendingReports.lookup key = none) (i : Quantity) :
    outstanding key i L = tally (fun s => decide (s = .waiting)) key i L := by
  refine tally_congr i fun e he hk => ?_
  rcases hs : e.status with _ | id | id
  · rfl
  · obtain ⟨p, hp, -⟩ := h.open_pending e he id hs
    rw [hk, hnone] at hp; cases hp
  · rfl

section

variable (hinj : Function.Injective newID) (h : Refines newID t L)

include hinj h

theorem contents_cut (hnone : t.st.trafficPendingReports.lookup key = none)
    (hmade : (t.cutAt newID key out).Made key' p) (i : Quantity) :
    p.carries i = reported p.reportID key' i (cut key (newID t.drawn) L) := by
  rcases made_cutAt hmade with ⟨rfl, rfl⟩ | hold
  · have hzero : tally (fun s => decide (s.report? = some (t.freshReport newID key').reportID))
        key' i L = 0 := by
      refine tally_eq_zero i fun e he _ => decide_eq_false fun hid => ?_
      exact ne_newID_drawn hinj (h.labels e he _ hid) rfl
    unfold reported
    rw [tally_advance_gain rfl (by simp [Status.report?, freshReport]), hzero,
      Nat.zero_add, ← outstanding_eq_waiting h hnone, ← h.books]
    exact congrArg UInt64.toNat (value_filter_positive _ _ _)
  · rw [h.contents key' p hold]
    refine (tally_advance_of_eq (decide_eq_decide.mpr ?_) key' i).symm
    simp only [Status.report?, Option.some.injEq]
    exact ⟨nofun, fun hid => absurd hid.symm (ne_newID_drawn hinj (h.drawn key' p hold))⟩

theorem unique_cut {key₁ key₂ : TrafficBatchKey} {p₁ p₂ : PendingTrafficBatch}
    (h₁ : (t.cutAt newID key out).Made key₁ p₁) (h₂ : (t.cutAt newID key out).Made key₂ p₂)
    (hid : p₁.reportID = p₂.reportID) : key₁ = key₂ ∧ p₁ = p₂ := by
  rcases made_cutAt h₁ with ⟨hk₁, hp₁⟩ | hold₁
  · rcases made_cutAt h₂ with ⟨hk₂, hp₂⟩ | hold₂
    · exact ⟨hk₁.trans hk₂.symm, hp₁.trans hp₂.symm⟩
    · rw [hp₁] at hid
      exact absurd hid.symm (ne_newID_drawn hinj (h.drawn _ _ hold₂))
  · rcases made_cutAt h₂ with ⟨-, hp₂⟩ | hold₂
    · rw [hp₂] at hid
      exact absurd hid (ne_newID_drawn hinj (h.drawn _ _ hold₁))
    · exact h.unique _ _ _ _ hold₁ hold₂ hid

theorem refines_cut (hflush : t.flush = some out) (hnone : t.st.trafficPendingReports.lookup key = none)
    (hsome : (t.freshReport newID key).byRule.entries.length > 0) :
    Refines newID (t.cutAt newID key out) (cut key (newID t.drawn) L) := by
  refine
    { log := increments_advance.trans h.log, books := ?_, acks := ?_
      contents := fun _ _ hm i => contents_cut hinj h hnone hm i
      unique := fun _ _ _ _ h₁ h₂ => unique_cut hinj h h₁ h₂
      drawn := ?_, labels := ?_, open_pending := ?_, pending_open := ?_, nonempty := ?_
      flush := ?_, retries := h.retries
      last := fun key' q hq hfail => pending_cutAt_of_pending hnone (h.last key' q hq hfail) }
  · intro key' i
    refine (h.books key' i).trans (tally_advance_of_eq ?_ key' i).symm
    rfl
  · intro key' i
    refine (h.acks key' i).trans (tally_advance_of_eq ?_ key' i).symm
    rfl
  · intro key' p hp
    rcases made_cutAt hp with ⟨rfl, rfl⟩ | hold
    · exact ⟨t.drawn, Nat.lt_succ_self _, rfl⟩
    · obtain ⟨n, hn, hid⟩ := h.drawn key' p hold
      exact ⟨n, Nat.lt_succ_of_lt hn, hid⟩
  -- an entry the cut moved carries the new id, the others their own
  · intro e he id hid
    obtain ⟨e₀, he₀, -, ⟨-, -, hnew⟩ | ⟨-, hsame⟩⟩ := mem_advance he
    · rw [hnew] at hid
      cases hid
      exact ⟨t.drawn, Nat.lt_succ_self _, rfl⟩
    · rw [hsame] at hid
      obtain ⟨n, hn, hid⟩ := h.labels e₀ he₀ id hid
      exact ⟨n, Nat.lt_succ_of_lt hn, hid⟩
  · intro e he id hid
    obtain ⟨e₀, he₀, howner, ⟨hk, -, hnew⟩ | ⟨-, hsame⟩⟩ := mem_advance he
    · rw [hnew] at hid
      cases hid
      refine ⟨t.freshReport newID key, ?_, rfl⟩
      rw [← howner, hk]
      exact AList.lookup_insert _
    · obtain ⟨p, hp, hpid⟩ := h.open_pending e₀ he₀ id (hsame.symm.trans hid)
      exact ⟨p, pending_cutAt_of_pending hnone (howner ▸ hp), hpid⟩
  -- nothing acknowledged can carry an id that was not drawn yet
  · intro e he id hid key' p hp
    obtain ⟨e₀, he₀, -, ⟨-, -, hnew⟩ | ⟨-, hsame⟩⟩ := mem_advance he
    · rw [hnew] at hid; cases hid
    · rw [hsame] at hid
      rcases pending_cutAt hp with ⟨-, rfl⟩ | ⟨-, hold⟩
      · have hlabel := h.labels e₀ he₀ id (by rw [hid]; rfl)
        exact fun heq => ne_newID_drawn hinj hlabel heq.symm
      · exact h.pending_open e₀ he₀ id hid key' p hold
  · intro key' p hp
    rcases pending_cutAt hp with ⟨-, rfl⟩ | ⟨-, hold⟩
    · exact hsome
    · exact h.nonempty key' p hold
  · intro out' hout key' p hp
    cases hout
    obtain ⟨rfl, rfl⟩ | ⟨-, hold⟩ := GoMap.lookup_insert_eq_some hp
    · exact AList.lookup_insert _
    · exact pending_cutAt_of_pending hnone (h.flush out hflush key' p hold)

end

end

variable {newID : ℕ → GoString}

theorem refines_flush {t : Reporter} {L : TrafficLedger}
    (h : Refines newID t L) {out : GoMap TrafficBatchKey PendingTrafficBatch}
    (hout : ∀ key p, out.lookup key = some p → t.st.trafficPendingReports.lookup key = some p) :
    Refines newID { t with flush := some out } L :=
  { h with flush := by rintro _ ⟨⟩; exact hout }

theorem refines_visit (hinj : Function.Injective newID) {t : Reporter}
    {c : Snapshot} {L : TrafficLedger} (h : Refines newID (t.during c) L) (key : TrafficBatchKey) :
    ∃ L', Refines newID (t.during (c.visit newID key)) L' := by
  rcases during_visit newID t c key with ⟨p, hp, heq⟩ | heq | ⟨hempty, hsome, heq⟩
  · rw [heq]
    refine ⟨L, refines_flush h fun key' p' hp' => ?_⟩
    obtain ⟨rfl, rfl⟩ | ⟨-, hold⟩ := GoMap.lookup_insert_eq_some hp'
    · exact hp
    · exact h.flush c.out rfl key' p' hold
  · rw [heq]; exact ⟨L, h⟩
  · rw [heq]
    refine ⟨_, refines_cut hinj h rfl ?_ hsome⟩
    rcases hread : (t.during c).st.trafficPendingReports.lookup key with _ | p
    · rfl
    · exact absurd (h.nonempty key p hread) (hempty p hread)

theorem refines_snapshot (hinj : Function.Injective newID) (t : Reporter)
    (order : List TrafficBatchKey) : ∀ (c : Snapshot) (L : TrafficLedger),
      Refines newID (t.during c) L →
      ∃ L', Refines newID (t.during (order.foldl (Snapshot.visit newID) c)) L' := by
  induction order with
  | nil => intro c L h; exact ⟨L, h⟩
  | cons key order ih =>
    intro c L h
    obtain ⟨L₁, h₁⟩ := refines_visit hinj h key
    exact ih (c.visit newID key) L₁ h₁

/-! ### Post and acknowledge -/

/-- The reporter after a post of the pending report `p` of `key`. -/
def Reporter.posted (t : Reporter) (key : TrafficBatchKey) (p : PendingTrafficBatch)
    (accepted : Bool) (out : GoMap TrafficBatchKey PendingTrafficBatch) : Reporter :=
  { t with
    st := if accepted then acknowledgeTrafficBatch t.st key p.byRule else t.st
    flush := some (out.erase key)
    posts := ⟨key, p, accepted⟩ :: t.posts }

section

variable {newID : ℕ → GoString} {t : Reporter} {L : TrafficLedger} {key key' : TrafficBatchKey}
  {out : GoMap TrafficBatchKey PendingTrafficBatch} {p p' : PendingTrafficBatch} {accepted : Bool}

theorem retriesSame_cons (h : Refines newID t L)
    (hp : t.st.trafficPendingReports.lookup key = some p) (accepted : Bool) :
    RetriesSame (⟨key, p, accepted⟩ :: t.posts) := by
  refine ⟨fun q hq hfail => ?_, h.retries⟩
  have hlast := h.last key q hq hfail
  rw [hp] at hlast
  exact (Option.some.inj hlast).symm

theorem pending_posted (hp : (t.posted key p true out).st.trafficPendingReports.lookup key' = some p') :
    key' ≠ key ∧ t.st.trafficPendingReports.lookup key' = some p' := by
  change (t.st.trafficPendingReports.erase key).lookup key' = some p' at hp
  exact GoMap.lookup_erase_eq_some hp

theorem pending_posted_of_ne (hk : key' ≠ key) (hp : t.st.trafficPendingReports.lookup key' = some p') :
    (t.posted key p true out).st.trafficPendingReports.lookup key' = some p' := by
  change (t.st.trafficPendingReports.erase key).lookup key' = some p'
  rw [AList.lookup_erase_ne hk]
  exact hp

theorem made_posted (hp : t.st.trafficPendingReports.lookup key = some p)
    (hmade : (t.posted key p accepted out).Made key' p') : t.Made key' p' := by
  rcases hmade with hpend | ⟨q, hq, hkey, hrep⟩
  · cases accepted with
    | false => exact .inl hpend
    | true => exact .inl (pending_posted hpend).2
  · rcases mem_cons.mp hq with rfl | hq
    · cases hkey; cases hrep
      exact .inl hp
    · exact .inr ⟨q, hq, hkey, hrep⟩

section

variable (h : Refines newID t L)

include h

theorem refines_post_failed (hflush : t.flush = some out)
    (hread : out.lookup key = some p) : Refines newID (t.posted key p false out) L := by
  have hp := h.flush out hflush key p hread
  refine
    { log := h.log, books := h.books, acks := ?_
      contents := fun _ _ hm => h.contents _ _ (made_posted hp hm)
      unique := fun _ _ _ _ h₁ h₂ => h.unique _ _ _ _ (made_posted hp h₁) (made_posted hp h₂)
      drawn := fun _ _ hm => h.drawn _ _ (made_posted hp hm)
      labels := h.labels, open_pending := h.open_pending, pending_open := h.pending_open
      nonempty := h.nonempty, flush := ?_, retries := retriesSame_cons h hp false, last := ?_ }
  · intro key' i
    rw [← h.acks key' i]
    simp [acknowledged, posted]
  · intro out' hout key' p' hp'
    cases hout
    exact h.flush out hflush key' p' (GoMap.lookup_erase_eq_some hp').2
  · intro key' q hq hfail
    by_cases hk : key = key'
    · rw [posted, find?_cons_of_pos (by simpa using hk)] at hq
      cases hq
      exact hk ▸ hp
    · rw [posted, find?_cons_of_neg (by simpa using hk)] at hq
      exact h.last key' q hq hfail

theorem carries_pending (hp : t.st.trafficPendingReports.lookup key = some p) (i : Quantity) :
    p.carries i = tally (fun s => decide (s = .inReport p.reportID)) key i L := by
  rw [h.contents key p (.inl hp) i]
  refine tally_congr i fun e he hk => decide_eq_decide.mpr ?_
  rcases hs : e.status with _ | id | id
  · simp [Status.report?]
  · simp [Status.report?]
  · have hne := h.pending_open e he id hs key p hp
    simp [Status.report?, hne.symm]

theorem books_posted
    (hp : t.st.trafficPendingReports.lookup key = some p) (key' : TrafficBatchKey) (i : Quantity) :
    (t.posted key p true out).onBooks key' i
      = outstanding key' i (acknowledge key p.reportID L) := by
  have hbooks := h.books key' i
  unfold onBooks at hbooks ⊢
  rw [posted, if_pos rfl, batch_acknowledge]
  by_cases hk : key' = key
  · have hloss : outstanding key i (acknowledge key p.reportID L)
        + tally (fun s => decide (s = .inReport p.reportID)) key i L = outstanding key i L :=
      tally_advance_loss rfl rfl i
    -- `acknowledgeTrafficBatch` clamps at zero, which `hloss` shows it never has to
    have hcarries := carries_pending h hp i
    unfold PendingTrafficBatch.carries at hcarries
    subst hk
    rw [if_pos rfl, get_value_acknowledge, toNat_clampSub, hbooks, hcarries]
    exact Nat.sub_eq_of_eq_add hloss.symm
  · rw [if_neg hk, hbooks]
    exact (tally_advance_of_ne _ hk i).symm

theorem acks_posted
    (hp : t.st.trafficPendingReports.lookup key = some p) (key' : TrafficBatchKey) (i : Quantity) :
    (t.posted key p true out).acknowledged key' i
      = settled key' i (acknowledge key p.reportID L) := by
  have hacks := h.acks key' i
  unfold acknowledged at hacks ⊢
  rw [posted, map_cons, sum_cons, hacks]
  by_cases hk : key = key'
  · subst hk
    unfold settled
    rw [if_pos ⟨rfl, rfl⟩, tally_advance_gain rfl rfl, carries_pending h hp, Nat.add_comm]
  · rw [if_neg fun hbad => hk hbad.1, Nat.zero_add]
    exact (tally_advance_of_ne _ (Ne.symm hk) i).symm

theorem refines_post_accepted (hflush : t.flush = some out) (hread : out.lookup key = some p) :
    Refines newID (t.posted key p true out) (acknowledge key p.reportID L) := by
  have hp := h.flush out hflush key p hread
  refine
    { log := increments_advance.trans h.log, books := books_posted h hp, acks := acks_posted h hp
      contents := ?_
      unique := fun _ _ _ _ h₁ h₂ => h.unique _ _ _ _ (made_posted hp h₁) (made_posted hp h₂)
      drawn := fun _ _ hm => h.drawn _ _ (made_posted hp hm)
      labels := ?_, open_pending := ?_, pending_open := ?_
      nonempty := fun key' p' hp' => h.nonempty key' p' (pending_posted hp').2
      flush := ?_, retries := retriesSame_cons h hp true, last := ?_ }
  · intro key' p' hm i
    rw [h.contents key' p' (made_posted hp hm) i]
    refine (tally_advance_of_eq ?_ key' i).symm
    rfl
  · intro e he id hid
    obtain ⟨e₀, he₀, -, ⟨-, hold, hnew⟩ | ⟨-, hsame⟩⟩ := mem_advance he
    · rw [hnew] at hid
      exact h.labels e₀ he₀ id (by rw [hold]; exact hid)
    · exact h.labels e₀ he₀ id (hsame ▸ hid)
  -- an entry still in a report is not of this one, whose entries all moved
  · intro e he id hid
    obtain ⟨e₀, he₀, howner, ⟨-, -, hnew⟩ | ⟨hnot, hsame⟩⟩ := mem_advance he
    · rw [hnew] at hid; cases hid
    · rw [hsame] at hid
      obtain ⟨p', hp', hpid⟩ := h.open_pending e₀ he₀ id hid
      refine ⟨p', ?_, hpid⟩
      rw [← howner]
      refine pending_posted_of_ne (fun hk => hnot ⟨hk, ?_⟩) hp'
      rw [hk, hp] at hp'
      rw [hid, ← hpid, Option.some.inj hp']
  · intro e he id hid key' p' hp'
    obtain ⟨hk, hold⟩ := pending_posted hp'
    obtain ⟨e₀, he₀, -, ⟨-, -, hnew⟩ | ⟨-, hsame⟩⟩ := mem_advance he
    · rw [hnew] at hid
      cases hid
      exact fun heq => hk (h.unique key' key p' p (.inl hold) (.inl hp) heq).1
    · exact h.pending_open e₀ he₀ id (hsame ▸ hid) key' p' hold
  · intro out' hout key' p' hp'
    cases hout
    obtain ⟨hk, hold⟩ := GoMap.lookup_erase_eq_some hp'
    exact pending_posted_of_ne hk (h.flush out hflush key' p' hold)
  · intro key' q hq hfail
    by_cases hk : key = key'
    · rw [posted, find?_cons_of_pos (by simpa using hk)] at hq
      cases hq
      cases hfail
    · rw [posted, find?_cons_of_neg (by simpa using hk)] at hq
      exact pending_posted_of_ne (Ne.symm hk) (h.last key' q hq hfail)

end

end

/-! ### Whole runs -/

/-- The guard of a run: an increment is counted only where its counters have room
for it. -/
def Reporter.HasRoom (sum256 : GoString → GoString) (t : Reporter) : TrafficEvent → Prop
  | .enqueue cfg bytesIn bytesOut connectionDeltas =>
    ∀ x ∈ acceptTraffic sum256 cfg bytesIn bytesOut connectionDeltas, t.Fits x
  | _ => True

instance (sum256 : GoString → GoString) (t : Reporter) : ∀ e, Decidable (t.HasRoom sum256 e)
  | .enqueue .. => by unfold Reporter.HasRoom; infer_instance
  | .snapshot _ => .isTrue trivial
  | .post _ _ => .isTrue trivial
  | .endFlush => .isTrue trivial

variable {newID : ℕ → GoString}

theorem refines_step {sum256 : GoString → GoString}
    (hinj : Function.Injective newID) (t : Reporter) (e : TrafficEvent)
    (hroom : t.HasRoom sum256 e) (h : ∃ L, Refines newID t L) :
    ∃ L, Refines newID (t.step sum256 newID e) L := by
  obtain ⟨L, h⟩ := h
  cases e with
  | enqueue cfg bytesIn bytesOut connectionDeltas =>
    unfold step
    dsimp only
    rcases hacc : acceptTraffic sum256 cfg bytesIn bytesOut connectionDeltas with _ | x
    · exact ⟨L, h⟩
    · exact ⟨_, refines_enqueue h (hroom x hacc)⟩
  | snapshot order =>
    unfold step
    dsimp only
    split_ifs with hcan
    · refine refines_snapshot hinj t order ⟨t.st, t.drawn, ∅⟩ L (refines_flush h fun key p hp => ?_)
      rw [AList.lookup_empty] at hp; cases hp
    · exact ⟨L, h⟩
  | post key accepted =>
    unfold step
    dsimp only
    rcases hflush : t.flush with _ | out
    · exact ⟨L, h⟩
    · dsimp only
      rcases hread : out.lookup key with _ | p
      · exact ⟨L, h⟩
      · cases accepted with
        | false => exact ⟨L, refines_post_failed h hflush hread⟩
        | true => exact ⟨_, refines_post_accepted h hflush hread⟩
  | endFlush =>
    unfold step
    dsimp only
    rcases t.flush with _ | out
    · exact ⟨L, h⟩
    · dsimp only
      split_ifs
      · exact ⟨L, { h with flush := nofun }⟩
      · exact ⟨L, h⟩

theorem enqueued_eq_total {t : Reporter} {L : TrafficLedger}
    (h : Refines newID t L) (key : TrafficBatchKey) (i : Quantity) :
    t.enqueued key i = total key i L := by
  rw [total_eq_sum, h.log, map_map]
  rfl

/-- What holds of the reporter's books and posts. -/
structure Reporter.Conserves (t : Reporter) : Prop where
  balance : ∀ key i, t.enqueued key i = t.acknowledged key i + t.onBooks key i
  frozen : ∀ p ∈ t.posts, ∀ q ∈ t.posts, p.report.reportID = q.report.reportID →
    p.key = q.key ∧ p.report = q.report
  retries : RetriesSame t.posts
  disjoint : ∃ L : TrafficLedger, increments L = t.log.map (fun x => (x.key, x.amount)) ∧
    ∀ p ∈ t.posts, ∀ i, p.report.carries i = reported p.report.reportID p.key i L

theorem conserves_of_refines {t : Reporter} {L : TrafficLedger}
    (h : Refines newID t L) : t.Conserves where
  balance key i := by
    rw [enqueued_eq_total h, h.acks, h.books, Nat.add_comm, outstanding_add_settled]
  frozen p hp q hq hid :=
    h.unique _ _ _ _ (.inr ⟨p, hp, rfl, rfl⟩) (.inr ⟨q, hq, rfl, rfl⟩) hid
  retries := h.retries
  disjoint := ⟨L, h.log, fun p hp i => h.contents _ _ (.inr ⟨p, hp, rfl, rfl⟩) i⟩

/-- **Traffic is conserved.** In every run of enqueues, snapshots, posts and
acknowledgements whose counters do not wrap: what was enqueued is what was
acknowledged plus what is on the books, a report never changes and is repeated
until acknowledged, and no increment is in two reports. -/
theorem trafficReports_conserve (sum256 : GoString → GoString) (newID : ℕ → GoString)
    (hinj : Function.Injective newID) (es : List TrafficEvent)
    (hroom : Admissible (Reporter.HasRoom sum256) (Reporter.step sum256 newID) .new es) :
    (run (Reporter.step sum256 newID) .new es).Conserves := by
  obtain ⟨L, h⟩ := run_invariant_of_admissible (I := fun t => ∃ L, Refines newID t L)
    (refines_step hinj) es .new hroom ⟨[], refines_new newID⟩
  exact conserves_of_refines h

/-! A concrete reporter: one configuration, a digest that is constant and ids that
grow by a letter. -/

def ruleOne : TrafficConfig := ⟨['p'], ['t'], [], 1, 1, 1⟩

def noDigest : GoString → GoString := fun _ => []

def growingID (n : ℕ) : GoString := List.replicate n 'a'

theorem growingID_injective : Function.Injective growingID := by
  intro n m h
  simpa [growingID] using congrArg List.length h

def keyOne : TrafficBatchKey := ⟨['p'], ['t'], fxpTrafficProducerID noDigest ruleOne⟩

/-- A report fails, more traffic arrives, the retry is accepted. -/
def retryRun : List TrafficEvent :=
  [.enqueue ruleOne 5 2 [1], .snapshot [keyOne], .post keyOne false, .endFlush,
    .enqueue ruleOne 7 0 [], .snapshot [keyOne], .post keyOne true, .endFlush]

theorem retryRun_conserves :
    Admissible (Reporter.HasRoom noDigest) (Reporter.step noDigest growingID) .new retryRun ∧
      (run (Reporter.step noDigest growingID) .new retryRun).Conserves :=
  ⟨by decide, trafficReports_conserve noDigest growingID growingID_injective retryRun (by decide)⟩

/-- While a report of `2 ^ 64 - 1` bytes is in flight one more byte wraps the
counter to zero, and the acknowledgement clamps it there. -/
def wrapRun : List TrafficEvent :=
  [.enqueue ruleOne 18446744073709551615 0 [], .snapshot [keyOne], .enqueue ruleOne 1 0 [],
    .post keyOne true]

theorem wrapRun_loses_a_byte : ¬ (run (Reporter.step noDigest growingID) .new wrapRun).Conserves := by
  intro h
  have hbalance := h.balance keyOne (1, .bytesIn)
  revert hbalance
  decide

end ForwardX.Fxp
