/-
Traffic statistics: `insertTrafficStatsBatch` and `rebuildUserTrafficCountersFromRuleCounters` of
`server/repositories/metricsRepository.ts`.

A batch adds to samples, to the counters of rules, users and hosts, and to a bucket. The totals
agree by one sum over the samples, cut up in different ways.
-/
import ForwardX.Lib.Pieces
import ForwardX.Lib.Run
import ForwardX.Lib.Totals
import Mathlib.Data.Rat.Floor

namespace ForwardX.Panel.Statistics

open Run Table Totals List

/-! ## Usage -/

structure Usage where
  bytesIn : ℤ
  bytesOut : ℤ
  connections : ℤ
  deriving DecidableEq

namespace Usage

instance : Zero Usage := ⟨⟨0, 0, 0⟩⟩

instance : Add Usage :=
  ⟨fun a b => ⟨a.bytesIn + b.bytesIn, a.bytesOut + b.bytesOut, a.connections + b.connections⟩⟩

theorem add_def (a b : Usage) :
    a + b = ⟨a.bytesIn + b.bytesIn, a.bytesOut + b.bytesOut, a.connections + b.connections⟩ := rfl

theorem zero_def : (0 : Usage) = ⟨0, 0, 0⟩ := rfl

instance : AddCommMonoid Usage where
  add_assoc a b c := by simp only [add_def, add_assoc]
  zero_add a := by simp only [add_def, zero_def, zero_add]
  add_zero a := by simp only [add_def, zero_def, add_zero]
  add_comm a b := by simp only [add_def, add_comm]
  nsmul := nsmulRec

def Nonneg (a : Usage) : Prop := 0 ≤ a.bytesIn ∧ 0 ≤ a.bytesOut ∧ 0 ≤ a.connections

/-- `bytesIn <= 0 && bytesOut <= 0 && connections <= 0`. -/
def idle (a : Usage) : Bool := a.bytesIn ≤ 0 ∧ a.bytesOut ≤ 0 ∧ a.connections ≤ 0

theorem Nonneg.idle_iff {a : Usage} (h : a.Nonneg) : a.idle = true ↔ a = 0 := by
  obtain ⟨hin, hout, hconn⟩ := h
  obtain ⟨i, o, c⟩ := a
  simp only [idle, decide_eq_true_eq, zero_def, mk.injEq] at hin hout hconn ⊢
  omega

end Usage

/-! ## Rows -/

structure InsertTrafficStat where
  ruleId : ℚ
  hostId : ℚ
  bytesIn : ℚ := 0
  bytesOut : ℚ := 0
  connections : ℚ := 0
  recordedAt : Option ℤ := none

structure TrafficStatBatchItem where
  stat : InsertTrafficStat
  userId : ℚ

structure AggregatedTrafficRow where
  ruleId : ℤ
  hostId : ℤ
  userId : ℤ
  usage : Usage
  recordedAt : ℤ

/-- A row of `traffic_stats`; the time is stored in seconds. -/
structure TrafficStat where
  ruleId : ℤ
  hostId : ℤ
  usage : Usage
  recordedAt : ℤ

/-- A row of `forward_rule_traffic_counters`. -/
structure RuleTrafficCounter where
  ruleId : ℤ
  hostId : ℤ
  userId : ℤ
  usage : Usage

structure UserTrafficCounter where
  userId : ℤ
  usage : Usage

/-- A row of `traffic_stat_buckets`. `bucketMinutes` is the same for all of them. -/
structure TrafficStatBucket where
  bucketStart : ℤ
  userId : ℤ
  ruleId : ℤ
  hostId : ℤ
  usage : Usage

structure TrafficTables where
  trafficStats : List TrafficStat := []
  ruleCounters : List RuleTrafficCounter := []
  userCounters : List UserTrafficCounter := []
  buckets : List TrafficStatBucket := []

/-! ## Aggregation -/

def maxSafeInteger : ℤ := 2 ^ 53 - 1

def nonNegativeCounter (n : ℚ) : ℤ := if n ≤ 0 then 0 else min ⌊n⌋ maxSafeInteger

def epochSeconds (ms : ℤ) : ℤ := ms / 1000

def trafficBucketSeconds : ℤ := 30 * 60

def bucketStartFor (seconds : ℤ) : ℤ := seconds / trafficBucketSeconds * trafficBucketSeconds

/-- The row that `aggregateTrafficBatch` makes of an item. -/
def TrafficStatBatchItem.row (now : ℤ) (item : TrafficStatBatchItem) : AggregatedTrafficRow where
  ruleId := ⌊item.stat.ruleId⌋
  hostId := ⌊item.stat.hostId⌋
  userId := max 0 ⌊item.userId⌋
  usage :=
    { bytesIn := nonNegativeCounter item.stat.bytesIn
      bytesOut := nonNegativeCounter item.stat.bytesOut
      connections := max 0 ⌊item.stat.connections⌋ }
  recordedAt := item.stat.recordedAt.getD now

def AggregatedTrafficRow.ruleHost (r : AggregatedTrafficRow) : ℤ × ℤ := (r.ruleId, r.hostId)

/-- A row whose key is in the map already. -/
def AggregatedTrafficRow.add (aggregate row : AggregatedTrafficRow) : AggregatedTrafficRow :=
  { aggregate with
    userId := row.userId
    usage := aggregate.usage + row.usage
    recordedAt := if row.recordedAt > aggregate.recordedAt then row.recordedAt
      else aggregate.recordedAt }

/-- The loop over the items, with the raw rows and the map so far. -/
def aggregateStep (now : ℤ) (acc : List AggregatedTrafficRow × List AggregatedTrafficRow)
    (item : TrafficStatBatchItem) : List AggregatedTrafficRow × List AggregatedTrafficRow :=
  let row := item.row now
  if row.ruleId ≤ 0 ∨ row.hostId ≤ 0 then acc
  else if row.userId ≤ 0 ∨ row.usage.idle then (acc.1 ++ [row], acc.2)
  else (acc.1 ++ [row], absorb AggregatedTrafficRow.ruleHost AggregatedTrafficRow.add acc.2 row)

/-- `rawRows` and `counterRows`. -/
def aggregateTrafficBatch (now : ℤ) (items : List TrafficStatBatchItem) :
    List AggregatedTrafficRow × List AggregatedTrafficRow :=
  items.foldl (aggregateStep now) ([], [])

/-! ## Writing -/

def trafficWriteBatchRows : ℕ := 64

def rowBatches {ρ : Type} (rows : List ρ) : List (List ρ) :=
  (List.range ((rows.length + (trafficWriteBatchRows - 1)) / trafficWriteBatchRows)).map
    (piece trafficWriteBatchRows rows)

/-- A statement for each batch; `insert` is what its `INSERT … ON CONFLICT` does with
one row. -/
def executeBulkRows {ρ : Type} (insert : List ρ → ρ → List ρ) (rows t : List ρ) : List ρ :=
  (rowBatches rows).foldl (fun t batch => batch.foldl insert t) t

def TrafficStat.ruleHost (r : TrafficStat) : ℤ × ℤ := (r.ruleId, r.hostId)

def RuleTrafficCounter.ruleHost (c : RuleTrafficCounter) : ℤ × ℤ := (c.ruleId, c.hostId)

def RuleTrafficCounter.add (c new : RuleTrafficCounter) : RuleTrafficCounter :=
  { c with userId := new.userId, usage := c.usage + new.usage }

def UserTrafficCounter.add (c new : UserTrafficCounter) : UserTrafficCounter :=
  { c with usage := c.usage + new.usage }

def TrafficStatBucket.key (b : TrafficStatBucket) : ℤ × ℤ × ℤ := (b.bucketStart, b.ruleId, b.hostId)

def TrafficStatBucket.add (b new : TrafficStatBucket) : TrafficStatBucket :=
  { b with userId := new.userId, usage := b.usage + new.usage }

def AggregatedTrafficRow.stat (r : AggregatedTrafficRow) : TrafficStat :=
  ⟨r.ruleId, r.hostId, r.usage, epochSeconds r.recordedAt⟩

def AggregatedTrafficRow.ruleCounter (r : AggregatedTrafficRow) : RuleTrafficCounter :=
  ⟨r.ruleId, r.hostId, r.userId, r.usage⟩

def AggregatedTrafficRow.userCounter (r : AggregatedTrafficRow) : UserTrafficCounter :=
  ⟨r.userId, r.usage⟩

def AggregatedTrafficRow.bucket (r : AggregatedTrafficRow) : TrafficStatBucket :=
  ⟨bucketStartFor (epochSeconds r.recordedAt), r.userId, r.ruleId, r.hostId, r.usage⟩

def upsertUserTrafficCountersBatch (rows : List AggregatedTrafficRow) :
    List UserTrafficCounter → List UserTrafficCounter :=
  let byUser := (rows.map AggregatedTrafficRow.userCounter).foldl
    (absorb UserTrafficCounter.userId UserTrafficCounter.add) []
  executeBulkRows (absorb UserTrafficCounter.userId UserTrafficCounter.add) byUser

def upsertForwardRuleTrafficCountersBatch (rows : List AggregatedTrafficRow) :
    List RuleTrafficCounter → List RuleTrafficCounter :=
  executeBulkRows (absorb RuleTrafficCounter.ruleHost RuleTrafficCounter.add)
    (rows.map AggregatedTrafficRow.ruleCounter)

def upsertTrafficStatBucketsBatch (rows : List AggregatedTrafficRow) :
    List TrafficStatBucket → List TrafficStatBucket :=
  let byBucket := (rows.map AggregatedTrafficRow.bucket).foldl
    (absorb TrafficStatBucket.key TrafficStatBucket.add) []
  executeBulkRows (absorb TrafficStatBucket.key TrafficStatBucket.add) byBucket

structure BatchResult where
  samples : ℕ
  counters : ℕ
  users : ℕ

def insertTrafficStatsBatch (now : ℤ) (items : List TrafficStatBatchItem) (t : TrafficTables) :
    BatchResult × TrafficTables :=
  if items = [] then (⟨0, 0, 0⟩, t)
  else
    let (rawRows, counterRows) := aggregateTrafficBatch now items
    if rawRows = [] then (⟨0, 0, 0⟩, t)
    else
      (⟨rawRows.length, counterRows.length, (counterRows.map AggregatedTrafficRow.userId).dedup.length⟩,
        { trafficStats :=
            executeBulkRows (fun t r => t ++ [r]) (rawRows.map AggregatedTrafficRow.stat) t.trafficStats
          userCounters := upsertUserTrafficCountersBatch counterRows t.userCounters
          ruleCounters := upsertForwardRuleTrafficCountersBatch counterRows t.ruleCounters
          buckets := upsertTrafficStatBucketsBatch counterRows t.buckets })

/-- `SELECT userId, SUM(…) FROM forward_rule_traffic_counters … GROUP BY userId`. -/
def userSums (counters : List RuleTrafficCounter) : List UserTrafficCounter :=
  (counters.map RuleTrafficCounter.userId).dedup.map fun u =>
    ⟨u, totalAt RuleTrafficCounter.userId RuleTrafficCounter.usage counters u⟩

/-- The number of rows it writes, and the tables. -/
def rebuildUserTrafficCountersFromRuleCounters (userIds : Option (List ℤ)) (t : TrafficTables) :
    ℕ × TrafficTables :=
  let ids := ((userIds.getD []).filter (0 < ·)).dedup
  if 0 < ids.length then
    let sums := userSums (t.ruleCounters.filter (·.userId ∈ ids))
    (sums.length,
      { t with userCounters := t.userCounters.filter (·.userId ∉ ids) ++ sums })
  else
    let sums := userSums t.ruleCounters
    (sums.length, { t with userCounters := sums })

/-! ### Reading a counter -/

def TrafficTables.ruleCounter (t : TrafficTables) (ruleId hostId : ℤ) : Usage :=
  ((byKey RuleTrafficCounter.ruleHost (ruleId, hostId) t.ruleCounters).map
    RuleTrafficCounter.usage).getD 0

def TrafficTables.userCounter (t : TrafficTables) (userId : ℤ) : Usage :=
  ((byKey UserTrafficCounter.userId userId t.userCounters).map UserTrafficCounter.usage).getD 0

def TrafficTables.bucket (t : TrafficTables) (bucketStart ruleId hostId : ℤ) : Usage :=
  ((byKey TrafficStatBucket.key (bucketStart, ruleId, hostId) t.buckets).map
    TrafficStatBucket.usage).getD 0

/-! ## What a batch does -/

theorem flatten_rowBatches {ρ : Type} (rows : List ρ) : (rowBatches rows).flatten = rows := by
  apply flatten_pieces_of_le
  simp only [trafficWriteBatchRows]
  omega

theorem executeBulkRows_eq {ρ : Type} (insert : List ρ → ρ → List ρ) (rows t : List ρ) :
    executeBulkRows insert rows t = rows.foldl insert t := by
  rw [executeBulkRows, ← foldl_flatten, flatten_rowBatches]

theorem foldl_concat {ρ : Type} (rows t : List ρ) : rows.foldl (fun t r => t ++ [r]) t = t ++ rows := by
  induction rows generalizing t with
  | nil => simp
  | cons r rows ih => rw [foldl_cons, ih, append_assoc, singleton_append]

structure TrafficBatch where
  now : ℤ
  items : List TrafficStatBatchItem

def TrafficBatch.rawRows (b : TrafficBatch) : List AggregatedTrafficRow :=
  (b.items.map (TrafficStatBatchItem.row b.now)).filter fun r => 0 < r.ruleId ∧ 0 < r.hostId

def TrafficBatch.countedRows (b : TrafficBatch) : List AggregatedTrafficRow :=
  b.rawRows.filter fun r => 0 < r.userId ∧ r.usage.idle = false

/-- One row for each rule on a host. -/
def TrafficBatch.counterRows (b : TrafficBatch) : List AggregatedTrafficRow :=
  b.countedRows.foldl (absorb AggregatedTrafficRow.ruleHost AggregatedTrafficRow.add) []

open AggregatedTrafficRow

open TrafficBatch

theorem aggregate_from (now : ℤ) (items : List TrafficStatBatchItem)
    (raw counters : List AggregatedTrafficRow) :
    items.foldl (aggregateStep now) (raw, counters)
      = (raw ++ rawRows ⟨now, items⟩,
        (countedRows ⟨now, items⟩).foldl
          (absorb ruleHost add) counters) := by
  induction items generalizing raw counters with
  | nil => simp [rawRows, countedRows]
  | cons item items ih =>
    rw [foldl_cons]
    simp only [rawRows, countedRows, map_cons, filter_cons] at ih ⊢
    by_cases hvalid : (item.row now).ruleId ≤ 0 ∨ (item.row now).hostId ≤ 0
    · have hstep : aggregateStep now (raw, counters) item = (raw, counters) := if_pos hvalid
      have hdrop : ¬ (0 < (item.row now).ruleId ∧ 0 < (item.row now).hostId) := by omega
      rw [hstep, ih]
      simp [hdrop]
    · have hkeep : 0 < (item.row now).ruleId ∧ 0 < (item.row now).hostId := by omega
      by_cases hidle : (item.row now).userId ≤ 0 ∨ (item.row now).usage.idle = true
      · have hstep : aggregateStep now (raw, counters) item = (raw ++ [item.row now], counters) := by
          simp only [aggregateStep, if_neg hvalid, if_pos hidle]
        have hskip : ¬ (0 < (item.row now).userId ∧ (item.row now).usage.idle = false) := by
          rintro ⟨hu, hi⟩
          rcases hidle with hu' | hi'
          · omega
          · rw [hi] at hi'
            cases hi'
        rw [hstep, ih]
        simp [hkeep, hskip]
      · have hstep : aggregateStep now (raw, counters) item = (raw ++ [item.row now],
            absorb ruleHost add counters (item.row now)) := by
          simp only [aggregateStep, if_neg hvalid, if_neg hidle]
        have hcount : 0 < (item.row now).userId ∧ (item.row now).usage.idle = false := by
          rw [not_or, Bool.not_eq_true] at hidle
          exact ⟨by omega, hidle.2⟩
        rw [hstep, ih]
        simp [hkeep, hcount]

theorem aggregateTrafficBatch_eq (b : TrafficBatch) :
    aggregateTrafficBatch b.now b.items = (b.rawRows, b.counterRows) := by
  rw [aggregateTrafficBatch, aggregate_from]
  rfl

def stepTraffic (t : TrafficTables) (b : TrafficBatch) : TrafficTables :=
  (insertTrafficStatsBatch b.now b.items t).2

theorem stepTraffic_eq (t : TrafficTables) (b : TrafficBatch) :
    stepTraffic t b =
      { trafficStats := t.trafficStats ++ b.rawRows.map stat
        userCounters := ((b.counterRows.map userCounter).foldl
          (absorb UserTrafficCounter.userId UserTrafficCounter.add) []).foldl
            (absorb UserTrafficCounter.userId UserTrafficCounter.add) t.userCounters
        ruleCounters := (b.counterRows.map ruleCounter).foldl
          (absorb RuleTrafficCounter.ruleHost RuleTrafficCounter.add) t.ruleCounters
        buckets := ((b.counterRows.map bucket).foldl
          (absorb TrafficStatBucket.key TrafficStatBucket.add) []).foldl
            (absorb TrafficStatBucket.key TrafficStatBucket.add) t.buckets } := by
  have hquiet : b.rawRows = [] → b.counterRows = [] := by
    intro hraw
    rw [counterRows, countedRows, hraw]
    rfl
  unfold stepTraffic insertTrafficStatsBatch
  simp only [aggregateTrafficBatch_eq, upsertUserTrafficCountersBatch,
    upsertForwardRuleTrafficCountersBatch, upsertTrafficStatBucketsBatch, executeBulkRows_eq,
    foldl_concat]
  split
  · rename_i hitems
    have hraw : b.rawRows = [] := by
      rw [rawRows, hitems]
      rfl
    simp [hraw, hquiet hraw]
  · split
    · rename_i hraw
      simp [hraw, hquiet hraw]
    · rfl

/-! ## The totals of a batch -/

namespace AggregatedTrafficRow

theorem ruleHost_add (a r : AggregatedTrafficRow) (h : a.ruleHost = r.ruleHost) :
    (a.add r).ruleHost = r.ruleHost := h

theorem usage_add (a r : AggregatedTrafficRow) (_ : a.ruleHost = r.ruleHost) :
    (a.add r).usage = a.usage + r.usage := rfl

theorem userId_add (a r : AggregatedTrafficRow) (_ : a.ruleHost = r.ruleHost)
    (_ : a.userId = r.userId) : (a.add r).userId = r.userId := rfl

/-- The bucket that a row would go into by itself. -/
def bucketKey (r : AggregatedTrafficRow) : ℤ × ℤ × ℤ :=
  (bucketStartFor (epochSeconds r.recordedAt), r.ruleId, r.hostId)

theorem bucketKey_add (a r : AggregatedTrafficRow) (_ : a.ruleHost = r.ruleHost)
    (h : a.bucketKey = r.bucketKey) : (a.add r).bucketKey = r.bucketKey := by
  simp only [bucketKey, add, Prod.mk.injEq] at h ⊢
  refine ⟨?_, h.2⟩
  split
  · rfl
  · exact h.1

end AggregatedTrafficRow

open AggregatedTrafficRow

theorem nonneg_row (now : ℤ) (item : TrafficStatBatchItem) : (item.row now).usage.Nonneg := by
  have hcounter : ∀ n, 0 ≤ nonNegativeCounter n := by
    intro n
    unfold nonNegativeCounter maxSafeInteger
    split
    · exact le_refl 0
    · rename_i hn
      have hfloor : 0 ≤ ⌊n⌋ := Int.floor_nonneg.mpr (le_of_lt (not_le.mp hn))
      omega
  exact ⟨hcounter _, hcounter _, le_max_left 0 _⟩

section

variable {b : TrafficBatch} {owner : ℤ → ℤ}

theorem nonneg_rawRows : ∀ r ∈ b.rawRows, r.usage.Nonneg := by
  intro r hr
  obtain ⟨item, -, rfl⟩ := mem_map.mp (mem_of_mem_filter hr)
  exact nonneg_row b.now item

/-- Every sample has a user, and the samples of a rule have the same one. -/
def TrafficBatch.Owned (owner : ℤ → ℤ) (b : TrafficBatch) : Prop :=
  ∀ r ∈ b.rawRows, 0 < r.userId ∧ r.userId = owner r.ruleId

instance TrafficBatch.Owned.decidable (owner : ℤ → ℤ) (b : TrafficBatch) : Decidable (b.Owned owner) :=
  inferInstanceAs (Decidable (∀ r ∈ b.rawRows, 0 < r.userId ∧ r.userId = owner r.ruleId))

/-- The counted samples of a rule on a host lie in one bucket. -/
def TrafficBatch.OneBucket (b : TrafficBatch) : Prop :=
  ∀ r ∈ b.countedRows, ∀ r' ∈ b.countedRows, r.ruleHost = r'.ruleHost → r.bucketKey = r'.bucketKey

instance TrafficBatch.OneBucket.decidable (b : TrafficBatch) : Decidable b.OneBucket :=
  inferInstanceAs (Decidable (∀ r ∈ b.countedRows, ∀ r' ∈ b.countedRows,
    r.ruleHost = r'.ruleHost → r.bucketKey = r'.bucketKey))

theorem nodup_counterRows : (b.counterRows.map ruleHost).Nodup :=
  nodup_foldl_absorb ruleHost_add b.countedRows nodup_nil

theorem totalAt_countedRows {γ : Type} [DecidableEq γ] (cls : AggregatedTrafficRow → γ)
    (hown : b.Owned owner) (g : γ) :
    totalAt cls usage b.countedRows g
      = totalAt cls usage b.rawRows g := by
  have hall : ∀ r ∈ b.rawRows, 0 < r.userId ∧ r.usage.Nonneg :=
    fun r hr => ⟨(hown r hr).1, nonneg_rawRows r hr⟩
  unfold countedRows
  generalize b.rawRows = rows at hall
  induction rows with
  | nil => rfl
  | cons r rows ih =>
    obtain ⟨huser, hnonneg⟩ := hall r mem_cons_self
    have hrest := ih fun r' hr' => hall r' (mem_cons_of_mem r hr')
    rw [filter_cons, totalAt_cons]
    by_cases hidle : r.usage.idle = true
    · rw [if_neg (by simp [hidle]), hrest, hnonneg.idle_iff.mp hidle]
      simp
    · rw [if_pos (by simp [hidle, huser]), totalAt_cons, hrest]

theorem classed_userId (hown : b.Owned owner) :
    Classed ruleHost userId (fun k => owner k.1) b.countedRows :=
  fun r hr => (hown r (mem_of_mem_filter hr)).2

theorem classed_counterRows (hown : b.Owned owner) :
    Classed ruleHost userId (fun k => owner k.1) b.counterRows :=
  Classed.foldl_absorb ruleHost_add userId_add (fun _ h => nomatch h) (classed_userId hown)

theorem totalAt_ruleHost (hown : b.Owned owner) (k : ℤ × ℤ) :
    totalAt ruleHost usage b.counterRows k
      = totalAt ruleHost usage b.rawRows k := by
  rw [counterRows, totalAt_foldl_key (t := []) ruleHost_add (by simp) usage_add,
    totalAt_nil, zero_add, totalAt_countedRows _ hown]

theorem totalAt_bucketKey (hown : b.Owned owner) (hone : b.OneBucket) (k : ℤ × ℤ × ℤ) :
    totalAt bucketKey usage b.counterRows k
      = totalAt bucketKey usage b.rawRows k := by
  have hclassed : ∃ f, Classed ruleHost bucketKey f b.countedRows := exists_classed hone
  obtain ⟨f, hf⟩ := hclassed
  rw [counterRows, totalAt_merged ruleHost_add bucketKey_add usage_add hf,
    totalAt_countedRows _ hown]

/-! ### A batch in two buckets -/

theorem Usage.Nonneg.add {a c : Usage} (ha : a.Nonneg) (hc : c.Nonneg) : (a + c).Nonneg := by
  obtain ⟨h1, h2, h3⟩ := ha
  obtain ⟨h4, h5, h6⟩ := hc
  rw [Usage.add_def]
  exact ⟨by simp only; omega, by simp only; omega, by simp only; omega⟩

theorem Usage.Nonneg.eq_zero {a c : Usage} (ha : a.Nonneg) (hc : c.Nonneg) (h : a + c = 0) : a = 0 ∧ c = 0 := by
  obtain ⟨h1, h2, h3⟩ := ha
  obtain ⟨h4, h5, h6⟩ := hc
  rw [Usage.add_def, Usage.zero_def, Usage.mk.injEq] at h
  constructor
  · rw [← Usage.Nonneg.idle_iff ⟨h1, h2, h3⟩]
    simp only [Usage.idle, decide_eq_true_eq]
    omega
  · rw [← Usage.Nonneg.idle_iff ⟨h4, h5, h6⟩]
    simp only [Usage.idle, decide_eq_true_eq]
    omega

theorem Usage.add_left_cancel {a c d : Usage} (h : a + c = a + d) : c = d := by
  obtain ⟨c1, c2, c3⟩ := c
  obtain ⟨d1, d2, d3⟩ := d
  rw [Usage.add_def, Usage.add_def, Usage.mk.injEq] at h
  rw [Usage.mk.injEq]
  simp only at h
  omega

theorem totalAt_nonneg {γ : Type} [DecidableEq γ] {cls : AggregatedTrafficRow → γ} {g : γ}
    {rows : List AggregatedTrafficRow} (hall : ∀ r ∈ rows, r.usage.Nonneg) :
    (totalAt cls usage rows g).Nonneg ∧
      (totalAt cls usage rows g = 0 → ∀ r ∈ rows, cls r = g → r.usage = 0) := by
  induction rows with
  | nil => exact ⟨⟨le_refl 0, le_refl 0, le_refl 0⟩, fun _ r hr => nomatch hr⟩
  | cons r rows ih =>
    obtain ⟨hrest, hzero⟩ := ih fun r' hr' => hall r' (mem_cons_of_mem r hr')
    have hhead : (if cls r = g then r.usage else 0).Nonneg := by
      split
      · exact hall r mem_cons_self
      · exact ⟨le_refl 0, le_refl 0, le_refl 0⟩
    rw [totalAt_cons]
    refine ⟨hhead.add hrest, ?_⟩
    intro h r' hr' hcls
    obtain ⟨hfirst, hlater⟩ := hhead.eq_zero hrest h
    rcases mem_cons.mp hr' with rfl | hr'
    · rwa [if_pos hcls] at hfirst
    · exact hzero hlater r' hr' hcls

theorem oneBucket_of_totalAt (hown : b.Owned owner)
    (h : ∀ k, totalAt bucketKey usage b.counterRows k
      = totalAt bucketKey usage b.rawRows k) : b.OneBucket := by
  -- every counted sample lies in the bucket of the row it was merged into
  have hinto : ∀ r ∈ b.countedRows, ∀ c ∈ b.counterRows, c.ruleHost = r.ruleHost →
      r.bucketKey = c.bucketKey := by
    intro r hr c hc hkey
    by_contra hne
    have hempty : totalAt bucketKey usage b.counterRows r.bucketKey = 0 := by
      apply totalAt_eq_zero
      intro c' hc' hbucket
      have hrule : c'.ruleHost = c.ruleHost := by
        rw [hkey]
        simp only [bucketKey, Prod.mk.injEq] at hbucket
        exact Prod.ext hbucket.2.1 hbucket.2.2
      rw [eq_of_key_eq nodup_counterRows hc' hc hrule] at hbucket
      exact absurd hbucket.symm hne
    rw [h, ← totalAt_countedRows _ hown] at hempty
    have hnonneg : ∀ r' ∈ b.countedRows, r'.usage.Nonneg :=
      fun r' hr' => nonneg_rawRows r' (mem_of_mem_filter hr')
    have hused := (totalAt_nonneg hnonneg).2 hempty r hr rfl
    have hcounted := (mem_filter.mp hr).2
    rw [decide_eq_true_eq] at hcounted
    rw [← (hnonneg r hr).idle_iff, hcounted.2] at hused
    cases hused
  intro r hr r' hr' hkey
  have hmem : r.ruleHost ∈ b.counterRows.map ruleHost := by
    rw [counterRows, mem_keys_foldl_absorb ruleHost_add]
    exact .inr (mem_map_of_mem hr)
  obtain ⟨c, hc, hck⟩ := mem_map.mp hmem
  rw [hinto r hr c hc hck, hinto r' hr' c hc (hck.trans hkey)]

end

/-! ## The tables -/

def TrafficStat.bucketKey (r : TrafficStat) : ℤ × ℤ × ℤ :=
  (bucketStartFor r.recordedAt, r.ruleId, r.hostId)

structure CountersAgree (owner : ℤ → ℤ) (t : TrafficTables) : Prop where
  ruleKeys : (t.ruleCounters.map RuleTrafficCounter.ruleHost).Nodup
  userKeys : (t.userCounters.map UserTrafficCounter.userId).Nodup
  owners : Classed RuleTrafficCounter.ruleHost RuleTrafficCounter.userId (fun k => owner k.1)
    t.ruleCounters
  rules : ∀ k, totalAt RuleTrafficCounter.ruleHost RuleTrafficCounter.usage t.ruleCounters k
    = totalAt TrafficStat.ruleHost TrafficStat.usage t.trafficStats k
  users : ∀ u, totalAt UserTrafficCounter.userId UserTrafficCounter.usage t.userCounters u
    = totalAt RuleTrafficCounter.userId RuleTrafficCounter.usage t.ruleCounters u
  listed : ∀ u, u ∈ t.userCounters.map UserTrafficCounter.userId
    ↔ u ∈ t.ruleCounters.map RuleTrafficCounter.userId

structure BucketsAgree (t : TrafficTables) : Prop where
  keys : (t.buckets.map TrafficStatBucket.key).Nodup
  totals : ∀ k, totalAt TrafficStatBucket.key TrafficStatBucket.usage t.buckets k
    = totalAt TrafficStat.bucketKey TrafficStat.usage t.trafficStats k

section

variable {owner : ℤ → ℤ} {t : TrafficTables} {b : TrafficBatch}

theorem ruleHost_counter_add (a r : RuleTrafficCounter) (h : a.ruleHost = r.ruleHost) :
    (a.add r).ruleHost = r.ruleHost := h

theorem userId_counter_add (a r : UserTrafficCounter) (h : a.userId = r.userId) :
    (a.add r).userId = r.userId := h

theorem key_bucket_add (a r : TrafficStatBucket) (h : a.key = r.key) : (a.add r).key = r.key := h

theorem totalAt_ruleCounters {γ : Type} [DecidableEq γ] {cls : RuleTrafficCounter → γ}
    {f : ℤ × ℤ → γ} (hcls : ∀ a r, a.ruleHost = r.ruleHost → cls a = cls r → cls (a.add r) = cls r)
    (hkeys : (t.ruleCounters.map RuleTrafficCounter.ruleHost).Nodup)
    (hold : Classed RuleTrafficCounter.ruleHost cls f t.ruleCounters)
    (hnew : Classed RuleTrafficCounter.ruleHost cls f (b.counterRows.map ruleCounter)) (g : γ) :
    totalAt cls RuleTrafficCounter.usage (stepTraffic t b).ruleCounters g
      = totalAt cls RuleTrafficCounter.usage t.ruleCounters g
        + totalAt (cls ∘ ruleCounter) usage b.counterRows g := by
  rw [stepTraffic_eq, totalAt_foldl_absorb ruleHost_counter_add hcls (fun _ _ _ => rfl) hkeys hold hnew,
    totalAt_map]
  rfl

theorem classed_ruleCounter (hown : b.Owned owner) :
    Classed RuleTrafficCounter.ruleHost RuleTrafficCounter.userId (fun k => owner k.1)
      (b.counterRows.map ruleCounter) := by
  intro c hc
  obtain ⟨r, hr, rfl⟩ := mem_map.mp hc
  exact classed_counterRows hown r hr

theorem CountersAgree.rules_step (h : CountersAgree owner t) (hown : b.Owned owner) (k : ℤ × ℤ) :
    totalAt RuleTrafficCounter.ruleHost RuleTrafficCounter.usage (stepTraffic t b).ruleCounters k
      = totalAt TrafficStat.ruleHost TrafficStat.usage (stepTraffic t b).trafficStats k := by
  rw [totalAt_ruleCounters (fun _ _ h _ => h) h.ruleKeys (classed_key _) (classed_key _), h.rules]
  rw [stepTraffic_eq, totalAt_append, totalAt_map]
  have hsame := totalAt_ruleHost hown k
  exact congrArg _ hsame

theorem totalAt_userCounters (hkeys : (t.userCounters.map UserTrafficCounter.userId).Nodup) (u : ℤ) :
    totalAt UserTrafficCounter.userId UserTrafficCounter.usage (stepTraffic t b).userCounters u
      = totalAt UserTrafficCounter.userId UserTrafficCounter.usage t.userCounters u
        + totalAt userId usage b.counterRows u := by
  rw [stepTraffic_eq, totalAt_foldl_key userId_counter_add hkeys (fun _ _ _ => rfl),
    totalAt_foldl_key (t := []) userId_counter_add (by simp) (fun _ _ _ => rfl), totalAt_nil, zero_add,
    totalAt_map]
  rfl

theorem mem_userCounters_step (u : ℤ) :
    u ∈ (stepTraffic t b).userCounters.map UserTrafficCounter.userId
      ↔ u ∈ t.userCounters.map UserTrafficCounter.userId ∨
        u ∈ b.counterRows.map userId := by
  rw [stepTraffic_eq, mem_keys_foldl_absorb userId_counter_add,
    mem_keys_foldl_absorb userId_counter_add, map_map]
  simp [userCounter, Function.comp_def]

section

variable (h : CountersAgree owner t) (hown : b.Owned owner)

include h hown

theorem CountersAgree.owners_step :
    Classed RuleTrafficCounter.ruleHost RuleTrafficCounter.userId (fun k => owner k.1)
      (stepTraffic t b).ruleCounters := by
  rw [stepTraffic_eq]
  exact Classed.foldl_absorb ruleHost_counter_add (fun _ _ _ _ => rfl) h.owners (classed_ruleCounter hown)

theorem CountersAgree.mem_owners_step (u : ℤ) :
    u ∈ (stepTraffic t b).ruleCounters.map RuleTrafficCounter.userId
      ↔ u ∈ t.ruleCounters.map RuleTrafficCounter.userId ∨
        u ∈ b.counterRows.map userId := by
  have hkeys : ∀ k, k ∈ (stepTraffic t b).ruleCounters.map RuleTrafficCounter.ruleHost
      ↔ k ∈ t.ruleCounters.map RuleTrafficCounter.ruleHost ∨ k ∈ b.counterRows.map ruleHost := by
    intro k
    rw [stepTraffic_eq, mem_keys_foldl_absorb ruleHost_counter_add, map_map]
    rfl
  rw [(h.owners_step hown).mem_map_iff, h.owners.mem_map_iff, (classed_counterRows hown).mem_map_iff]
  simp only [hkeys, or_and_right, exists_or]

theorem CountersAgree.step :
    CountersAgree owner (stepTraffic t b) where
  ruleKeys := by
    rw [stepTraffic_eq]
    exact nodup_foldl_absorb ruleHost_counter_add _ h.ruleKeys
  userKeys := by
    rw [stepTraffic_eq]
    exact nodup_foldl_absorb userId_counter_add _ h.userKeys
  owners := h.owners_step hown
  rules := h.rules_step hown
  users := by
    intro u
    rw [totalAt_userCounters h.userKeys, h.users,
      totalAt_ruleCounters (fun _ _ _ _ => rfl) h.ruleKeys h.owners (classed_ruleCounter hown)]
    rfl
  listed := by
    intro u
    rw [mem_userCounters_step, h.mem_owners_step hown, h.listed]

end

theorem totalAt_buckets (hkeys : (t.buckets.map TrafficStatBucket.key).Nodup) (k : ℤ × ℤ × ℤ) :
    totalAt TrafficStatBucket.key TrafficStatBucket.usage (stepTraffic t b).buckets k
      = totalAt TrafficStatBucket.key TrafficStatBucket.usage t.buckets k
        + totalAt bucketKey usage b.counterRows k := by
  rw [stepTraffic_eq, totalAt_foldl_key key_bucket_add hkeys (fun _ _ _ => rfl),
    totalAt_foldl_key (t := []) key_bucket_add (by simp) (fun _ _ _ => rfl), totalAt_nil, zero_add,
    totalAt_map]
  rfl

theorem totalAt_bucketStats (k : ℤ × ℤ × ℤ) :
    totalAt TrafficStat.bucketKey TrafficStat.usage (stepTraffic t b).trafficStats k
      = totalAt TrafficStat.bucketKey TrafficStat.usage t.trafficStats k
        + totalAt bucketKey usage b.rawRows k := by
  rw [stepTraffic_eq, totalAt_append, totalAt_map]
  rfl

theorem BucketsAgree.step_iff (h : BucketsAgree t) (hown : b.Owned owner) :
    BucketsAgree (stepTraffic t b) ↔ b.OneBucket := by
  constructor
  · intro hnext
    apply oneBucket_of_totalAt hown
    intro k
    have htotals := hnext.totals k
    rw [totalAt_buckets h.keys, totalAt_bucketStats, h.totals] at htotals
    exact Usage.add_left_cancel htotals
  · intro hone
    refine ⟨?_, fun k => ?_⟩
    · rw [stepTraffic_eq]
      exact nodup_foldl_absorb key_bucket_add _ h.keys
    · rw [totalAt_buckets h.keys, totalAt_bucketStats, h.totals, totalAt_bucketKey hown hone]

end

/-! ## The theorem -/

/-- What the tables say of each other, read counter by counter. -/
structure TotalsAgree (owner : ℤ → ℤ) (t : TrafficTables) : Prop where
  rules : ∀ ruleId hostId, t.ruleCounter ruleId hostId
    = totalAt TrafficStat.ruleHost TrafficStat.usage t.trafficStats (ruleId, hostId)
  buckets : ∀ bucketStart ruleId hostId, t.bucket bucketStart ruleId hostId
    = totalAt TrafficStat.bucketKey TrafficStat.usage t.trafficStats (bucketStart, ruleId, hostId)
  users : ∀ u, t.userCounter u
    = totalAt (fun c => owner c.ruleId) RuleTrafficCounter.usage t.ruleCounters u
  rebuilt : ∀ userIds row,
    row ∈ (rebuildUserTrafficCountersFromRuleCounters userIds t).2.userCounters ↔ row ∈ t.userCounters

section

variable {owner : ℤ → ℤ} {t : TrafficTables}

theorem CountersAgree.mem_userCounters_iff (h : CountersAgree owner t) (row : UserTrafficCounter) :
    row ∈ t.userCounters ↔ row.userId ∈ t.ruleCounters.map RuleTrafficCounter.userId ∧
      row.usage = totalAt RuleTrafficCounter.userId RuleTrafficCounter.usage t.ruleCounters row.userId := by
  rw [← h.users, totalAt_key h.userKeys, ← h.listed]
  constructor
  · intro hrow
    rw [byKey_of_mem h.userKeys hrow]
    exact ⟨mem_map_of_mem hrow, rfl⟩
  · rintro ⟨hmem, husage⟩
    obtain ⟨found, hfound, hid⟩ := mem_map.mp hmem
    rw [← hid, byKey_of_mem h.userKeys hfound] at husage
    have heq : row = found := by
      obtain ⟨u, a⟩ := row
      obtain ⟨u', a'⟩ := found
      simp only at hid husage
      simp [hid, husage]
    rw [heq]
    exact hfound

variable {counters : List RuleTrafficCounter}

theorem mem_userSums {row : UserTrafficCounter} :
    row ∈ userSums counters ↔ row.userId ∈ counters.map RuleTrafficCounter.userId ∧
      row.usage = totalAt RuleTrafficCounter.userId RuleTrafficCounter.usage counters row.userId := by
  unfold userSums
  rw [mem_map]
  constructor
  · rintro ⟨u, hu, rfl⟩
    exact ⟨mem_dedup.mp hu, rfl⟩
  · rintro ⟨hu, husage⟩
    refine ⟨row.userId, mem_dedup.mpr hu, ?_⟩
    rw [← husage]

theorem totalAt_filter_users {ids : List ℤ} {u : ℤ} (hu : u ∈ ids) :
    totalAt RuleTrafficCounter.userId RuleTrafficCounter.usage (counters.filter (·.userId ∈ ids)) u
      = totalAt RuleTrafficCounter.userId RuleTrafficCounter.usage counters u := by
  induction counters with
  | nil => rfl
  | cons c counters ih =>
    rw [filter_cons, totalAt_cons]
    by_cases hc : c.userId ∈ ids
    · rw [if_pos (by simpa using hc), totalAt_cons, ih]
    · have hne : c.userId ≠ u := by
        rintro rfl
        exact hc hu
      rw [if_neg (by simpa using hc), if_neg hne, zero_add, ih]

theorem CountersAgree.rebuilt (h : CountersAgree owner t) (userIds : Option (List ℤ))
    (row : UserTrafficCounter) :
    row ∈ (rebuildUserTrafficCountersFromRuleCounters userIds t).2.userCounters
      ↔ row ∈ t.userCounters := by
  unfold rebuildUserTrafficCountersFromRuleCounters
  simp only
  split
  · generalize (((userIds.getD []).filter (0 < ·)).dedup) = ids
    rw [mem_append, mem_filter, mem_userSums]
    by_cases hid : row.userId ∈ ids
    · rw [totalAt_filter_users hid, h.mem_userCounters_iff]
      have hkept : row.userId ∈ (t.ruleCounters.filter (·.userId ∈ ids)).map RuleTrafficCounter.userId
          ↔ row.userId ∈ t.ruleCounters.map RuleTrafficCounter.userId := by
        simp only [mem_map, mem_filter, decide_eq_true_eq]
        constructor
        · rintro ⟨c, ⟨hc, -⟩, hu⟩
          exact ⟨c, hc, hu⟩
        · rintro ⟨c, hc, hu⟩
          exact ⟨c, ⟨hc, hu ▸ hid⟩, hu⟩
      rw [hkept]
      simp [hid]
    · have hnone : row.userId ∉
          (t.ruleCounters.filter (·.userId ∈ ids)).map RuleTrafficCounter.userId := by
        simp only [mem_map, mem_filter, decide_eq_true_eq]
        rintro ⟨c, ⟨-, hc⟩, hu⟩
        exact hid (hu ▸ hc)
      simp [hid, hnone]
  · rw [mem_userSums, h.mem_userCounters_iff]

theorem totalsAgree_iff (h : CountersAgree owner t) (hkeys : (t.buckets.map TrafficStatBucket.key).Nodup) :
    TotalsAgree owner t ↔ BucketsAgree t := by
  constructor
  · intro htotals
    refine ⟨hkeys, ?_⟩
    rintro ⟨bucketStart, ruleId, hostId⟩
    rw [totalAt_key hkeys]
    exact htotals.buckets bucketStart ruleId hostId
  · intro hbuckets
    refine ⟨?_, ?_, ?_, h.rebuilt⟩
    · intro ruleId hostId
      rw [← h.rules, totalAt_key h.ruleKeys]
      rfl
    · intro bucketStart ruleId hostId
      rw [← hbuckets.totals, totalAt_key hkeys]
      rfl
    · intro u
      have howner : totalAt (fun c => owner c.ruleId) RuleTrafficCounter.usage t.ruleCounters u
          = totalAt RuleTrafficCounter.userId RuleTrafficCounter.usage t.ruleCounters u := by
        apply totalAt_congr
        intro c hc _
        rw [h.owners c hc]
        rfl
      rw [howner, ← h.users, totalAt_key h.userKeys]
      rfl

end

/-! ## Whole runs -/

section

variable {owner : ℤ → ℤ} {bs : List TrafficBatch}

theorem countersAgree_empty (owner : ℤ → ℤ) : CountersAgree owner {} where
  ruleKeys := nodup_nil
  userKeys := nodup_nil
  owners := fun _ h => nomatch h
  rules := fun _ => rfl
  users := fun _ => rfl
  listed := fun _ => Iff.rfl

theorem bucketsAgree_empty : BucketsAgree {} := ⟨nodup_nil, fun _ => rfl⟩

theorem countersAgree_run (howned : ∀ b ∈ bs, b.Owned owner) : CountersAgree owner (run stepTraffic {} bs) := by
  refine run_invariant_of_forall ?_ bs howned _ (countersAgree_empty owner)
  intro t b hown h
  exact h.step hown

theorem nodup_buckets_run (bs : List TrafficBatch) :
    ((run stepTraffic {} bs).buckets.map TrafficStatBucket.key).Nodup := by
  refine run_invariant (I := fun t : TrafficTables => (t.buckets.map TrafficStatBucket.key).Nodup) ?_
    bs _ nodup_nil
  intro t b h
  rw [stepTraffic_eq]
  exact nodup_foldl_absorb key_bucket_add _ h

theorem totalsAgree_run_iff (howned : ∀ b ∈ bs, b.Owned owner) :
    TotalsAgree owner (run stepTraffic {} bs) ↔ BucketsAgree (run stepTraffic {} bs) :=
  totalsAgree_iff (countersAgree_run howned) (nodup_buckets_run bs)

theorem bucketsAgree_run (howned : ∀ b ∈ bs, b.Owned owner) (hone : ∀ b ∈ bs, b.OneBucket) :
    BucketsAgree (run stepTraffic {} bs) := by
  have hok : ∀ b ∈ bs, b.Owned owner ∧ b.OneBucket := fun b hb => ⟨howned b hb, hone b hb⟩
  refine run_invariant_of_forall ?_ bs hok _ bucketsAgree_empty
  intro t b hb h
  exact (h.step_iff hb.1).mpr hb.2

end

/-- **Samples, counters, users and buckets agree along a run if, and only if, no batch
has counted samples of a rule on a host in two buckets.** -/
theorem traffic_totals_agree (owner : ℤ → ℤ) (bs : List TrafficBatch) (howned : ∀ b ∈ bs, b.Owned owner) :
    (∀ n, TotalsAgree owner (run stepTraffic {} (bs.take n))) ↔ ∀ b ∈ bs, b.OneBucket := by
  have hupto : ∀ n, ∀ b ∈ bs.take n, b.Owned owner := fun n b hb => howned b (List.mem_of_mem_take hb)
  constructor
  · intro hall b hb
    obtain ⟨i, hi, rfl⟩ := List.mem_iff_getElem.mp hb
    -- the tables agree before this batch and after it
    have hbefore := (totalsAgree_run_iff (hupto i)).mp (hall i)
    have hafter := (totalsAgree_run_iff (hupto (i + 1))).mp (hall (i + 1))
    rw [← List.take_concat_get hi, List.concat_eq_append, run_append] at hafter
    exact (hbefore.step_iff (howned _ hb)).mp hafter
  · intro hone n
    rw [totalsAgree_run_iff (hupto n)]
    exact bucketsAgree_run (hupto n) fun b hb => hone b (List.mem_of_mem_take hb)

def sampleAt (recordedAt : ℤ) : TrafficStatBatchItem :=
  ⟨{ ruleId := 1, hostId := 1, bytesIn := 100, recordedAt := some recordedAt }, 7⟩

theorem traffic_totals_agree_hour :
    (∀ b ∈ [TrafficBatch.mk 0 [sampleAt 0], TrafficBatch.mk 1800000 [sampleAt 1800000]],
      b.Owned fun _ => 7) ∧
    ∀ n, TotalsAgree (fun _ => 7) (run stepTraffic {}
      ([TrafficBatch.mk 0 [sampleAt 0], TrafficBatch.mk 1800000 [sampleAt 1800000]].take n)) :=
  ⟨by decide +kernel,
    (traffic_totals_agree (fun _ => 7) _ (by decide +kernel)).mpr (by decide +kernel)⟩

/-- Two half hours in one batch: the first has nothing in its bucket. -/
theorem totals_disagree_across_buckets :
    (TrafficBatch.mk 1800000 [sampleAt 0, sampleAt 1800000]).Owned (fun _ => 7) ∧
    (run stepTraffic {} [⟨1800000, [sampleAt 0, sampleAt 1800000]⟩]).bucket 0 1 1 = ⟨0, 0, 0⟩ ∧
    totalAt TrafficStat.bucketKey TrafficStat.usage
      (run stepTraffic {} [⟨1800000, [sampleAt 0, sampleAt 1800000]⟩]).trafficStats (0, 1, 1)
        = ⟨100, 0, 0⟩ ∧
    ¬ TotalsAgree (fun _ => 7) (run stepTraffic {} [⟨1800000, [sampleAt 0, sampleAt 1800000]⟩]) := by
  have hempty : (run stepTraffic {} [⟨1800000, [sampleAt 0, sampleAt 1800000]⟩]).bucket 0 1 1
      = ⟨0, 0, 0⟩ := by decide +kernel
  have hsample : totalAt TrafficStat.bucketKey TrafficStat.usage
      (run stepTraffic {} [⟨1800000, [sampleAt 0, sampleAt 1800000]⟩]).trafficStats (0, 1, 1)
        = ⟨100, 0, 0⟩ := by decide +kernel
  refine ⟨by decide +kernel, hempty, hsample, ?_⟩
  intro h
  have hbucket := h.buckets 0 1 1
  rw [hempty, hsample] at hbucket
  cases hbucket

end ForwardX.Panel.Statistics
