/-
The queue of action status reports: `agent/action_status.go`.

A status may be replaced by a newer one of its action, taken into a batch, sent, or put back when
the post fails. The proof follows one action through all of this: its latest status is in the map,
in the batch in flight, or with the panel, and a batch that is put back never replaces what came in
since.
-/
import ForwardX.Lib.GoMap
import ForwardX.Lib.GoText
import ForwardX.Lib.Run
import Mathlib.Algebra.Order.Group.Int

namespace ForwardX.Agent.ActionStatus

open List

open Run (run run_invariant)
open GoText.Text (trimSpace)

/-! ## Reports -/

def actionStatusBatchSize : ℕ := 200

structure Config where
  panelURL : String
  token : String

structure Action where
  ruleID : ℤ
  tunnelID : ℤ
  statusType : String
  sourcePort : ℤ
  targetPort : ℤ
  forwardType : String
  protocol : String
  issuedAt : ℤ

structure ActionStatusPayload where
  ruleID : ℤ
  tunnelID : ℤ
  statusType : String
  sourcePort : ℤ
  targetPort : ℤ
  isRunning : Bool
  message : String
  forwardType : String
  protocol : String
  issuedAt : ℤ

structure ActionStatusReport where
  key : String
  cfg : Config
  payload : ActionStatusPayload

def actionStatusReportKey (payload : ActionStatusPayload) : String :=
  let statusType := trimSpace payload.statusType
  let statusType := if statusType = "" then "rule" else statusType
  if statusType = "runtime" then "runtime:" ++ trimSpace payload.forwardType
  else
    statusType ++ ":" ++ toString payload.ruleID ++ ":" ++ toString payload.tunnelID ++ ":" ++
      toString payload.sourcePort

/-- The report that `enqueueActionStatusReport` makes of its arguments. -/
def actionStatusReport (cfg : Config) (a : Action) (running : Bool) (message : String) : ActionStatusReport :=
  let statusType := trimSpace a.statusType
  let payload : ActionStatusPayload :=
    { ruleID := a.ruleID
      tunnelID := a.tunnelID
      statusType := if statusType = "" then "rule" else statusType
      sourcePort := a.sourcePort
      targetPort := a.targetPort
      isRunning := running
      message := trimSpace message
      forwardType := trimSpace a.forwardType
      protocol := trimSpace a.protocol
      issuedAt := a.issuedAt }
  ⟨actionStatusReportKey payload, cfg, payload⟩

/-! ## The queue -/

structure Queue where
  reports : GoMap String ActionStatusReport := ∅
  order : List String := []
  latestIssuedAt : GoMap String ℤ := ∅

/-- `actionStatusLatestIssuedAt[key]`. -/
def Queue.latestFor (q : Queue) (key : String) : ℤ := (q.latestIssuedAt.lookup key).getD 0

/-- A later status of the key has an issue time that this one has not reached. -/
def Queue.stale (q : Queue) (report : ActionStatusReport) : Bool :=
  0 < q.latestFor report.key &&
    (report.payload.issuedAt ≤ 0 || report.payload.issuedAt < q.latestFor report.key)

def Queue.enqueue (q : Queue) (report : ActionStatusReport) : Queue :=
  if q.stale report then q
  else
    { reports := q.reports.insert report.key report
      order := if (q.reports.lookup report.key).isSome then q.order else q.order ++ [report.key]
      latestIssuedAt :=
        if q.latestFor report.key < report.payload.issuedAt then
          q.latestIssuedAt.insert report.key report.payload.issuedAt
        else q.latestIssuedAt }

/-- The loop of `takeActionStatusReports` over the order: the map that is left, the reports taken and
the order that is left. -/
def takeLoop : List String → ℕ → GoMap String ActionStatusReport →
    GoMap String ActionStatusReport × List ActionStatusReport × List String
  | [], _, reports => (reports, [], [])
  | key :: order, 0, reports => (reports, [], key :: order)
  | key :: order, limit + 1, reports =>
    match reports.lookup key with
    | none => takeLoop order (limit + 1) reports
    | some report =>
      let (left, taken, rest) := takeLoop order limit (reports.erase key)
      (left, report :: taken, rest)

def takeActionStatusReports (q : Queue) (limit : ℕ) : Queue × List ActionStatusReport :=
  let (reports, taken, order) := takeLoop q.order (min limit q.order.length) q.reports
  ({ q with reports, order }, taken)

/-- One report of `restoreActionStatusReports`: the map, and the keys restored so far. -/
def Queue.restore (q : Queue) (restored : GoMap String ActionStatusReport × List String)
    (report : ActionStatusReport) : GoMap String ActionStatusReport × List String :=
  if q.stale report then restored
  else if (restored.1.lookup report.key).isSome then restored
  else (restored.1.insert report.key report, restored.2 ++ [report.key])

def restoreActionStatusReports (q : Queue) (reports : List ActionStatusReport) : Queue :=
  let (restored, toRestore) := reports.reverse.foldl q.restore (q.reports, [])
  { q with reports := restored, order := toRestore.reverse ++ q.order }

/-! ## The reporter -/

structure ReportGroup where
  cfg : Config
  reports : List ActionStatusReport

def groupKey (cfg : Config) : String := trimSpace cfg.panelURL ++ "\x00" ++ cfg.token

def addToGroup (report : ActionStatusReport) : List ReportGroup → List ReportGroup
  | [] => [⟨report.cfg, [report]⟩]
  | group :: groups =>
    if groupKey group.cfg = groupKey report.cfg then
      { group with reports := group.reports ++ [report] } :: groups
    else group :: addToGroup report groups

/-- The groups of `sendActionStatusReports`, in the order of their first reports. -/
def groupReports (reports : List ActionStatusReport) : List ReportGroup :=
  reports.foldl (fun groups report => addToGroup report groups) []

/-- What `post` returns: no error, one that `actionStatusBatchUnsupported` knows, or another. -/
inductive Posted where
  | ok
  | unsupported
  | failed

/-- The goroutine `actionStatusReporterLoop`: before it takes a batch, between the requests for its
groups, between single requests, or about to restore it. -/
inductive Reporter where
  | waiting
  | sending (batch : List ActionStatusReport) (groups : List ReportGroup)
  | singles (batch rest : List ActionStatusReport) (groups : List ReportGroup)
  | failed (batch : List ActionStatusReport)

structure State where
  queue : Queue := {}
  reporter : Option Reporter := none
  latest : GoMap String ActionStatusReport := ∅
  sent : List ActionStatusReport := []

inductive Event where
  | enqueue (cfg : Config) (a : Action) (running : Bool) (message : String)
  | start
  | take
  | post (posted : Posted)
  | restore

def State.enqueueActionStatusReport (s : State) (cfg : Config) (a : Action) (running : Bool) (message : String) :
    State :=
  let report := actionStatusReport cfg a running message
  { s with
    queue := s.queue.enqueue report
    latest := if s.queue.stale report then s.latest else s.latest.insert report.key report }

/-- `actionStatusReporterOnce.Do`. -/
def State.startActionStatusReporter (s : State) : State :=
  match s.reporter with
  | none => { s with reporter := some .waiting }
  | some _ => s

def State.posted (s : State) (posted : Posted) : State :=
  match s.reporter with
  | some (.sending batch (group :: groups)) =>
    match posted with
    | .ok => { s with reporter := some (.sending batch groups), sent := s.sent ++ group.reports }
    | .unsupported => { s with reporter := some (.singles batch group.reports groups) }
    | .failed => { s with reporter := some (.failed batch) }
  | some (.sending _ []) => { s with reporter := some .waiting }
  | some (.singles batch (report :: rest) groups) =>
    match posted with
    | .ok => { s with reporter := some (.singles batch rest groups), sent := s.sent ++ [report] }
    | .unsupported | .failed => { s with reporter := some (.failed batch) }
  | some (.singles batch [] groups) => { s with reporter := some (.sending batch groups) }
  | _ => s

def State.step (s : State) : Event → State
  | .enqueue cfg a running message => s.enqueueActionStatusReport cfg a running message
  | .start => s.startActionStatusReporter
  | .take =>
    match s.reporter with
    | some .waiting =>
      let (queue, batch) := takeActionStatusReports s.queue actionStatusBatchSize
      { s with queue, reporter := some (.sending batch (groupReports batch)) }
    | _ => s
  | .post posted => s.posted posted
  | .restore =>
    match s.reporter with
    | some (.failed batch) =>
      { s with queue := restoreActionStatusReports s.queue batch, reporter := some .waiting }
    | _ => s

/-! ## A list of the keys of a map -/

section

variable {order : List String} {reports : GoMap String ActionStatusReport} {key : String}
  {report : ActionStatusReport}

/-- The list has the keys of the map, each once. -/
def Listed (order : List String) (reports : GoMap String ActionStatusReport) : Prop :=
  order.Nodup ∧ ∀ key, key ∈ order ↔ (reports.lookup key).isSome = true

theorem listed_empty : Listed [] ∅ := ⟨.nil, fun _ => iff_of_false not_mem_nil Bool.false_ne_true⟩

theorem isSome_insert (key' : String) :
    ((reports.insert key report).lookup key').isSome = true ↔ key' = key ∨ (reports.lookup key').isSome = true := by
  by_cases hkey : key' = key
  · rw [hkey, AList.lookup_insert]
    exact iff_of_true rfl (.inl rfl)
  · rw [AList.lookup_insert_ne hkey]
    exact ⟨.inr, fun h => h.resolve_left hkey⟩

theorem Listed.overwrite (h : Listed order reports) (hkey : (reports.lookup key).isSome = true) :
    Listed order (reports.insert key report) := by
  refine ⟨h.1, fun key' => ?_⟩
  rw [isSome_insert, h.2]
  constructor
  · exact .inr
  · rintro (rfl | hold)
    · exact hkey
    · exact hold

theorem Listed.cons (h : Listed order reports) (hkey : (reports.lookup key).isSome ≠ true) :
    Listed (key :: order) (reports.insert key report) := by
  refine ⟨nodup_cons.mpr ⟨fun hmem => hkey ((h.2 key).mp hmem), h.1⟩, fun key' => ?_⟩
  rw [isSome_insert, mem_cons, h.2]

theorem Listed.perm {order' : List String} (h : Listed order reports) (hperm : order'.Perm order) :
    Listed order' reports :=
  ⟨hperm.nodup_iff.mpr h.1, fun key => hperm.mem_iff.trans (h.2 key)⟩

theorem Listed.concat (h : Listed order reports) (hkey : (reports.lookup key).isSome ≠ true) :
    Listed (order ++ [key]) (reports.insert key report) :=
  (h.cons hkey).perm (perm_append_singleton key order)

theorem Listed.tail (h : Listed (key :: order) reports) : Listed order (reports.erase key) := by
  obtain ⟨hnot, hnodup⟩ := nodup_cons.mp h.1
  refine ⟨hnodup, fun key' => ?_⟩
  by_cases hkey : key' = key
  · rw [hkey, AList.lookup_erase]
    exact iff_of_false hnot Bool.false_ne_true
  · rw [AList.lookup_erase_ne hkey, ← h.2, mem_cons]
    exact ⟨.inr, fun hmem => hmem.resolve_left hkey⟩

end

/-! ## What the operations do -/

/-- An issue time of zero or less is none. -/
def ActionStatusReport.issueTime (report : ActionStatusReport) : ℤ := max 0 report.payload.issuedAt

section

variable {q : Queue} {report : ActionStatusReport}

theorem Queue.latestFor_enqueue (hnonneg : ∀ key, 0 ≤ q.latestFor key) (hfresh : q.stale report = false) :
    (q.enqueue report).latestFor report.key = report.issueTime ∧ q.latestFor report.key ≤ report.issueTime ∧
      ∀ key, key ≠ report.key → (q.enqueue report).latestFor key = q.latestFor key := by
  have hlatest := hnonneg report.key
  have hother : ∀ key, key ≠ report.key → (q.enqueue report).latestFor key = q.latestFor key := by
    intro key hkey
    unfold Queue.enqueue
    rw [if_neg (by rw [hfresh]; exact Bool.false_ne_true)]
    unfold Queue.latestFor
    dsimp only
    split
    · rw [AList.lookup_insert_ne hkey]
    · rfl
  have hself : (q.enqueue report).latestFor report.key =
      if q.latestFor report.key < report.payload.issuedAt then report.payload.issuedAt
      else q.latestFor report.key := by
    unfold Queue.enqueue
    rw [if_neg (by rw [hfresh]; exact Bool.false_ne_true)]
    show ((if q.latestFor report.key < report.payload.issuedAt then
        q.latestIssuedAt.insert report.key report.payload.issuedAt
      else q.latestIssuedAt).lookup report.key).getD 0 = _
    by_cases hlater : q.latestFor report.key < report.payload.issuedAt
    · rw [if_pos hlater, if_pos hlater, AList.lookup_insert, Option.getD_some]
    · rw [if_neg hlater, if_neg hlater]
      rfl
  unfold Queue.stale at hfresh
  simp only [Bool.and_eq_false_iff, decide_eq_false_iff_not, Bool.or_eq_false_iff] at hfresh
  unfold ActionStatusReport.issueTime
  refine ⟨?_, ?_, hother⟩
  · rw [hself]
    split
    · omega
    · omega
  · omega

theorem Queue.not_stale (h : report.issueTime = q.latestFor report.key) : q.stale report = false := by
  unfold ActionStatusReport.issueTime at h
  unfold Queue.stale
  simp only [Bool.and_eq_false_iff, decide_eq_false_iff_not, Bool.or_eq_false_iff]
  omega

theorem takeLoop_spec (order : List String) : ∀ (limit : ℕ) (reports : GoMap String ActionStatusReport),
    Listed order reports → (∀ key report, reports.lookup key = some report → report.key = key) →
      Listed (takeLoop order limit reports).2.2 (takeLoop order limit reports).1 ∧
      ((takeLoop order limit reports).2.1.map fun report => report.key).Nodup ∧
      (∀ report ∈ (takeLoop order limit reports).2.1, reports.lookup report.key = some report ∧
        (takeLoop order limit reports).1.lookup report.key = none) ∧
      ∀ key, (takeLoop order limit reports).1.lookup key = reports.lookup key ∨
        ∃ report ∈ (takeLoop order limit reports).2.1, report.key = key := by
  induction order with
  | nil =>
    intro limit reports hlisted _
    exact ⟨hlisted, .nil, fun _ hmem => (by cases hmem), fun _ => .inl rfl⟩
  | cons key order ih =>
    intro limit reports hlisted hkeyed
    cases limit with
    | zero => exact ⟨hlisted, .nil, fun _ hmem => (by cases hmem), fun _ => .inl rfl⟩
    | succ limit =>
      obtain ⟨report, hreport⟩ := Option.isSome_iff_exists.mp ((hlisted.2 key).mp mem_cons_self)
      have hkey := hkeyed key report hreport
      have hkeyed' : ∀ key' report', (reports.erase key).lookup key' = some report' → report'.key = key' :=
        fun key' report' h => hkeyed key' report' (GoMap.lookup_erase_eq_some h).2
      obtain ⟨hrest, hnodup, htaken, hleft⟩ := ih limit (reports.erase key) hlisted.tail hkeyed'
      have hloop : takeLoop (key :: order) (limit + 1) reports =
          ((takeLoop order limit (reports.erase key)).1, report :: (takeLoop order limit (reports.erase key)).2.1,
            (takeLoop order limit (reports.erase key)).2.2) := by
        rw [takeLoop, hreport]
      rw [hloop]
      have hne : ∀ report' ∈ (takeLoop order limit (reports.erase key)).2.1, report'.key ≠ key :=
        fun report' hmem => (GoMap.lookup_erase_eq_some (htaken report' hmem).1).1
      refine ⟨hrest, ?_, ?_, ?_⟩
      · refine nodup_cons.mpr ⟨fun hmem => ?_, hnodup⟩
        obtain ⟨report', hmem', heq⟩ := mem_map.mp hmem
        exact hne report' hmem' (heq.trans hkey)
      · intro report' hmem
        obtain rfl | hold := mem_cons.mp hmem
        · refine ⟨hkey.symm ▸ hreport, ?_⟩
          obtain hsame | ⟨other, hother, heq⟩ := hleft report'.key
          · rw [hsame, hkey, AList.lookup_erase]
          · exact absurd (heq.trans hkey) (hne other hother)
        · exact ⟨(GoMap.lookup_erase_eq_some (htaken report' hold).1).2, (htaken report' hold).2⟩
      · intro key'
        obtain hsame | ⟨other, hother, heq⟩ := hleft key'
        · by_cases hkey' : key' = key
          · exact .inr ⟨report, mem_cons_self, hkey.trans hkey'.symm⟩
          · rw [AList.lookup_erase_ne hkey'] at hsame
            exact .inl hsame
        · exact .inr ⟨other, mem_cons_of_mem _ hother, heq⟩

theorem restore_spec (q : Queue) (reports : List ActionStatusReport) :
    ∀ restored : GoMap String ActionStatusReport × List String,
      Listed (restored.2.reverse ++ q.order) restored.1 →
      Listed ((reports.foldl q.restore restored).2.reverse ++ q.order) (reports.foldl q.restore restored).1 ∧
      (∀ key report, restored.1.lookup key = some report →
        (reports.foldl q.restore restored).1.lookup key = some report) ∧
      (∀ key report, (reports.foldl q.restore restored).1.lookup key = some report →
        restored.1.lookup key = some report ∨ (report ∈ reports ∧ report.key = key ∧ restored.1.lookup key = none)) ∧
      ∀ report ∈ reports, q.stale report = false →
        ((reports.foldl q.restore restored).1.lookup report.key).isSome = true := by
  induction reports with
  | nil =>
    intro restored hlisted
    exact ⟨hlisted, fun _ _ h => h, fun _ _ h => .inl h, fun _ hmem => (by cases hmem)⟩
  | cons report reports ih =>
    intro restored hlisted
    by_cases hskip : q.stale report = true ∨ (restored.1.lookup report.key).isSome = true
    · have hstep : q.restore restored report = restored := by
        unfold Queue.restore
        obtain hstale | hsome := hskip
        · exact if_pos hstale
        · rw [if_pos hsome]
          exact ite_self _
      obtain ⟨hnew, hkept, hfrom, hback⟩ := ih restored hlisted
      rw [foldl_cons, hstep]
      refine ⟨hnew, hkept, fun key report' h => ?_, fun report' hmem hfresh => ?_⟩
      · exact (hfrom key report' h).imp id fun ⟨hmem, heq⟩ => ⟨mem_cons_of_mem _ hmem, heq⟩
      · obtain rfl | hold := mem_cons.mp hmem
        · obtain hstale | hsome := hskip
          · rw [hfresh] at hstale
            cases hstale
          · obtain ⟨old, hold⟩ := Option.isSome_iff_exists.mp hsome
            rw [hkept _ old hold]
            rfl
        · exact hback report' hold hfresh
    · have hstale : q.stale report ≠ true := fun h => hskip (.inl h)
      have hnone : (restored.1.lookup report.key).isSome ≠ true := fun h => hskip (.inr h)
      have hstep : q.restore restored report =
          (restored.1.insert report.key report, restored.2 ++ [report.key]) := by
        unfold Queue.restore
        rw [if_neg hstale, if_neg hnone]
      have hlisted' : Listed ((q.restore restored report).2.reverse ++ q.order) (q.restore restored report).1 := by
        rw [hstep, reverse_append]
        exact hlisted.cons hnone
      obtain ⟨hnew, hkept, hfrom, hback⟩ := ih _ hlisted'
      rw [foldl_cons]
      rw [hstep] at hnew hkept hfrom hback ⊢
      refine ⟨hnew, fun key report' h => ?_, fun key report' h => ?_, fun report' hmem hfresh => ?_⟩
      · refine hkept key report' ?_
        have hne : key ≠ report.key := by
          rintro rfl
          exact hnone (Option.isSome_iff_exists.mpr ⟨report', h⟩)
        rw [AList.lookup_insert_ne hne]
        exact h
      · obtain hold | ⟨hmem, heq, hnone'⟩ := hfrom key report' h
        · obtain ⟨rfl, rfl⟩ | ⟨-, hbefore⟩ := GoMap.lookup_insert_eq_some hold
          · exact .inr ⟨mem_cons_self, rfl, Option.not_isSome_iff_eq_none.mp hnone⟩
          · exact .inl hbefore
        · refine .inr ⟨mem_cons_of_mem _ hmem, heq, ?_⟩
          by_cases hkey : key = report.key
          · rw [hkey, AList.lookup_insert] at hnone'
            cases hnone'
          · rwa [AList.lookup_insert_ne hkey] at hnone'
      · obtain rfl | hold := mem_cons.mp hmem
        · rw [hkept _ _ (AList.lookup_insert _)]
          rfl
        · exact hback report' hold hfresh

theorem mem_addToGroup (x report : ActionStatusReport) (groups : List ReportGroup) :
    x ∈ (addToGroup report groups).flatMap (fun group => group.reports) ↔
      x ∈ groups.flatMap (fun group => group.reports) ∨ x = report := by
  induction groups with
  | nil =>
    show x ∈ [report] ++ [] ↔ x ∈ [] ∨ x = report
    simp only [append_nil, mem_singleton, not_mem_nil, false_or]
  | cons group groups ih =>
    unfold addToGroup
    split
    · simp only [flatMap_cons, mem_append, mem_singleton]
      exact or_right_comm
    · rw [flatMap_cons, flatMap_cons, mem_append, mem_append, ih]
      exact or_assoc.symm

theorem mem_groupReports (x : ActionStatusReport) (reports : List ActionStatusReport) :
    x ∈ (groupReports reports).flatMap (fun group => group.reports) ↔ x ∈ reports := by
  have hfold : ∀ groups, x ∈ (reports.foldl (fun groups report => addToGroup report groups) groups).flatMap
      (fun group => group.reports) ↔ x ∈ groups.flatMap (fun group => group.reports) ∨ x ∈ reports := by
    induction reports with
    | nil => intro groups; simp only [foldl_nil, not_mem_nil, or_false]
    | cons report reports ih =>
      intro groups
      rw [foldl_cons, ih, mem_addToGroup, mem_cons, or_assoc]
  rw [groupReports, hfold]
  simp only [flatMap_nil, not_mem_nil, false_or]

end

/-! ## What the reporter holds -/

/-- The batch that was taken and not yet sent whole or restored. -/
def Reporter.batch : Reporter → List ActionStatusReport
  | .waiting => []
  | .sending batch _ => batch
  | .singles batch _ _ => batch
  | .failed batch => batch

/-- What of the batch no request has carried yet. -/
def Reporter.unsent : Reporter → List ActionStatusReport
  | .waiting => []
  | .sending _ groups => groups.flatMap fun group => group.reports
  | .singles _ rest groups => rest ++ groups.flatMap fun group => group.reports
  | .failed batch => batch

def State.batch (s : State) : List ActionStatusReport := (s.reporter.map Reporter.batch).getD []

def State.unsent (s : State) : List ActionStatusReport := (s.reporter.map Reporter.unsent).getD []

/-- What was sent for a key, in order of time. -/
def State.sentFor (s : State) (key : String) : List ActionStatusReport :=
  s.sent.filter fun report => report.key == key

/-- What waits is the newest of its key; what is in flight is, unless a newer one waits. -/
structure Kept (s : State) : Prop where
  listed : Listed s.queue.order s.queue.reports
  waiting : ∀ key report, s.queue.reports.lookup key = some report → s.latest.lookup key = some report
  newest : ∀ key report, s.latest.lookup key = some report →
    report.key = key ∧ report.issueTime = s.queue.latestFor key
  nonneg : ∀ key, 0 ≤ s.queue.latestFor key
  covered : ∀ key report, s.latest.lookup key = some report →
    s.queue.reports.lookup key = some report ∨ report ∈ s.batch ∨ report ∈ s.sent
  batchKeys : (s.batch.map fun report => report.key).Nodup
  batchNewest : ∀ report ∈ s.batch, s.queue.reports.lookup report.key = none →
    s.latest.lookup report.key = some report
  batchTime : ∀ report ∈ s.batch, report.issueTime ≤ s.queue.latestFor report.key
  unsent : ∀ report ∈ s.unsent, report ∈ s.batch
  carried : ∀ report ∈ s.batch, report ∈ s.sent ∨ report ∈ s.unsent
  sentTime : ∀ report ∈ s.sent, report.issueTime ≤ s.queue.latestFor report.key
  sentBefore : ∀ report ∈ s.sent, ∀ report' ∈ s.batch, report.key = report'.key →
    report.issueTime ≤ report'.issueTime
  order : ∀ key, (s.sentFor key).Pairwise fun a b => a.issueTime ≤ b.issueTime

theorem kept_init : Kept {} where
  listed := listed_empty
  waiting := fun _ _ h => by cases h
  newest := fun _ _ h => by cases h
  nonneg := fun _ => le_refl _
  covered := fun _ _ h => by cases h
  batchKeys := .nil
  batchNewest := fun _ h => by cases h
  batchTime := fun _ h => by cases h
  unsent := fun _ h => by cases h
  carried := fun _ h => by cases h
  sentTime := fun _ h => by cases h
  sentBefore := fun _ h => by cases h
  order := fun _ => .nil

section

variable {s : State}

section

variable (h : Kept s)

include h

theorem Kept.enqueue (cfg : Config) (a : Action) (running : Bool) (message : String) :
    Kept (s.step (.enqueue cfg a running message)) := by
  unfold State.step State.enqueueActionStatusReport
  dsimp only
  generalize actionStatusReport cfg a running message = report
  by_cases hstale : s.queue.stale report = true
  · have hsame : s.queue.enqueue report = s.queue := if_pos hstale
    rw [hsame, if_pos hstale]
    exact h
  · have hfresh : s.queue.stale report = false := Bool.eq_false_iff.mpr hstale
    obtain ⟨hself, hgrows, hother⟩ := Queue.latestFor_enqueue h.nonneg hfresh
    have hmono : ∀ key, s.queue.latestFor key ≤ (s.queue.enqueue report).latestFor key := by
      intro key
      by_cases hkey : key = report.key
      · rw [hkey, hself]
        exact hgrows
      · exact (hother key hkey).ge
    have hreports : (s.queue.enqueue report).reports = s.queue.reports.insert report.key report := by
      unfold Queue.enqueue
      rw [if_neg hstale]
    have hlisted : Listed (s.queue.enqueue report).order (s.queue.enqueue report).reports := by
      unfold Queue.enqueue
      rw [if_neg hstale]
      dsimp only
      by_cases hexists : (s.queue.reports.lookup report.key).isSome = true
      · rw [if_pos hexists]
        exact h.listed.overwrite hexists
      · rw [if_neg hexists]
        exact h.listed.concat hexists
    rw [if_neg hstale]
    refine ⟨hlisted, ?_, ?_, fun key => (h.nonneg key).trans (hmono key), ?_, h.batchKeys, ?_,
      fun report' hmem => (h.batchTime report' hmem).trans (hmono _), h.unsent, h.carried,
      fun report' hmem => (h.sentTime report' hmem).trans (hmono _), h.sentBefore, h.order⟩
    · intro key report' hlookup
      dsimp only at hlookup
      rw [hreports] at hlookup
      obtain ⟨rfl, rfl⟩ | ⟨hkey, hold⟩ := GoMap.lookup_insert_eq_some hlookup
      · exact AList.lookup_insert _
      · exact (AList.lookup_insert_ne hkey).trans (h.waiting key report' hold)
    · intro key report' hlookup
      obtain ⟨rfl, rfl⟩ | ⟨hkey, hold⟩ := GoMap.lookup_insert_eq_some hlookup
      · exact ⟨rfl, hself.symm⟩
      · exact ⟨(h.newest key report' hold).1, ((h.newest key report' hold).2).trans (hother key hkey).symm⟩
    · intro key report' hlookup
      dsimp only
      rw [hreports]
      obtain ⟨rfl, rfl⟩ | ⟨hkey, hold⟩ := GoMap.lookup_insert_eq_some hlookup
      · exact .inl (AList.lookup_insert _)
      · rw [AList.lookup_insert_ne hkey]
        exact h.covered key report' hold
    · intro report' hmem hnone
      dsimp only at hnone ⊢
      rw [hreports] at hnone
      have hkey : report'.key ≠ report.key := by
        intro hkey
        rw [hkey, AList.lookup_insert] at hnone
        cases hnone
      rw [AList.lookup_insert_ne hkey] at hnone ⊢
      exact h.batchNewest report' hmem hnone

theorem Kept.batch_inj {a b : ActionStatusReport} (ha : a ∈ s.batch) (hb : b ∈ s.batch)
    (hkey : a.key = b.key) : a = b :=
  inj_on_of_nodup_map h.batchKeys ha hb hkey

theorem Kept.sends (reporter : Reporter) {reports : List ActionStatusReport}
    (hbatch : reporter.batch = s.batch) (hreports : ∀ report ∈ reports, report ∈ s.batch)
    (hunsent : ∀ report, report ∈ reporter.unsent → report ∈ s.batch)
    (hcarried : ∀ report ∈ s.unsent, report ∈ reports ∨ report ∈ reporter.unsent) :
    Kept { s with reporter := some reporter, sent := s.sent ++ reports } where
  listed := h.listed
  waiting := h.waiting
  newest := h.newest
  nonneg := h.nonneg
  covered := fun key report hlookup =>
    (h.covered key report hlookup).imp id (Or.imp (hbatch ▸ id) (mem_append_left reports))
  batchKeys := by
    show (reporter.batch.map fun report => report.key).Nodup
    rw [hbatch]
    exact h.batchKeys
  batchNewest := fun report hmem => h.batchNewest report (hbatch ▸ hmem)
  batchTime := fun report hmem => h.batchTime report (hbatch ▸ hmem)
  unsent := by
    intro report hmem
    show report ∈ reporter.batch
    rw [hbatch]
    exact hunsent report hmem
  carried := by
    intro report hmem
    obtain hsent | hleft := h.carried report (hbatch ▸ hmem)
    · exact .inl (mem_append_left _ hsent)
    · exact (hcarried report hleft).imp (mem_append_right _) id
  sentTime := by
    intro report hmem
    obtain hold | hnew := mem_append.mp hmem
    · exact h.sentTime report hold
    · exact h.batchTime report (hreports report hnew)
  sentBefore := by
    intro report hmem report' hmem' hkey
    have hbatch' : report' ∈ s.batch := hbatch ▸ hmem'
    obtain hold | hnew := mem_append.mp hmem
    · exact h.sentBefore report hold report' hbatch' hkey
    · rw [h.batch_inj (hreports report hnew) hbatch' hkey]
  order := by
    intro key
    show ((s.sent ++ reports).filter fun report => report.key == key).Pairwise _
    rw [filter_append]
    refine pairwise_append.mpr ⟨h.order key, pairwise_of_forall_mem_list fun a ha b hb => ?_,
      fun a ha b hb => ?_⟩
    · obtain ⟨ha, hakey⟩ := mem_filter.mp ha
      obtain ⟨hb, hbkey⟩ := mem_filter.mp hb
      have hkey : a.key = b.key := (beq_iff_eq.mp hakey).trans (beq_iff_eq.mp hbkey).symm
      rw [h.batch_inj (hreports a ha) (hreports b hb) hkey]
    · obtain ⟨ha, hakey⟩ := mem_filter.mp ha
      obtain ⟨hb, hbkey⟩ := mem_filter.mp hb
      have hkey : a.key = b.key := (beq_iff_eq.mp hakey).trans (beq_iff_eq.mp hbkey).symm
      exact h.sentBefore a ha b (hreports b hb) hkey

theorem Kept.goesOn (reporter : Reporter) (hbatch : reporter.batch = s.batch)
    (hunsent : ∀ report, report ∈ reporter.unsent → report ∈ s.batch)
    (hcarried : ∀ report ∈ s.unsent, report ∈ reporter.unsent) : Kept { s with reporter := some reporter } := by
  have hsends : Kept { s with reporter := some reporter, sent := s.sent ++ [] } :=
    h.sends reporter hbatch nofun hunsent fun report hmem => .inr (hcarried report hmem)
  rwa [append_nil] at hsends

theorem Kept.take : Kept (s.step .take) := by
  unfold State.step
  dsimp only
  split
  · rename_i hreporter
    have hkeyed : ∀ key report, s.queue.reports.lookup key = some report → report.key = key :=
      fun key report hlookup => (h.newest key report (h.waiting key report hlookup)).1
    have hempty : s.batch = [] := by
      rw [State.batch, hreporter]
      rfl
    obtain ⟨hlisted, hnodup, htaken, hleft⟩ :=
      takeLoop_spec s.queue.order (min actionStatusBatchSize s.queue.order.length) s.queue.reports h.listed hkeyed
    unfold takeActionStatusReports
    dsimp only
    generalize takeLoop s.queue.order (min actionStatusBatchSize s.queue.order.length) s.queue.reports = loop at *
    obtain ⟨left, batch, order⟩ := loop
    have hnewest : ∀ report ∈ batch, s.latest.lookup report.key = some report :=
      fun report hmem => h.waiting _ _ (htaken report hmem).1
    refine ⟨hlisted, ?_, h.newest, h.nonneg, ?_, hnodup, fun report hmem _ => hnewest report hmem,
      fun report hmem => (h.newest _ _ (hnewest report hmem)).2.le, ?_, ?_, h.sentTime, ?_, h.order⟩
    · intro key report hlookup
      obtain hsame | ⟨other, hother, heq⟩ := hleft key
      · exact h.waiting key report (hsame ▸ hlookup)
      · have hnone := (htaken other hother).2
        rw [heq] at hnone
        cases hnone.symm.trans hlookup
    · intro key report hlookup
      obtain hwaits | hbatch | hsent := h.covered key report hlookup
      · obtain hsame | ⟨other, hother, heq⟩ := hleft key
        · exact .inl (hsame.trans hwaits)
        · have hfound := (htaken other hother).1
          rw [heq, hwaits] at hfound
          rw [Option.some.inj hfound]
          exact .inr (.inl hother)
      · rw [hempty] at hbatch
        cases hbatch
      · exact .inr (.inr hsent)
    · exact fun report hmem => (mem_groupReports report batch).mp hmem
    · exact fun report hmem => .inr ((mem_groupReports report batch).mpr hmem)
    · intro report hmem report' hmem' hkey
      rw [(h.newest _ _ (hnewest report' hmem')).2, ← hkey]
      exact h.sentTime report hmem
  · exact h

theorem Kept.restore : Kept (s.step .restore) := by
  unfold State.step
  dsimp only
  split
  · rename_i batch hreporter
    have hbatch : s.batch = batch := by
      rw [State.batch, hreporter]
      rfl
    have hspec := restore_spec s.queue batch.reverse (s.queue.reports, []) h.listed
    unfold restoreActionStatusReports
    dsimp only
    generalize batch.reverse.foldl s.queue.restore (s.queue.reports, []) = restored at *
    obtain ⟨hlisted, hkept, hfrom, hback⟩ := hspec
    refine ⟨hlisted, ?_, h.newest, h.nonneg, ?_, .nil, fun _ hmem => (by cases hmem), fun _ hmem => (by cases hmem),
      fun _ hmem => (by cases hmem), fun _ hmem => (by cases hmem), h.sentTime, fun _ _ _ hmem => (by cases hmem),
      h.order⟩
    · intro key report hlookup
      obtain hold | ⟨hmem, rfl, hnone⟩ := hfrom key report hlookup
      · exact h.waiting key report hold
      · exact h.batchNewest report (hbatch ▸ mem_reverse.mp hmem) hnone
    · intro key report hlookup
      obtain hwaits | hmem | hsent := h.covered key report hlookup
      · exact .inl (hkept key report hwaits)
      · -- the newest of its key is not stale, so it waits again
        obtain ⟨hkey, htime⟩ := h.newest key report hlookup
        rw [← hkey] at htime hlookup ⊢
        have hsome := hback report (mem_reverse.mpr (hbatch ▸ hmem)) (Queue.not_stale htime)
        obtain ⟨found, hfound⟩ := Option.isSome_iff_exists.mp hsome
        obtain hold | ⟨-, -, hnone⟩ := hfrom report.key found hfound
        · have hnewest := h.waiting report.key found hold
          rw [hlookup] at hnewest
          rw [← Option.some.inj hnewest] at hfound
          exact .inl hfound
        · obtain hold | ⟨hmem', heq, -⟩ := hfrom report.key found hfound
          · cases hnone.symm.trans hold
          · have hsame : found = report := h.batch_inj (hbatch ▸ mem_reverse.mp hmem') hmem heq
            rw [hsame] at hfound
            exact .inl hfound
      · exact .inr (.inr hsent)
  · exact h

theorem Kept.start : Kept (s.step .start) := by
  unfold State.step State.startActionStatusReporter
  dsimp only
  split
  · rename_i hreporter
    have hbatch : s.batch = [] := by
      rw [State.batch, hreporter]
      rfl
    have hunsent : s.unsent = [] := by
      rw [State.unsent, hreporter]
      rfl
    refine h.goesOn .waiting hbatch.symm (fun _ hmem => (by cases hmem)) fun report hmem => ?_
    rw [hunsent] at hmem
    cases hmem
  · exact h

end

theorem State.batch_of {reporter : Reporter} (hreporter : s.reporter = some reporter) :
    s.batch = reporter.batch ∧ s.unsent = reporter.unsent := by
  rw [State.batch, State.unsent, hreporter]
  exact ⟨rfl, rfl⟩

theorem Kept.done (h : Kept s) (hunsent : s.unsent = []) : Kept { s with reporter := some .waiting } where
  listed := h.listed
  waiting := h.waiting
  newest := h.newest
  nonneg := h.nonneg
  covered := by
    intro key report hlookup
    obtain hwaits | hmem | hsent := h.covered key report hlookup
    · exact .inl hwaits
    · obtain hsent | hleft := h.carried report hmem
      · exact .inr (.inr hsent)
      · rw [hunsent] at hleft
        cases hleft
    · exact .inr (.inr hsent)
  batchKeys := .nil
  batchNewest := fun _ hmem => by cases hmem
  batchTime := fun _ hmem => by cases hmem
  unsent := fun _ hmem => by cases hmem
  carried := fun _ hmem => by cases hmem
  sentTime := h.sentTime
  sentBefore := fun _ _ _ hmem => by cases hmem
  order := h.order

theorem Kept.post (h : Kept s) (posted : Posted) : Kept (s.step (.post posted)) := by
  show Kept (s.posted posted)
  unfold State.posted
  split
  · rename_i batch group groups hreporter
    obtain ⟨hbatch, hleft⟩ : s.batch = batch ∧
        s.unsent = group.reports ++ groups.flatMap fun group => group.reports := State.batch_of hreporter
    have hall : ∀ report ∈ s.unsent, report ∈ batch := fun report hmem => hbatch ▸ h.unsent report hmem
    have hrest : ∀ report, (report ∈ group.reports ∨ report ∈ groups.flatMap fun group => group.reports) →
        report ∈ s.batch := fun report hmem => h.unsent report (hleft ▸ mem_append.mpr hmem)
    cases posted with
    | ok =>
      exact h.sends (.sending batch groups) hbatch.symm (fun report hmem => hrest report (.inl hmem))
        (fun report hmem => hrest report (.inr hmem)) fun report hmem => mem_append.mp (hleft ▸ hmem)
    | unsupported =>
      exact h.goesOn (.singles batch group.reports groups) hbatch.symm
        (fun report hmem => hrest report (mem_append.mp hmem)) fun report hmem => by
          rw [hleft] at hmem
          exact hmem
    | failed =>
      exact h.goesOn (.failed batch) hbatch.symm (fun report hmem => hbatch ▸ hmem) hall
  · rename_i batch hreporter
    exact h.done (State.batch_of hreporter).2
  · rename_i batch report rest groups hreporter
    obtain ⟨hbatch, hleft⟩ : s.batch = batch ∧
        s.unsent = report :: (rest ++ groups.flatMap fun group => group.reports) := State.batch_of hreporter
    have hall : ∀ report ∈ s.unsent, report ∈ batch := fun report hmem => hbatch ▸ h.unsent report hmem
    have hfails : Kept { s with reporter := some (.failed batch) } :=
      h.goesOn (.failed batch) hbatch.symm (fun report hmem => hbatch ▸ hmem) hall
    cases posted with
    | ok =>
      refine h.sends (.singles batch rest groups) hbatch.symm (fun report' hmem => ?_)
        (fun report' hmem => ?_) fun report' hmem => ?_
      · rw [mem_singleton.mp hmem]
        exact h.unsent report (hleft ▸ mem_cons_self)
      · exact h.unsent report' (hleft ▸ mem_cons_of_mem _ hmem)
      · rw [hleft] at hmem
        exact (mem_cons.mp hmem).imp mem_singleton.mpr id
    | unsupported | failed => exact hfails
  · rename_i batch groups hreporter
    obtain ⟨hbatch, hunsent⟩ : s.batch = batch ∧
        s.unsent = groups.flatMap fun group => group.reports := State.batch_of hreporter
    exact h.goesOn (.sending batch groups) hbatch.symm
      (fun report hmem => h.unsent report (hunsent ▸ hmem)) fun report hmem => by
        rw [hunsent] at hmem
        exact hmem
  · exact h

theorem Kept.step (h : Kept s) (e : Event) : Kept (s.step e) := by
  cases e with
  | enqueue cfg a running message => exact h.enqueue cfg a running message
  | start => exact h.start
  | take => exact h.take
  | post posted => exact h.post posted
  | restore => exact h.restore

end

/-! ## Every run -/

/-- **No status is lost or overtaken.** In whatever order statuses come in and batches are taken, sent
and restored, the order lists the keys of the map, each once. -/
theorem statuses_kept (events : List Event) :
    let s := run State.step {} events
    (s.queue.order.Nodup ∧ ∀ key, key ∈ s.queue.order ↔ (s.queue.reports.lookup key).isSome = true) ∧
      (∀ key, (s.sentFor key).Pairwise fun a b => a.issueTime ≤ b.issueTime) ∧
      (∀ key report, s.latest.lookup key = some report →
        s.queue.reports.lookup key = some report ∨ report ∈ s.batch ∨ report ∈ s.sent) ∧
      ∀ key report, s.queue.reports.lookup key = some report → s.latest.lookup key = some report := by
  intro s
  have h : Kept s := run_invariant (fun _ e hs => hs.step e) events _ kept_init
  exact ⟨h.listed, h.order, h.covered, h.waiting⟩

def ruleAction (issuedAt : ℤ) : Action where
  ruleID := 1
  tunnelID := 0
  statusType := ""
  sourcePort := 8080
  targetPort := 80
  forwardType := "realm"
  protocol := "tcp"
  issuedAt := issuedAt

theorem negative_issue_times_fall :
    ¬ ∀ (events : List Event) (key : String), ((run State.step {} events).sentFor key).Pairwise
      fun a b => a.payload.issuedAt ≤ b.payload.issuedAt := by
  intro h
  have hpanel := h [.start, .enqueue ⟨"https://panel.example", "t"⟩ (ruleAction (-1)) true "", .take, .post .ok,
    .post .ok, .enqueue ⟨"https://panel.example", "t"⟩ (ruleAction (-2)) false "", .take, .post .ok] "rule:1:0:8080"
  revert hpanel
  decide +kernel

end ForwardX.Agent.ActionStatus
