/-
`claimAgentTrafficReport` of `server/repositories/metricsRepository.ts`: the table that keeps a
retried traffic report from being billed twice.

The panel keeps the id of the last report of a producer. A retry is dropped by it, and a duplicate
is timely as long as no later report has been credited.
-/
import ForwardX.Lib.Run
import ForwardX.Panel.JsValues

namespace ForwardX.Panel

open Run List

/-! ## Ids of the request body -/

/-- `.trim().slice(0, 128)`, the cleaning of both ids. -/
def cleanId (s : JsString) : JsString := (trim s).take 128

/-! ## The table `agent_traffic_reports` -/

structure Row where
  hostId : ℤ
  producerId : Option JsString
  reportId : JsString
  receivedAt : ℤ

/-- Two rows violate one of the unique keys. A `NULL` producer equals nothing. -/
def Row.conflicts (r r' : Row) : Bool :=
  r.hostId == r'.hostId &&
    (r.reportId == r'.reportId || (r.producerId.isSome && r.producerId == r'.producerId))

/-- `INSERT IGNORE`, or `INSERT … ON CONFLICT DO NOTHING`, with the number of
affected rows. -/
def insertIgnore (t : List Row) (r : Row) : List Row × ℕ :=
  if t.any r.conflicts then (t, 0) else (t ++ [r], 1)

/-- The row `UPDATE … SET reportId = key WHERE … AND reportId <> key` selects. -/
def Row.isOtherHead (hostId : ℤ) (producer key : JsString) (r : Row) : Bool :=
  r.hostId == hostId && r.producerId == some producer && r.reportId != key

/-- That update, with the number of affected rows. It fails on the unique key
`(hostId, reportId)` when a row it does not select holds the new id already. -/
def replaceHead (t : List Row) (nowSec hostId : ℤ) (producer key : JsString) : Except String (List Row × ℕ) :=
  let selected := t.filter (Row.isOtherHead hostId producer key)
  if selected ≠ [] ∧ t.any (fun r => r.hostId == hostId && r.reportId == key) then
    .error "UNIQUE constraint failed: agent_traffic_reports.hostId, agent_traffic_reports.reportId"
  else
    .ok (t.map fun r => if r.isOtherHead hostId producer key
      then { r with reportId := key, receivedAt := nowSec } else r, selected.length)

/-- `UPDATE … SET receivedAt = ?` on the rows that satisfy `sel`. -/
def touch (sel : Row → Bool) (nowSec : ℤ) (t : List Row) : List Row :=
  t.map fun r => if sel r then { r with receivedAt := nowSec } else r

/-- `claimAgentTrafficReport`: the table after the call and its answer, or the
database error that aborts the transaction. -/
def claimAgentTrafficReport (t : List Row) (nowSec hostId : ℤ) (reportId producerId : JsString) :
    Except String (List Row × Bool) :=
  let key := cleanId reportId
  let producer := cleanId producerId
  if hostId ≤ 0 ∨ key = [] then .ok (t, true)
  else if producer = [] then
    -- the reportId-only protocol: one row per report
    let (t₁, inserted) := insertIgnore t ⟨hostId, none, key, nowSec⟩
    if inserted > 0 then .ok (t₁, true)
    else .ok (touch (fun r => r.hostId == hostId && r.reportId == key) nowSec t₁, false)
  else
    let (t₁, inserted) := insertIgnore t ⟨hostId, some producer, key, nowSec⟩
    if inserted > 0 then .ok (t₁, true)
    else match replaceHead t₁ nowSec hostId producer key with
      | .error e => .error e
      | .ok (t₂, updated) =>
        if updated > 0 then .ok (t₂, true)
        else .ok (touch (fun r => r.hostId == hostId && r.producerId == some producer &&
          r.reportId == key) nowSec t₂, false)

def LEGACY_TRAFFIC_REPORT_RETENTION_HOURS : ℤ := 7 * 24

/-- `retentionCutoffSeconds`, at the clock reading `nowMs`. -/
def retentionCutoffSeconds (nowMs retainHours : ℤ) : ℤ :=
  (nowMs - max 1 retainHours * 60 * 60 * 1000) / 1000

/-- The part of `cleanOldTrafficStats` that touches this table. -/
def cleanOldTrafficStats (t : List Row) (nowMs retainHours : ℤ) : List Row :=
  let reportCutoff := retentionCutoffSeconds nowMs
    (max retainHours LEGACY_TRAFFIC_REPORT_RETENTION_HOURS)
  t.filter fun r => !(r.producerId.isNone && decide (r.receivedAt < reportCutoff))

/-! ## What the statements keep and change -/

/-- The table holds report `key` of host `hostId` for the producer `producer`. -/
def Holds (t : List Row) (hostId : ℤ) (producer : Option JsString) (key : JsString) : Prop :=
  ∃ r ∈ t, r.hostId = hostId ∧ r.producerId = producer ∧ r.reportId = key

instance (t : List Row) (hostId : ℤ) (producer : Option JsString) (key : JsString) :
    Decidable (Holds t hostId producer key) :=
  inferInstanceAs (Decidable (∃ r ∈ t, _))

variable {t t' : List Row}

theorem holds_append_left {h : ℤ} {p : Option JsString} {k : JsString}
    (hold : Holds t h p k) : Holds (t ++ t') h p k := by
  obtain ⟨r, hr, hrow⟩ := hold
  exact ⟨r, mem_append_left _ hr, hrow⟩

variable {t : List Row}

theorem holds_touch {sel : Row → Bool} {now : ℤ} {h : ℤ} {p : Option JsString}
    {k : JsString} (hold : Holds t h p k) : Holds (touch sel now t) h p k := by
  obtain ⟨r, hr, hrow⟩ := hold
  refine ⟨_, mem_map_of_mem hr, ?_⟩
  by_cases hsel : sel r = true
  · rw [if_pos hsel]; exact hrow
  · rw [if_neg hsel]; exact hrow

variable {p k : JsString}

theorem holds_cleanOldTrafficStats {nowMs hours h : ℤ}
    (hold : Holds t h (some p) k) : Holds (cleanOldTrafficStats t nowMs hours) h (some p) k := by
  obtain ⟨r, hr, hhost, hprod, hrep⟩ := hold
  refine ⟨r, mem_filter.mpr ⟨hr, ?_⟩, hhost, hprod, hrep⟩
  rw [hprod]; rfl

theorem insertIgnore_cases (t : List Row) (r : Row) :
    insertIgnore t r = (t, 0) ∨ insertIgnore t r = (t ++ [r], 1) := by
  unfold insertIgnore
  by_cases hconf : t.any r.conflicts = true
  · rw [if_pos hconf]; exact .inl rfl
  · rw [if_neg hconf]; exact .inr rfl

theorem holds_append_row (t : List Row) (h now : ℤ) (p : Option JsString) (k : JsString) :
    Holds (t ++ [⟨h, p, k, now⟩]) h p k :=
  ⟨_, mem_append_right _ (mem_singleton_self _), rfl, rfl, rfl⟩

theorem insertIgnore_of_holds {h now : ℤ} {p q : Option JsString} {k : JsString}
    (hold : Holds t h q k) : insertIgnore t ⟨h, p, k, now⟩ = (t, 0) := by
  obtain ⟨r, hr, hhost, -, hrep⟩ := hold
  refine if_pos (any_eq_true.mpr ⟨r, hr, ?_⟩)
  simp [Row.conflicts, hhost, hrep]

theorem replaceHead_of_holds {h now : ℤ} {q : Option JsString} {n : ℕ} (hold : Holds t h q k)
    (hup : replaceHead t now h p k = .ok (t', n)) : n = 0 := by
  obtain ⟨r, hr, hhost, -, hrep⟩ := hold
  have hany : t.any (fun r => r.hostId == h && r.reportId == k) = true :=
    any_eq_true.mpr ⟨r, hr, by simp [hhost, hrep]⟩
  unfold replaceHead at hup
  by_cases hsel : t.filter (Row.isOtherHead h p k) = []
  · rw [if_neg (by simp [hsel])] at hup
    cases hup
    rw [hsel, length_nil]
  · rw [if_pos ⟨hsel, hany⟩] at hup
    cases hup

theorem replaceHead_holds {h now : ℤ} {n : ℕ} (hup : replaceHead t now h p k = .ok (t', n)) :
    (0 < n → Holds t' h (some p) k) ∧
      ∀ h' p' k', (0 < n → h' = h → p' = some p → k' = k) →
        Holds t h' p' k' → Holds t' h' p' k' := by
  unfold replaceHead at hup
  dsimp only at hup
  split_ifs at hup
  cases hup
  constructor
  · intro hpos
    obtain ⟨r, hr⟩ := exists_mem_of_length_pos hpos
    obtain ⟨hmem, hsel⟩ := mem_filter.mp hr
    refine ⟨_, mem_map_of_mem hmem, ?_⟩
    rw [if_pos hsel]
    simp only [Row.isOtherHead, Bool.and_eq_true, beq_iff_eq] at hsel
    exact ⟨hsel.1.1, hsel.1.2, rfl⟩
  · rintro h' p' k' hsame ⟨r, hr, hhost, hprod, hrep⟩
    refine ⟨_, mem_map_of_mem hr, ?_⟩
    -- a selected row would be the producer's own, with another report in it
    have hnot : ¬ r.isOtherHead h p k = true := by
      intro hsel
      have hpos := length_pos_of_mem (mem_filter.mpr ⟨hr, hsel⟩)
      simp only [Row.isOtherHead, Bool.and_eq_true, beq_iff_eq, bne_iff_ne] at hsel
      obtain ⟨⟨hh, hp⟩, hne⟩ := hsel
      rw [hrep] at hne
      exact hne (hsame hpos (hhost.symm.trans hh) (hprod.symm.trans hp))
    rw [if_neg hnot]
    exact ⟨hhost, hprod, hrep⟩

/-! ## One call -/

def producerColumn (producer : JsString) : Option JsString :=
  if producer = [] then none else some producer

variable {reportId producerId : JsString}

theorem claim_of_holds {now h : ℤ}
    {q : Option JsString} {b : Bool} (hpos : 0 < h) (hkey : cleanId reportId ≠ [])
    (hold : Holds t h q (cleanId reportId))
    (hc : claimAgentTrafficReport t now h reportId producerId = .ok (t', b)) : b = false := by
  unfold claimAgentTrafficReport at hc
  dsimp only at hc
  have hid : ¬ (h ≤ 0 ∨ cleanId reportId = []) := not_or.mpr ⟨Int.not_le.mpr hpos, hkey⟩
  rw [if_neg hid] at hc
  simp only [insertIgnore_of_holds hold, gt_iff_lt, lt_irrefl, if_false] at hc
  by_cases hprod : cleanId producerId = []
  · rw [if_pos hprod] at hc
    cases hc; rfl
  · rw [if_neg hprod] at hc
    rcases hup : replaceHead t now h (cleanId producerId) (cleanId reportId) with e | ⟨t₂, n⟩
    · rw [hup] at hc; cases hc
    · rw [hup, replaceHead_of_holds hold hup] at hc
      cases hc; rfl

theorem claim_holds {now h : ℤ} {b : Bool}
    (hc : claimAgentTrafficReport t now h reportId producerId = .ok (t', b)) :
    (0 < h → cleanId reportId ≠ [] → b = true →
      Holds t' h (producerColumn (cleanId producerId)) (cleanId reportId)) ∧
    ∀ h' p' k', (b = true → h' = h → p' = some (cleanId producerId) → k' = cleanId reportId) →
      Holds t h' p' k' → Holds t' h' p' k' := by
  unfold claimAgentTrafficReport at hc
  dsimp only at hc
  by_cases hid : h ≤ 0 ∨ cleanId reportId = []
  · rw [if_pos hid] at hc
    cases hc
    refine ⟨fun hpos hkey _ => ?_, fun _ _ _ _ hold => hold⟩
    rcases hid with hid | hid
    · exact absurd hid (Int.not_le.mpr hpos)
    · exact absurd hid hkey
  rw [if_neg hid] at hc
  by_cases hprod : cleanId producerId = []
  -- the report-id-only protocol: the row is inserted, or it was there
  · rw [if_pos hprod] at hc
    rw [hprod, producerColumn, if_pos rfl]
    rcases insertIgnore_cases t ⟨h, none, cleanId reportId, now⟩ with hins | hins
    · rw [hins] at hc
      cases hc
      exact ⟨fun _ _ hbad => absurd hbad (by decide), fun _ _ _ _ hold => holds_touch hold⟩
    · rw [hins] at hc
      cases hc
      exact ⟨fun _ _ _ => holds_append_row t h now none _,
        fun _ _ _ _ hold => holds_append_left hold⟩
  -- a producer has one row, whose report id moves to the new one
  · rw [if_neg hprod] at hc
    rw [producerColumn, if_neg hprod]
    rcases insertIgnore_cases t ⟨h, some (cleanId producerId), cleanId reportId, now⟩ with
      hins | hins
    · rw [hins] at hc
      rcases hup : replaceHead t now h (cleanId producerId) (cleanId reportId) with e | ⟨t₂, n⟩
      · rw [hup] at hc; cases hc
      · rw [hup] at hc
        obtain ⟨hnew, hkeep⟩ := replaceHead_holds hup
        dsimp only at hc
        by_cases hn : n > 0
        · rw [if_neg (lt_irrefl 0), if_pos hn] at hc
          cases hc
          exact ⟨fun _ _ _ => hnew hn, fun h' p' k' hsame => hkeep h' p' k' fun _ => hsame rfl⟩
        · rw [if_neg (lt_irrefl 0), if_neg hn] at hc
          cases hc
          exact ⟨fun _ _ hbad => absurd hbad (by decide), fun h' p' k' _ hold =>
            holds_touch (hkeep h' p' k' (fun hpos => absurd hpos hn) hold)⟩
    · rw [hins] at hc
      cases hc
      exact ⟨fun _ _ _ => holds_append_row t h now _ _,
        fun _ _ _ _ hold => holds_append_left hold⟩

theorem claim_of_superseded {h : ℤ} {reportId producerId other : JsString}
    (now : ℤ) (hpos : 0 < h) (hkey : cleanId reportId ≠ []) (hprod : cleanId producerId ≠ [])
    (hother : Holds t h (some (cleanId producerId)) other) (hne : other ≠ cleanId reportId)
    (hfree : ∀ q, ¬ Holds t h q (cleanId reportId)) :
    ∃ t', claimAgentTrafficReport t now h reportId producerId = .ok (t', true) := by
  obtain ⟨r, hr, hhost, hrprod, hrep⟩ := hother
  have hconf : insertIgnore t ⟨h, some (cleanId producerId), cleanId reportId, now⟩ = (t, 0) :=
    if_pos (any_eq_true.mpr ⟨r, hr, by simp [Row.conflicts, hhost, hrprod]⟩)
  have hsel : r ∈ t.filter (Row.isOtherHead h (cleanId producerId) (cleanId reportId)) :=
    mem_filter.mpr ⟨hr, by simp [Row.isOtherHead, hhost, hrprod, hrep, hne]⟩
  have hunique : ¬ t.any (fun r => r.hostId == h && r.reportId == cleanId reportId) = true := by
    rw [any_eq_true]
    rintro ⟨r', hr', hrow⟩
    rw [Bool.and_eq_true, beq_iff_eq, beq_iff_eq] at hrow
    exact hfree r'.producerId ⟨r', hr', hrow.1, rfl, hrow.2⟩
  have hid : ¬ (h ≤ 0 ∨ cleanId reportId = []) := not_or.mpr ⟨Int.not_le.mpr hpos, hkey⟩
  unfold claimAgentTrafficReport replaceHead
  dsimp only
  rw [if_neg hid, if_neg hprod, hconf, if_neg (lt_irrefl 0), if_neg fun hbad => hunique hbad.2]
  dsimp only
  rw [if_pos (length_pos_of_mem hsel)]
  exact ⟨_, rfl⟩

/-! ## The panel over a run of deliveries -/

/-- One request to `/api/agent/traffic`: the host its token names, the two ids
of its body (`[]` when absent), the clock, and whether the transaction around
the claim commits. -/
structure Delivery where
  hostId : ℤ
  reportId : JsString
  reportProducerId : JsString
  nowMs : ℤ
  commits : Bool

inductive Event where
  | deliver (d : Delivery)
  | clean (nowMs retainHours : ℤ)

/-- A credited report, by the ids `claimAgentTrafficReport` compares. -/
structure Credit where
  hostId : ℤ
  producerId : JsString
  reportId : JsString
  deriving DecidableEq

/-- The table and, newest first, the reports credited so far. -/
structure PanelState where
  table : List Row
  credited : List Credit

def PanelState.new : PanelState := ⟨[], []⟩

def Delivery.credit (d : Delivery) : Credit where
  hostId := d.hostId
  producerId := cleanId (cleanId d.reportProducerId)
  reportId := cleanId (cleanId d.reportId)

/-- The traffic route up to the claim. A report without an id is accounted
without one and is no identified report; an error or a rollback leaves the
table as it was. -/
def PanelState.deliver (s : PanelState) (d : Delivery) : PanelState :=
  let trafficReportId := cleanId d.reportId
  let trafficReportProducerId := cleanId d.reportProducerId
  if trafficReportId = [] then s
  else match claimAgentTrafficReport s.table (d.nowMs / 1000) d.hostId trafficReportId
      trafficReportProducerId with
    | .error _ => s
    | .ok (t, claimed) =>
      if d.commits then
        ⟨t, if claimed then d.credit :: s.credited else s.credited⟩
      else s

def PanelState.step (s : PanelState) : Event → PanelState
  | .deliver d => s.deliver d
  | .clean nowMs retainHours => { s with table := cleanOldTrafficStats s.table nowMs retainHours }

def PanelState.lastCredited (s : PanelState) (hostId : ℤ) (producer : JsString) : Option JsString :=
  (s.credited.find? fun c => c.hostId == hostId && c.producerId == producer).map Credit.reportId

/-- A report that was credited comes back only while it is the last one credited
for its producer; one without a producer only while its row is in the table. -/
def PanelState.TimelyDuplicate (s : PanelState) : Event → Prop
  | .deliver d => d.credit ∈ s.credited → 0 < d.hostId ∧
      if d.credit.producerId = [] then Holds s.table d.hostId none d.credit.reportId
      else s.lastCredited d.hostId d.credit.producerId = some d.credit.reportId
  | .clean _ _ => True

instance (s : PanelState) : ∀ e, Decidable (s.TimelyDuplicate e)
  | .deliver d => by unfold PanelState.TimelyDuplicate; infer_instance
  | .clean _ _ => .isTrue trivial

/-- No report is credited twice, and the table remembers the last report of every
producer. -/
structure PanelState.Inv (s : PanelState) : Prop where
  once : s.credited.Nodup
  remembers : ∀ h p k, 0 < h → p ≠ [] → s.lastCredited h p = some k → Holds s.table h (some p) k

theorem PanelState.inv_new : PanelState.new.Inv where
  once := nodup_nil
  remembers := by
    intro h p k _ _ hlast
    cases hlast

theorem cleanId_cleanId_ne_nil {s : JsString} (h : cleanId s ≠ []) : cleanId (cleanId s) ≠ [] := by
  obtain ⟨a, l, hl⟩ := exists_cons_of_ne_nil h
  have hpre : cleanId s <+: s.dropWhile isJsSpace :=
    (List.take_prefix 128 _).trans (List.rdropWhile_prefix _ _)
  obtain ⟨r, hr⟩ := hl ▸ hpre
  have ha : isJsSpace a = false := by
    have hhead := head_dropWhile_not isJsSpace (l := s) (by rw [← hr]; simp)
    simpa only [← hr, cons_append, head_cons] using hhead
  rw [hl, cleanId, trim, dropWhile_cons_of_neg (by simp [ha]), Ne, take_eq_nil_iff,
    rdropWhile_eq_nil_iff]
  rintro (h0 | hall)
  · exact absurd h0 (by decide)
  · exact absurd (hall a mem_cons_self) (by simp [ha])

theorem claim_refused {s : PanelState} (hs : s.Inv) {d : Delivery} {b : Bool}
    (hid : cleanId d.reportId ≠ []) (hok : s.TimelyDuplicate (.deliver d)) (hmem : d.credit ∈ s.credited)
    (hc : claimAgentTrafficReport s.table (d.nowMs / 1000) d.hostId (cleanId d.reportId)
      (cleanId d.reportProducerId) = .ok (t, b)) : b = false := by
  obtain ⟨hpos, hlast⟩ := hok hmem
  have hkey := cleanId_cleanId_ne_nil hid
  by_cases hprod : d.credit.producerId = []
  · rw [if_pos hprod] at hlast
    exact claim_of_holds hpos hkey hlast hc
  · rw [if_neg hprod] at hlast
    exact claim_of_holds hpos hkey (hs.remembers _ _ _ hpos hprod hlast) hc

open PanelState

theorem lastCredited_cons (t t' : List Row) (c : Credit) (cs : List Credit) (h : ℤ)
    (p : JsString) : lastCredited ⟨t, c :: cs⟩ h p
      = if c.hostId = h ∧ c.producerId = p then some c.reportId
        else lastCredited ⟨t', cs⟩ h p := by
  unfold lastCredited
  by_cases hc : c.hostId = h ∧ c.producerId = p
  · rw [if_pos hc]; simp [hc]
  · rw [if_neg hc, find?_cons_of_neg (by simpa using hc)]

theorem PanelState.inv_step {s : PanelState} (e : Event) (hok : s.TimelyDuplicate e)
    (hs : s.Inv) : (s.step e).Inv := by
  cases e with
  | clean nowMs hours =>
    exact ⟨hs.once, fun h p k hpos hp hlast =>
      holds_cleanOldTrafficStats (hs.remembers h p k hpos hp hlast)⟩
  | deliver d =>
    show (s.deliver d).Inv
    unfold PanelState.deliver
    dsimp only
    by_cases hid : cleanId d.reportId = []
    · rw [if_pos hid]; exact hs
    rw [if_neg hid]
    rcases hc : claimAgentTrafficReport s.table (d.nowMs / 1000) d.hostId (cleanId d.reportId)
      (cleanId d.reportProducerId) with err | ⟨t, claimed⟩
    · exact hs
    dsimp only
    by_cases hcommit : d.commits = true
    · rw [if_pos hcommit]
      obtain ⟨hnew, hkeep⟩ := claim_holds hc
      cases claimed with
      | false =>
        rw [if_neg (by decide)]
        exact ⟨hs.once, fun h p k hpos hp hlast =>
          hkeep h _ k (fun hbad => absurd hbad (by decide)) (hs.remembers h p k hpos hp hlast)⟩
      | true =>
        rw [if_pos rfl]
        refine ⟨nodup_cons.mpr ⟨fun hmem => ?_, hs.once⟩, fun h p k hpos hp hlast => ?_⟩
        · exact absurd (claim_refused hs hid hok hmem hc) (by decide)
        · rw [lastCredited_cons t s.table] at hlast
          by_cases hsame : d.credit.hostId = h ∧ d.credit.producerId = p
          · rw [if_pos hsame] at hlast
            obtain ⟨rfl, rfl⟩ := hsame
            cases hlast
            have hrow := hnew hpos (cleanId_cleanId_ne_nil hid) rfl
            have hp' : cleanId (cleanId d.reportProducerId) ≠ [] := hp
            rwa [producerColumn, if_neg hp'] at hrow
          · rw [if_neg hsame] at hlast
            refine hkeep h _ k (fun _ hh hp' => ?_) (hs.remembers h p k hpos hp hlast)
            exact absurd ⟨hh.symm, (Option.some.inj hp').symm⟩ hsame
    · rw [if_neg hcommit]; exact hs

/-- **No report is credited twice in a run whose duplicates are timely.** For
every sequence of deliveries, rollbacks and retention runs. -/
theorem claimAgentTrafficReport_at_most_once (es : List Event)
    (hadm : Admissible PanelState.TimelyDuplicate PanelState.step PanelState.new es) :
    (run PanelState.step PanelState.new es).credited.Nodup :=
  (run_invariant_of_admissible (fun _ e hok hs => PanelState.inv_step e hok hs) es _ hadm
    PanelState.inv_new).once

/-- A delivery of host 1, producer `p`, at time zero. -/
def sendReport (reportId : JsString) : Event := .deliver ⟨1, reportId, [112], 0, true⟩

theorem timely_retries_credited_once :
    Admissible PanelState.TimelyDuplicate PanelState.step PanelState.new
        [sendReport [65], sendReport [65], sendReport [66], sendReport [66]] ∧
      (run PanelState.step PanelState.new
        [sendReport [65], sendReport [65], sendReport [66], sendReport [66]]).credited.Nodup :=
  ⟨by decide, claimAgentTrafficReport_at_most_once _ (by decide)⟩

theorem late_duplicate_credited_twice :
    ¬ (run PanelState.step PanelState.new
      [sendReport [65], sendReport [66], sendReport [65]]).credited.Nodup := by
  decide

end ForwardX.Panel
