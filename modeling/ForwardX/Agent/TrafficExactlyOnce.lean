/-
Agent traffic reports are credited exactly once.

A report is kept on disk until the panel has answered it, with the baselines that it ends at, and
the panel keeps the id of the last report it credited. The proof carries the books of `TrafficBooks`
through every step of both sides: a crash repeats a report, and the panel drops what it has
credited.
-/
import ForwardX.Agent.TrafficBooks
import Mathlib.Algebra.BigOperators.Ring.Finset

namespace ForwardX.Agent

open Run List

variable {h : Host} {s : State} {f : ℕ → Option TrafficPrevState}

/-! ## The report on disk -/

variable {us : List TrafficBaselineUpdate} {report : PendingTrafficReport}

theorem pendingTrafficBaselineUpdates_persisted (hpos : ∀ u ∈ us, 0 < u.state.ruleID) :
    pendingTrafficBaselineUpdates (persistedTrafficBaselines us)
      = us.map fun u => ⟨u.port, u.state.normalized⟩ := by
  have hkeep : (persistedTrafficBaselines us).filter (fun b => decide (0 < b.ruleID))
      = persistedTrafficBaselines us := by
    refine filter_eq_self.mpr fun b hb => ?_
    obtain ⟨u, hu, rfl⟩ := mem_map.mp hb
    exact decide_eq_true (hpos u hu)
  rw [pendingTrafficBaselineUpdates, hkeep, persistedTrafficBaselines, map_map]
  rfl

theorem normalized_of_mem_updates {bs : List PersistedTrafficBaseline} {u : TrafficBaselineUpdate}
    (hu : u ∈ pendingTrafficBaselineUpdates bs) : u.state.normalized = u.state := by
  obtain ⟨b, -, rfl⟩ := mem_map.mp hu
  exact normalized_normalized _

theorem exists_row_of_mem {R : TrafficStat → TrafficBaselineUpdate → Prop}
    {stats : List TrafficStat} (hrows : List.Forall₂ R stats us)
    {u : TrafficBaselineUpdate} (hu : u ∈ us) : ∃ stat, R stat u := by
  induction hrows with
  | nil => cases hu
  | @cons stat w stats us hrow _ ih =>
    obtain rfl | hmem := mem_cons.mp hu
    · exact ⟨stat, hrow⟩
    · exact ih hmem

theorem currentUpdates_of_rows {kernel : ℕ → Direction → ℕ} {stats : List TrafficStat}
    (hrows : List.Forall₂ (IsRow h kernel) stats us) :
    currentUpdates h us = .ok us := by
  induction hrows with
  | nil => rfl
  | @cons stat u stats us hrow _ ih =>
    rw [currentUpdates, hrow.file]
    dsimp only
    rw [if_neg (by have := hrow.pos; omega), ih]
    dsimp only
    rw [if_pos hrow.rule.symm]

theorem Inv.posted (hinv : Inv h s f) (hpend : s.pendingFile = some report) :
    Inv h (postToPanel report s) (recorded h f (postToPanel report s)) := by
  have hsame : ∀ port, committedBaseline h port (postToPanel report s)
      = committedBaseline h port s := fun _ => rfl
  rw [hinv.recorded_eq hsame]
  refine ⟨hinv.identity, hinv.cache, hinv.first, hinv.kernel, ?_, ?_, ?_, hpend, hinv.books⟩
  · intro payload hmem
    obtain hold | hnew := mem_append.mp hmem
    · exact hinv.sent payload hold
    · exact .inr ⟨report, hpend, (mem_singleton.mp hnew).symm⟩
  · intro payload hmem
    exact mem_append_left _ (hinv.credited payload hmem)
  · intro r hr
    obtain ⟨hid, hrows, hnodup, hmeasured⟩ := hinv.pending r hr
    exact ⟨hid, hrows, hnodup, hmeasured⟩

theorem creditedUpdate_of_none (hpend : s.pendingFile = none) (port : ℕ) : creditedUpdate s port = none := by
  rw [creditedUpdate, hpend]

theorem creditedUpdate_of_uncredited
    (hpend : s.pendingFile = some report) (hid : report.payload.reportID ∉ s.creditedIDs)
    (port : ℕ) : creditedUpdate s port = none := by
  rw [creditedUpdate, hpend]
  exact if_neg hid

theorem creditedUpdate_of_credited
    (hpend : s.pendingFile = some report) (hid : report.payload.reportID ∈ s.creditedIDs)
    (port : ℕ) : creditedUpdate s port = updateFor report.updates port := by
  rw [creditedUpdate, hpend]
  exact if_pos hid

theorem settledBaseline_of_creditedUpdate_none {port : ℕ} (hnone : creditedUpdate s port = none) :
    settledBaseline h s port = committedBaseline h port s := by
  rw [settledBaseline, hnone]
  cases committedBaseline h port s <;> rfl

/-- The report is on disk, and not yet sent. -/
def savePending (report : PendingTrafficReport) (s : State) : State :=
  { s with pendingFile := some report, phase := .posting report }

theorem Inv.saved (hinv : Inv h s f) (hpend : s.pendingFile = none) (hreport : Pending h s report)
    (hid : report.payload.reportID ∉ s.creditedIDs) :
    Inv h (savePending report s) f := by
  have hdisk : (savePending report s).pendingFile = some report := rfl
  refine ⟨hinv.identity, hinv.cache, hinv.first, hinv.kernel, ?_, hinv.credited, ?_, rfl, ?_⟩
  · intro payload hmem
    obtain hcred | ⟨r, hr, -⟩ := hinv.sent payload hmem
    · exact .inl hcred
    · rw [hpend] at hr
      cases hr
  · intro r hr
    obtain rfl := Option.some.inj hr
    exact ⟨hreport.identity, hreport.rows, hreport.nodup, hreport.measured⟩
  · intro ruleID d
    refine (hinv.books ruleID d).trans (Finset.sum_congr rfl fun port _ => ?_)
    rw [settledBaseline_of_creditedUpdate_none (creditedUpdate_of_none hpend port),
      settledBaseline_of_creditedUpdate_none (creditedUpdate_of_uncredited hdisk hid port)]
    rfl

/-! ## The steps of `collectTraffic` -/

section

variable (hinv : Inv h s f) {snap : Snapshot} (hsnap : Reliable h s (.startCollect snap))

include hinv hsnap

theorem Sampling.start :
    Sampling h s snap (collectableRuleTrafficStates (readLocalRuleStates h snap.settings)) [] [] where
  rows := .nil
  measured := .nil
  nodup := nodup_collectable h snap.settings
  states := fun _ hmem => ruleFile_of_mem_collectable hmem
  upper := fun state hmem hlay d => (hsnap state hmem hlay d).le
  lower := fun state hmem hlay v hv d => by
    rw [hsnap state hmem hlay d]
    exact hinv.kernel state.port v hv d

theorem inv_startCollect : Inv h (startCollect h snap s) (recorded h f (startCollect h snap s)) := by
  unfold startCollect
  split
  next hidle =>
    rw [if_pos hinv.identity]
    unfold loadPendingTrafficReport
    split
    next hpend => exact hinv.step_phase ⟨hpend, Sampling.start hinv hsnap⟩
    next report hpend =>
      split
      · exact hinv.step_idle
      -- the report was saved for this identity, so it is not cleared
      · rw [if_neg (not_not_intro (hinv.pending report hpend).identity)]
        exact hinv.posted hpend
  next => exact hinv.step_self

end

section

variable {snap : Snapshot} {state : LocalRuleState} {rest : List LocalRuleState}
  {stats : List TrafficStat} {us : List TrafficBaselineUpdate}

section

variable (hs : Sampling h s snap (state :: rest) stats us)

include hs

theorem Sampling.tail :
    Sampling h s snap rest stats us where
  rows := hs.rows
  measured := hs.measured
  nodup := hs.nodup.sublist (List.Sublist.append_left (sublist_cons_self _ _) _)
  states := fun x hx => hs.states x (mem_cons_of_mem _ hx)
  upper := fun x hx => hs.upper x (mem_cons_of_mem _ hx)
  lower := fun x hx => hs.lower x (mem_cons_of_mem _ hx)

theorem committedBaseline_of_sample :
    committedBaseline h state.port s
      = if initialBaseline state (s.prevFile state.port) then none
        else some (s.prevFile state.port) := by
  obtain ⟨hfile, hpos⟩ := hs.states state mem_cons_self
  rw [committedBaseline, hfile]
  by_cases hown : 0 < (s.prevFile state.port).ruleID ∧
      some state.ruleID = some (s.prevFile state.port).ruleID
  · have hinit : initialBaseline state (s.prevFile state.port) = false := by
      have hid := Option.some.inj hown.2
      simp [initialBaseline, ← hid, hpos]
    rw [if_pos hown, hinit]
    rfl
  · have hinit : initialBaseline state (s.prevFile state.port) = true := by
      rw [Option.some.injEq, not_and] at hown
      rw [initialBaseline, Bool.or_eq_true, decide_eq_true_eq, bne_iff_ne]
      by_cases hle : (s.prevFile state.port).ruleID ≤ 0
      · exact .inl hle
      · exact .inr (Ne.symm (hown (by omega)))
    rw [if_neg hown, hinit]
    rfl

theorem measured_collectRule (hlay : countingLayoutPresentForTrafficState state snap = true) (fresh : Bool) :
    let row := collectRule snap state fresh (s.prevFile state.port)
    IsRow h s.kernel row.1 ⟨state.port, row.2⟩ ∧ Measured h s row.1 ⟨state.port, row.2⟩ := by
  obtain ⟨hfile, hpos⟩ := hs.states state mem_cons_self
  refine ⟨⟨hfile, rfl, hpos, fun d => ?_⟩, fun d => ?_⟩
  · rw [collectRule_next_bytes]
    exact hs.upper state mem_cons_self hlay d
  · have hcommitted := committedBaseline_of_sample hs
    cases hinit : initialBaseline state (s.prevFile state.port) with
    | true =>
      rw [hinit, if_pos rfl] at hcommitted
      rw [hcommitted]
      exact collectRule_bytes_of_initial hinit d
    | false =>
      rw [hinit, if_neg Bool.false_ne_true] at hcommitted
      rw [hcommitted]
      exact collectRule_bytes_of_measured hinit d
        (hs.lower state mem_cons_self hlay _ hcommitted d)

theorem Sampling.append (hlay : countingLayoutPresentForTrafficState state snap = true) (fresh : Bool) :
    let row := collectRule snap state fresh (s.prevFile state.port)
    Sampling h s snap rest (stats ++ [row.1]) (us ++ [⟨state.port, row.2⟩]) := by
  intro row
  obtain ⟨hrow, hmeasured⟩ := measured_collectRule hs hlay fresh
  refine ⟨rel_append hs.rows (.cons hrow .nil), rel_append hs.measured
    (.cons hmeasured .nil), ?_, hs.tail.states, hs.tail.upper, hs.tail.lower⟩
  rw [map_append, append_assoc]
  exact hs.nodup

end

theorem Sampling.wrote {s' : State} {v : TrafficPrevState}
    (hs : Sampling h s snap (state :: rest) stats us) (hw : Wrote state.port v s s') :
    Sampling h s' snap rest stats us := by
  have hnodup := hs.nodup
  rw [map_cons, nodup_append] at hnodup
  obtain ⟨-, hrest, hdisj⟩ := hnodup
  have hdone : ∀ u ∈ us, u.port ≠ state.port := fun u hu =>
    hdisj u.port (mem_map_of_mem hu) state.port mem_cons_self
  have hleft : ∀ x ∈ rest, x.port ≠ state.port := fun x hx heq =>
    (nodup_cons.mp hrest).1 (heq ▸ mem_map_of_mem hx)
  refine ⟨hs.rows.imp fun _ _ => IsRow.mono hw.kernel, ?_, hs.tail.nodup, hs.tail.states, ?_, ?_⟩
  · rw [forall₂_iff_zip]
    refine ⟨hs.measured.length_eq, fun {stat u} hmem => ?_⟩
    refine measured_congr ?_ (forall₂_zip hs.measured hmem)
    rw [hw.prevFile, Function.update_of_ne (hdone u (of_mem_zip hmem).2)]
  · intro x hx hlay d
    exact (hs.tail.upper x hx hlay d).trans (hw.kernel x.port d)
  · intro x hx hlay v' hv'
    rw [hw.committed_of_ne (hleft x hx)] at hv'
    exact hs.tail.lower x hx hlay v' hv'

theorem Inv.wrote_idle_rule (hinv : Inv h s f) (hpend : s.pendingFile = none)
    {stat : TrafficStat} {u : TrafficBaselineUpdate} (hrow : IsRow h s.kernel stat u)
    (hmeasured : Measured h s stat u) (hzero : ∀ d, stat.bytes d = 0) {s' : State}
    (hw : Wrote u.port u.state.normalized s s') (hphase : PhaseOk h s' s'.phase) :
    Inv h s' (recorded h f s') := by
  have hfile : h.ruleFiles.lookup u.port = some u.state.normalized.ruleID := by
    rw [normalized_ruleID, hrow.rule]
    exact hrow.file
  have hpos : 0 < u.state.normalized.ruleID := by
    rw [normalized_ruleID, hrow.rule]
    exact hrow.pos
  have hnone := creditedUpdate_of_none hpend u.port
  refine hinv.wrote hw hpos hfile (fun d => ?_) (fun report hr => ?_) (fun d => ?_)
    (fun hsome d => ?_) hphase
  · rw [normalized_bytes]
    exact hrow.kernel d
  · rw [hpend] at hr
    cases hr
  · rw [settledBaseline_of_creditedUpdate_none ((hw.creditedUpdate u.port).trans hnone),
      hw.committed_self hpos hfile]
    rfl
  · rw [settledBaseline_of_creditedUpdate_none hnone]
    have hd := hmeasured d
    cases hc : committedBaseline h u.port s with
    | none => exact absurd hc hsome
    | some v =>
      rw [hc] at hd
      dsimp only at hd
      rw [normalized_bytes, hd, hzero d]
      rfl

end

theorem inv_sampleRule (hinv : Inv h s f) (w : FileResult) :
    Inv h (sampleRule w s) (recorded h f (sampleRule w s)) := by
  unfold sampleRule
  split
  next snap state rest stats us hph =>
    obtain ⟨hpend, hs⟩ : PhaseOk h s (.sampling snap (state :: rest) stats us) := hph ▸ hinv.phase
    by_cases hlay : countingLayoutPresentForTrafficState state snap = true
    · rw [if_neg (not_not_intro hlay)]
      obtain ⟨hprev, hread⟩ := readPrevState_spec hinv.cache state.port
      generalize readPrevState s state.port = read at hprev hread
      obtain ⟨previous, s₁⟩ := read
      dsimp only at hprev hread ⊢
      subst hprev
      -- from here on only what the row says of the two counters matters
      generalize freshProcessConnectionCounter s₁ state.port state.ruleID = fresh
      obtain ⟨hrow, hmeasured⟩ := measured_collectRule hs hlay fresh
      have happend := hs.append hlay fresh
      generalize collectRule snap state fresh (s.prevFile state.port) = row
        at hrow hmeasured happend
      by_cases htraffic : row.1.hasTraffic = true
      -- the row joins the report, and its baseline waits for the credit
      · rw [if_pos htraffic]
        refine hinv.step_frame (hread.trans (frame_phase s₁ _)) ?_
        exact (hread.trans (frame_phase s₁ _)).phaseOk ⟨hpend, happend⟩
      -- an idle rule is written at once: its row counts no byte
      · rw [if_neg htraffic]
        have hzero := bytes_eq_zero_of_not_hasTraffic (Bool.not_eq_true _ ▸ htraffic)
        obtain ⟨-, hw⟩ | ⟨-, hfail⟩ :=
          writePrevState_spec (hread.cache hinv.cache) state.port row.2 w
        · have hw' := (hread.wrote hw).frame (frame_phase _ (.sampling snap rest stats us))
          exact hinv.wrote_idle_rule hpend hrow hmeasured hzero hw'
            ⟨hw'.pendingFile.trans hpend, hs.wrote hw'⟩
        · rw [hfail]
          refine hinv.step_frame (hread.trans (frame_phase s₁ _)) ?_
          exact (hread.trans (frame_phase s₁ _)).phaseOk ⟨hpend, hs.tail⟩
    · rw [if_pos hlay]
      exact hinv.step_phase ⟨hpend, hs.tail⟩
  next => exact hinv.step_self

theorem pending_newPendingReport {snap : Snapshot} {stats : List TrafficStat}
    {us : List TrafficBaselineUpdate} (hs : Sampling h s snap [] stats us) (a : Answers)
    (hostTraffic : Option (ℕ × ℕ)) :
    Pending h s (newPendingReport h a hostTraffic stats us) := by
  have hupdates : (newPendingReport h a hostTraffic stats us).updates
      = us.map fun u => ⟨u.port, u.state.normalized⟩ := by
    refine pendingTrafficBaselineUpdates_persisted fun u hu => ?_
    obtain ⟨stat, hrow⟩ := exists_row_of_mem hs.rows hu
    rw [hrow.rule]
    exact hrow.pos
  refine ⟨rfl, ?_, ?_, fun _ => ?_⟩
  · rw [hupdates, forall₂_map_right_iff]
    refine hs.rows.imp fun stat u hrow => ⟨hrow.file, hrow.rule, hrow.pos, fun d => ?_⟩
    rw [normalized_bytes]
    exact hrow.kernel d
  · have hnodup := hs.nodup
    rw [map_nil, append_nil] at hnodup
    rw [hupdates, map_map]
    exact hnodup
  · rw [hupdates, forall₂_map_right_iff]
    refine hs.measured.imp fun stat u hm d => ?_
    simp only [normalized_bytes]
    exact hm d

theorem inv_finishSampling (hinv : Inv h s f) {a : Answers} {w : FileResult}
    (hid : Reliable h s (.finishSampling a w)) :
    Inv h (finishSampling h a w s) (recorded h f (finishSampling h a w s)) := by
  unfold finishSampling
  split
  next snap stats us hph =>
    obtain ⟨hpend, hs⟩ : PhaseOk h s (.sampling snap [] stats us) := hph ▸ hinv.phase
    dsimp only
    generalize (if shouldIncludeHostTraffic s (shouldReportRuleTraffic s stats.length a) a = true
      then some a.hostTrafficSnapshot else none) = hostTraffic
    split
    · split
      -- the id is new, so nothing under it has been credited
      · refine (hinv.saved hpend (pending_newPendingReport hs a hostTraffic) fun hmem => ?_).posted rfl
        obtain ⟨payload, hcred, heq⟩ := mem_map.mp hmem
        exact hid payload (hinv.credited payload hcred) heq
      · exact hinv.step_idle
    · exact hinv.step_idle
  next => exact hinv.step_self

theorem inv_receiveAnswer (hinv : Inv h s f) :
    Inv h (receiveAnswer h s) (recorded h f (receiveAnswer h s)) := by
  unfold receiveAnswer
  split
  next report hph =>
    have hpend : s.pendingFile = some report := by
      have hphase := hinv.phase
      rw [hph] at hphase
      exact hphase
    by_cases hid : report.payload.reportID ∈ s.creditedIDs
    -- every row is of the rule its port still has, so no update is left out
    · rw [if_pos hid, currentUpdates_of_rows (hinv.pending report hpend).rows]
      split
      next updates _ heq =>
        obtain rfl := Except.ok.inj heq
        exact hinv.step_phase ⟨hpend, hid, [], rfl, fun u hu => nomatch hu⟩
      next => exact hinv.step_idle
    · rw [if_neg hid]
      exact hinv.step_self
  next => exact hinv.step_self

theorem inv_failPost (hinv : Inv h s f) : Inv h (failPost s) (recorded h f (failPost s)) := by
  unfold failPost
  split
  · exact hinv.step_idle
  · exact hinv.step_self

variable {report : PendingTrafficReport}

theorem Inv.wrote_update (hinv : Inv h s f)
    (hpend : s.pendingFile = some report) (hid : report.payload.reportID ∈ s.creditedIDs)
    {done rest : List TrafficBaselineUpdate} {u : TrafficBaselineUpdate}
    (hsplit : report.updates = done ++ u :: rest) (hdone : ∀ x ∈ done, s.prevFile x.port = x.state) {s' : State}
    (hw : Wrote u.port u.state s s') :
    Inv h { s' with phase := .committing report rest }
      (recorded h f { s' with phase := .committing report rest }) := by
  have hp := hinv.pending report hpend
  have hu : u ∈ report.updates := by
    rw [hsplit]
    exact mem_append_right _ mem_cons_self
  obtain ⟨stat, hrow⟩ := exists_row_of_mem hp.rows hu
  have hfile : h.ruleFiles.lookup u.port = some u.state.ruleID := hrow.rule ▸ hrow.file
  have hpos : 0 < u.state.ruleID := hrow.rule ▸ hrow.pos
  have hcredited : creditedUpdate s u.port = some u.state := by
    rw [creditedUpdate_of_credited hpend hid, updateFor_of_mem hp.nodup hu]
  have hsettled : ∀ s₁ : State, creditedUpdate s₁ u.port = some u.state →
      committedBaseline h u.port s₁ ≠ none →
        ∀ d, baselineBytes (settledBaseline h s₁ u.port) d = u.state.bytes d := by
    intro s₁ hcred hsome d
    rw [settledBaseline, hcred]
    cases hc : committedBaseline h u.port s₁ with
    | none => exact absurd hc hsome
    | some v => rfl
  have hw' := hw.frame (frame_phase s' (.committing report rest))
  have hnew : committedBaseline h u.port { s' with phase := .committing report rest } ≠ none := by
    rw [hw'.committed_self hpos hfile]
    exact Option.some_ne_none _
  refine hinv.wrote hw' hpos hfile hrow.kernel (fun r hr => ?_)
    (hsettled _ ((hw'.creditedUpdate u.port).trans hcredited) hnew)
    (hsettled s hcredited) ⟨hw'.pendingFile.trans hpend, ?_, done ++ [u], ?_, ?_⟩
  · rw [hpend, Option.some.injEq] at hr
    rw [← hr]
    exact hid
  · rw [State.creditedIDs, hw'.credited]
    exact hid
  · rw [hsplit, append_assoc]
    rfl
  · intro x hx
    rw [hw'.prevFile]
    obtain hmem | heq := mem_append.mp hx
    -- an earlier baseline, of another port
    · have hne : x.port ≠ u.port := by
        have hnodup := hp.nodup
        rw [hsplit, map_append, nodup_append] at hnodup
        exact hnodup.2.2 x.port (mem_map_of_mem hmem) u.port
          (mem_map_of_mem mem_cons_self)
      rw [Function.update_of_ne hne]
      exact hdone x hmem
    · rw [mem_singleton.mp heq, Function.update_self]

theorem inv_commitBaseline (hinv : Inv h s f) (w : FileResult) :
    Inv h (commitBaseline w s) (recorded h f (commitBaseline w s)) := by
  unfold commitBaseline
  split
  next report u rest hph =>
    obtain ⟨hpend, hid, done, hsplit, hdone⟩ : PhaseOk h s (.committing report (u :: rest)) :=
      hph ▸ hinv.phase
    have hu : u ∈ report.updates := by
      rw [hsplit]
      exact mem_append_right _ mem_cons_self
    -- a failed write ends the call; the report stays on disk for the next one
    obtain ⟨hok, hw⟩ | ⟨hok, hfail⟩ := writePrevState_spec hinv.cache u.port u.state w
    · rw [normalized_of_mem_updates hu] at hw
      split
      next s₁ hs₁ =>
        rw [hs₁] at hw
        exact hinv.wrote_update hpend hid hsplit hdone hw
      next s₁ hs₁ =>
        rw [hs₁] at hok
        cases hok
    · split
      next s₁ hs₁ =>
        rw [hs₁] at hok
        cases hok
      next s₁ hs₁ =>
        rw [hs₁] at hfail
        subst hfail
        exact hinv.step_idle
  next => exact hinv.step_self

theorem mem_of_updateFor {us : List TrafficBaselineUpdate} {port : ℕ} {v : TrafficPrevState}
    (hv : updateFor us port = some v) : ∃ u ∈ us, u.port = port ∧ u.state = v := by
  obtain ⟨u, hfind, hstate⟩ := Option.map_eq_some_iff.mp hv
  have hport := find?_some hfind
  exact ⟨u, mem_of_find?_eq_some hfind, of_decide_eq_true hport, hstate⟩

theorem prevFile_of_committed {port : ℕ} {v : TrafficPrevState}
    (hv : committedBaseline h port s = some v) : s.prevFile port = v := by
  rw [committedBaseline] at hv
  split at hv
  · exact Option.some.inj hv
  · cases hv

theorem settledBaseline_of_committed
    (hpend : s.pendingFile = some report) (hid : report.payload.reportID ∈ s.creditedIDs)
    (hdone : ∀ u ∈ report.updates, s.prevFile u.port = u.state) (port : ℕ) :
    settledBaseline h s port = committedBaseline h port s := by
  rw [settledBaseline, creditedUpdate_of_credited hpend hid]
  cases hc : committedBaseline h port s with
  | none => rfl
  | some x =>
    cases hupdate : updateFor report.updates port with
    | none => rfl
    | some v =>
      obtain ⟨u, hu, rfl, rfl⟩ := mem_of_updateFor hupdate
      rw [← prevFile_of_committed hc, hdone u hu]
      rfl

theorem Inv.removed (hinv : Inv h s f)
    (hpend : s.pendingFile = some report) (hid : report.payload.reportID ∈ s.creditedIDs)
    (hdone : ∀ u ∈ report.updates, s.prevFile u.port = u.state) (lastRule lastHost : Option ℤ) :
    let s' := { s with
      pendingFile := none, lastRuleTrafficReportAt := lastRule
      lastHostTrafficReportAt := lastHost, phase := .idle }
    Inv h s' (recorded h f s') := by
  intro s'
  have hnone : s'.pendingFile = none := rfl
  have hsame : ∀ port, committedBaseline h port s' = committedBaseline h port s := fun _ => rfl
  rw [hinv.recorded_eq hsame]
  refine ⟨hinv.identity, hinv.cache, hinv.first, hinv.kernel, ?_, hinv.credited, ?_, trivial, ?_⟩
  · intro payload hmem
    obtain hcred | ⟨r, hr, rfl⟩ := hinv.sent payload hmem
    · exact .inl hcred
    · rw [hpend, Option.some.injEq] at hr
      exact .inl (hr ▸ hid)
  · intro r hr
    cases hr
  · intro ruleID d
    refine (hinv.books ruleID d).trans (Finset.sum_congr rfl fun port _ => ?_)
    rw [settledBaseline_of_committed hpend hid hdone,
      settledBaseline_of_creditedUpdate_none (creditedUpdate_of_none hnone port), hsame]

theorem inv_removePending (hinv : Inv h s f) (now : ℤ) (w : FileResult) :
    Inv h (removePending now w s) (recorded h f (removePending now w s)) := by
  unfold removePending
  split
  next report hph =>
    obtain ⟨hpend, hid, done, hsplit, hdone⟩ : PhaseOk h s (.committing report []) :=
      hph ▸ hinv.phase
    rw [append_nil] at hsplit
    exact hinv.removed hpend hid (hsplit ▸ hdone) _ _
  next => exact hinv.step_idle
  next => exact hinv.step_self

/-! ## The other parties -/

section

variable (hinv : Inv h s f)

include hinv

theorem Inv.credit_books (hpend : s.pendingFile = some report) (hid : report.payload.reportID ∉ s.creditedIDs)
    (ruleID : ℤ) (d : Direction) :
    let s' := { s with credited := s.credited ++ [report.payload] }
    creditedBytes s' ruleID d + ∑ port ∈ rulePorts h ruleID, baselineBytes (f port) d
      = ∑ port ∈ rulePorts h ruleID, baselineBytes (settledBaseline h s' port) d := by
  intro s'
  have hp := hinv.pending report hpend
  have hid' : report.payload.reportID ∈ s'.creditedIDs :=
    mem_map_of_mem (mem_append_right _ (mem_singleton_self _))
  have hrow : ∀ port, baselineBytes (settledBaseline h s' port) d
      = baselineBytes (settledBaseline h s port) d
        + rowBytes report.payload.stats report.updates port d := by
    intro port
    have hsame : committedBaseline h port s' = committedBaseline h port s := rfl
    rw [settledBaseline_of_creditedUpdate_none (creditedUpdate_of_uncredited hpend hid port),
      settledBaseline, hsame, creditedUpdate_of_credited (s := s') hpend hid',
      bytes_takeOver (hp.measured hid) hp.nodup]
  have hcredited : creditedBytes s' ruleID d
      = creditedBytes s ruleID d + report.payload.bytesOf ruleID d := by
    show ((s.credited ++ [report.payload]).map _).sum = _
    rw [map_append, sum_append, map_singleton, sum_singleton, creditedBytes]
  rw [Finset.sum_congr rfl fun port _ => hrow port, Finset.sum_add_distrib,
    sum_rowBytes hp.rows, ← hinv.books ruleID d, hcredited, TrafficPayload.bytesOf]
  omega

/-- **Crediting a report keeps the books.** The rows of the report are the
difference between the baselines on disk and those the report will put there. -/
theorem Inv.credit (hpend : s.pendingFile = some report) (hsent : report.payload ∈ s.sent)
    (hid : report.payload.reportID ∉ s.creditedIDs) :
    let s' := { s with credited := s.credited ++ [report.payload] }
    Inv h s' (recorded h f s') := by
  intro s'
  have hp := hinv.pending report hpend
  have hsame : ∀ port, committedBaseline h port s' = committedBaseline h port s := fun _ => rfl
  have hids : s'.creditedIDs = s.creditedIDs ++ [report.payload.reportID] := map_append
  have hid' : report.payload.reportID ∈ s'.creditedIDs := by
    rw [hids]
    exact mem_append_right _ (mem_singleton_self _)
  rw [hinv.recorded_eq hsame]
  refine ⟨hinv.identity, hinv.cache, hinv.first, hinv.kernel, ?_, ?_, ?_, ?_,
    hinv.credit_books hpend hid⟩
  · intro payload hmem
    refine (hinv.sent payload hmem).imp (fun hcred => ?_) id
    rw [hids]
    exact mem_append_left _ hcred
  · intro payload hmem
    obtain hold | hnew := mem_append.mp hmem
    · exact hinv.credited payload hold
    · rw [mem_singleton.mp hnew]
      exact hsent
  · intro r hr
    obtain rfl : report = r := Option.some.inj (hpend.symm.trans hr)
    exact ⟨hp.identity, hp.rows, hp.nodup, fun hbad => absurd hid' hbad⟩
  · show PhaseOk h s' s.phase
    have hphase := hinv.phase
    cases hph : s.phase with
    | committing r rest =>
      rw [hph] at hphase
      obtain ⟨hr, hcred, hwritten⟩ := hphase
      refine ⟨hr, ?_, hwritten⟩
      rw [hids]
      exact mem_append_left _ hcred
    | sampling snap rest stats us =>
      rw [hph] at hphase
      exact absurd (hpend.symm.trans hphase.1) (Option.some_ne_none _)
    | _ =>
      rw [hph] at hphase
      exact hphase

theorem inv_deliver (payload : TrafficPayload) :
    Inv h (deliver payload s) (recorded h f (deliver payload s)) := by
  unfold deliver
  by_cases hnew : payload ∈ s.sent ∧ payload.reportID ∉ s.creditedIDs
  · rw [if_pos hnew]
    -- what is not credited yet is the report on disk
    obtain hcred | ⟨report, hpend, rfl⟩ := hinv.sent payload hnew.1
    · exact absurd hcred hnew.2
    · exact hinv.credit hpend hnew.1 hnew.2
  · rw [if_neg hnew]
    exact hinv.step_self

theorem inv_countBytes (port : ℕ) (d : Direction) (n : ℕ) :
    Inv h (countBytes port d n s) (recorded h f (countBytes port d n s)) := by
  have hf : Frame s (countBytes port d n s) := by
    refine ⟨rfl, rfl, rfl, rfl, rfl, fun p d' => ?_, id⟩
    show s.kernel p d' ≤ if p = port ∧ d' = d then s.kernel p d' + n else s.kernel p d'
    split
    · exact Nat.le_add_right _ _
    · exact Nat.le_refl _
  exact hinv.step_frame hf (hf.phaseOk hinv.phase)

theorem inv_markFresh (port : ℕ) (ruleID : ℤ) :
    Inv h (markFreshProcessConnectionCounter port ruleID s)
      (recorded h f (markFreshProcessConnectionCounter port ruleID s)) := by
  unfold markFreshProcessConnectionCounter
  split
  · exact hinv.step_self
  · have hf : Frame s { s with
        freshProcessConnRule := s.freshProcessConnRule.insert port ruleID } :=
      ⟨rfl, rfl, rfl, rfl, rfl, fun _ _ => Nat.le_refl _, id⟩
    exact hinv.step_frame hf (hf.phaseOk hinv.phase)

theorem inv_restart : Inv h (restart s) (recorded h f (restart s)) := by
  refine hinv.step_frame ⟨rfl, rfl, rfl, rfl, rfl, fun _ _ => Nat.le_refl _, fun _ => ?_⟩ trivial
  intro port v hv
  rw [show (restart s).trafficPrevCache = ∅ from rfl, AList.lookup_empty] at hv
  cases hv

end

theorem clearTrafficBaselines_eq_self (hphase : PhaseOk h s s.phase) (w : FileResult) :
    clearTrafficBaselines h w s = s := by
  unfold clearTrafficBaselines
  cases hph : s.phase with
  | clearing snap rest adopt =>
    rw [hph] at hphase
    exact hphase.elim
  | _ => rfl

theorem writeIdentity_eq_self (hphase : PhaseOk h s s.phase) (w : FileResult) : writeIdentity h w s = s := by
  unfold writeIdentity
  cases hph : s.phase with
  | identifying snap =>
    rw [hph] at hphase
    exact hphase.elim
  | _ => rfl

/-! ## Runs -/

theorem inv_step (hinv : Inv h s f) (e : Event) (hok : Reliable h s e) :
    Inv h (step h s e) (recorded h f (step h s e)) := by
  cases e with
  | startCollect snap => exact inv_startCollect hinv hok
  | clearTrafficBaselines w =>
    rw [step, clearTrafficBaselines_eq_self hinv.phase]
    exact hinv.step_self
  | writeIdentity w =>
    rw [step, writeIdentity_eq_self hinv.phase]
    exact hinv.step_self
  | sampleRule w => exact inv_sampleRule hinv w
  | finishSampling a w => exact inv_finishSampling hinv hok
  | receiveAnswer => exact inv_receiveAnswer hinv
  | failPost => exact inv_failPost hinv
  | commitBaseline w => exact inv_commitBaseline hinv w
  | removePending now w => exact inv_removePending hinv now w
  | deliver payload => exact inv_deliver hinv payload
  | countBytes port d n => exact inv_countBytes hinv port d n
  | markFresh port ruleID => exact inv_markFresh hinv port ruleID
  | restart => exact inv_restart hinv

theorem inv_of_isStart (hs : s.IsStart h) : Inv h s fun port => committedBaseline h port s where
  identity := hs.identity
  cache := by
    intro port v hv
    rw [hs.cache, AList.lookup_empty] at hv
    cases hv
  first := fun _ => Iff.rfl
  kernel := hs.kernel
  sent := by
    rw [hs.sent]
    exact fun payload hmem => nomatch hmem
  credited := by
    rw [hs.credited]
    exact fun payload hmem => nomatch hmem
  pending := by
    intro report hreport
    rw [hs.pendingFile] at hreport
    cases hreport
  phase := by
    rw [hs.phase]
    trivial
  books := by
    intro ruleID d
    rw [creditedBytes, hs.credited]
    refine (Nat.zero_add _).trans (Finset.sum_congr rfl fun port _ => ?_)
    rw [settledBaseline_of_creditedUpdate_none (creditedUpdate_of_none hs.pendingFile port)]

/-- **Agent traffic reporting is exactly-once.** Along every run, with any
pattern of lost requests, lost answers, failed file operations and restarts,
once no report is pending the panel has credited to each rule the difference
between its committed baselines and its first ones. -/
theorem traffic_credited_exactly_once {es : List Event} (hs : s.IsStart h)
    (hes : Admissible (Reliable h) (step h) s es)
    (hdone : (run (step h) s es).pendingFile = none) (ruleID : ℤ) (d : Direction) :
    (creditedBytes (run (step h) s es) ruleID d : ℤ)
      = ∑ port ∈ rulePorts h ruleID,
          ((baselineBytes (committedBaseline h port (run (step h) s es)) d : ℤ)
            - baselineBytes (first (committedBaseline h port) (step h) s es) d) := by
  have hstep : ∀ s e f, Reliable h s e → Inv h s f →
      Inv h (step h s e) fun port => (f port).or (committedBaseline h port (step h s e)) :=
    fun _ e _ hok hinv => inv_step hinv e hok
  have hinv := run_invariant_of_history hstep es s _ hes (inv_of_isStart hs)
  have hbooks := hinv.books ruleID d
  simp only [settledBaseline_of_creditedUpdate_none (creditedUpdate_of_none hdone _)] at hbooks
  rw [Finset.sum_sub_distrib, ← Nat.cast_sum, ← Nat.cast_sum]
  change _ + ∑ port ∈ rulePorts h ruleID,
    baselineBytes (first (committedBaseline h port) (step h) s es) d = _ at hbooks
  omega

/-! One rule on one port, counted by iptables. Its report is credited, the answer
is lost, and the agent dies before it tries again. -/

section

instance instDecidableForallDirection (p : Direction → Prop) [∀ d, Decidable (p d)] : Decidable (∀ d, p d) :=
  decidable_of_iff (p .inbound ∧ p .outbound)
    ⟨fun hp d => by cases d <;> [exact hp.1; exact hp.2], fun hp => ⟨hp .inbound, hp .outbound⟩⟩

instance (h : Host) (s : State) : ∀ e, Decidable (Reliable h s e)
  | .startCollect _ => inferInstanceAs (Decidable (∀ state ∈ _, _ → ∀ _ : Direction, _))
  | .finishSampling _ _ => inferInstanceAs (Decidable (∀ payload ∈ s.sent, _))
  | .clearTrafficBaselines _ | .writeIdentity _ | .sampleRule _ | .receiveAnswer | .failPost
  | .commitBaseline _ | .removePending _ _ | .deliver _ | .countBytes _ _ _ | .markFresh _ _
  | .restart => .isTrue trivial

def oneRuleHost : Host where
  identity := "00112233445566778899aabbccddeeff00112233445566778899aabbccddeeff"
  identity_valid := by decide +kernel
  ruleFiles := (∅ : GoMap ℕ ℤ).insert 8080 42

def oneRuleStart : State where
  prevFiles := (∅ : GoMap ℕ TrafficPrevState).insert 8080 ⟨42, 100, 50, 0, .conntrack⟩
  pendingFile := none
  identityFile := some oneRuleHost.identity
  trafficPrevCache := ∅
  freshProcessConnRule := ∅
  lastRuleTrafficReportAt := none
  lastHostTrafficReportAt := none
  phase := .idle
  kernel := fun port d => if port = 8080 then (match d with | .inbound => 100 | .outbound => 50) else 0
  sent := []
  credited := []

def oneRuleSnapshot : Snapshot where
  settings := fun _ => ⟨.iptables, [.tcp], .ipv4⟩
  iptablesCounters := fun port => if port = 8080 then ⟨130, 50, 0⟩ else {}
  nftCounters := fun _ => {}
  nftProcessCounters := fun _ => {}
  iptablesMarkers := fun m => m == .port 8080
  ip6tablesMarkers := fun _ => false
  nftProcessMarkers := fun _ => false
  connTotals := fun _ => 0

def oneRulePayload : TrafficPayload :=
  ⟨true, [⟨42, 30, 0, 0⟩], some (1000, 2000), "agent-0123456789abcdef0123456789abcdef",
    trafficReportProducerID oneRuleHost.identity⟩

def lostAnswerRun : List Event :=
  [.countBytes 8080 .inbound 30, .startCollect oneRuleSnapshot, .sampleRule .ok,
    .finishSampling ⟨0, 10, true, (1000, 2000), oneRulePayload.reportID⟩ .ok,
    .deliver oneRulePayload, .failPost, .restart,
    .startCollect oneRuleSnapshot, .receiveAnswer, .commitBaseline .ok, .removePending 20 .ok]

theorem oneRuleStart_isStart : oneRuleStart.IsStart oneRuleHost := by
  refine ⟨rfl, rfl, rfl, rfl, rfl, rfl, ?_⟩
  intro port v hv d
  by_cases hport : port = 8080
  · subst hport
    rw [← prevFile_of_committed hv]
    revert d
    decide +kernel
  · have hempty : oneRuleStart.prevFile port = {} := by
      rw [State.prevFile, oneRuleStart, AList.lookup_insert_ne hport]
      rfl
    rw [committedBaseline, hempty] at hv
    cases hv

theorem lostAnswer_credited_once :
    creditedBytes (run (step oneRuleHost) oneRuleStart lostAnswerRun) 42 .inbound = 30 ∧
      (creditedBytes (run (step oneRuleHost) oneRuleStart lostAnswerRun) 42 .inbound : ℤ)
        = ∑ port ∈ rulePorts oneRuleHost 42,
          ((baselineBytes (committedBaseline oneRuleHost port
              (run (step oneRuleHost) oneRuleStart lostAnswerRun)) .inbound : ℤ)
            - baselineBytes (first (committedBaseline oneRuleHost port) (step oneRuleHost)
                oneRuleStart lostAnswerRun) .inbound) :=
  ⟨by decide +kernel, traffic_credited_exactly_once oneRuleStart_isStart (by decide +kernel)
    (by decide +kernel) 42 .inbound⟩

end

end ForwardX.Agent
