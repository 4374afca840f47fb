/-
The books of the traffic reports: how the bytes the panel has credited relate to the baselines on
disk, at every point of `collectTraffic`.
-/
import ForwardX.Agent.TrafficReport
import Mathlib.Algebra.BigOperators.Group.Finset.Piecewise

namespace ForwardX.Agent

open Run List

variable {h : Host}

/-! ## Files and their cache -/

def CacheFresh (s : State) : Prop :=
  ∀ port v, s.trafficPrevCache.lookup port = some v → v = s.prevFile port

/-- Nothing the books depend on has changed, up to kernel counters that grew. -/
structure Frame (s s' : State) : Prop where
  prevFile : s'.prevFile = s.prevFile
  pendingFile : s'.pendingFile = s.pendingFile
  identityFile : s'.identityFile = s.identityFile
  sent : s'.sent = s.sent
  credited : s'.credited = s.credited
  kernel : ∀ port d, s.kernel port d ≤ s'.kernel port d
  cache : CacheFresh s → CacheFresh s'

theorem Frame.refl (s : State) : Frame s s :=
  ⟨rfl, rfl, rfl, rfl, rfl, fun _ _ => Nat.le_refl _, id⟩

theorem Frame.trans {s₁ s₂ s₃ : State} (h₁ : Frame s₁ s₂) (h₂ : Frame s₂ s₃) : Frame s₁ s₃ where
  prevFile := h₂.prevFile.trans h₁.prevFile
  pendingFile := h₂.pendingFile.trans h₁.pendingFile
  identityFile := h₂.identityFile.trans h₁.identityFile
  sent := h₂.sent.trans h₁.sent
  credited := h₂.credited.trans h₁.credited
  kernel := fun port d => (h₁.kernel port d).trans (h₂.kernel port d)
  cache := fun hc => h₂.cache (h₁.cache hc)

theorem frame_phase (s : State) (ph : Phase) : Frame s { s with phase := ph } :=
  ⟨rfl, rfl, rfl, rfl, rfl, fun _ _ => Nat.le_refl _, id⟩

/-- The baseline file of one port has been replaced. -/
structure Wrote (port : ℕ) (v : TrafficPrevState) (s s' : State) : Prop where
  prevFile : s'.prevFile = Function.update s.prevFile port v
  pendingFile : s'.pendingFile = s.pendingFile
  identityFile : s'.identityFile = s.identityFile
  sent : s'.sent = s.sent
  credited : s'.credited = s.credited
  kernel : ∀ port d, s.kernel port d ≤ s'.kernel port d
  cache : CacheFresh s'

variable {port : ℕ} {us : List TrafficBaselineUpdate} {stats : List TrafficStat} {s s' : State}
    {f : ℕ → Option TrafficPrevState}

theorem Wrote.frame {v : TrafficPrevState} {s s' s'' : State}
    (hw : Wrote port v s s') (hf : Frame s' s'') : Wrote port v s s'' where
  prevFile := hf.prevFile.trans hw.prevFile
  pendingFile := hf.pendingFile.trans hw.pendingFile
  identityFile := hf.identityFile.trans hw.identityFile
  sent := hf.sent.trans hw.sent
  credited := hf.credited.trans hw.credited
  kernel := fun port d => (hw.kernel port d).trans (hf.kernel port d)
  cache := hf.cache hw.cache

theorem Frame.wrote {v : TrafficPrevState} {s s' s'' : State}
    (hf : Frame s s') (hw : Wrote port v s' s'') : Wrote port v s s'' where
  prevFile := by rw [hw.prevFile, hf.prevFile]
  pendingFile := hw.pendingFile.trans hf.pendingFile
  identityFile := hw.identityFile.trans hf.identityFile
  sent := hw.sent.trans hf.sent
  credited := hw.credited.trans hf.credited
  kernel := fun port d => (hf.kernel port d).trans (hw.kernel port d)
  cache := hw.cache

variable {s : State}

theorem readPrevState_spec (hc : CacheFresh s) (port : ℕ) :
    (readPrevState s port).1 = s.prevFile port ∧ Frame s (readPrevState s port).2 := by
  unfold readPrevState
  split
  next cached hcached => exact ⟨hc port cached hcached, Frame.refl s⟩
  next hnone =>
    refine ⟨rfl, rfl, rfl, rfl, rfl, rfl, fun _ _ => Nat.le_refl _, fun hfresh q v hv => ?_⟩
    obtain ⟨rfl, rfl⟩ | ⟨-, hold⟩ := GoMap.lookup_insert_eq_some hv
    · rfl
    · exact hfresh q v hold

theorem frame_clearFresh (s : State) (port : ℕ) (ruleID : ℤ) :
    Frame s (clearFreshProcessConnectionCounter s port ruleID) := by
  unfold clearFreshProcessConnectionCounter
  split
  · exact ⟨rfl, rfl, rfl, rfl, rfl, fun _ _ => Nat.le_refl _, id⟩
  · exact Frame.refl s

theorem prevFile_insert (s : State) (port : ℕ) (v : TrafficPrevState) :
    ({ s with prevFiles := s.prevFiles.insert port v } : State).prevFile
      = Function.update s.prevFile port v := by
  funext q
  by_cases hq : q = port
  · subst hq
    simp [State.prevFile]
  · simp [State.prevFile, AList.lookup_insert_ne hq, Function.update_of_ne hq]

theorem wrote_insert (hc : CacheFresh s) (port : ℕ) (v : TrafficPrevState) :
    Wrote port v s { s with
      prevFiles := s.prevFiles.insert port v
      trafficPrevCache := s.trafficPrevCache.insert port v } := by
  refine ⟨prevFile_insert s port v, rfl, rfl, rfl, rfl, fun _ _ => Nat.le_refl _, ?_⟩
  intro q v' hv
  show v' = ({ s with prevFiles := s.prevFiles.insert port v } : State).prevFile q
  rw [prevFile_insert]
  obtain ⟨rfl, rfl⟩ | ⟨hq, hold⟩ := GoMap.lookup_insert_eq_some hv
  · rw [Function.update_self]
  · rw [Function.update_of_ne hq]
    exact hc q v' hold

theorem writePrevState_spec (hc : CacheFresh s) (port : ℕ) (next : TrafficPrevState)
    (w : FileResult) :
    ((writePrevState s port next w).2 = true ∧
        Wrote port next.normalized s (writePrevState s port next w).1) ∨
      ((writePrevState s port next w).2 = false ∧ (writePrevState s port next w).1 = s) := by
  have hclear : ∀ s₁ : State, Wrote port next.normalized s s₁ →
      Wrote port next.normalized s (if isPersistentProcessConnectionSource next.normalized.connSource
        then clearFreshProcessConnectionCounter s₁ port next.normalized.ruleID else s₁) := by
    intro s₁ hw
    split
    · exact hw.frame (frame_clearFresh s₁ port next.normalized.ruleID)
    · exact hw
  by_cases hcached : s.trafficPrevCache.lookup port = some next.normalized
  -- the cached baseline is the one to write, and the file holds it already
  · left
    have hfile : s.prevFile port = next.normalized := (hc port _ hcached).symm
    have hsame : Wrote port next.normalized s s := by
      refine ⟨?_, rfl, rfl, rfl, rfl, fun _ _ => Nat.le_refl _, hc⟩
      rw [← hfile, Function.update_eq_self]
    have hw := hclear s hsame
    simp only [writePrevState]
    rw [if_pos hcached]
    exact ⟨rfl, hw⟩
  · cases w with
    | failed =>
      right
      simp only [writePrevState]
      rw [if_neg hcached]
      exact ⟨rfl, rfl⟩
    | ok =>
      left
      have hw := hclear _ (wrote_insert hc port next.normalized)
      simp only [writePrevState]
      rw [if_neg hcached]
      exact ⟨rfl, hw⟩

/-! ## Rows of a report, and the books -/

/-- A row and its baseline belong to a rule of the host, and the baseline was
read from its counters. -/
structure IsRow (h : Host) (kernel : ℕ → Direction → ℕ) (stat : TrafficStat)
    (u : TrafficBaselineUpdate) : Prop where
  file : h.ruleFiles.lookup u.port = some stat.ruleID
  rule : u.state.ruleID = stat.ruleID
  pos : 0 < stat.ruleID
  kernel : ∀ d, u.state.bytes d ≤ kernel u.port d

/-- The row reports what lies between the committed baseline and the new one. -/
def Measured (h : Host) (s : State) (stat : TrafficStat) (u : TrafficBaselineUpdate) : Prop :=
  ∀ d, match committedBaseline h u.port s with
    | some v => u.state.bytes d = v.bytes d + stat.bytes d
    | none => stat.bytes d = 0

def updateFor (us : List TrafficBaselineUpdate) (port : ℕ) : Option TrafficPrevState :=
  (us.find? fun u => decide (u.port = port)).map (·.state)

/-- The baseline of `port` in the pending report, once the panel has credited it. -/
def creditedUpdate (s : State) (port : ℕ) : Option TrafficPrevState :=
  match s.pendingFile with
  | none => none
  | some report =>
    if report.payload.reportID ∈ s.creditedIDs then updateFor report.updates port else none

/-- The committed baseline of `port`, or the one that will replace it because
the panel has credited the difference. -/
def settledBaseline (h : Host) (s : State) (port : ℕ) : Option TrafficPrevState :=
  (committedBaseline h port s).map fun v => (creditedUpdate s port).getD v

/-- What the rows for `port` report. -/
def rowBytes : List TrafficStat → List TrafficBaselineUpdate → ℕ → Direction → ℕ
  | stat :: stats, u :: us, port, d =>
    (if u.port = port then stat.bytes d else 0) + rowBytes stats us port d
  | _, _, _, _ => 0

theorem mem_rulePorts {ruleID : ℤ} : port ∈ rulePorts h ruleID ↔ h.ruleFiles.lookup port = some ruleID := by
  rw [rulePorts, mem_toFinset, mem_map, GoMap.lookup_eq_some_iff]
  constructor
  · rintro ⟨e, he, rfl⟩
    obtain ⟨hmem, hid⟩ := mem_filter.mp he
    rw [← of_decide_eq_true hid]
    exact hmem
  · intro hmem
    exact ⟨_, mem_filter.mpr ⟨hmem, decide_eq_true rfl⟩, rfl⟩

theorem rowBytes_eq_zero (hport : port ∉ us.map (·.port)) (d : Direction) : rowBytes stats us port d = 0 := by
  induction us generalizing stats with
  | nil => cases stats <;> rfl
  | cons u us ih =>
    cases stats with
    | nil => rfl
    | cons stat stats =>
      rw [map_cons, mem_cons, not_or] at hport
      rw [rowBytes, if_neg (Ne.symm hport.1), ih hport.2]

variable {u : TrafficBaselineUpdate}

theorem updateFor_of_mem (hnodup : (us.map (·.port)).Nodup)
    (hu : u ∈ us) : updateFor us u.port = some u.state := by
  induction us with
  | nil => cases hu
  | cons w us ih =>
    rw [map_cons, nodup_cons] at hnodup
    obtain rfl | hmem := mem_cons.mp hu
    · simp [updateFor]
    · have hne : w.port ≠ u.port := fun heq => hnodup.1 (heq ▸ mem_map_of_mem hmem)
      rw [updateFor, find?_cons_of_neg (by simpa using hne)]
      exact ih hnodup.2 hmem

theorem bytes_takeOver
    (hrows : List.Forall₂ (Measured h s) stats us) (hnodup : (us.map (·.port)).Nodup)
    (port : ℕ) (d : Direction) :
    baselineBytes ((committedBaseline h port s).map fun v => (updateFor us port).getD v) d
      = baselineBytes (committedBaseline h port s) d + rowBytes stats us port d := by
  induction hrows with
  | nil => cases committedBaseline h port s <;> rfl
  | @cons stat u stats us hm _ ih =>
    rw [map_cons, nodup_cons] at hnodup
    by_cases hport : u.port = port
    -- the row of this port: no later one is for it
    · subst hport
      have hfirst : updateFor (u :: us) u.port = some u.state := by simp [updateFor]
      rw [hfirst, rowBytes, if_pos rfl, rowBytes_eq_zero hnodup.1, Nat.add_zero]
      have hrow := hm d
      cases hc : committedBaseline h u.port s with
      | none =>
        rw [hc] at hrow
        show 0 = 0 + stat.bytes d
        rw [show stat.bytes d = 0 from hrow]
      | some v =>
        rw [hc] at hrow
        exact hrow
    · have hskip : updateFor (u :: us) port = updateFor us port := by
        rw [updateFor, find?_cons_of_neg (by simpa using hport), updateFor]
      rw [hskip, rowBytes, if_neg hport, Nat.zero_add]
      exact ih hnodup.2

theorem sum_rowBytes {kernel : ℕ → Direction → ℕ} (hrows : List.Forall₂ (IsRow h kernel) stats us)
    (ruleID : ℤ) (d : Direction) :
    ∑ port ∈ rulePorts h ruleID, rowBytes stats us port d
      = (stats.map fun stat => if stat.ruleID = ruleID then stat.bytes d else 0).sum := by
  induction hrows with
  | nil => simp [rowBytes]
  | @cons stat u stats us hrow _ ih =>
    have hmem : u.port ∈ rulePorts h ruleID ↔ stat.ruleID = ruleID := by
      rw [mem_rulePorts, hrow.file, Option.some.injEq]
    simp only [rowBytes]
    rw [Finset.sum_add_distrib, Finset.sum_ite_eq, ih, map_cons, sum_cons]
    simp only [hmem]

/-! ## The invariant -/

/-- The loop over the rules: the rows so far, and what the rest will read. -/
structure Sampling (h : Host) (s : State) (snap : Snapshot) (rest : List LocalRuleState)
    (stats : List TrafficStat) (us : List TrafficBaselineUpdate) : Prop where
  rows : List.Forall₂ (IsRow h s.kernel) stats us
  measured : List.Forall₂ (Measured h s) stats us
  nodup : (us.map (·.port) ++ rest.map (·.port)).Nodup
  states : ∀ state ∈ rest, h.ruleFiles.lookup state.port = some state.ruleID ∧ 0 < state.ruleID
  upper : ∀ state ∈ rest, countingLayoutPresentForTrafficState state snap = true →
    ∀ d, (countersForRuleTrafficState state snap).bytes d ≤ s.kernel state.port d
  lower : ∀ state ∈ rest, countingLayoutPresentForTrafficState state snap = true →
    ∀ v, committedBaseline h state.port s = some v →
      ∀ d, v.bytes d ≤ (countersForRuleTrafficState state snap).bytes d

/-- What is known at each point of `collectTraffic`. -/
def PhaseOk (h : Host) (s : State) : Phase → Prop
  | .idle => True
  | .clearing _ _ _ => False
  | .identifying _ => False
  | .sampling snap rest stats us => s.pendingFile = none ∧ Sampling h s snap rest stats us
  | .posting report => s.pendingFile = some report
  | .committing report rest =>
    s.pendingFile = some report ∧ report.payload.reportID ∈ s.creditedIDs ∧
      ∃ done, report.updates = done ++ rest ∧ ∀ u ∈ done, s.prevFile u.port = u.state

structure Pending (h : Host) (s : State) (report : PendingTrafficReport) : Prop where
  identity : report.identity = h.identity
  rows : List.Forall₂ (IsRow h s.kernel) report.payload.stats report.updates
  nodup : (report.updates.map (·.port)).Nodup
  measured : report.payload.reportID ∉ s.creditedIDs →
    List.Forall₂ (Measured h s) report.payload.stats report.updates

/-- The invariant of the system. `f` is the first committed baseline of each
port so far. -/
structure Inv (h : Host) (s : State) (f : ℕ → Option TrafficPrevState) : Prop where
  identity : s.identityFile = some h.identity
  cache : CacheFresh s
  first : ∀ port, f port = none ↔ committedBaseline h port s = none
  kernel : ∀ port v, committedBaseline h port s = some v → ∀ d, v.bytes d ≤ s.kernel port d
  /-- Only the report on disk can still be credited. -/
  sent : ∀ payload ∈ s.sent, payload.reportID ∈ s.creditedIDs ∨
    ∃ report, s.pendingFile = some report ∧ report.payload = payload
  credited : ∀ payload ∈ s.credited, payload ∈ s.sent
  pending : ∀ report, s.pendingFile = some report → Pending h s report
  phase : PhaseOk h s s.phase
  books : ∀ ruleID d, creditedBytes s ruleID d
      + ∑ port ∈ rulePorts h ruleID, baselineBytes (f port) d
    = ∑ port ∈ rulePorts h ruleID, baselineBytes (settledBaseline h s port) d

theorem IsRow.mono {kernel kernel' : ℕ → Direction → ℕ}
    (hk : ∀ port d, kernel port d ≤ kernel' port d) {stat : TrafficStat}
    (hrow : IsRow h kernel stat u) : IsRow h kernel' stat u :=
  ⟨hrow.file, hrow.rule, hrow.pos, fun d => (hrow.kernel d).trans (hk u.port d)⟩

theorem committedBaseline_congr (hfile : s'.prevFile port = s.prevFile port) :
    committedBaseline h port s' = committedBaseline h port s := by
  simp only [committedBaseline, hfile]

theorem measured_congr {stat : TrafficStat}
    (hfile : s'.prevFile u.port = s.prevFile u.port) (hm : Measured h s stat u) :
    Measured h s' stat u := by
  unfold Measured
  rw [committedBaseline_congr hfile]
  exact hm

theorem Frame.committedBaseline (hf : Frame s s') (port : ℕ) :
    committedBaseline h port s' = committedBaseline h port s :=
  committedBaseline_congr (congrFun hf.prevFile port)

theorem Frame.sampling (hf : Frame s s') {snap : Snapshot} {rest : List LocalRuleState}
    (hs : Sampling h s snap rest stats us) : Sampling h s' snap rest stats us where
  rows := hs.rows.imp fun _ _ => IsRow.mono hf.kernel
  measured := hs.measured.imp fun _ u => measured_congr (congrFun hf.prevFile u.port)
  nodup := hs.nodup
  states := hs.states
  upper := fun state hmem hlay d => (hs.upper state hmem hlay d).trans (hf.kernel state.port d)
  lower := by
    intro state hmem hlay v hv
    rw [hf.committedBaseline] at hv
    exact hs.lower state hmem hlay v hv

theorem Frame.phaseOk (hf : Frame s s') {ph : Phase} (hph : PhaseOk h s ph) : PhaseOk h s' ph := by
  cases ph with
  | idle => trivial
  | clearing snap rest adopt => exact hph
  | identifying snap => exact hph
  | sampling snap rest stats us => exact ⟨hf.pendingFile.trans hph.1, hf.sampling hph.2⟩
  | posting report => exact hf.pendingFile.trans hph
  | committing report rest =>
    obtain ⟨hpend, hid, done, hsplit, hdone⟩ := hph
    refine ⟨hf.pendingFile.trans hpend, ?_, done, hsplit, fun u hu => ?_⟩
    · rw [State.creditedIDs, hf.credited]
      exact hid
    · rw [hf.prevFile]
      exact hdone u hu

theorem Inv.frame (hinv : Inv h s f)
    (hf : Frame s s') (hphase : PhaseOk h s' s'.phase) : Inv h s' f where
  identity := hf.identityFile.trans hinv.identity
  cache := hf.cache hinv.cache
  first := by
    intro port
    rw [hf.committedBaseline]
    exact hinv.first port
  kernel := by
    intro port v hv d
    rw [hf.committedBaseline] at hv
    exact (hinv.kernel port v hv d).trans (hf.kernel port d)
  sent := by
    rw [hf.sent, State.creditedIDs, hf.credited, hf.pendingFile]
    exact hinv.sent
  credited := by
    rw [hf.sent, hf.credited]
    exact hinv.credited
  pending := by
    intro report hreport
    rw [hf.pendingFile] at hreport
    have hp := hinv.pending report hreport
    refine ⟨hp.identity, hp.rows.imp fun _ _ => IsRow.mono hf.kernel, hp.nodup, ?_⟩
    rw [State.creditedIDs, hf.credited]
    intro hid
    exact (hp.measured hid).imp fun _ u => measured_congr (congrFun hf.prevFile u.port)
  phase := hphase
  books := by
    intro ruleID d
    have hsettled : ∀ port, settledBaseline h s' port = settledBaseline h s port := by
      intro port
      simp only [settledBaseline, creditedUpdate, State.creditedIDs, hf.committedBaseline,
        hf.pendingFile, hf.credited]
    simp only [creditedBytes, hf.credited, hsettled]
    exact hinv.books ruleID d

/-! ## The history -/

/-- The first baselines after a step to `s`. -/
def recorded (h : Host) (f : ℕ → Option TrafficPrevState) (s : State) : ℕ → Option TrafficPrevState :=
  fun port => (f port).or (committedBaseline h port s)

theorem Inv.recorded_apply (hinv : Inv h s f)
    (hport : committedBaseline h port s' = committedBaseline h port s) :
    recorded h f s' port = f port := by
  rw [recorded, hport]
  cases hf : f port with
  | none => rw [Option.none_or, (hinv.first port).mp hf]
  | some v => rw [Option.some_or]

theorem Inv.recorded_eq (hinv : Inv h s f)
    (hsame : ∀ port, committedBaseline h port s' = committedBaseline h port s) :
    recorded h f s' = f :=
  funext fun port => hinv.recorded_apply (hsame port)

theorem Inv.step_frame (hinv : Inv h s f)
    (hf : Frame s s') (hphase : PhaseOk h s' s'.phase) : Inv h s' (recorded h f s') := by
  rw [hinv.recorded_eq hf.committedBaseline]
  exact hinv.frame hf hphase

theorem Inv.step_phase (hinv : Inv h s f) {ph : Phase} (hph : PhaseOk h s ph) :
    Inv h { s with phase := ph } (recorded h f { s with phase := ph }) :=
  hinv.step_frame (frame_phase s ph) ((frame_phase s ph).phaseOk hph)

theorem Inv.step_idle (hinv : Inv h s f) :
    Inv h { s with phase := .idle } (recorded h f { s with phase := .idle }) :=
  hinv.step_frame (frame_phase s .idle) trivial

theorem Inv.step_self (hinv : Inv h s f) : Inv h s (recorded h f s) :=
  hinv.step_frame (Frame.refl s) hinv.phase

/-! ## Writing a baseline -/

section

variable {s s' : State} {f : ℕ → Option TrafficPrevState} {port : ℕ} {v : TrafficPrevState}

section

variable (hw : Wrote port v s s')

include hw

theorem Wrote.committed_of_ne {q : ℕ} (hq : q ≠ port) : committedBaseline h q s' = committedBaseline h q s := by
  refine committedBaseline_congr ?_
  rw [hw.prevFile, Function.update_of_ne hq]

theorem Wrote.committed_self (hpos : 0 < v.ruleID) (hfile : h.ruleFiles.lookup port = some v.ruleID) :
    committedBaseline h port s' = some v := by
  have hself : s'.prevFile port = v := by rw [hw.prevFile, Function.update_self]
  rw [committedBaseline, hself]
  exact if_pos ⟨hpos, hfile⟩

theorem Wrote.creditedUpdate (q : ℕ) : creditedUpdate s' q = creditedUpdate s q := by
  simp only [Agent.creditedUpdate, State.creditedIDs, hw.pendingFile, hw.credited]

theorem Wrote.settled_of_ne {q : ℕ} (hq : q ≠ port) : settledBaseline h s' q = settledBaseline h s q := by
  rw [settledBaseline, hw.committed_of_ne hq, hw.creditedUpdate, settledBaseline]

end

section

variable (hinv : Inv h s f) (hw : Wrote port v s s') (hpos : 0 < v.ruleID)
  (hfile : h.ruleFiles.lookup port = some v.ruleID)

include hinv hw hpos hfile

theorem Inv.wrote_books (hnew : ∀ d, baselineBytes (settledBaseline h s' port) d = v.bytes d)
    (hold : committedBaseline h port s ≠ none →
      ∀ d, baselineBytes (settledBaseline h s port) d = v.bytes d) (ruleID : ℤ) (d : Direction) :
    creditedBytes s' ruleID d
        + ∑ port ∈ rulePorts h ruleID, baselineBytes (recorded h f s' port) d
      = ∑ port ∈ rulePorts h ruleID, baselineBytes (settledBaseline h s' port) d := by
  have hport : ∀ q, baselineBytes (recorded h f s' q) d + baselineBytes (settledBaseline h s q) d
      = baselineBytes (f q) d + baselineBytes (settledBaseline h s' q) d := by
    intro q
    by_cases hq : q = port
    · subst hq
      rw [hnew d]
      cases hf : f q with
      -- the port enters the books at `v` on both sides
      | none =>
        have hnone := (hinv.first q).mp hf
        rw [recorded, hf, Option.none_or, hw.committed_self hpos hfile, settledBaseline, hnone]
        exact Nat.add_comm _ _
      | some x =>
        have hsome : committedBaseline h q s ≠ none := fun hbad => by
          rw [(hinv.first q).mpr hbad] at hf
          cases hf
        rw [recorded, hf, Option.some_or, hold hsome d]
    · rw [hinv.recorded_apply (hw.committed_of_ne hq), hw.settled_of_ne hq]
  -- summed over the ports of the rule
  have hsum := Finset.sum_congr rfl fun q (_ : q ∈ rulePorts h ruleID) => hport q
  rw [Finset.sum_add_distrib, Finset.sum_add_distrib] at hsum
  have hbooks := hinv.books ruleID d
  rw [creditedBytes, hw.credited, ← creditedBytes]
  omega

/-- **Writing a baseline keeps the books.** The port is settled at the new
baseline: because it had none before, or because it was settled there already. -/
theorem Inv.wrote (hkernel : ∀ d, v.bytes d ≤ s.kernel port d)
    (hopen : ∀ report, s.pendingFile = some report → report.payload.reportID ∈ s.creditedIDs)
    (hnew : ∀ d, baselineBytes (settledBaseline h s' port) d = v.bytes d)
    (hold : committedBaseline h port s ≠ none →
      ∀ d, baselineBytes (settledBaseline h s port) d = v.bytes d)
    (hphase : PhaseOk h s' s'.phase) : Inv h s' (recorded h f s') where
  identity := hw.identityFile.trans hinv.identity
  cache := hw.cache
  first := by
    intro q
    by_cases hq : q = port
    · subst hq
      rw [recorded, hw.committed_self hpos hfile]
      cases f q <;> simp
    · rw [hinv.recorded_apply (hw.committed_of_ne hq), hw.committed_of_ne hq]
      exact hinv.first q
  kernel := by
    intro q x hx d
    refine le_trans ?_ (hw.kernel q d)
    by_cases hq : q = port
    · subst hq
      rw [hw.committed_self hpos hfile, Option.some.injEq] at hx
      rw [← hx]
      exact hkernel d
    · rw [hw.committed_of_ne hq] at hx
      exact hinv.kernel q x hx d
  sent := by
    rw [hw.sent, State.creditedIDs, hw.credited, hw.pendingFile]
    exact hinv.sent
  credited := by
    rw [hw.sent, hw.credited]
    exact hinv.credited
  pending := by
    intro report hreport
    rw [hw.pendingFile] at hreport
    have hp := hinv.pending report hreport
    refine ⟨hp.identity, hp.rows.imp fun _ _ => IsRow.mono hw.kernel, hp.nodup, ?_⟩
    rw [State.creditedIDs, hw.credited]
    intro hid
    exact absurd (hopen report hreport) hid
  phase := hphase
  books := hinv.wrote_books hw hpos hfile hnew hold

end

end

end ForwardX.Agent
