/-
The Xray process and the committed state: what `Apply` of `agent/xray_runtime.go` leaves running
when it reports that the state was applied, reused or rolled back.

After an Apply the process that runs has the configuration of the committed state, unless a rollback
restarted one for a state that was stopped or a process of another state was reused. The proof goes
step by step through Apply, with the state on disk and the process kept side by side.
-/
import ForwardX.Agent.XrayApply

namespace ForwardX.Agent.XrayAgreement

open XrayTypes XrayApply Run
open XrayRuntime
open XraySupervision (XrayLaunchSpec XrayServiceStatus)

/-- The process is of this generation and config. -/
def Runs (spec : XrayLaunchSpec) (state : XrayRuntimeState) : Prop :=
  spec.generation = state.appliedGeneration ∧ spec.configHash = state.appliedConfigHash

instance (spec : XrayLaunchSpec) (state : XrayRuntimeState) : Decidable (Runs spec state) :=
  inferInstanceAs (Decidable (_ ∧ _))

/-- The supervisor runs the generation and config of the state if it is a running one, and is
stopped if it is not. -/
def Agrees (s : Supervisor) (state : XrayRuntimeState) : Prop :=
  if state.desiredRunning then s.status = .running ∧ ∃ spec, s.current = some spec ∧ Runs spec state
  else s.status = .stopped ∧ s.current = none

/-! ## The condition -/

/-- A state that is reused because the supervisor is ready is a running one, and its own process is what
the supervisor runs. -/
def FaithfulStep (w : XrayRuntime) (out : Outcome) : Prop :=
  match w.pc with
  | .deciding => ∀ state ∈ w.disk.state, w.desired.generation = state.appliedGeneration →
      w.desired.configHash = state.appliedConfigHash → w.currentRuntimeReady out →
      state.desiredRunning ∧ ∀ spec ∈ w.supervisor.current, Runs spec state
  | .restarting ctx _ => ∀ state ∈ ctx.snapshot.state, state.desiredRunning
  | _ => True

instance (w : XrayRuntime) (out : Outcome) : Decidable (FaithfulStep w out) := by
  unfold FaithfulStep
  split <;> infer_instance

def Faithful (w : XrayRuntime) : XrayApply.Event → Prop
  | .apply _ => True
  | .step out => FaithfulStep w out
  | .crash _ => False

instance (w : XrayRuntime) : (e : XrayApply.Event) → Decidable (Faithful w e)
  | .apply _ => .isTrue trivial
  | .step out => inferInstanceAs (Decidable (FaithfulStep w out))
  | .crash _ => .isFalse not_false

/-! ## The supervisor -/

/-- No process is tracked while the supervisor is stopped, and one is while it runs. -/
structure Sane (s : Supervisor) : Prop where
  stopped : s.status = .stopped → s.current = none
  running : s.status = .running → s.current.isSome

variable {s : Supervisor}

theorem sane_error : Sane { s with status := .error } := ⟨nofun, nofun⟩

theorem sane_start (h : Sane s) (spec : XrayLaunchSpec) (out : CallOutcome) : Sane (s.start spec out).1 := by
  unfold Supervisor.start
  split
  · split
    · split
      · exact h
      · exact sane_error
    · split
      · split
        · split
          · exact ⟨nofun, fun _ => rfl⟩
          · exact sane_error
        · exact h
      · exact sane_error
  · exact h

theorem sane_stop (h : Sane s) (out : CallOutcome) : Sane (s.stop out).1 := by
  unfold Supervisor.stop
  split
  · exact ⟨fun _ => rfl, nofun⟩
  · split
    · split
      · split
        · exact ⟨fun _ => rfl, nofun⟩
        · exact h
      · exact sane_error
    · exact h

theorem sane_restart (h : Sane s) (spec : XrayLaunchSpec) (out : CallOutcome) :
    Sane (s.restart spec out).1 := by
  have hstop := sane_stop h out
  unfold Supervisor.restart
  split
  · split
    · rename_i s' heq
      rw [heq] at hstop
      exact sane_start hstop spec out
    · rename_i s' heq
      rw [heq] at hstop
      exact hstop
  · exact h

variable {out : CallOutcome}

theorem current_of_start {spec : XrayLaunchSpec} (h : (s.start spec out).2 = true) :
    (s.start spec out).1.current = some spec := by
  unfold Supervisor.start at h ⊢
  split at h
  · rename_i hvalid
    rw [if_pos hvalid]
    split at h
    · rename_i tracked htracked
      split at h
      · rename_i hinspected
        rw [if_pos hinspected, htracked, of_decide_eq_true h]
      · cases h
    · split at h
      · rename_i hlaunched
        rw [if_pos hlaunched]
        split at h
        · rename_i hidentified
          rw [if_pos hidentified]
          split at h
          · rename_i htracked
            rw [if_pos htracked]
          · cases h
        · cases h
      · cases h
  · cases h

theorem current_of_restart {spec : XrayLaunchSpec}
    (h : (s.restart spec out).2 = true) : (s.restart spec out).1.current = some spec := by
  unfold Supervisor.restart at h ⊢
  split at h
  · rename_i hvalid
    rw [if_pos hvalid]
    split at h
    · exact current_of_start h
    · cases h
  · cases h

theorem stopped_of_stop (h : (s.stop out).2 = true) :
    (s.stop out).1 = ⟨.stopped, none⟩ := by
  unfold Supervisor.stop at h ⊢
  split at h
  · rfl
  · split at h
    · rename_i hpersisted
      rw [if_pos hpersisted]
      split at h
      · rename_i hinspected
        rw [if_pos hinspected]
        split at h
        · rename_i hstopped
          rw [if_pos hstopped]
        · cases h
      · cases h
    · cases h

/-! ## What an Apply knows -/

/-- The rollback still has to write the state, or has written it. -/
def Restores (state : XrayRuntimeState) (d : Disk) (ops : List FileOp) : Prop :=
  (∃ pre, ops = pre ++ [.state state]) ∨ (ops = [] ∧ d.state = some state)

def Facts (w : XrayRuntime) : Prop :=
  match w.pc with
  | .stopping _ => w.desired.expectedListeners.isEmpty = true
  | .starting _ => w.desired.expectedListeners.isEmpty = false
  | .probing ctx => w.desired.expectedListeners.isEmpty = false ∧ w.supervisor.current = some (w.desiredSpec ctx)
  | .committing ctx => Agrees w.supervisor (XrayRuntime.newState w.desired ctx.binarySHA256)
  | .finishing _ | .refinishing _ _ => ∃ state, w.disk.state = some state ∧ Agrees w.supervisor state
  | .restoring ctx _ ops => ∃ state, ctx.snapshot.state = some state ∧ Restores state w.disk ops
  | .restarting ctx _ => ∃ state, ctx.snapshot.state = some state ∧ w.disk.state = some state
  | .reprobing _ _ => ∃ state, w.disk.state = some state ∧ state.desiredRunning ∧
      w.supervisor.current = some (XrayRuntime.stateSpec state)
  | .returned result => result.applied ∨ result.reused ∨ result.rolledBack →
      ∃ state, w.disk.state = some state ∧ Agrees w.supervisor state
  | _ => True

structure Kept (w : XrayRuntime) : Prop where
  sane : Sane w.supervisor
  facts : Facts w

variable {tools : XrayTools} {w : XrayRuntime}

theorem kept_fail (h : Sane w.supervisor) (code : XrayAgentErrorCode) : Kept (w.fail code) :=
  ⟨h, fun hresult => by simp at hresult⟩

theorem kept_goto (h : Sane w.supervisor) {pc : Pc} (hfacts : Facts (w.goto pc)) : Kept (w.goto pc) := ⟨h, hfacts⟩

theorem kept_rollback (h : Sane w.supervisor) (ctx : Context) (code : XrayAgentErrorCode) :
    Kept (w.rollbackAfterFailure ctx code) := by
  unfold rollbackAfterFailure
  split
  · rename_i state hstate
    split
    · exact kept_goto h ⟨state, hstate, .inl ⟨[.config _, .configHash _, .current _], rfl⟩⟩
    · exact kept_goto h trivial
  · exact kept_goto h trivial

theorem attempt_ok {d : Disk} {op : FileOp} {out : FileOutcome} (h : (op.attempt tools d out).2 = true) :
    (op.attempt tools d out).1 = op.run d := by
  unfold FileOp.attempt at h ⊢
  split at h
  · rename_i hallowed
    rw [if_pos hallowed]
    cases out with
    | ok => rfl
    | failedBefore | failedAfter => cases h
  · cases h

theorem kept_perform {op : FileOp} {out : Outcome} {next failed : XrayRuntime → XrayRuntime}
    (hnext : (op.attempt tools w.disk out.file).2 = true → Kept (next { w with disk := op.run w.disk }))
    (hfailed : ∀ disk, Kept (failed { w with disk })) : Kept (w.perform tools op out next failed) := by
  unfold perform
  dsimp only
  split
  · rename_i hok
    rw [attempt_ok hok]
    exact hnext hok
  · exact hfailed _

theorem kept_call {result : Supervisor × Bool} {next failed : XrayRuntime → XrayRuntime}
    (hnext : result.2 = true → Kept (next { w with supervisor := result.1 }))
    (hfailed : Kept (failed { w with supervisor := result.1 })) : Kept (w.callSupervisor result next failed) := by
  unfold callSupervisor
  split
  · rename_i hok
    exact hnext hok
  · exact hfailed

theorem snapshot_state {d : Disk} {snap : XrayApply.Snapshot} (h : snapshot tools d = some snap) : snap.state = d.state := by
  unfold snapshot at h
  split at h
  · rename_i hread _
    obtain rfl := Option.some.inj h
    unfold readState at hread
    split at hread
    · rename_i hnone
      exact hnone.symm
    · split at hread <;> simp at hread
  · rename_i state current hread _
    have hstate : d.state = some state := by
      unfold readState at hread
      split at hread
      · simp at hread
      · rename_i committed hcommitted
        split at hread
        · rw [hcommitted]
          exact Option.some.inj hread
        · cases hread
    split at h
    · split at h
      · unfold compareFiles at h
        split at h
        · cases h
        · split at h
          · obtain rfl := Option.some.inj h
            exact hstate.symm
          · cases h
      · cases h
    · cases h
  · cases h

theorem ready_iff {out : Outcome} : w.currentRuntimeReady out = true ↔
    w.supervisor.status = .running ∧ w.supervisor.current.isSome = true ∧ out.ready = true := by
  simp [currentRuntimeReady, and_assoc]

theorem kept_decide (h : Kept w) (hpc : w.pc = .deciding) (out : Outcome) (hfaithful : FaithfulStep w out) :
    Kept (w.decide tools out) := by
  have hs := h.sane
  unfold XrayRuntime.decide
  split
  · exact kept_fail hs _
  rename_i snap hsnap
  split
  · exact kept_goto hs trivial
  rename_i state hstate
  have hdisk : w.disk.state = some state := (snapshot_state hsnap).symm.trans hstate
  split
  · exact kept_fail hs _
  split
  · exact kept_fail hs _
  rename_i hconflict
  split
  · rename_i hgeneration
    have hhash : w.desired.configHash = state.appliedConfigHash := by
      by_contra hne
      exact hconflict (.inr ⟨hgeneration, hne⟩)
    split
    · -- a stopped state, and the supervisor is stopped
      rename_i hstopped
      refine kept_goto hs fun _ => ⟨state, hdisk, ?_⟩
      have hnot : state.desiredRunning = false := by simpa using hstopped.1
      simp only [Agrees, hnot, Bool.false_eq_true, if_false]
      exact ⟨hstopped.2.2, hs.stopped hstopped.2.2⟩
    · split
      · rename_i hready
        refine kept_goto hs fun _ => ⟨state, hdisk, ?_⟩
        unfold FaithfulStep at hfaithful
        rw [hpc] at hfaithful
        obtain ⟨hdesired, hruns⟩ := hfaithful state hdisk hgeneration hhash hready
        obtain ⟨hrunning, hsome, -⟩ := ready_iff.mp hready
        obtain ⟨spec, hspec⟩ := Option.isSome_iff_exists.mp hsome
        simp only [Agrees, hdesired, if_true]
        exact ⟨hrunning, spec, hspec, hruns spec hspec⟩
      · exact kept_goto hs trivial
  · exact kept_goto hs trivial

theorem kept_prepare (h : Sane w.supervisor) (snap : XrayApply.Snapshot) (out : Outcome) : Kept (w.prepare tools snap out) := by
  unfold prepare
  split
  · exact kept_fail h _
  · split
    · split
      · split
        · exact kept_goto h trivial
        · exact kept_fail h _
      · exact kept_fail h _
    · exact kept_fail h _

theorem kept_enter (h : Sane w.supervisor) (out : Outcome) : Kept (w.enter tools out) := by
  unfold enter
  split
  · split
    · split
      · split
        · exact kept_fail h _
        · exact kept_goto h trivial
      · exact kept_fail h _
    · exact kept_fail h _
  · exact kept_fail h _

theorem restoreStep_same (tools : XrayTools) (w : XrayRuntime) (op : FileOp) (isState : Bool) (out : FileOutcome) :
    (w.restoreStep tools op isState out).supervisor = w.supervisor ∧ (w.restoreStep tools op isState out).disk = w.disk ∧
      (w.restoreStep tools op isState out).desired = w.desired := by
  unfold restoreStep
  split
  · split <;> exact ⟨rfl, rfl, rfl⟩
  · exact ⟨rfl, rfl, rfl⟩

theorem restores_tail {state : XrayRuntimeState} {d : Disk} {op : FileOp} {ops : List FileOp}
    (h : Restores state d (op :: ops)) : Restores state (op.run d) ops := by
  rcases h with ⟨pre, hpre⟩ | ⟨hnil, -⟩
  · cases pre with
    | nil =>
      obtain ⟨rfl, rfl⟩ := List.cons.inj hpre
      exact .inr ⟨rfl, rfl⟩
    | cons first pre =>
      obtain ⟨-, rfl⟩ := List.cons.inj hpre
      exact .inl ⟨pre, rfl⟩
  · cases hnil

theorem agrees_stopped {desired : XrayDesiredState} {binarySHA256 : String} (h : desired.expectedListeners.isEmpty = true) :
    Agrees ⟨.stopped, none⟩ (newState desired binarySHA256) := by
  simp [Agrees, newState, h]

theorem kept_step (h : Kept w) (out : Outcome) (hfaithful : FaithfulStep w out) : Kept (w.step tools out) := by
  have hs := h.sane
  have hfacts := h.facts
  unfold Facts at hfacts
  unfold XrayRuntime.step
  split
  case h_1 | h_2 => exact h
  case h_3 => exact kept_enter hs out
  case h_4 => exact kept_goto hs trivial
  case h_5 op ops heq =>
    refine kept_perform (fun _ => ?_) fun disk => ?_
    · refine kept_goto ?_ ?_
      · exact hs
      · exact trivial
    · refine kept_fail ?_ _
      exact hs
  case h_6 heq => exact kept_decide h heq out hfaithful
  case h_7 => exact kept_prepare hs _ out
  case h_8 => exact kept_goto hs trivial
  case h_9 =>
    refine kept_perform (fun _ => ?_) fun disk => ?_
    · refine kept_goto ?_ ?_
      · exact hs
      · exact trivial
    · refine kept_fail ?_ _
      exact hs
  case h_10 ctx heq =>
    cases hempty : w.desired.expectedListeners.isEmpty with
    | true | false => exact kept_goto hs hempty
  case h_11 ctx op ops heq =>
    refine kept_perform (fun _ => ?_) fun disk => ?_
    · refine kept_goto ?_ ?_
      · exact hs
      · exact trivial
    · refine kept_rollback ?_ _ _
      exact hs
  case h_12 ctx heq =>
    rw [heq] at hfacts
    have hsane := sane_stop hs out.call
    refine kept_call (fun hok => ?_) ?_
    · refine kept_goto hsane ?_
      rw [stopped_of_stop hok]
      exact agrees_stopped hfacts
    · exact kept_rollback hsane _ _
  case h_13 ctx heq =>
    rw [heq] at hfacts
    have hsane : Sane (w.startResult ctx out.call).1 := by
      unfold startResult
      split
      · exact sane_restart hs _ _
      · exact sane_start hs _ _
    refine kept_call (fun hok => ?_) ?_
    · refine kept_goto hsane ⟨hfacts, ?_⟩
      unfold startResult at hok ⊢
      split at hok
      · rename_i hrunning
        rw [if_pos hrunning]
        exact current_of_restart hok
      · rename_i hrunning
        rw [if_neg hrunning]
        exact current_of_start hok
    · exact kept_rollback hsane _ _
  case h_14 ctx heq =>
    rw [heq] at hfacts
    split
    · rename_i hready
      refine kept_goto hs ?_
      obtain ⟨hrunning, -, -⟩ := ready_iff.mp hready
      have hdesired : (newState w.desired ctx.binarySHA256).desiredRunning = true := by
        simp [newState, hfacts.1]
      change Agrees w.supervisor (newState w.desired ctx.binarySHA256)
      simp only [Agrees, hdesired, if_true]
      exact ⟨hrunning, _, hfacts.2, rfl, rfl⟩
    · exact kept_rollback hs _ _
  case h_15 ctx heq =>
    rw [heq] at hfacts
    unfold commit
    dsimp only
    refine kept_perform (fun _ => ?_) fun disk => ?_
    · refine kept_goto ?_ ?_
      · exact hs
      · exact ⟨_, rfl, hfacts⟩
    · refine kept_rollback ?_ _ _
      exact hs
  case h_16 ctx heq =>
    rw [heq] at hfacts
    refine kept_perform (fun _ => ?_) fun disk => ?_
    · refine kept_goto ?_ ?_
      · exact hs
      · exact fun _ => hfacts
    · refine kept_fail ?_ _
      exact hs
  case h_17 ctx code heq =>
    rw [heq] at hfacts
    obtain ⟨state, hstate, ⟨pre, hpre⟩ | ⟨-, hdisk⟩⟩ := hfacts
    · simp at hpre
    · exact kept_goto hs ⟨state, hstate, hdisk⟩
  case h_18 ctx code op ops heq =>
    rw [heq] at hfacts
    obtain ⟨state, hstate, hrestores⟩ := hfacts
    obtain ⟨hsupervisor, hdisk, -⟩ := restoreStep_same tools w op ops.isEmpty out.file
    have hsane : Sane (w.restoreStep tools op ops.isEmpty out.file).supervisor := hsupervisor ▸ hs
    refine kept_perform (fun _ => ?_) fun disk => ?_
    · refine kept_goto ?_ ?_
      · exact hsane
      · refine ⟨state, hstate, ?_⟩
        rw [hdisk]
        exact restores_tail hrestores
    · refine kept_fail ?_ _
      exact hsane
  case h_19 ctx code heq =>
    rw [heq] at hfacts
    obtain ⟨state, hstate, hdisk⟩ := hfacts
    rw [hstate]
    have hsane := sane_restart hs (stateSpec state) out.call
    unfold FaithfulStep at hfaithful
    rw [heq] at hfaithful
    refine kept_call (fun hok => ?_) ?_
    · exact kept_goto hsane ⟨state, hdisk, hfaithful state hstate, current_of_restart hok⟩
    · exact kept_fail hsane _
  case h_20 ctx code heq =>
    rw [heq] at hfacts
    obtain ⟨state, hdisk, hdesired, hcurrent⟩ := hfacts
    split
    · rename_i hready
      refine kept_goto hs ⟨state, hdisk, ?_⟩
      obtain ⟨hrunning, -, -⟩ := ready_iff.mp hready
      simp only [Agrees, hdesired, if_true]
      exact ⟨hrunning, _, hcurrent, rfl, rfl⟩
    · exact kept_fail hs _
  case h_21 ctx code heq =>
    rw [heq] at hfacts
    refine kept_perform (fun _ => ?_) fun disk => ?_
    · exact ⟨hs, fun _ => hfacts⟩
    · refine kept_fail ?_ _
      exact hs
  case h_22 ctx code heq =>
    have hsane := sane_stop hs out.call
    refine kept_call (fun _ => ?_) ?_
    · exact kept_goto hsane trivial
    · exact kept_fail hsane _
  case h_23 => exact kept_fail hs _
  case h_24 ctx code op ops failed heq =>
    obtain ⟨hsupervisor, -, -⟩ := restoreStep_same tools w op ops.isEmpty out.file
    have hsane : Sane (w.restoreStep tools op ops.isEmpty out.file).supervisor := hsupervisor ▸ hs
    refine kept_perform (fun _ => ?_) fun disk => ?_
    · refine kept_goto ?_ ?_
      · exact hsane
      · exact trivial
    · refine kept_goto ?_ ?_
      · exact hsane
      · exact trivial

theorem kept_next (w : XrayRuntime) (e : XrayApply.Event) (hfaithful : Faithful w e) (h : Kept w) : Kept (next tools w e) := by
  cases e with
  | apply desired =>
    rw [next]
    split
    · exact ⟨h.sane, trivial⟩
    · exact h
  | step out => exact kept_step h out hfaithful
  | crash supervisor => exact hfaithful.elim

/-! ## The result -/

/-- **The process agrees with the committed state** whenever an Apply returns applied, reused or
rolled back, in every run in which no stopped state is rolled back to, and a state is reused because
the supervisor is ready only where its own process is what runs. -/
theorem process_agrees (tools : XrayTools) (disk : Disk) {supervisor : Supervisor} (h : Sane supervisor) (es : List XrayApply.Event)
    (hfaithful : Admissible Faithful (next tools) { disk, supervisor } es) (result : XrayApplyResult)
    (hreturned : (run (next tools) { disk, supervisor } es).pc = .returned result)
    (hresult : result.applied ∨ result.reused ∨ result.rolledBack) :
    ∃ state, (run (next tools) { disk, supervisor } es).disk.state = some state ∧
      Agrees (run (next tools) { disk, supervisor } es).supervisor state := by
  have hfacts := (run_invariant_of_admissible kept_next es _ hfaithful ⟨h, trivial⟩).facts
  unfold Facts at hfacts
  rw [hreturned] at hfacts
  exact hfacts hresult

theorem process_agrees_running :
    ∃ state, (run (next sampleTools) {} (applied runningDesired 13)).disk.state = some state ∧
      Agrees (run (next sampleTools) {} (applied runningDesired 13)).supervisor state := by
  have hrun : Admissible Faithful (next sampleTools) {} (applied runningDesired 13) ∧
      (run (next sampleTools) {} (applied runningDesired 13)).pc = .returned { applied := true } := by decide +kernel
  exact process_agrees sampleTools {} ⟨fun _ => rfl, fun h => absurd h (by decide)⟩ _ hrun.1 _ hrun.2 (.inl rfl)

def stoppedState : XrayRuntimeState := XrayRuntime.newState stoppedDesired (String.ofList (List.replicate 64 'b'))

/-- The listeners of a running state do not become ready. -/
def notReadyRun : List XrayApply.Event :=
  applied stoppedDesired 12 ++ applied runningDesired 13 ++ [.step { ready := false }] ++ List.replicate 8 (.step {})

theorem stopped_rolled_back :
    (run (next sampleTools) {} notReadyRun).pc = .returned { rolledBack := true, errorCode := some .runtimeNotReady } ∧
      (run (next sampleTools) {} notReadyRun).disk.state = some stoppedState ∧
      ¬ Agrees (run (next sampleTools) {} notReadyRun).supervisor stoppedState := by
  have hrun : (run (next sampleTools) {} notReadyRun).pc =
        .returned { rolledBack := true, errorCode := some .runtimeNotReady } ∧
      (run (next sampleTools) {} notReadyRun).disk.state = some stoppedState ∧
      (run (next sampleTools) {} notReadyRun).supervisor.status = .running := by decide +kernel
  refine ⟨hrun.1, hrun.2.1, fun h => ?_⟩
  rw [Agrees, if_neg (by decide)] at h
  exact absurd (hrun.2.2.symm.trans h.1) (by decide)

end ForwardX.Agent.XrayAgreement
