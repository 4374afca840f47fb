/-
What the supervisor intends and what its process is: `agent/xray_supervisor.go`.

The intent is `desiredRunning` and the epoch. Start, Stop, Restart, the watchers of processes and
the calls that adopt one share the supervisor's lock, and let it go while they wait. The invariant
says at each of these points which process there can be for the intent that the epoch stands for.
-/
import ForwardX.Agent.XraySupervision

namespace ForwardX.Agent.XrayIntent

open XraySupervision Chain Run Threads XraySupervisor List

/-! ## The condition -/

/-- A process is reused only if it is wanted, forgotten only if it is dead or killed, and taken for
dead only if it is dead or told to stop. -/
def SoundStep (s : XraySupervisor) (x : Thread) (out : Outcome) : Prop :=
  match x.pc with
  | .startLocked spec => out.valid → out.inspected → ∀ tracked ∈ s.current, tracked.spec = spec → s.desiredRunning
  | .discard process _ => out.killed ∨ ¬ s.Loose process
  | .wait tracked => s.isAdopted tracked.process → ¬ out.inspected → ¬ s.Loose tracked.process
  | _ => True

instance (s : XraySupervisor) (x : Thread) (out : Outcome) : Decidable (SoundStep s x out) := by
  unfold SoundStep
  split <;> infer_instance

def Sound (w : Supervision) : XraySupervision.Event → Prop
  | .step t out => ∀ x ∈ w.threads[t]?, SoundStep w.shared x out
  | _ => True

instance (w : Supervision) : (e : XraySupervision.Event) → Decidable (Sound w e)
  | .step t out => inferInstanceAs (Decidable (∀ x ∈ w.threads[t]?, SoundStep w.shared x out))
  | .Recover | .Start _ | .Stop | .Restart _ | .exit _ => .isTrue trivial

/-! ## What the threads know -/

/-- A Start or a Restart was called for this spec. -/
def Asks (task : Task) (spec : XrayLaunchSpec) : Prop := task = .Start spec ∨ task = .Restart spec

/-- The watchdog has not given up, nor succeeded. -/
def Trying : Pc → Prop
  | .retry | .delay _ | .relock _ | .recheck _ | .startLocked _ | .launch _ _ | .inspect _ _ _ | .track _
  | .discard _ _ | .unlock (.failed _) => True
  | _ => False

/-- A process is being started under the epoch. -/
def Starting (epoch : ℕ) : Pc → Prop
  | .launch _ e | .inspect _ e _ => e = epoch
  | .track tracked => tracked.epoch = epoch
  | _ => False

/-- The thread may still launch or track a process under the epoch. -/
def Claims (x : Thread) (epoch : ℕ) : Prop :=
  (x.task = .restartAfterUnexpectedExit epoch ∧ Trying x.pc) ∨ Starting epoch x.pc

/-- The watchdog has counted an attempt that it has not launched for yet. -/
def Due : Pc → Prop
  | .delay _ | .relock _ | .recheck _ | .startLocked _ | .launch _ _ => True
  | _ => False

def Untold (s : XraySupervisor) (p : ℕ) : Prop := ∃ process, s.processes[p]? = some process ∧ process.told = false

structure Starts (s : XraySupervisor) (task : Task) (spec : XrayLaunchSpec) (epoch : ℕ) : Prop where
  untracked : s.current = none
  underEpoch : s.epoch = epoch
  asked : ∀ asked, Asks task asked → asked = spec
  watchdog : ∀ e, task = .restartAfterUnexpectedExit e → e = epoch
  loud : s.quiet = false

def Facts (s : XraySupervisor) (x : Thread) : Prop :=
  match x.pc with
  | .entered | .lock => x.watchdog = false
  | .readRecord => x.task = .Recover ∧ s.launching = none ∧ s.current = none ∧ s.processes = [] ∧ s.quiet = false
  | .stopLocked => x.watchdog = false ∧ s.launching = none ∧ (∀ spec, Asks x.task spec → s.quiet = false)
  | .stopInspect _ | .stopSignal _ | .stopWait _ | .stopInspectAgain _ | .stopKill _ | .stopWaitKilled _ =>
    x.watchdog = false ∧ s.launching = none ∧ s.desiredRunning = false ∧ (∀ spec, Asks x.task spec → s.quiet = false)
  | .startLocked spec => s.launching = none ∧ (∀ asked, Asks x.task asked → asked = spec) ∧ s.quiet = false ∧
    ∀ e, x.task = .restartAfterUnexpectedExit e → s.epoch = e ∧ s.current = none
  | .launch spec epoch => s.launching = none ∧ Starts s x.task spec epoch
  | .inspect spec epoch process => s.launching = some process ∧ Untold s process ∧ Starts s x.task spec epoch
  | .track tracked => s.launching = some tracked.process ∧ Untold s tracked.process ∧ Starts s x.task tracked.spec tracked.epoch
  | .discard process _ => s.launching = some process
  | .unlock (.status _) => s.launching = none ∧ ∀ asked, Asks x.task asked → s.desiredRunning ∧ s.spec = asked
  | .unlock .done => s.launching = none ∧ (x.task = .Stop → s.desiredRunning = false)
  | .unlock (.failed _) => s.launching = none
  | .wait tracked => tracked.process < s.processes.length
  | .clear tracked => tracked.process < s.processes.length ∧ ¬ s.Loose tracked.process
  | .recheck _ => s.launching = none
  | .retry | .delay _ | .relock _ | .over _ => True

/-- What the thread `t` knows of the supervisor. -/
structure Knows (s : XraySupervisor) (t : ℕ) (x : Thread) : Prop where
  locked : x.pc.Locked ↔ s.transitionMu = some t
  facts : Facts s x
  claims : ∀ e, Claims x e → e ≤ s.epoch ∧ (e = s.epoch → s.current = none)
  due : ∀ e, x.task = .restartAfterUnexpectedExit e → Due x.pc → e = s.epoch → s.watchdogLaunches + 1 ≤ s.restartAttempts

def Apart (x y : Thread) : Prop := ∀ e, Claims x e → ¬ Claims y e

theorem Apart.symm {x y : Thread} (h : Apart x y) : Apart y x := fun e hy hx => h e hx hy

structure Inv (options : XraySupervisorOptions) (s : XraySupervisor) : Prop where
  loose : ∀ p, s.Loose p → s.current.map TrackedXrayProcess.process = some p ∨ s.launching = some p
  spec : ∀ tracked ∈ s.current, s.spec = tracked.spec
  untold : s.desiredRunning → ∀ tracked ∈ s.current, Untold s tracked.process
  alone : s.launching ≠ none → s.current = none
  free : s.transitionMu = none → s.launching = none
  quiet : s.quiet → s.desiredRunning = false
  launches : s.watchdogLaunches ≤ s.restartAttempts
  attempts : s.restartAttempts ≤ options.maxRestarts

/-! ## Processes -/

/-- Processes do not come back to life, and stay told. -/
def Aged (old new : List XrayManagedProcess) : Prop :=
  ∀ (p : ℕ) (process : XrayManagedProcess), old[p]? = some process → ∃ process', new[p]? = some process' ∧
    (process'.alive → process.alive) ∧ (process.told → process'.told)

theorem Aged.refl (ps : List XrayManagedProcess) : Aged ps ps := fun _ process h => ⟨process, h, id, id⟩

theorem Aged.concat (ps : List XrayManagedProcess) (new : XrayManagedProcess) : Aged ps (ps ++ [new]) :=
  fun _ process h => ⟨process, getElem?_concat_of_some h, id, id⟩

variable {f : XrayManagedProcess → XrayManagedProcess}

theorem Aged.modify (ps : List XrayManagedProcess) (p : ℕ)
    (hf : ∀ process, ((f process).alive → process.alive) ∧ (process.told → (f process).told)) :
    Aged ps (ps.modify p f) := by
  intro q process hq
  refine ⟨_, getElem?_modify_iff.mpr ⟨process, hq, rfl⟩, ?_⟩
  split
  · exact hf process
  · exact ⟨id, id⟩

theorem Aged.length_le {old new : List XrayManagedProcess} (h : Aged old new) {p : ℕ} (hp : p < old.length) :
    p < new.length := by
  obtain ⟨process', hnew, -⟩ := h p _ (getElem?_eq_getElem hp)
  exact lt_length_of_getElem? hnew

theorem Aged.not_loose {s s' : XraySupervisor} (h : Aged s.processes s'.processes) {p : ℕ} (hp : p < s.processes.length)
    (hnot : ¬ s.Loose p) : ¬ s'.Loose p := by
  rintro ⟨process', hnew, halive, huntold⟩
  obtain ⟨q, hq, hqalive, hqtold⟩ := h p _ (getElem?_eq_getElem hp)
  obtain rfl := Option.some.inj (hnew.symm.trans hq)
  exact hnot ⟨_, getElem?_eq_getElem hp, hqalive halive, fun htold => huntold (hqtold htold)⟩

variable {s : XraySupervisor}

theorem loose_of_modify {p q : ℕ}
    (hf : ∀ process, ((f process).alive → process.alive) ∧ (process.told → (f process).told))
    (h : XraySupervisor.Loose { s with processes := s.processes.modify p f } q) : s.Loose q := by
  obtain ⟨process', hq, halive, huntold⟩ := h
  obtain ⟨process, hold, rfl⟩ := getElem?_modify_iff.mp hq
  refine ⟨process, hold, ?_⟩
  split at halive
  · rename_i hqp
    rw [if_pos hqp] at huntold
    exact ⟨(hf process).1 halive, fun htold => huntold ((hf process).2 htold)⟩
  · rename_i hqp
    rw [if_neg hqp] at huntold
    exact ⟨halive, huntold⟩

theorem loose_of_tell {p q : ℕ} (h : (s.tell p).Loose q) : s.Loose q :=
  loose_of_modify (f := fun process => { process with told := true }) (fun _ => ⟨id, fun _ => rfl⟩) h

theorem not_loose_tell (s : XraySupervisor) (p : ℕ) : ¬ (s.tell p).Loose p := by
  rintro ⟨process', hp, -, huntold⟩
  obtain ⟨process, -, rfl⟩ := getElem?_modify_iff.mp hp
  simp at huntold

theorem not_loose_of_not_alive {p : ℕ} (h : s.alive p = false) : ¬ s.Loose p := by
  rintro ⟨process, hp, halive, -⟩
  simp [alive, hp, halive] at h

/-! ## Steps of others -/

/-- What a thread that does not hold `transitionMu` may change, and the system. -/
structure Mild (s s' : XraySupervisor) : Prop where
  transitionMu : s'.transitionMu = s.transitionMu
  desiredRunning : s'.desiredRunning = s.desiredRunning
  epoch : s'.epoch = s.epoch
  spec : s'.spec = s.spec
  launching : s'.launching = s.launching
  quiet : s'.quiet = s.quiet
  processes : ∃ p f, s'.processes = s.processes.modify p f ∧
    ∀ process, ((f process).alive → process.alive) ∧ (f process).told = process.told
  current : s'.current = s.current ∨ s'.current = none
  due : s.current = none → s'.watchdogLaunches = s.watchdogLaunches ∧ s.restartAttempts ≤ s'.restartAttempts

namespace Mild

variable {s s' : XraySupervisor}

section

variable (h : Mild s s')

include h

theorem aged : Aged s.processes s'.processes := by
  obtain ⟨p, f, hprocesses, hf⟩ := h.processes
  rw [hprocesses]
  exact Aged.modify _ p fun process => ⟨(hf process).1, fun htold => (hf process).2.trans htold⟩

theorem length : s'.processes.length = s.processes.length := by
  obtain ⟨p, f, hprocesses, -⟩ := h.processes
  rw [hprocesses, length_modify]

theorem current_none (hnone : s.current = none) : s'.current = none := by
  rcases h.current with hsame | hgone
  · rw [hsame, hnone]
  · exact hgone

theorem untold {p : ℕ} (hp : Untold s p) : Untold s' p := by
  obtain ⟨q, f, hprocesses, hf⟩ := h.processes
  obtain ⟨process, hold, huntold⟩ := hp
  refine ⟨_, hprocesses ▸ getElem?_modify_iff.mpr ⟨process, hold, rfl⟩, ?_⟩
  split
  · rw [(hf process).2, huntold]
  · exact huntold

theorem starts {task : Task} {spec : XrayLaunchSpec} {epoch : ℕ} (hs : Starts s task spec epoch) :
    Starts s' task spec epoch where
  untracked := h.current_none hs.untracked
  underEpoch := h.epoch.trans hs.underEpoch
  asked := hs.asked
  watchdog := hs.watchdog
  loud := h.quiet.trans hs.loud

theorem facts {x : Thread} (hx : Facts s x) : Facts s' x := by
  obtain ⟨task, pc⟩ := x
  cases pc with
  | readRecord =>
    obtain ⟨htask, hlaunching, hcurrent, hprocesses, hquiet⟩ := hx
    refine ⟨htask, h.launching.trans hlaunching, h.current_none hcurrent, ?_, h.quiet.trans hquiet⟩
    exact length_eq_zero_iff.mp (h.length.trans (by rw [hprocesses]; rfl))
  | startLocked spec =>
    obtain ⟨hlaunching, hasked, hquiet, hwatchdog⟩ := hx
    refine ⟨h.launching.trans hlaunching, hasked, h.quiet.trans hquiet, fun e he => ?_⟩
    exact ⟨h.epoch.trans (hwatchdog e he).1, h.current_none (hwatchdog e he).2⟩
  | launch spec epoch => exact ⟨h.launching.trans hx.1, h.starts hx.2⟩
  | inspect spec epoch process => exact ⟨h.launching.trans hx.1, h.untold hx.2.1, h.starts hx.2.2⟩
  | track tracked => exact ⟨h.launching.trans hx.1, h.untold hx.2.1, h.starts hx.2.2⟩
  | wait tracked => exact lt_of_lt_of_eq hx h.length.symm
  | clear tracked => exact ⟨lt_of_lt_of_eq hx.1 h.length.symm, h.aged.not_loose hx.1 hx.2⟩
  | unlock result =>
    cases result with
    | status status => simpa only [Facts, h.launching, h.desiredRunning, h.spec] using hx
    | done => simpa only [Facts, h.launching, h.desiredRunning] using hx
    | failed error => exact h.launching.trans hx
  | stopLocked => simpa only [Facts, h.launching, h.quiet] using hx
  | stopInspect | stopSignal | stopWait | stopInspectAgain | stopKill | stopWaitKilled =>
    simpa only [Facts, h.launching, h.desiredRunning, h.quiet] using hx
  | discard | recheck => exact h.launching.trans hx
  | entered | lock | retry | delay | relock | «over» => exact hx

theorem knows {t : ℕ} {x : Thread} (hx : Knows s t x) : Knows s' t x where
  locked := by rw [h.transitionMu]; exact hx.locked
  facts := h.facts hx.facts
  claims e he := by
    rw [h.epoch]
    exact ⟨(hx.claims e he).1, fun heq => h.current_none ((hx.claims e he).2 heq)⟩
  due e htask hdue heq := by
    rw [h.epoch] at heq
    have hclaims : Claims x e := .inl ⟨htask, by revert hdue; cases x.pc <;> simp [Due, Trying]⟩
    obtain ⟨hlaunches, hattempts⟩ := h.due ((hx.claims e hclaims).2 heq)
    have := hx.due e htask hdue heq
    omega

theorem inv {options : XraySupervisorOptions} (hs : Inv options s)
    (hcleared : ∀ tracked, s.current = some tracked → s'.current = none → ¬ s.Loose tracked.process)
    (hlaunches : s'.watchdogLaunches ≤ s'.restartAttempts) (hattempts : s'.restartAttempts ≤ options.maxRestarts) :
    Inv options s' where
  loose p hp := by
    obtain ⟨q, f, hprocesses, hf⟩ := h.processes
    have hold : s.Loose p := by
      refine loose_of_modify (p := q) (f := f) (fun process => ⟨(hf process).1, fun ht => (hf process).2.trans ht⟩) ?_
      simpa only [XraySupervisor.Loose, hprocesses] using hp
    rcases hs.loose p hold with hcurrent | hlaunching
    · obtain ⟨tracked, htracked, hpt⟩ := Option.map_eq_some_iff.mp hcurrent
      rcases h.current with hsame | hgone
      · exact .inl (hsame ▸ hcurrent)
      · exact absurd (hpt ▸ hold) (hcleared tracked htracked hgone)
    · exact .inr (h.launching.trans hlaunching)
  spec tracked htracked := by
    rcases h.current with hsame | hgone
    · exact h.spec.trans (hs.spec tracked (hsame ▸ htracked))
    · rw [hgone] at htracked
      cases htracked
  untold hdesired tracked htracked := by
    rcases h.current with hsame | hgone
    · exact h.untold (hs.untold (h.desiredRunning ▸ hdesired) tracked (hsame ▸ htracked))
    · rw [hgone] at htracked
      cases htracked
  alone hlaunching := h.current_none (hs.alone (h.launching ▸ hlaunching))
  free hfree := h.launching.trans (hs.free (h.transitionMu ▸ hfree))
  quiet hquiet := h.desiredRunning.trans (hs.quiet (h.quiet ▸ hquiet))
  launches := hlaunches
  attempts := hattempts

end

end Mild

/-- What a thread that holds `transitionMu`, or takes it, may change for the others. -/
structure Strong (s : XraySupervisor) (t : ℕ) (x : Thread) (s' : XraySupervisor) : Prop where
  before : s.transitionMu = none ∨ s.transitionMu = some t
  after : s'.transitionMu = none ∨ s'.transitionMu = some t
  aged : Aged s.processes s'.processes
  epoch : s.epoch ≤ s'.epoch
  unclaimed : s'.epoch = s.epoch → ¬ Claims x s.epoch → s.current = none →
    s'.current = none ∧ s'.watchdogLaunches = s.watchdogLaunches ∧ s.restartAttempts ≤ s'.restartAttempts

theorem Strong.knows {s s' : XraySupervisor} {t : ℕ} {x : Thread} (h : Strong s t x s') {u : ℕ} {y : Thread} (hne : u ≠ t)
    (hy : Knows s u y) (hapart : Apart x y) : Knows s' u y := by
  have hunlocked : ¬ y.pc.Locked := by
    rw [hy.locked]
    rcases h.before with hfree | hheld <;> simp_all [eq_comm]
  have hstill : ∀ e, Claims y e → e = s'.epoch → s.epoch = e ∧ s'.current = none ∧
      s'.watchdogLaunches = s.watchdogLaunches ∧ s.restartAttempts ≤ s'.restartAttempts := by
    intro e he heq
    have hle := (hy.claims e he).1
    have hepoch : s.epoch = e := by have := h.epoch; omega
    refine ⟨hepoch, h.unclaimed (by omega) (fun hx => hapart e (hepoch ▸ hx) he) ?_⟩
    exact (hy.claims e he).2 hepoch.symm
  refine ⟨?_, ?_, fun e he => ⟨((hy.claims e he).1).trans h.epoch, fun heq => (hstill e he heq).2.1⟩, ?_⟩
  · rcases h.after with hfree | hheld
    · simp [hunlocked, hfree]
    · simp [hunlocked, hheld, hne.symm]
  · have hfacts := hy.facts
    obtain ⟨task, pc⟩ := y
    cases pc with
    | wait tracked => exact h.aged.length_le hfacts
    | clear tracked => exact ⟨h.aged.length_le hfacts.1, h.aged.not_loose hfacts.1 hfacts.2⟩
    | entered | lock | retry | delay | relock | «over» => exact hfacts
    | _ => exact absurd trivial hunlocked
  · intro e htask hdue heq
    have hclaims : Claims y e := .inl ⟨htask, by revert hdue; cases y.pc <;> simp [Due, Trying]⟩
    obtain ⟨hepoch, -, hlaunches, hattempts⟩ := hstill e hclaims heq
    have := hy.due e htask hdue hepoch.symm
    omega

/-! ## What a step keeps -/

/-- What has to be shown of one step of the thread `t`. -/
structure Keeps (options : XraySupervisorOptions) (s : XraySupervisor) (t : ℕ) (x : Thread) (after : After) : Prop where
  inv : Inv options after.1
  own : Knows after.1 t after.2.1
  others : Mild s after.1 ∨ Strong s t x after.1
  claims : ∀ e, Claims after.2.1 e → Claims x e ∨ s.epoch < e
  spawned : ∀ z ∈ after.2.2, (∀ u, after.1.transitionMu ≠ some u → Knows after.1 u z) ∧ Apart z after.2.1 ∧
    ∀ e, Claims z e → e = s.epoch ∧ s.current ≠ none

variable {options : XraySupervisorOptions} {s s' : XraySupervisor} {t : ℕ} {task : Task} {pc pc' : Pc}

theorem not_claims (hwatchdog : Thread.watchdog ⟨task, pc⟩ = false) (hstarting : ∀ e, ¬ Starting e pc) (e : ℕ) :
    ¬ Claims ⟨task, pc⟩ e := by
  rintro (⟨htask, -⟩ | hstart)
  · dsimp only at htask
    subst htask
    exact absurd hwatchdog (by simp [Thread.watchdog])
  · exact hstarting e hstart

theorem Keeps.of_mild (hx : Knows s t ⟨task, pc⟩) (hmild : Mild s s') (hinv : Inv options s')
    (hlocked : pc'.Locked ↔ pc.Locked) (hfacts : Facts s ⟨task, pc'⟩)
    (hclaims : ∀ e, Claims ⟨task, pc'⟩ e → Claims ⟨task, pc⟩ e)
    (hdue : ∀ e, task = .restartAfterUnexpectedExit e → Due pc' → Due pc) :
    Keeps options s t ⟨task, pc⟩ (s', ⟨task, pc'⟩, none) where
  inv := hinv
  own := hmild.knows {
    locked := hlocked.trans hx.locked
    facts := hfacts
    claims := fun e he => hx.claims e (hclaims e he)
    due := fun e htask he => hx.due e htask (hdue e htask he) }
  others := .inl hmild
  claims e he := .inl (hclaims e he)
  spawned z hz := by cases hz

theorem Keeps.held (hx : Knows s t ⟨task, pc⟩) (hlocked : pc.Locked) (hlocked' : pc'.Locked) (hinv : Inv options s')
    (hmu : s'.transitionMu = s.transitionMu) (haged : Aged s.processes s'.processes) (hepoch : s.epoch ≤ s'.epoch)
    (hunclaimed : s'.epoch = s.epoch → ¬ Claims ⟨task, pc⟩ s.epoch → s.current = none →
      s'.current = none ∧ s'.watchdogLaunches = s.watchdogLaunches ∧ s.restartAttempts ≤ s'.restartAttempts)
    (hfacts : Facts s' ⟨task, pc'⟩)
    (hclaims : ∀ e, Claims ⟨task, pc'⟩ e → (Claims ⟨task, pc⟩ e ∨ s.epoch < e) ∧ e ≤ s'.epoch ∧
      (e = s'.epoch → s'.current = none))
    (hdue : ∀ e, task = .restartAfterUnexpectedExit e → Due pc' → e = s'.epoch →
      s'.watchdogLaunches + 1 ≤ s'.restartAttempts) :
    Keeps options s t ⟨task, pc⟩ (s', ⟨task, pc'⟩, none) where
  inv := hinv
  own := {
    locked := iff_of_true hlocked' (hmu.trans (hx.locked.mp hlocked))
    facts := hfacts
    claims := fun e he => (hclaims e he).2
    due := hdue }
  others := .inr ⟨.inr (hx.locked.mp hlocked), .inr (hmu.trans (hx.locked.mp hlocked)), haged, hepoch, hunclaimed⟩
  claims e he := (hclaims e he).1
  spawned z hz := by cases hz

/-! ## Status, error code and record -/

/-- Nothing but the status, the error code and the record has changed. -/
def Book (s s' : XraySupervisor) : Prop :=
  ∃ status errorCode record, s' = { s with status := status, errorCode := errorCode, record := record }

namespace Book

theorem refl (s : XraySupervisor) : Book s s := ⟨_, _, _, rfl⟩

variable {s s' : XraySupervisor}

theorem persistLocked (h : Book s s') (out : Outcome) : Book s (s'.persistLocked out) := by
  obtain ⟨status, errorCode, record, rfl⟩ := h
  rw [XraySupervisor.persistLocked]
  split
  · exact ⟨_, _, _, rfl⟩
  · exact ⟨_, _, _, rfl⟩

theorem startFailed (s : XraySupervisor) : Book s s.startFailed := ⟨_, _, _, rfl⟩

theorem stopped (s : XraySupervisor) : Book s s.stopped := ⟨_, _, _, rfl⟩

theorem inv (h : Book s s') (hs : Inv options s) : Inv options s' := by
  obtain ⟨status, errorCode, record, rfl⟩ := h
  exact ⟨hs.loose, hs.spec, hs.untold, hs.alone, hs.free, hs.quiet, hs.launches, hs.attempts⟩

theorem mild (h : Book s s') : Mild s s' := by
  obtain ⟨status, errorCode, record, rfl⟩ := h
  exact ⟨rfl, rfl, rfl, rfl, rfl, rfl, ⟨0, id, (modify_id ..).symm, fun _ => ⟨id, rfl⟩⟩, .inl rfl,
    fun _ => ⟨rfl, le_rfl⟩⟩

end Book

theorem Mild.refl (s : XraySupervisor) : Mild s s := (Book.refl s).mild

theorem Mild.trans_book {s s' s'' : XraySupervisor} (h : Mild s s') (hb : Book s' s'') : Mild s s'' := by
  obtain ⟨status, errorCode, record, rfl⟩ := hb
  exact ⟨h.transitionMu, h.desiredRunning, h.epoch, h.spec, h.launching, h.quiet, h.processes, h.current, h.due⟩

/-! ## Stop -/

theorem keeps_stopLocked (hs : Inv options s) (hx : Knows s t ⟨task, .stopLocked⟩) (out : Outcome) :
    Keeps options s t ⟨task, .stopLocked⟩ (s.stopLocked ⟨task, .stopLocked⟩ out) := by
  obtain ⟨hwatchdog, hlaunching, hquiet⟩ := hx.facts
  have hinv : Inv options { s with epoch := s.epoch + 1, desiredRunning := false } :=
    ⟨hs.loose, hs.spec, fun h => absurd h (by simp), hs.alone, hs.free, fun _ => rfl, hs.launches, hs.attempts⟩
  -- Whatever comes next, the epoch is a new one and the intent is to stop.
  have hkeeps : ∀ (s' : XraySupervisor) (pc' : Pc), Book { s with epoch := s.epoch + 1, desiredRunning := false } s' →
      pc'.Locked → (∀ e, ¬ Claims ⟨task, pc'⟩ e) → (Due pc' → Thread.watchdog ⟨task, pc'⟩ = false) →
      Facts { s with epoch := s.epoch + 1, desiredRunning := false } ⟨task, pc'⟩ →
      Keeps options s t ⟨task, .stopLocked⟩ (s', ⟨task, pc'⟩, none) := by
    intro s' pc' hbook hlocked' hnone hdue hfacts
    have hmild := hbook.mild
    refine Keeps.held hx trivial hlocked' (hbook.inv hinv) hmild.transitionMu hmild.aged ?_ ?_ (hmild.facts hfacts)
      (fun e he => absurd he (hnone e)) ?_
    · rw [hmild.epoch]
      exact Nat.le_succ _
    · intro hepoch
      rw [hmild.epoch] at hepoch
      exact absurd hepoch (Nat.succ_ne_self _)
    · rintro e rfl hd
      exact absurd (hdue hd) (by simp [Thread.watchdog])
  have hfailed : ∀ e, ¬ Claims ⟨task, .unlock (.failed .persist)⟩ e := not_claims hwatchdog fun _ => id
  unfold stopLocked
  dsimp only
  split
  · -- no process is tracked
    have hbook := (Book.stopped { s with epoch := s.epoch + 1, desiredRunning := false }).persistLocked out
    split
    · cases task with
      | Restart spec =>
        refine hkeeps _ _ hbook trivial (not_claims rfl fun _ => id) (fun _ => rfl) ⟨hlaunching, ?_, ?_, ?_⟩
        · rintro asked (hasked | hasked)
          · cases hasked
          · exact (Task.Restart.inj hasked).symm
        · exact hquiet spec (.inr rfl)
        · rintro e he
          cases he
      | restartAfterUnexpectedExit epoch => exact absurd hwatchdog (by simp [Thread.watchdog])
      | Start | Stop | Recover | watch =>
        exact hkeeps _ _ hbook trivial (not_claims rfl fun _ => id) (fun _ => rfl) ⟨hlaunching, fun _ => rfl⟩
    · exact hkeeps _ _ hbook trivial hfailed (fun _ => hwatchdog) hlaunching
  · -- a process is
    have hbook := (Book.refl { s with epoch := s.epoch + 1, desiredRunning := false }).persistLocked out
    split
    · exact hkeeps _ _ hbook trivial (not_claims hwatchdog fun _ => id) False.elim ⟨hwatchdog, hlaunching, rfl, hquiet⟩
    · exact hkeeps _ _ hbook trivial hfailed (fun _ => hwatchdog) hlaunching

/-- The points of `stopLocked` behind its first section. -/
def Stopping : Pc → Prop
  | .stopInspect _ | .stopSignal _ | .stopWait _ | .stopInspectAgain _ | .stopKill _ | .stopWaitKilled _ => True
  | _ => False

variable {pc : Pc}

theorem facts_stopping {task : Task} (h : Stopping pc) : Facts s ⟨task, pc⟩ ↔ Thread.watchdog ⟨task, pc⟩ = false ∧
    s.launching = none ∧ s.desiredRunning = false ∧ ∀ spec, Asks task spec → s.quiet = false := by
  cases pc <;> first | exact h.elim | exact Iff.rfl

theorem Stopping.locked (h : Stopping pc) : pc.Locked := by
  cases pc <;> first | exact h.elim | exact trivial

theorem Stopping.not_due (h : Stopping pc) : ¬ Due pc := by
  cases pc <;> first | exact h.elim | exact id

theorem Stopping.not_claims (h : Stopping pc) (hwatchdog : Thread.watchdog ⟨task, pc⟩ = false) :
    ∀ e, ¬ Claims ⟨task, pc⟩ e := by
  refine XrayIntent.not_claims hwatchdog fun e => ?_
  cases pc <;> first | exact h.elim | exact id

section

variable (hs : Inv options s) (hx : Knows s t ⟨task, pc⟩) (hpc : Stopping pc)

include hs hx hpc

theorem keeps_stopping (hbook : Book s s')
    (hpc' : Stopping pc' ∨ ∃ error, pc' = .unlock (.failed error)) : Keeps options s t ⟨task, pc⟩ (s', ⟨task, pc'⟩, none) := by
  obtain ⟨hwatchdog, hlaunching, hdesired, hquiet⟩ := (facts_stopping hpc).mp hx.facts
  rcases hpc' with hpc' | ⟨error, rfl⟩
  · exact Keeps.of_mild hx hbook.mild (hbook.inv hs) (iff_of_true hpc'.locked hpc.locked)
      ((facts_stopping hpc').mpr ⟨hwatchdog, hlaunching, hdesired, hquiet⟩)
      (fun e he => absurd he (hpc'.not_claims hwatchdog e)) (fun _ _ hd => absurd hd hpc'.not_due)
  · exact Keeps.of_mild hx hbook.mild (hbook.inv hs) (iff_of_true trivial hpc.locked) hlaunching
      (fun e he => absurd he (@not_claims _ (.unlock (.failed error)) hwatchdog (fun _ => id) e)) (fun _ _ => False.elim)

theorem keeps_tell {q : Pc} (hq : Stopping q) (p : ℕ) :
    Keeps options s t ⟨task, pc⟩ (s.tell p, ⟨task, q⟩, none) := by
  obtain ⟨hwatchdog, hlaunching, hdesired, hquiet⟩ := (facts_stopping hpc).mp hx.facts
  have hinv : Inv options (s.tell p) :=
    ⟨fun _ h => hs.loose _ (loose_of_tell h), hs.spec,
      fun h => absurd (hdesired.symm.trans h) (by simp), hs.alone, hs.free, hs.quiet, hs.launches, hs.attempts⟩
  exact Keeps.held hx hpc.locked hq.locked hinv rfl (Aged.modify _ p fun _ => ⟨id, fun _ => rfl⟩) le_rfl
    (fun _ _ hnone => ⟨hnone, rfl, le_rfl⟩) ((facts_stopping hq).mpr ⟨hwatchdog, hlaunching, hdesired, hquiet⟩)
    (fun e he => absurd he (hq.not_claims hwatchdog e)) (fun _ _ hd => absurd hd hq.not_due)

theorem keeps_afterStop :
    Keeps options s t ⟨task, pc⟩ (s, Thread.goto ⟨task, pc⟩ (Thread.afterStop ⟨task, pc⟩), none) := by
  obtain ⟨hwatchdog, hlaunching, hdesired, hquiet⟩ := (facts_stopping hpc).mp hx.facts
  cases task with
  | Restart spec =>
    refine Keeps.of_mild hx (Mild.refl s) hs (iff_of_true trivial hpc.locked) ⟨hlaunching, ?_, ?_, ?_⟩
      (fun e he => absurd he (not_claims rfl (fun _ => id) e)) ?_
    · rintro asked (hasked | hasked)
      · cases hasked
      · exact (Task.Restart.inj hasked).symm
    · exact hquiet spec (.inr rfl)
    · rintro e he
      cases he
    · rintro e he
      cases he
  | restartAfterUnexpectedExit epoch => exact absurd hwatchdog (by simp [Thread.watchdog])
  | Start | Stop | Recover | watch =>
    exact Keeps.of_mild hx (Mild.refl s) hs (iff_of_true trivial hpc.locked) ⟨hlaunching, fun _ => hdesired⟩
      (fun e he => absurd he (not_claims rfl (fun _ => id) e)) (fun _ _ => False.elim)

end

/-! ## Start -/

variable {spec : XrayLaunchSpec} {tracked : TrackedXrayProcess} {w : Supervision}

theorem keeps_startLocked (hs : Inv options s) (hx : Knows s t ⟨task, .startLocked spec⟩)
    (out : Outcome) (hsound : SoundStep s ⟨task, .startLocked spec⟩ out) :
    Keeps options s t ⟨task, .startLocked spec⟩ (s.startLocked ⟨task, .startLocked spec⟩ spec out) := by
  obtain ⟨hlaunching, hasked, hquiet, hwatchdog⟩ := hx.facts
  have hfailed : ∀ (s' : XraySupervisor) (error : XraySupervisorError), Book s s' →
      Keeps options s t ⟨task, .startLocked spec⟩ (s', ⟨task, .unlock (.failed error)⟩, none) := by
    intro s' error hbook
    refine Keeps.of_mild hx hbook.mild (hbook.inv hs) Iff.rfl hlaunching ?_ (fun _ _ => False.elim)
    rintro e (⟨htask, -⟩ | hstart)
    · exact .inl ⟨htask, trivial⟩
    · exact hstart.elim
  unfold startLocked
  split
  · rename_i hvalid
    split
    · -- a process is tracked
      rename_i tracked htracked
      split
      · rename_i hinspected
        by_cases hspec : tracked.spec = spec
        · rw [if_pos hspec]
          refine Keeps.of_mild hx (Mild.refl s) hs Iff.rfl ⟨hlaunching, fun asked ha => ?_⟩ ?_ (fun _ _ => False.elim)
          · refine ⟨hsound hvalid hinspected tracked htracked hspec, ?_⟩
            rw [hs.spec tracked htracked, hspec]
            exact (hasked asked ha).symm
          · rintro e (⟨-, htrying⟩ | hstart)
            · exact htrying.elim
            · exact hstart.elim
        · rw [if_neg hspec]
          exact hfailed s _ (Book.refl s)
      · exact hfailed _ _ (Book.startFailed s)
    · -- none is, and the thread will launch one
      rename_i hcurrent
      dsimp only
      split
      · rename_i hdog
        refine Keeps.of_mild hx (Mild.refl s) hs Iff.rfl ⟨hlaunching, hcurrent, rfl, hasked, ?_, hquiet⟩ ?_
          (fun _ _ _ => trivial)
        · exact fun e he => (hwatchdog e he).1.symm
        · rintro e (⟨htask, -⟩ | hstart)
          · exact .inl ⟨htask, trivial⟩
          · refine .inl ⟨?_, trivial⟩
            cases task with
            | restartAfterUnexpectedExit epoch =>
              rw [← show s.epoch = e from hstart, (hwatchdog epoch rfl).1]
            | Start | Stop | Restart | Recover | watch => cases hdog
      · rename_i hdog
        have hnot : ∀ e, task ≠ .restartAfterUnexpectedExit e := by
          rintro e rfl
          exact hdog rfl
        have hinv : Inv options { s with epoch := s.epoch + 1, restartAttempts := 0, watchdogLaunches := 0 } :=
          ⟨hs.loose, hs.spec, hs.untold, hs.alone, hs.free, hs.quiet, le_rfl, Nat.zero_le _⟩
        refine Keeps.held hx trivial trivial hinv rfl (Aged.refl _) (Nat.le_succ _)
          (fun heq => absurd heq (Nat.succ_ne_self _)) ⟨hlaunching, hcurrent, rfl, hasked, ?_, hquiet⟩ ?_ ?_
        · exact fun e he => absurd he (hnot e)
        · rintro e (⟨htask, -⟩ | hstart)
          · exact absurd htask (hnot e)
          · obtain rfl : s.epoch + 1 = e := hstart
            exact ⟨.inr (Nat.lt_succ_self _), le_rfl, fun _ => hcurrent⟩
        · exact fun e he => absurd he (hnot e)
  · exact hfailed s _ (Book.refl s)

variable {epoch : ℕ}

theorem claims_of_starting (hstarts : Starts s task spec epoch)
    (hpc : Starting epoch pc) {q : Pc} (hq : ∀ e, Starting e q → e = epoch) {e : ℕ} (h : Claims ⟨task, q⟩ e) :
    Claims ⟨task, pc⟩ e := by
  rcases h with ⟨htask, -⟩ | hstart
  · rw [hstarts.watchdog e htask]
    exact .inr hpc
  · rw [hq e hstart]
    exact .inr hpc

theorem keeps_launch (hs : Inv options s) (hx : Knows s t ⟨task, .launch spec epoch⟩)
    (out : Outcome) :
    Keeps options s t ⟨task, .launch spec epoch⟩ (s.launch ⟨task, .launch spec epoch⟩ spec epoch out) := by
  obtain ⟨hlaunching, hstarts⟩ := hx.facts
  have hpc : Starting epoch (.launch spec epoch) := rfl
  unfold launch
  split
  · have hnone : ∀ p, ¬ s.Loose p := by
      intro p hp
      rcases hs.loose p hp with hcurrent | hl
      · rw [hstarts.untracked] at hcurrent
        cases hcurrent
      · rw [hlaunching] at hl
        cases hl
    have hlaunches : (if Thread.watchdog ⟨task, .launch spec epoch⟩ then s.watchdogLaunches + 1 else s.watchdogLaunches) ≤
        s.restartAttempts := by
      split
      · rename_i hdog
        cases task with
        | restartAfterUnexpectedExit e =>
          exact hx.due e rfl trivial ((hstarts.watchdog e rfl).trans hstarts.underEpoch.symm)
        | Start | Stop | Restart | Recover | watch => cases hdog
      · exact hs.launches
    have hinv : Inv options { s with
        processes := s.processes ++ [{}]
        launching := some s.processes.length
        watchdogLaunches := if Thread.watchdog ⟨task, .launch spec epoch⟩ then s.watchdogLaunches + 1
          else s.watchdogLaunches } := by
      refine ⟨?_, hs.spec, ?_, fun _ => hstarts.untracked, ?_, hs.quiet, hlaunches, hs.attempts⟩
      · rintro p ⟨process, hp, hloose⟩
        rcases getElem?_concat_iff.mp hp with hold | ⟨rfl, -⟩
        · exact absurd ⟨process, hold, hloose⟩ (hnone p)
        · exact .inr rfl
      · intro _ tracked htracked
        rw [hstarts.untracked] at htracked
        cases htracked
      · intro hfree
        rw [hx.locked.mp trivial] at hfree
        cases hfree
    refine Keeps.held hx trivial trivial hinv rfl (Aged.concat _ _) le_rfl ?_ ⟨rfl, ?_, hstarts.untracked,
      hstarts.underEpoch, hstarts.asked, hstarts.watchdog, hstarts.loud⟩ ?_ (fun _ _ => False.elim)
    · intro _ hclaim
      exact absurd (.inr hstarts.underEpoch.symm) hclaim
    · exact ⟨_, getElem?_concat_iff.mpr (.inr ⟨rfl, rfl⟩), rfl⟩
    · intro e he
      have hclaim := claims_of_starting (q := .inspect spec epoch _) hstarts hpc (fun _ => Eq.symm) he
      exact ⟨.inl hclaim, hx.claims e hclaim⟩
  · exact Keeps.of_mild hx (Book.startFailed s).mild ((Book.startFailed s).inv hs) Iff.rfl hlaunching
      (fun e he => claims_of_starting hstarts hpc (fun _ => False.elim) he) (fun _ _ => False.elim)

theorem keeps_inspect (hs : Inv options s) {epoch process : ℕ}
    (hx : Knows s t ⟨task, .inspect spec epoch process⟩) (out : Outcome) :
    Keeps options s t ⟨task, .inspect spec epoch process⟩
      (s.inspect ⟨task, .inspect spec epoch process⟩ spec epoch process out) := by
  obtain ⟨hlaunching, huntold, hstarts⟩ := hx.facts
  have hpc : Starting epoch (.inspect spec epoch process) := rfl
  unfold inspect
  split
  · exact Keeps.of_mild hx (Mild.refl s) hs Iff.rfl ⟨hlaunching, huntold, hstarts⟩
      (fun e he => claims_of_starting (q := .track ⟨process, spec, out.now, epoch⟩) hstarts hpc (fun _ => Eq.symm) he) (fun _ _ => False.elim)
  · exact Keeps.of_mild hx (Mild.refl s) hs Iff.rfl hlaunching
      (fun e he => claims_of_starting hstarts hpc (fun _ => False.elim) he) (fun _ _ => False.elim)

theorem keeps_track (hs : Inv options s) (hx : Knows s t ⟨task, .track tracked⟩) (out : Outcome) :
    Keeps options s t ⟨task, .track tracked⟩ (s.track ⟨task, .track tracked⟩ tracked out) := by
  obtain ⟨hlaunching, huntold, hstarts⟩ := hx.facts
  have hpc : Starting tracked.epoch (.track tracked) := rfl
  have hclaims : ∀ error e, Claims ⟨task, .discard tracked.process error⟩ e → Claims ⟨task, .track tracked⟩ e :=
    fun error e he => claims_of_starting hstarts hpc (fun _ => False.elim) he
  unfold track
  split
  · exact Keeps.of_mild hx (Mild.refl s) hs Iff.rfl hlaunching (hclaims _) (fun _ _ => False.elim)
  split
  · -- the process is tracked now
    have hbook := (Book.refl (s.adopt tracked)).persistLocked out
    have hmild := hbook.mild
    have hinv : Inv options (s.adopt tracked) := by
      refine ⟨?_, ?_, ?_, fun h => absurd rfl h, fun _ => rfl, ?_, hs.launches, hs.attempts⟩
      · intro p hp
        rcases hs.loose p hp with hcurrent | hl
        · rw [hstarts.untracked] at hcurrent
          cases hcurrent
        · exact .inl (hlaunching.symm.trans hl)
      · rintro _ ⟨⟩
        rfl
      · rintro _ _ ⟨⟩
        exact huntold
      · intro hquiet
        exact absurd (hstarts.loud.symm.trans hquiet) (by simp)
    have hnone : ∀ status e, ¬ Claims ⟨task, .unlock (.status status)⟩ e := by
      rintro status e (⟨-, htrying⟩ | hstart)
      · exact htrying.elim
      · exact hstart.elim
    have hwatch : ∀ e, ¬ Claims ⟨.watch tracked, .wait tracked⟩ e := not_claims rfl fun _ => id
    refine ⟨hbook.inv hinv, ⟨?_, hmild.facts ⟨rfl, fun asked ha => ⟨rfl, ?_⟩⟩, fun e he => absurd he (hnone _ e),
      fun _ _ => False.elim⟩, .inr ⟨.inr (hx.locked.mp trivial), .inr ?_, hmild.aged, hmild.epoch.ge, ?_⟩,
      fun e he => absurd he (hnone _ e), ?_⟩
    · rw [hmild.transitionMu]
      exact hx.locked
    · exact (hstarts.asked asked ha).symm
    · rw [hmild.transitionMu]
      exact hx.locked.mp trivial
    · intro _ hclaim
      exact absurd (.inr hstarts.underEpoch.symm) hclaim
    · rintro _ ⟨⟩
      refine ⟨fun u hu => ?_, fun e _ => hnone _ e, ?_⟩
      · refine ⟨iff_of_false id hu, ?_, fun e he => absurd he (hwatch e), fun _ _ => False.elim⟩
        obtain ⟨process, hprocess, -⟩ := hmild.untold huntold
        exact lt_length_of_getElem? hprocess
      · exact fun e he => absurd he (hwatch e)
  · -- the record cannot be written
    have hinv : Inv options { s with
        spec := tracked.spec
        desiredRunning := false
        status := .error
        errorCode := some .internal } := by
      refine ⟨hs.loose, ?_, fun h => absurd h (by simp), hs.alone, hs.free, fun _ => rfl, hs.launches, hs.attempts⟩
      intro tracked' htracked
      rw [hstarts.untracked] at htracked
      cases htracked
    exact Keeps.held hx trivial trivial hinv rfl (Aged.refl _) le_rfl (fun _ _ hnone => ⟨hnone, rfl, le_rfl⟩) hlaunching
      (fun e he => ⟨.inl (hclaims _ e he), hx.claims e (hclaims _ e he)⟩) (fun _ _ => False.elim)

theorem keeps_discard (hs : Inv options s) {process : ℕ} {error : XraySupervisorError}
    (hx : Knows s t ⟨task, .discard process error⟩) (out : Outcome)
    (hsound : SoundStep s ⟨task, .discard process error⟩ out) :
    Keeps options s t ⟨task, .discard process error⟩ (s.discard ⟨task, .discard process error⟩ process error out) := by
  have hlaunching : s.launching = some process := hx.facts
  have huntracked : s.current = none := hs.alone (by simp [hlaunching])
  have hclaims : ∀ e, Claims ⟨task, .unlock (.failed error)⟩ e → Claims ⟨task, .discard process error⟩ e := by
    rintro e (⟨htask, -⟩ | hstart)
    · exact .inl ⟨htask, trivial⟩
    · exact hstart.elim
  -- Nothing else was loose, and the process is not either from now on.
  have hkeeps : ∀ ps, Aged s.processes ps → (∀ q, ¬ XraySupervisor.Loose { s with processes := ps, launching := none } q) →
      Keeps options s t ⟨task, .discard process error⟩
        ({ s with processes := ps, launching := none }, ⟨task, .unlock (.failed error)⟩, none) := by
    intro ps haged hnone
    refine Keeps.held hx trivial trivial ⟨fun q hq => absurd hq (hnone q), hs.spec, ?_, fun h => absurd rfl h, fun _ => rfl,
      hs.quiet, hs.launches, hs.attempts⟩ rfl haged le_rfl (fun _ _ h => ⟨h, rfl, le_rfl⟩) rfl
      (fun e he => ⟨.inl (hclaims e he), hx.claims e (hclaims e he)⟩) (fun _ _ => False.elim)
    intro _ tracked htracked
    rw [huntracked] at htracked
    cases htracked
  have hloose : ∀ q, s.Loose q → q = process := by
    intro q hq
    rcases hs.loose q hq with hcurrent | hl
    · rw [huntracked] at hcurrent
      cases hcurrent
    · exact (Option.some.inj (hlaunching.symm.trans hl)).symm
  unfold XraySupervisor.discard
  dsimp only
  split
  · refine hkeeps _ (Aged.modify _ process fun _ => ⟨id, fun _ => rfl⟩) fun q hq => ?_
    obtain rfl := hloose q (loose_of_tell hq)
    exact not_loose_tell s q hq
  · rename_i hkilled
    refine hkeeps _ (Aged.refl _) fun q hq => ?_
    obtain rfl := hloose q hq
    exact hsound.elim hkilled fun h => h hq

/-! ## Recover -/

theorem keeps_readRecord (hs : Inv options s) (hx : Knows s t ⟨task, .readRecord⟩) (out : Outcome) :
    Keeps options s t ⟨task, .readRecord⟩ (s.readRecord ⟨task, .readRecord⟩ out) := by
  obtain ⟨htask, hlaunching, hcurrent, hprocesses, hquiet⟩ := hx.facts
  dsimp only at htask
  subst htask
  have hclaims : ∀ pc e, (∀ e, ¬ Starting e pc) → ¬ Claims ⟨.Recover, pc⟩ e := fun pc e h => not_claims rfl h e
  have hleave : ∀ pc, pc.Locked → (∀ e, ¬ Starting e pc) → Facts s ⟨.Recover, pc⟩ →
      Keeps options s t ⟨.Recover, .readRecord⟩ (s, ⟨.Recover, pc⟩, none) := fun pc hlocked hstart hfacts =>
    Keeps.of_mild hx (Mild.refl s) hs (iff_of_true hlocked trivial) hfacts
      (fun e he => absurd he (hclaims pc e hstart)) (fun e he => by cases he)
  unfold readRecord
  split
  case isFalse => exact hleave _ trivial (fun _ => id) hlaunching
  split
  · exact hleave _ trivial (fun _ => id) ⟨hlaunching, fun h => by cases h⟩
  rename_i record hrecord
  split
  case isFalse => exact hleave _ trivial (fun _ => id) ⟨hlaunching, fun h => by cases h⟩
  split
  case isFalse => exact hleave _ trivial (fun _ => id) hlaunching
  split
  case isFalse =>
    refine hleave _ trivial (fun _ => id) ⟨hlaunching, ?_, hquiet, fun e he => by cases he⟩
    rintro asked (h | h) <;> cases h
  split
  case isFalse => exact hleave _ trivial (fun _ => id) hlaunching
  -- The process of an earlier agent is tracked, under a new epoch.
  dsimp only
  have hnew : ∀ p, (s.processes ++ [({ adopted := true } : XrayManagedProcess)])[p]? =
      some { adopted := true } ↔ p = s.processes.length := by
    intro p
    rw [getElem?_concat_iff, hprocesses]
    simp
  refine ⟨⟨?_, ?_, ?_, fun h => absurd rfl h, fun _ => rfl, ?_, hs.launches, hs.attempts⟩, ⟨hx.locked, ⟨rfl, ?_⟩,
    fun e he => absurd he (hclaims _ e fun _ => id), fun e he => by cases he⟩, .inr ⟨.inr (hx.locked.mp trivial),
    .inr (hx.locked.mp trivial), Aged.concat _ _, Nat.le_succ _, fun heq => absurd heq (Nat.succ_ne_self _)⟩,
    fun e he => absurd he (hclaims _ e fun _ => id), ?_⟩
  · rintro p ⟨process, hp, -⟩
    rcases getElem?_concat_iff.mp hp with hold | ⟨rfl, -⟩
    · rw [hprocesses] at hold
      cases hold
    · exact .inl rfl
  · rintro _ ⟨⟩
    rfl
  · rintro _ _ ⟨⟩
    exact ⟨_, (hnew _).mpr rfl, rfl⟩
  · intro h
    exact absurd (hquiet.symm.trans h) (by simp)
  · rintro asked (h | h) <;> cases h
  · rintro _ ⟨⟩
    have hwatch : ∀ tracked e, ¬ Claims ⟨.watch tracked, .wait tracked⟩ e := fun tracked => not_claims rfl fun _ => id
    refine ⟨fun u hu => ⟨iff_of_false id hu, ?_, fun e he => absurd he (hwatch _ e), fun _ _ => False.elim⟩,
      fun e he => absurd he (hwatch _ e), fun e he => absurd he (hwatch _ e)⟩
    exact lt_length_of_getElem? ((hnew _).mpr rfl)

/-! ## The watcher -/

theorem keeps_stay (hs : Inv options s) {x : Thread} (hx : Knows s t x) : Keeps options s t x (s, x, none) where
  inv := hs
  own := hx
  others := .inl (Mild.refl s)
  claims _ he := .inl he
  spawned z hz := by cases hz

theorem keeps_wait (hs : Inv options s) (hx : Knows s t ⟨task, .wait tracked⟩)
    (out : Outcome) (hsound : SoundStep s ⟨task, .wait tracked⟩ out) :
    Keeps options s t ⟨task, .wait tracked⟩ (s.wait ⟨task, .wait tracked⟩ tracked out) := by
  unfold wait
  split
  · exact keeps_stay hs hx
  · rename_i hreturned
    have hloose : ¬ s.Loose tracked.process := by
      rw [present] at hreturned
      split at hreturned
      · rename_i hadopted
        exact hsound hadopted hreturned
      · exact not_loose_of_not_alive (by simpa using hreturned)
    have hmild : Mild s (s.close tracked.process) :=
      ⟨rfl, rfl, rfl, rfl, rfl, rfl, ⟨tracked.process, _, rfl, fun _ => ⟨id, rfl⟩⟩, .inl rfl, fun _ => ⟨rfl, le_rfl⟩⟩
    refine Keeps.of_mild hx hmild ?_ Iff.rfl (And.intro hx.facts hloose) ?_ (fun _ _ => False.elim)
    · refine hmild.inv hs (fun tracked' hcurrent hnone => ?_) hs.launches hs.attempts
      rw [show s.current = none from hnone] at hcurrent
      cases hcurrent
    · rintro e (⟨-, htrying⟩ | hstart)
      · exact htrying.elim
      · exact hstart.elim

theorem keeps_clear (hs : Inv options s) (hx : Knows s t ⟨task, .clear tracked⟩) (out : Outcome) :
    Keeps options s t ⟨task, .clear tracked⟩ (s.clear options ⟨task, .clear tracked⟩ tracked out) := by
  have hover : ∀ e, ¬ Claims ⟨task, .over .done⟩ e := by
    rintro e (⟨-, htrying⟩ | hstart)
    · exact htrying.elim
    · exact hstart.elim
  have hcleared : ∀ tracked', s.current = some tracked' → s.current = some tracked → ¬ s.Loose tracked'.process := by
    intro tracked' hcurrent' hcurrent
    obtain rfl := Option.some.inj (hcurrent'.symm.trans hcurrent)
    exact hx.facts.2
  unfold clear
  split
  case isFalse =>
    exact Keeps.of_mild hx (Mild.refl s) hs Iff.rfl trivial (fun e he => absurd he (hover e)) (fun _ _ => False.elim)
  rename_i hcurrent
  split
  · rename_i hdesired
    dsimp only
    have hmild : Mild s { s with
        current := none
        restartAttempts := if options.stableWindow ≤ out.now - tracked.startedAt then 0 else s.restartAttempts
        watchdogLaunches := if options.stableWindow ≤ out.now - tracked.startedAt then 0 else s.watchdogLaunches } := by
      refine ⟨rfl, rfl, rfl, rfl, rfl, rfl, ⟨0, id, (modify_id ..).symm, fun _ => ⟨id, rfl⟩⟩, .inr rfl, fun h => ?_⟩
      rw [hcurrent] at h
      cases h
    have hbook := (Book.startFailed { s with
        current := none
        restartAttempts := if options.stableWindow ≤ out.now - tracked.startedAt then 0 else s.restartAttempts
        watchdogLaunches := if options.stableWindow ≤ out.now - tracked.startedAt then 0 else s.watchdogLaunches
        }).persistLocked out
    have hall := hmild.trans_book hbook
    have hinv := hmild.inv hs (fun tracked' h _ => hcleared tracked' h hcurrent)
      (by dsimp only; split <;> simp [hs.launches]) (by dsimp only; split <;> simp [hs.attempts])
    have hspawned : ∀ e, Claims ⟨.restartAfterUnexpectedExit tracked.epoch, .retry⟩ e → e = s.epoch := by
      rintro e (⟨htask, -⟩ | hstart)
      · obtain rfl := Task.restartAfterUnexpectedExit.inj htask
        exact hdesired.2.symm
      · exact hstart.elim
    refine ⟨hbook.inv hinv, hall.knows ⟨hx.locked, trivial, fun e he => absurd he (hover e), fun _ _ => False.elim⟩,
      .inl hall, fun e he => absurd he (hover e), ?_⟩
    rintro _ ⟨⟩
    refine ⟨fun u hu => ⟨iff_of_false id hu, trivial, fun e he => ?_, fun _ _ => False.elim⟩,
      fun e _ => hover e, fun e he => ⟨hspawned e he, by simp [hcurrent]⟩⟩
    rw [hall.epoch, hspawned e he]
    exact ⟨le_rfl, fun _ => hbook.mild.current_none rfl⟩
  · have hmild : Mild s { s with current := none } :=
      ⟨rfl, rfl, rfl, rfl, rfl, rfl, ⟨0, id, (modify_id ..).symm, fun _ => ⟨id, rfl⟩⟩, .inr rfl, fun _ => ⟨rfl, le_rfl⟩⟩
    have hbook := (Book.stopped { s with current := none }).persistLocked out
    have hinv := hmild.inv hs (fun tracked' h _ => hcleared tracked' h hcurrent) hs.launches hs.attempts
    exact Keeps.of_mild hx (hmild.trans_book hbook) (hbook.inv hinv) Iff.rfl trivial (fun e he => absurd he (hover e))
      (fun _ _ => False.elim)

/-! ## The watchdog -/

theorem keeps_retry (hs : Inv options s) (hx : Knows s t ⟨.restartAfterUnexpectedExit epoch, .retry⟩)
    (out : Outcome) : Keeps options s t ⟨.restartAfterUnexpectedExit epoch, .retry⟩
      (s.retry options ⟨.restartAfterUnexpectedExit epoch, .retry⟩ epoch out) := by
  have hclaims : ∀ pc e, (∀ e, ¬ Starting e pc) → Claims ⟨.restartAfterUnexpectedExit epoch, pc⟩ e →
      Claims ⟨.restartAfterUnexpectedExit epoch, .retry⟩ e := by
    rintro pc e hnot (⟨htask, -⟩ | hstart)
    · exact .inl ⟨htask, trivial⟩
    · exact absurd hstart (hnot e)
  have hleave : ∀ s', Book s s' → Keeps options s t ⟨.restartAfterUnexpectedExit epoch, .retry⟩
      (s', ⟨.restartAfterUnexpectedExit epoch, .over .done⟩, none) := fun s' hbook =>
    Keeps.of_mild hx hbook.mild (hbook.inv hs) Iff.rfl trivial (fun e => hclaims _ e fun _ => id) (fun _ _ => False.elim)
  unfold retry
  split
  · split
    · exact hleave _ ((Book.startFailed s).persistLocked out)
    · rename_i hfew
      have hmild : Mild s { s with restartAttempts := s.restartAttempts + 1 } :=
        ⟨rfl, rfl, rfl, rfl, rfl, rfl, ⟨0, id, (modify_id ..).symm, fun _ => ⟨id, rfl⟩⟩, .inl rfl,
          fun _ => ⟨rfl, Nat.le_succ _⟩⟩
      have hbook := (Book.refl { s with restartAttempts := s.restartAttempts + 1 }).persistLocked out
      have hall := hmild.trans_book hbook
      have hinv := hmild.inv hs
        (fun tracked hcurrent hnone => by rw [show s.current = none from hnone] at hcurrent; cases hcurrent)
        (Nat.le_succ_of_le hs.launches) (by dsimp only; omega)
      refine ⟨hbook.inv hinv, ⟨?_, trivial, fun e he => ?_, fun e _ _ _ => ?_⟩, .inl hall,
        fun e he => .inl (hclaims _ e (fun _ => id) he), fun z hz => by cases hz⟩
      · rw [hall.transitionMu]
        exact hx.locked
      · rw [hall.epoch]
        have hclaim := hx.claims e (hclaims _ e (fun _ => id) he)
        exact ⟨hclaim.1, fun heq => hall.current_none (hclaim.2 heq)⟩
      · have hlaunches := hs.launches
        obtain ⟨status, errorCode, record, heq⟩ := hbook
        rw [heq]
        dsimp only
        omega
  · exact hleave s (Book.refl s)

theorem keeps_delay (hs : Inv options s) (hx : Knows s t ⟨task, .delay spec⟩) (out : Outcome) :
    Keeps options s t ⟨task, .delay spec⟩ (s.delay ⟨task, .delay spec⟩ spec out) := by
  unfold delay
  split
  · refine Keeps.of_mild hx (Mild.refl s) hs Iff.rfl trivial ?_ (fun _ _ _ => trivial)
    rintro e (⟨htask, -⟩ | hstart)
    · exact .inl ⟨htask, trivial⟩
    · exact hstart.elim
  · refine Keeps.of_mild hx (Mild.refl s) hs Iff.rfl trivial ?_ (fun _ _ => False.elim)
    rintro e (⟨-, htrying⟩ | hstart)
    · exact htrying.elim
    · exact hstart.elim

theorem keeps_recheck (hs : Inv options s)
    (hx : Knows s t ⟨.restartAfterUnexpectedExit epoch, .recheck spec⟩) :
    Keeps options s t ⟨.restartAfterUnexpectedExit epoch, .recheck spec⟩
      (s.recheck ⟨.restartAfterUnexpectedExit epoch, .recheck spec⟩ epoch spec) := by
  unfold recheck
  split
  · rename_i hdesired
    have hloud : s.quiet = false := by
      by_contra hquiet
      exact absurd ((hs.quiet (by simpa using hquiet)).symm.trans hdesired.1) (by simp)
    refine Keeps.of_mild hx (Mild.refl s) hs Iff.rfl ⟨hx.facts, ?_, hloud, ?_⟩ ?_ (fun _ _ _ => trivial)
    · rintro asked (h | h) <;> cases h
    · rintro _ ⟨⟩
      exact hdesired.2
    · rintro e (⟨htask, -⟩ | hstart)
      · exact .inl ⟨htask, trivial⟩
      · exact hstart.elim
  · refine Keeps.of_mild hx (Mild.refl s) hs Iff.rfl ⟨hx.facts, fun h => by cases h⟩ ?_ (fun _ _ => False.elim)
    rintro e (⟨-, htrying⟩ | hstart)
    · exact htrying.elim
    · exact hstart.elim

/-! ## `transitionMu` -/

section

variable (hs : Inv options s)

include hs

theorem keeps_entered (hx : Knows s t ⟨task, .entered⟩) (out : Outcome) :
    Keeps options s t ⟨task, .entered⟩ (s.entered ⟨task, .entered⟩ out) := by
  have hwatchdog : Thread.watchdog ⟨task, .entered⟩ = false := hx.facts
  unfold entered
  split
  · exact Keeps.of_mild hx (Mild.refl s) hs Iff.rfl hwatchdog
      (fun e he => absurd he (@not_claims _ .lock hwatchdog (fun _ => id) e)) (fun _ _ => False.elim)
  · exact Keeps.of_mild hx (Mild.refl s) hs Iff.rfl trivial
      (fun e he => absurd he (@not_claims _ (.over _) hwatchdog (fun _ => id) e)) (fun _ _ => False.elim)

theorem Keeps.taken (hfree : s.transitionMu = none) {x : Thread} {quiet : Bool}
    (hquiet : quiet → s.quiet) (hlocked' : pc'.Locked) (hfacts : Facts { s with transitionMu := some t, quiet } ⟨task, pc'⟩)
    (hclaims : ∀ e, Claims ⟨task, pc'⟩ e → Claims x e ∧ e ≤ s.epoch ∧ (e = s.epoch → s.current = none))
    (hdue : ∀ e, task = .restartAfterUnexpectedExit e → Due pc' → e = s.epoch →
      s.watchdogLaunches + 1 ≤ s.restartAttempts) :
    Keeps options s t x ({ s with transitionMu := some t, quiet }, ⟨task, pc'⟩, none) where
  inv := ⟨hs.loose, hs.spec, hs.untold, hs.alone, fun _ => hs.free hfree, fun h => hs.quiet (hquiet h), hs.launches,
    hs.attempts⟩
  own := ⟨iff_of_true hlocked' rfl, hfacts, fun e he => (hclaims e he).2, hdue⟩
  others := .inr ⟨.inl hfree, .inr rfl, Aged.refl _, le_rfl, fun _ _ h => ⟨h, rfl, le_rfl⟩⟩
  claims e he := .inl (hclaims e he).1
  spawned z hz := by cases hz

theorem keeps_lock (hx : Knows s t ⟨task, .lock⟩) :
    Keeps options s t ⟨task, .lock⟩ (s.lock t ⟨task, .lock⟩) := by
  unfold lock
  split
  case isFalse => exact keeps_stay hs hx
  rename_i hfree
  have hlaunching := hs.free hfree
  cases task with
  | Start spec =>
    refine Keeps.taken hs hfree (by simp) trivial ⟨hlaunching, ?_, rfl, fun e he => by cases he⟩
      (fun e he => absurd he (not_claims rfl (fun _ => id) e)) (fun e he => by cases he)
    rintro asked (h | h)
    · exact (Task.Start.inj h).symm
    · cases h
  | Restart spec =>
    exact Keeps.taken hs hfree (by simp) trivial ⟨rfl, hlaunching, fun _ _ => rfl⟩
      (fun e he => absurd he (not_claims rfl (fun _ => id) e)) (fun e he => by cases he)
  | restartAfterUnexpectedExit epoch => exact absurd hx.facts (by simp [Facts, Thread.watchdog])
  | Stop | Recover | watch =>
    refine Keeps.taken hs hfree id trivial ⟨rfl, hlaunching, ?_⟩
      (fun e he => absurd he (not_claims rfl (fun _ => id) e)) (fun e he => by cases he)
    rintro asked (h | h) <;> cases h

theorem keeps_relock (hx : Knows s t ⟨task, .relock spec⟩) :
    Keeps options s t ⟨task, .relock spec⟩ (s.relock t ⟨task, .relock spec⟩ spec) := by
  unfold relock
  split
  case isFalse => exact keeps_stay hs hx
  rename_i hfree
  have hclaims : ∀ e, Claims ⟨task, .recheck spec⟩ e → Claims ⟨task, .relock spec⟩ e := by
    rintro e (⟨htask, -⟩ | hstart)
    · exact .inl ⟨htask, trivial⟩
    · exact hstart.elim
  exact Keeps.taken hs hfree id trivial (hs.free hfree) (fun e he => ⟨hclaims e he, hx.claims e (hclaims e he)⟩)
    (fun e htask _ => hx.due e htask trivial)

theorem keeps_unlock {result : Result} (hx : Knows s t ⟨task, .unlock result⟩) :
    Keeps options s t ⟨task, .unlock result⟩ (s.unlock ⟨task, .unlock result⟩ result) := by
  have hlaunching : s.launching = none := by
    cases result with
    | status | done => exact hx.facts.1
    | failed => exact hx.facts
  have hquiet : (if task = .Stop ∧ result = .done then true else s.quiet) = true → s.desiredRunning = false := by
    split
    · rename_i hstopped
      obtain ⟨rfl, rfl⟩ := hstopped
      exact fun _ => hx.facts.2 rfl
    · exact hs.quiet
  have hkeeps : ∀ pc', ¬ pc'.Locked → ¬ Due pc' → (∀ s, Facts s ⟨task, pc'⟩) →
      (∀ e, Claims ⟨task, pc'⟩ e → Claims ⟨task, .unlock result⟩ e) → Keeps options s t ⟨task, .unlock result⟩
        ({ s with
            transitionMu := none
            quiet := if task = .Stop ∧ result = .done then true else s.quiet }, ⟨task, pc'⟩, none) := by
    intro pc' hlocked' hdue hfacts hclaims
    exact ⟨⟨hs.loose, hs.spec, hs.untold, hs.alone, fun _ => hlaunching, hquiet, hs.launches, hs.attempts⟩,
      ⟨iff_of_false hlocked' (by simp), hfacts _, fun e he => hx.claims e (hclaims e he), fun _ _ hd => absurd hd hdue⟩,
      .inr ⟨.inr (hx.locked.mp trivial), .inl rfl, Aged.refl _, le_rfl, fun _ _ h => ⟨h, rfl, le_rfl⟩⟩,
      fun e he => .inl (hclaims e he), fun z hz => by cases hz⟩
  have hover : Keeps options s t ⟨task, .unlock result⟩
      ({ s with
          transitionMu := none
          quiet := if task = .Stop ∧ result = .done then true else s.quiet }, ⟨task, .over result⟩, none) := by
    refine hkeeps _ id id (fun _ => trivial) ?_
    rintro e (⟨-, htrying⟩ | hstart)
    · exact htrying.elim
    · exact hstart.elim
  unfold unlock
  cases task with
  | restartAfterUnexpectedExit epoch =>
    cases result with
    | failed error =>
      refine hkeeps _ id id (fun _ => trivial) ?_
      rintro e (⟨htask, -⟩ | hstart)
      · exact .inl ⟨htask, trivial⟩
      · exact hstart.elim
    | status | done => exact hover
  | Start | Stop | Restart | Recover | watch => exact hover

end

/-! ## Steps and runs -/

theorem keeps_step (hs : Inv options s) {x : Thread} (hx : Knows s t x) (out : Outcome) (hsound : SoundStep s x out) :
    Keeps options s t x (s.step options t x out) := by
  obtain ⟨task, pc⟩ := x
  cases pc with
  | entered => exact keeps_entered hs hx out
  | lock => exact keeps_lock hs hx
  | readRecord => exact keeps_readRecord hs hx out
  | stopLocked => exact keeps_stopLocked hs hx out
  | stopInspect tracked =>
    unfold XraySupervisor.step stopInspect
    dsimp only
    split
    · exact keeps_stopping hs hx trivial (Book.refl s) (.inl trivial)
    · exact keeps_stopping hs hx trivial ((Book.startFailed s).persistLocked out) (.inr ⟨_, rfl⟩)
  | stopSignal tracked =>
    unfold XraySupervisor.step stopSignal
    dsimp only
    split
    · exact keeps_tell (q := .stopWait tracked) hs hx trivial trivial tracked.process
    · exact keeps_stopping hs hx trivial (Book.refl s) (.inr ⟨_, rfl⟩)
  | stopWait tracked =>
    unfold XraySupervisor.step waitXrayProcessDone
    dsimp only
    split
    · exact keeps_stopping hs hx trivial (Book.refl s) (.inl trivial)
    · split
      · exact keeps_afterStop hs hx trivial
      · exact keeps_stay hs hx
  | stopInspectAgain tracked =>
    unfold XraySupervisor.step stopInspectAgain
    dsimp only
    split
    · exact keeps_stopping hs hx trivial (Book.refl s) (.inl trivial)
    · exact keeps_stopping hs hx trivial (Book.refl s) (.inr ⟨_, rfl⟩)
  | stopKill tracked =>
    unfold XraySupervisor.step stopKill
    dsimp only
    split
    · exact keeps_tell (q := .stopWaitKilled tracked) hs hx trivial trivial tracked.process
    · exact keeps_stopping hs hx trivial (Book.refl s) (.inr ⟨_, rfl⟩)
  | stopWaitKilled tracked =>
    unfold XraySupervisor.step waitXrayProcessDone
    dsimp only
    split
    · exact keeps_stopping hs hx trivial (Book.refl s) (.inr ⟨_, rfl⟩)
    · split
      · exact keeps_afterStop hs hx trivial
      · exact keeps_stay hs hx
  | startLocked spec => exact keeps_startLocked hs hx out hsound
  | launch spec epoch => exact keeps_launch hs hx out
  | inspect spec epoch process => exact keeps_inspect hs hx out
  | track tracked => exact keeps_track hs hx out
  | discard process error => exact keeps_discard hs hx out hsound
  | unlock result => exact keeps_unlock hs hx
  | «over» result => exact keeps_stay hs hx
  | wait tracked => exact keeps_wait hs hx out hsound
  | clear tracked => exact keeps_clear hs hx out
  | delay spec => exact keeps_delay hs hx out
  | relock spec => exact keeps_relock hs hx
  | retry =>
    cases task with
    | restartAfterUnexpectedExit epoch => exact keeps_retry hs hx out
    | Start | Stop | Restart | Recover | watch => exact keeps_stay hs hx
  | recheck spec =>
    cases task with
    | restartAfterUnexpectedExit epoch => exact keeps_recheck hs hx
    | Start | Stop | Restart | Recover | watch => exact keeps_stay hs hx

/-- What holds in every state of a run that meets the condition. -/
structure Good (options : XraySupervisorOptions) (w : Supervision) : Prop where
  kept : Kept (Inv options) Knows Apart w
  holder : ∀ t, w.shared.transitionMu = some t → t < w.threads.length
  fresh : w.threads = [] → w.shared.current = none ∧ w.shared.processes = [] ∧ w.shared.quiet = false

theorem good_init (options : XraySupervisorOptions) (record : Option XraySupervisorRecord) : Good options (init record) where
  kept := by
    refine ⟨⟨?_, ?_, ?_, ?_, ?_, ?_, Nat.zero_le _, Nat.zero_le _⟩, ?_, ?_⟩
    · rintro p ⟨process, hp, -⟩
      cases hp
    · rintro _ ⟨⟩
    · rintro _ _ ⟨⟩
    · exact fun _ => rfl
    · exact fun _ => rfl
    · exact fun _ => rfl
    · intro t x hx
      cases hx
    · intro t u x y _ hx
      cases hx
  holder t ht := by cases ht
  fresh _ := ⟨rfl, rfl, rfl⟩

theorem good_move (h : Good options w) {x : Thread} (hx : w.threads[t]? = some x) {after : After}
    (hkeeps : Keeps options w.shared t x after) : Good options (w.move t after) := by
  have hlt := lt_length_of_getElem? hx
  have hholder : ∀ u, after.1.transitionMu = some u → u < w.threads.length := by
    intro u hu
    rcases hkeeps.others with hmild | hstrong
    · exact h.holder u (hmild.transitionMu ▸ hu)
    · rcases hstrong.after with hfree | hheld
      · rw [hfree] at hu
        cases hu
      · rw [hheld] at hu
        obtain rfl := Option.some.inj hu
        exact hlt
  refine ⟨?_, ?_, ?_⟩
  · refine h.kept.move (fun _ _ => Apart.symm) hx hkeeps.inv hkeeps.own ?_ ?_
    · intro u y hne hy hknows hapart
      refine ⟨?_, ?_, ?_⟩
      · rcases hkeeps.others with hmild | hstrong
        · exact hmild.knows hknows
        · exact hstrong.knows hne hknows hapart
      · intro e he hye
        rcases hkeeps.claims e he with hold | hnew
        · exact hapart e hold hye
        · have := (hknows.claims e hye).1
          omega
      · intro z hz e he hye
        obtain ⟨rfl, htracked⟩ := (hkeeps.spawned z hz).2.2 e he
        exact htracked ((hknows.claims _ hye).2 rfl)
    · intro z hz
      obtain ⟨hknows, hapart, -⟩ := hkeeps.spawned z hz
      exact ⟨hknows _ fun hu => absurd (hholder _ hu) (lt_irrefl _), hapart⟩
  · intro u hu
    have := hholder u hu
    simp only [World.move, length_append, length_set]
    omega
  · intro hnil
    have hlength := congrArg List.length hnil
    simp only [World.move, length_append, length_set, length_nil] at hlength
    omega

theorem good_spawn (h : Good options w) {task : Task} {pc : Pc} (hpc : pc = .entered ∨ pc = .lock)
    (hwatchdog : Thread.watchdog ⟨task, pc⟩ = false) : Good options (w.spawn w.shared ⟨task, pc⟩) := by
  have hnone : ∀ e, ¬ Claims ⟨task, pc⟩ e := by
    refine not_claims hwatchdog fun e => ?_
    rcases hpc with rfl | rfl <;> exact id
  refine ⟨h.kept.spawn (fun _ _ => Apart.symm) h.kept.inv ⟨?_, ?_, fun e he => absurd he (hnone e), ?_⟩ ?_, ?_, ?_⟩
  · refine iff_of_false ?_ fun hu => absurd (h.holder _ hu) (lt_irrefl _)
    rcases hpc with rfl | rfl <;> exact id
  · rcases hpc with rfl | rfl <;> exact hwatchdog
  · intro e _ hdue
    rcases hpc with rfl | rfl <;> exact hdue.elim
  · exact fun u y _ hy => ⟨hy, fun e he => absurd he (hnone e)⟩
  · intro u hu
    have := h.holder u hu
    simp only [World.spawn, length_append, length_singleton]
    omega
  · intro hnil
    simp [World.spawn] at hnil

theorem good_recover (h : Good options w) (hnil : w.threads = []) :
    Good options (w.spawn { w.shared with transitionMu := some 0 } ⟨.Recover, .readRecord⟩) := by
  obtain ⟨hcurrent, hprocesses, hquiet⟩ := h.fresh hnil
  have hfree : w.shared.transitionMu = none := by
    by_contra hheld
    obtain ⟨t, ht⟩ := Option.ne_none_iff_exists'.mp hheld
    simpa [hnil] using h.holder t ht
  have hs := h.kept.inv
  refine ⟨h.kept.spawn (fun _ _ => Apart.symm) ⟨hs.loose, hs.spec, hs.untold, hs.alone, fun _ => hs.free hfree, hs.quiet,
    hs.launches, hs.attempts⟩ ⟨iff_of_true trivial (by simp [hnil]), ⟨rfl, hs.free hfree, hcurrent, hprocesses, hquiet⟩,
    fun e he => absurd he (not_claims rfl (fun _ => id) e), fun e he => by cases he⟩ ?_, ?_, ?_⟩
  · intro u y hy
    rw [hnil] at hy
    cases hy
  · rintro u ⟨⟩
    simp [World.spawn]
  · intro h
    simp [World.spawn] at h

theorem good_exit (h : Good options w) (p : ℕ) : Good options { w with shared := w.shared.exit p } := by
  have hmild : Mild w.shared (w.shared.exit p) :=
    ⟨rfl, rfl, rfl, rfl, rfl, rfl, ⟨p, _, rfl, fun _ => ⟨fun halive => by simp at halive, rfl⟩⟩, .inl rfl,
      fun _ => ⟨rfl, le_rfl⟩⟩
  have hs := h.kept.inv
  refine ⟨h.kept.change ?_ fun u y _ => hmild.knows, h.holder, fun hnil => ?_⟩
  · refine hmild.inv hs (fun tracked hcurrent hnone => ?_) hs.launches hs.attempts
    rw [show w.shared.current = none from hnone] at hcurrent
    cases hcurrent
  · obtain ⟨hcurrent, hprocesses, hquiet⟩ := h.fresh hnil
    refine ⟨hcurrent, ?_, hquiet⟩
    dsimp only [exit]
    rw [hprocesses, modify_nil]

theorem good_next (w : Supervision) (e : XraySupervision.Event) (hsound : Sound w e) (h : Good options w) : Good options (next options w e) := by
  cases e with
  | Recover =>
    rw [XraySupervision.next]
    split
    · rename_i hnil
      exact good_recover h hnil
    · exact h
  | Start spec => exact good_spawn h (.inl rfl) rfl
  | Stop => exact good_spawn h (.inr rfl) rfl
  | Restart spec => exact good_spawn h (.inl rfl) rfl
  | exit p => exact good_exit h p
  | step t out =>
    rw [XraySupervision.next]
    split
    · exact h
    · rename_i x hx
      exact good_move h hx (keeps_step h.kept.inv (h.kept.holds t x hx) out (hsound x hx))

structure Agrees (options : XraySupervisorOptions) (w : Supervision) : Prop where
  alone : ∀ p q, w.shared.Loose p → w.shared.Loose q → p = q
  /-- A Start or a Restart that is about to return success. -/
  started : ∀ (t : ℕ) (x : Thread) (status : XraySupervisorStatus) (spec : XrayLaunchSpec), w.threads[t]? = some x →
    x.task = .Start spec ∨ x.task = .Restart spec → x.pc = .unlock (.status status) →
    w.shared.desiredRunning ∧ w.shared.spec = spec ∧ ∀ tracked ∈ w.shared.current, tracked.spec = spec ∧
      ∃ process, w.shared.processes[tracked.process]? = some process ∧ process.told = false
  launches : w.shared.watchdogLaunches ≤ options.maxRestarts

theorem Good.agrees (h : Good options w) : Agrees options w where
  alone p q hp hq := by
    have hs := h.kept.inv
    rcases hs.loose p hp with hpc | hpl
    · rcases hs.loose q hq with hqc | hql
      · exact Option.some.inj (hpc.symm.trans hqc)
      · rw [hs.alone (by simp [hql])] at hpc
        cases hpc
    · rcases hs.loose q hq with hqc | hql
      · rw [hs.alone (by simp [hpl])] at hqc
        cases hqc
      · exact Option.some.inj (hpl.symm.trans hql)
  started t x status spec hx hasks hpc := by
    have hfacts := (h.kept.holds t x hx).facts
    obtain ⟨task, pc⟩ := x
    dsimp only at hpc hasks
    subst hpc
    obtain ⟨hdesired, hspec⟩ := hfacts.2 spec hasks
    refine ⟨hdesired, hspec, fun tracked htracked => ⟨?_, h.kept.inv.untold hdesired tracked htracked⟩⟩
    exact (h.kept.inv.spec tracked htracked).symm.trans hspec
  launches := h.kept.inv.launches.trans h.kept.inv.attempts

/-! ## What launches a process -/

@[simp] theorem persistLocked_processes (s : XraySupervisor) (out : Outcome) :
    (s.persistLocked out).processes = s.processes := by
  obtain ⟨status, errorCode, record, heq⟩ := (Book.refl s).persistLocked out
  rw [heq]

theorem length_step (options : XraySupervisorOptions) (s : XraySupervisor) (t : ℕ) (x : Thread) (out : Outcome)
    (hread : x.pc ≠ .readRecord) (hlaunch : ∀ spec epoch, x.pc ≠ .launch spec epoch) :
    (s.step options t x out).1.processes.length = s.processes.length := by
  obtain ⟨task, pc⟩ := x
  cases pc with
  | readRecord => exact absurd rfl hread
  | launch spec epoch => exact absurd rfl (hlaunch spec epoch)
  | entered | «over» | delay | stopInspectAgain | inspect | unlock => rfl
  | lock =>
    simp only [XraySupervisor.step, lock]
    split
    · cases task <;> rfl
    · rfl
  | retry | recheck =>
    cases task with
    | restartAfterUnexpectedExit epoch =>
      simp only [XraySupervisor.step, retry, recheck, startFailed]
      repeat' split
      all_goals simp
    | Start | Stop | Restart | Recover | watch => rfl
  | stopLocked | stopInspect | stopSignal | stopWait | stopKill | stopWaitKilled =>
    simp only [XraySupervisor.step, stopLocked, stopInspect, stopSignal,
      waitXrayProcessDone, stopKill, XraySupervisor.tell, startFailed,
      stopped]
    repeat' split
    all_goals simp
  | startLocked | track | discard | wait | clear | relock =>
    simp only [XraySupervisor.step, startLocked, track, XraySupervisor.discard,
      wait, clear, relock, XraySupervisor.tell, close,
      adopt, startFailed, stopped]
    repeat' split
    all_goals simp

theorem Good.length_next (h : Good options w) (hquiet : w.shared.quiet = true) (e : XraySupervision.Event) :
    (next options w e).shared.processes.length = w.shared.processes.length := by
  cases e with
  | Recover =>
    rw [XraySupervision.next]
    split <;> rfl
  | Start | Stop | Restart => rfl
  | exit p => exact length_modify ..
  | step t out =>
    rw [XraySupervision.next]
    split
    · rfl
    · rename_i x hx
      have hfacts := (h.kept.holds t x hx).facts
      refine length_step options w.shared t x out (fun hpc => ?_) (fun spec epoch hpc => ?_)
      · obtain ⟨task, pc⟩ := x
        dsimp only at hpc
        subst hpc
        exact absurd (hquiet.symm.trans hfacts.2.2.2.2) (by simp)
      · obtain ⟨task, pc⟩ := x
        dsimp only at hpc
        subst hpc
        exact absurd (hquiet.symm.trans hfacts.2.loud) (by simp)

/-! ## The result -/

/-- **The supervisor's intent and its process agree**, in every run in which a Start or a Restart
finds a tracked process of its spec only while one is wanted, a process that is not tracked is
killed or dead when it is given up, and an adopted process is not taken for dead. -/
theorem intent_agrees (options : XraySupervisorOptions) (record : Option XraySupervisorRecord) (es : List XraySupervision.Event)
    (h : Admissible Sound (next options) (init record) es) :
    Agrees options (run (next options) (init record) es) ∧
      ∀ e, (run (next options) (init record) es).shared.quiet →
        (next options (run (next options) (init record) es) e).shared.processes.length =
          (run (next options) (init record) es).shared.processes.length := by
  have hgood := run_invariant_of_admissible good_next es _ h (good_init options record)
  exact ⟨hgood.agrees, fun e hquiet => hgood.length_next hquiet e⟩

def generationOne : XrayLaunchSpec :=
  ⟨"/xray/versions/v1.0.0/linux-amd64/xray", "b1", "/xray/config.json", "v1.0.0", 1, "c1"⟩

/-- A process is started and exits, the watchdog starts another one, and a Stop ends it. -/
def watchdogRun : List XraySupervision.Event :=
  [.Start generationOne] ++ List.replicate 7 (.step 0 {}) ++ [.exit 0, .step 1 {}, .step 1 {}] ++
    List.replicate 10 (.step 2 {}) ++ [.Stop] ++ List.replicate 4 (.step 4 {}) ++
    [.exit 1, .step 3 {}, .step 4 {}, .step 4 {}]

theorem intent_agrees_watchdog :
    (run (next {}) (init none) watchdogRun).shared.watchdogLaunches = 1 ∧
      (run (next {}) (init none) watchdogRun).shared.quiet = true ∧
      Agrees {} (run (next {}) (init none) watchdogRun) :=
  ⟨by decide +kernel, by decide +kernel, (intent_agrees {} none watchdogRun (by decide +kernel)).1⟩

/-- A Stop whose kill fails leaves the process tracked and told to stop, and the next Start of the
same spec returns success for it. -/
theorem start_after_failed_stop :
    ¬ Agrees {} (run (next {}) (init none) ([.Start generationOne] ++ List.replicate 7 (.step 0 {}) ++
      [.Stop] ++ List.replicate 4 (.step 2 {}) ++ [.step 2 { timedOut := true }, .step 2 {}, .step 2 { killed := false },
      .step 2 {}, .Start generationOne] ++ List.replicate 3 (.step 3 {}))) := by
  intro h
  have hstarted := h.started 3 ⟨.Start generationOne, .unlock (.status ⟨.running, some ⟨0, generationOne, 0, 1⟩,
    generationOne, 0, none, true⟩)⟩ _ generationOne (by decide +kernel) (.inl rfl) rfl
  exact absurd hstarted.1 (by decide +kernel)

end ForwardX.Agent.XrayIntent
