/-
A restart and the watcher of the process that it replaces: `agent/xray_supervisor.go`.

The Restart kills a process and waits until its watcher has forgotten it. Its steps are counted down
against what the other threads may do in between, so that the theorem says that it comes through,
not only that it is right if it does.
-/
import ForwardX.Agent.XrayIntent

namespace ForwardX.Agent.XrayRestartRace

open XraySupervision Chain Run Threads XraySupervisor

/-! ## What is assumed -/

/-- The process that the system is asked about at this point. -/
def subject (s : XraySupervisor) : Pc → Option ℕ
  | .stopInspect tracked | .stopSignal tracked | .stopInspectAgain tracked | .stopKill tracked | .wait tracked =>
    some tracked.process
  | .startLocked _ => s.current.map TrackedXrayProcess.process
  | .inspect _ _ process | .discard process _ => some process
  | _ => none

def AccurateStep (s : XraySupervisor) (x : Thread) (out : Outcome) : Prop :=
  out.valid ∧ out.launched ∧ out.persisted ∧ ∀ p ∈ subject s x.pc, out.inspected = s.alive p ∧
    out.signalled = s.alive p ∧ out.killed = s.alive p

instance (s : XraySupervisor) (x : Thread) (out : Outcome) : Decidable (AccurateStep s x out) :=
  inferInstanceAs (Decidable (_ ∧ _ ∧ _ ∧ ∀ p ∈ subject s x.pc, _))

def Accurate (w : Supervision) : XraySupervision.Event → Prop
  | .exit p => ¬ w.shared.Loose p
  | .step t out => ∀ x ∈ w.threads[t]?, AccurateStep w.shared x out
  | _ => True

instance (w : Supervision) : (e : XraySupervision.Event) → Decidable (Accurate w e)
  | .exit p => inferInstanceAs (Decidable (¬ w.shared.Loose p))
  | .step t out => inferInstanceAs (Decidable (∀ x ∈ w.threads[t]?, AccurateStep w.shared x out))
  | .Recover | .Start _ | .Stop | .Restart _ => .isTrue trivial

/-! ## The condition -/

/-- The old process is alive when it is looked at and killed after the first timeout, its channel
is closed before the second one, and its watcher has forgotten it when the new one is started. -/
def PromptStep (s : XraySupervisor) (pc : Pc) (out : Outcome) : Prop :=
  match pc with
  | .stopInspectAgain tracked | .stopKill tracked => s.alive tracked.process
  | .stopWaitKilled _ => ¬ out.timedOut
  | .startLocked _ => s.current = none
  | _ => True

instance (s : XraySupervisor) (pc : Pc) (out : Outcome) : Decidable (PromptStep s pc out) := by
  unfold PromptStep
  split <;> infer_instance

def Prompt (r : ℕ) (w : Supervision) : XraySupervision.Event → Prop
  | .step t out => t = r → ∀ x ∈ w.threads[t]?, PromptStep w.shared x.pc out
  | _ => True

instance (r : ℕ) (w : Supervision) : (e : XraySupervision.Event) → Decidable (Prompt r w e)
  | .step t out => inferInstanceAs (Decidable (t = r → ∀ x ∈ w.threads[t]?, PromptStep w.shared x.pc out))
  | .Recover | .Start _ | .Stop | .Restart _ | .exit _ => .isTrue trivial

/-! ## How far the Restart is -/

/-- The new process is tracked under the spec, and lives. -/
def Running (s : XraySupervisor) (spec : XrayLaunchSpec) (status : XraySupervisorStatus) : Prop :=
  ∃ new, status.tracked = some new ∧ new.spec = spec ∧ s.Loose new.process ∧ s.desiredRunning ∧ s.spec = spec

def At (s : XraySupervisor) (spec : XrayLaunchSpec) : Pc → Prop
  | .stopLocked => ∀ tracked ∈ s.current, s.Loose tracked.process
  | .stopInspect tracked | .stopSignal tracked => s.Loose tracked.process
  | .stopWait _ | .stopInspectAgain _ | .stopKill _ | .stopWaitKilled _ => True
  | .startLocked asked => asked = spec
  | .launch asked epoch => asked = spec ∧ s.current = none ∧ s.epoch = epoch
  | .inspect asked epoch process => asked = spec ∧ s.current = none ∧ s.epoch = epoch ∧ s.Loose process
  | .track new => new.spec = spec ∧ s.current = none ∧ s.epoch = new.epoch ∧ s.Loose new.process
  | .unlock (.status status) => Running s spec status
  | .over (.status status) => ∃ new, status.tracked = some new ∧ new.spec = spec
  | _ => False

/-- How many steps are left at most, those aside at which the thread waits for the old process. -/
def rank : Pc → ℕ
  | .stopLocked => 12
  | .stopInspect _ => 11
  | .stopSignal _ => 10
  | .stopWait _ => 9
  | .stopInspectAgain _ => 8
  | .stopKill _ => 7
  | .stopWaitKilled _ => 6
  | .startLocked _ => 5
  | .launch _ _ => 4
  | .inspect _ _ _ => 3
  | .track _ => 2
  | .unlock _ => 1
  | _ => 0

/-- The thread waits for the old process, and no timer has fired. -/
def Waits (s : XraySupervisor) (pc : Pc) (out : Outcome) : Prop :=
  ∃ tracked, (pc = .stopWait tracked ∨ pc = .stopWaitKilled tracked) ∧ s.isDone tracked.process = false ∧
    out.timedOut = false

structure Replacing (w : Supervision) (r : ℕ) (spec : XrayLaunchSpec) (pc : Pc) : Prop where
  thread : w.threads[r]? = some ⟨.Restart spec, pc⟩
  held : pc.Locked → w.shared.transitionMu = some r
  others : pc.Locked → ∀ (u : ℕ) (y : Thread), u ≠ r → w.threads[u]? = some y → ¬ y.pc.Locked
  facts : At w.shared spec pc

/-! ## Steps of others -/

theorem alive_of_loose {s : XraySupervisor} {p : ℕ} (h : s.Loose p) : s.alive p = true := by
  obtain ⟨process, hp, halive, -⟩ := h
  simpa [alive, hp] using halive

/-- What does not concern the thread that holds `transitionMu`. -/
structure Gentle (s s' : XraySupervisor) : Prop where
  transitionMu : s'.transitionMu = s.transitionMu
  desiredRunning : s'.desiredRunning = s.desiredRunning
  epoch : s'.epoch = s.epoch
  spec : s'.spec = s.spec
  current : s'.current = s.current ∨ s'.current = none
  loose : ∀ p, s.Loose p → s'.Loose p

theorem Gentle.refl (s : XraySupervisor) : Gentle s s := ⟨rfl, rfl, rfl, rfl, .inl rfl, fun _ => id⟩

theorem Gentle.of_book {s s' s'' : XraySupervisor} (hb : XrayIntent.Book s' s'') (h : Gentle s s') : Gentle s s'' := by
  obtain ⟨status, errorCode, record, rfl⟩ := hb
  exact ⟨h.transitionMu, h.desiredRunning, h.epoch, h.spec, h.current, h.loose⟩

theorem Gentle.facts {s s' : XraySupervisor} (h : Gentle s s') {spec : XrayLaunchSpec} {pc : Pc} (hpc : At s spec pc) :
    At s' spec pc := by
  have hnone : s.current = none → s'.current = none := by
    intro hs
    rcases h.current with hsame | hgone
    · rw [hsame, hs]
    · exact hgone
  cases pc with
  | stopLocked =>
    intro tracked htracked
    rcases h.current with hsame | hgone
    · exact h.loose _ (hpc tracked (hsame ▸ htracked))
    · rw [hgone] at htracked
      cases htracked
  | stopInspect | stopSignal => exact h.loose _ hpc
  | launch asked epoch => exact ⟨hpc.1, hnone hpc.2.1, h.epoch.trans hpc.2.2⟩
  | inspect asked epoch process => exact ⟨hpc.1, hnone hpc.2.1, h.epoch.trans hpc.2.2.1, h.loose _ hpc.2.2.2⟩
  | track new => exact ⟨hpc.1, hnone hpc.2.1, h.epoch.trans hpc.2.2.1, h.loose _ hpc.2.2.2⟩
  | unlock result =>
    cases result with
    | status status =>
      obtain ⟨new, htracked, hspec, hloose, hdesired, hs⟩ := hpc
      exact ⟨new, htracked, hspec, h.loose _ hloose, h.desiredRunning.trans hdesired, h.spec.trans hs⟩
    | done | failed => exact hpc
  | «over» result => cases result <;> exact hpc
  | _ => exact hpc

theorem gentle_step (options : XraySupervisorOptions) {s : XraySupervisor} (t : ℕ) {x : Thread} (out : Outcome)
    (hheld : s.transitionMu ≠ none) (hunlocked : ¬ x.pc.Locked) :
    Gentle s (s.step options t x out).1 ∧ ¬ (s.step options t x out).2.1.pc.Locked ∧
      ∀ z ∈ (s.step options t x out).2.2, ¬ z.pc.Locked := by
  obtain ⟨task, pc⟩ := x
  cases pc with
  | entered =>
    simp only [XraySupervisor.step, entered, Thread.goto]
    split
    · exact ⟨Gentle.refl s, id, by simp⟩
    · exact ⟨Gentle.refl s, id, by simp⟩
  | lock =>
    simp only [XraySupervisor.step, lock, if_neg hheld]
    exact ⟨Gentle.refl s, id, by simp⟩
  | relock spec =>
    simp only [XraySupervisor.step, relock, if_neg hheld]
    exact ⟨Gentle.refl s, id, by simp⟩
  | «over» result => exact ⟨Gentle.refl s, id, by simp [XraySupervisor.step]⟩
  | delay spec =>
    simp only [XraySupervisor.step, delay, Thread.goto]
    split
    · exact ⟨Gentle.refl s, id, by simp⟩
    · exact ⟨Gentle.refl s, id, by simp⟩
  | wait tracked =>
    simp only [XraySupervisor.step, wait, Thread.goto]
    split
    · exact ⟨Gentle.refl s, id, by simp⟩
    · refine ⟨⟨rfl, rfl, rfl, rfl, .inl rfl, ?_⟩, id, by simp⟩
      rintro p ⟨process, hp, hloose⟩
      refine ⟨_, getElem?_modify_iff.mpr ⟨process, hp, rfl⟩, ?_⟩
      split <;> exact hloose
  | clear tracked =>
    simp only [XraySupervisor.step, clear, Thread.goto]
    split
    · split
      · refine ⟨Gentle.of_book ((XrayIntent.Book.startFailed _).persistLocked out)
          ⟨rfl, rfl, rfl, rfl, .inr rfl, fun _ h => h⟩, id, ?_⟩
        rintro _ ⟨⟩
        exact id
      · exact ⟨Gentle.of_book ((XrayIntent.Book.stopped _).persistLocked out)
          ⟨rfl, rfl, rfl, rfl, .inr rfl, fun _ h => h⟩, id, by simp⟩
    · exact ⟨Gentle.refl s, id, by simp⟩
  | retry =>
    cases task with
    | restartAfterUnexpectedExit epoch =>
      simp only [XraySupervisor.step, retry, Thread.goto]
      split
      · split
        · exact ⟨Gentle.of_book ((XrayIntent.Book.startFailed s).persistLocked out) (Gentle.refl s), id, by simp⟩
        · exact ⟨Gentle.of_book ((XrayIntent.Book.refl _).persistLocked out)
            ⟨rfl, rfl, rfl, rfl, .inl rfl, fun _ h => h⟩, id, by simp⟩
      · exact ⟨Gentle.refl s, id, by simp⟩
    | Start | Stop | Restart | Recover | watch => exact ⟨Gentle.refl s, id, by simp [XraySupervisor.step]⟩
  | _ => exact absurd trivial hunlocked

/-! ## Its own steps -/

section

variable {options : XraySupervisorOptions} {s : XraySupervisor} {r : ℕ} {spec : XrayLaunchSpec} {pc : Pc} {out : Outcome}

def Advances (r : ℕ) (spec : XrayLaunchSpec) (s : XraySupervisor) (pc : Pc) (out : Outcome) (after : After) : Prop :=
  ∃ pc', after.2.1 = ⟨.Restart spec, pc'⟩ ∧ At after.1 spec pc' ∧ (pc'.Locked → after.1.transitionMu = some r) ∧
    (∀ z ∈ after.2.2, ¬ z.pc.Locked) ∧ (rank pc' < rank pc ∨ Waits s pc out ∧ pc' = pc)

theorem advances_goto (pc q : Pc) {s' : XraySupervisor} (hmu : s'.transitionMu = some r) (hq : At s' spec q)
    (hrank : rank q < rank pc) : Advances r spec s pc out (s', ⟨.Restart spec, q⟩, none) :=
  ⟨q, rfl, hq, fun _ => hmu, by simp, .inl hrank⟩

theorem advances_wait (hmu : s.transitionMu = some r) {tracked : TrackedXrayProcess} {late : Pc}
    (hpc : pc = .stopWait tracked ∨ pc = .stopWaitKilled tracked) (hat : At s spec pc)
    (hlate : out.timedOut → At s spec late ∧ rank late < rank pc) :
    Advances r spec s pc out (s.waitXrayProcessDone ⟨.Restart spec, pc⟩ tracked out late) := by
  unfold waitXrayProcessDone
  split
  · rename_i htimedOut
    exact advances_goto pc late hmu (hlate htimedOut).1 (hlate htimedOut).2
  · rename_i htimer
    split
    · refine advances_goto pc (.startLocked spec) hmu rfl ?_
      rcases hpc with rfl | rfl <;> simp [rank]
    · rename_i hdone
      exact ⟨pc, rfl, hat, fun _ => hmu, by simp, .inr ⟨⟨tracked, hpc, by simpa using hdone, by simpa using htimer⟩, rfl⟩⟩

theorem advances_step (options : XraySupervisorOptions) (hat : At s spec pc) (hlocked : pc.Locked) (hmu : s.transitionMu = some r)
    (haccurate : AccurateStep s ⟨.Restart spec, pc⟩ out) (hprompt : PromptStep s pc out) :
    Advances r spec s pc out (s.step options r ⟨.Restart spec, pc⟩ out) := by
  obtain ⟨hvalid, hlaunched, hpersisted, hsubject⟩ := haccurate
  cases pc with
  | stopLocked =>
    simp only [XraySupervisor.step, stopLocked, hpersisted, if_true]
    split
    · have hmild := ((XrayIntent.Book.stopped { s with epoch := s.epoch + 1, desiredRunning := false }).persistLocked
        out).mild
      exact advances_goto .stopLocked (.startLocked spec) (hmild.transitionMu.trans hmu) rfl (by simp [rank])
    · rename_i tracked htracked
      have hbook := (XrayIntent.Book.refl { s with epoch := s.epoch + 1, desiredRunning := false }).persistLocked out
      have hgentle := Gentle.of_book hbook (Gentle.refl _)
      exact advances_goto .stopLocked (.stopInspect tracked) (hgentle.transitionMu.trans hmu) (hgentle.loose _ (hat tracked htracked)) (by simp [rank])
  | stopInspect tracked =>
    have hinspected : out.inspected = true := ((hsubject _ rfl).1).trans (alive_of_loose hat)
    simp only [XraySupervisor.step, stopInspect, hinspected, if_true]
    exact advances_goto (.stopInspect tracked) (.stopSignal tracked) hmu hat (by simp [rank])
  | stopSignal tracked =>
    have hsignalled : out.signalled = true := ((hsubject _ rfl).2.1).trans (alive_of_loose hat)
    simp only [XraySupervisor.step, stopSignal, hsignalled, if_true]
    exact advances_goto (.stopSignal tracked) (.stopWait tracked) hmu trivial (by simp [rank])
  | stopWait tracked => exact advances_wait hmu (.inl rfl) trivial fun _ => ⟨trivial, by simp [rank]⟩
  | stopInspectAgain tracked =>
    have hinspected : out.inspected = true := ((hsubject _ rfl).1).trans hprompt
    simp only [XraySupervisor.step, stopInspectAgain, hinspected, if_true]
    exact advances_goto (.stopInspectAgain tracked) (.stopKill tracked) hmu trivial (by simp [rank])
  | stopKill tracked =>
    have hkilled : out.killed = true := ((hsubject _ rfl).2.2).trans hprompt
    simp only [XraySupervisor.step, stopKill, hkilled, if_true]
    exact advances_goto (.stopKill tracked) (.stopWaitKilled tracked) hmu trivial (by simp [rank])
  | stopWaitKilled tracked => exact advances_wait hmu (.inr rfl) trivial fun htimer => absurd htimer hprompt
  | startLocked asked =>
    obtain rfl : asked = spec := hat
    have hnone : s.current = none := hprompt
    simp only [XraySupervisor.step, startLocked, hvalid, hnone, if_true, Thread.watchdog,
      Bool.false_eq_true, if_false]
    exact advances_goto (.startLocked asked) (.launch asked (s.epoch + 1)) hmu ⟨rfl, rfl, rfl⟩ (by simp [rank])
  | launch asked epoch =>
    obtain ⟨rfl, hnone, hepoch⟩ := hat
    simp only [XraySupervisor.step, launch, hlaunched, if_true]
    exact advances_goto (.launch asked epoch) (.inspect asked epoch s.processes.length) hmu ⟨rfl, hnone, hepoch, ⟨{}, getElem?_concat_iff.mpr (.inr ⟨rfl, rfl⟩), rfl, by simp⟩⟩
      (by simp [rank])
  | inspect asked epoch process =>
    obtain ⟨rfl, hnone, hepoch, hloose⟩ := hat
    have hinspected : out.inspected = true := ((hsubject _ rfl).1).trans (alive_of_loose hloose)
    simp only [XraySupervisor.step, inspect, hinspected, if_true]
    exact advances_goto (.inspect asked epoch process) (.track ⟨process, asked, out.now, epoch⟩) hmu ⟨rfl, hnone, hepoch, hloose⟩ (by simp [rank])
  | track new =>
    obtain ⟨hspec, hnone, hepoch, hloose⟩ := hat
    have hstill : ¬ (s.epoch ≠ new.epoch ∨ s.current ≠ none) := by simp [hepoch, hnone]
    simp only [XraySupervisor.step, track, if_neg hstill, hpersisted, if_true]
    have hbook := (XrayIntent.Book.refl (s.adopt new)).persistLocked out
    have hgentle := Gentle.of_book hbook (Gentle.refl _)
    refine ⟨.unlock (.status _), rfl, ⟨new, rfl, hspec, hgentle.loose _ hloose, hgentle.desiredRunning,
      hgentle.spec.trans hspec⟩, fun _ => hgentle.transitionMu.trans hmu, ?_, .inl (by simp [rank])⟩
    rintro _ ⟨⟩
    exact id
  | unlock result =>
    cases result with
    | status status =>
      obtain ⟨new, htracked, hspec, -⟩ := hat
      exact ⟨.over (.status status), rfl, ⟨new, htracked, hspec⟩, False.elim, by simp [XraySupervisor.step,
        unlock], .inl (by simp [rank])⟩
    | done | failed => exact hat.elim
  | discard | readRecord | recheck => exact hat.elim
  | entered | lock | «over» | wait | clear | retry | delay | relock => exact hlocked.elim

end

/-! ## Runs -/

variable {options : XraySupervisorOptions} {w : Supervision} {r : ℕ} {spec : XrayLaunchSpec} {pc : Pc}

theorem replacing_spawn (h : Replacing w r spec pc) (y : Thread) (hy : ¬ y.pc.Locked) :
    Replacing (w.spawn w.shared y) r spec pc where
  thread := getElem?_concat_of_some h.thread
  held := h.held
  others hlocked u z hu hz := by
    rcases getElem?_concat_iff.mp hz with hold | ⟨-, rfl⟩
    · exact h.others hlocked u z hu hold
    · exact hy
  facts := h.facts

theorem replacing_own (options : XraySupervisorOptions) (h : Replacing w r spec pc) (hlocked : pc.Locked) {out : Outcome}
    (haccurate : AccurateStep w.shared ⟨.Restart spec, pc⟩ out) (hprompt : PromptStep w.shared pc out) :
    ∃ pc', Replacing (next options w (.step r out)) r spec pc' ∧
      (rank pc' < rank pc ∨ Waits w.shared pc out ∧ pc' = pc) := by
  obtain ⟨pc', hthread, hat, hheld, hspawned, hrank⟩ :=
    advances_step options h.facts hlocked (h.held hlocked) haccurate hprompt
  refine ⟨pc', ?_, hrank⟩
  rw [next, h.thread]
  dsimp only
  have hlt := lt_length_of_getElem? h.thread
  refine ⟨(getElem?_move_iff h.thread).mpr (.inl ⟨rfl, hthread.symm⟩), hheld, fun _ u y hu hy => ?_, hat⟩
  rcases (getElem?_move_iff h.thread).mp hy with ⟨rfl, -⟩ | ⟨-, hold⟩ | ⟨-, hnew⟩
  · exact absurd rfl hu
  · exact h.others hlocked u y hu hold
  · exact hspawned y hnew

theorem replacing_other (h : Replacing w r spec pc) {t : ℕ} (ht : t ≠ r) (out : Outcome) :
    Replacing (next options w (.step t out)) r spec pc := by
  rw [next]
  split
  · exact h
  rename_i x hx
  have hthread : (w.move t (w.shared.step options t x out)).threads[r]? = some ⟨.Restart spec, pc⟩ :=
    (getElem?_move_iff hx).mpr (.inr (.inl ⟨ht.symm, h.thread⟩))
  by_cases hlocked : pc.Locked
  · have hheld : w.shared.transitionMu ≠ none := by
      rw [h.held hlocked]
      exact Option.some_ne_none r
    obtain ⟨hgentle, hunlocked, hspawned⟩ := gentle_step options t out hheld (h.others hlocked t x ht hx)
    refine ⟨hthread, fun _ => hgentle.transitionMu.trans (h.held hlocked), fun _ u y hu hy => ?_, hgentle.facts h.facts⟩
    rcases (getElem?_move_iff hx).mp hy with ⟨-, rfl⟩ | ⟨-, hold⟩ | ⟨-, hnew⟩
    · exact hunlocked
    · exact h.others hlocked u y hu hold
    · exact hspawned y hnew
  · refine ⟨hthread, fun hl => absurd hl hlocked, fun hl => absurd hl hlocked, ?_⟩
    have hfacts := h.facts
    cases pc with
    | «over» result => cases result <;> exact hfacts
    | entered | lock | wait | clear | retry | delay | relock => exact hfacts
    | _ => exact absurd trivial hlocked

theorem replacing_next (e : XraySupervision.Event) (hok : Accurate w e ∧ Prompt r w e) (h : ∃ pc, Replacing w r spec pc) :
    ∃ pc, Replacing (next options w e) r spec pc := by
  obtain ⟨pc, h⟩ := h
  cases e with
  | Recover =>
    refine ⟨pc, ?_⟩
    rw [next, if_neg]
    · exact h
    · intro hnil
      have hthread := h.thread
      rw [hnil] at hthread
      cases hthread
  | Start asked => exact ⟨pc, replacing_spawn h _ id⟩
  | Stop => exact ⟨pc, replacing_spawn h _ id⟩
  | Restart asked => exact ⟨pc, replacing_spawn h _ id⟩
  | exit p =>
    have hgentle : Gentle w.shared (w.shared.exit p) := by
      refine ⟨rfl, rfl, rfl, rfl, .inl rfl, ?_⟩
      rintro q ⟨process, hq, hloose⟩
      refine ⟨_, getElem?_modify_iff.mpr ⟨process, hq, rfl⟩, ?_⟩
      split
      · rename_i hqp
        exact absurd ⟨process, hqp ▸ hq, hloose⟩ hok.1
      · exact hloose
    exact ⟨pc, h.thread, h.held, h.others, hgentle.facts h.facts⟩
  | step t out =>
    by_cases ht : t = r
    · subst ht
      by_cases hlocked : pc.Locked
      · obtain ⟨pc', hnext, -⟩ := replacing_own options h hlocked (hok.1 _ h.thread) (hok.2 rfl _ h.thread)
        exact ⟨pc', hnext⟩
      · -- It has returned.
        have hfacts := h.facts
        cases pc with
        | «over» result =>
          refine ⟨.over result, ?_⟩
          rw [next, h.thread]
          refine ⟨(getElem?_move_iff h.thread).mpr (.inl ⟨rfl, rfl⟩), False.elim, False.elim, ?_⟩
          cases result <;> exact hfacts
        | entered | lock | wait | clear | retry | delay | relock => exact hfacts.elim
        | _ => exact absurd trivial hlocked
    · exact ⟨pc, replacing_other h ht out⟩

/-- A Restart has just locked `transitionMu`, and the process that it will replace, if there is
one, lives. -/
def Begun (w : Supervision) (r : ℕ) (spec : XrayLaunchSpec) : Prop := Replacing w r spec .stopLocked

/-- The Restart returns success, with the new process alive under its spec when it does, unless it
still has steps to do, fewer after each, or waits for the old process. -/
def Succeeds (options : XraySupervisorOptions) (w : Supervision) (r : ℕ) (spec : XrayLaunchSpec) : Prop :=
  ∃ pc, w.threads[r]? = some ⟨.Restart spec, pc⟩ ∧
    ((∃ status, pc = .over (.status status) ∧ ∃ new, status.tracked = some new ∧ new.spec = spec) ∨
      ((∀ result, pc = .unlock result → ∃ status, result = .status status ∧ Running w.shared spec status) ∧
        ∀ out, AccurateStep w.shared ⟨.Restart spec, pc⟩ out → PromptStep w.shared pc out →
          Waits w.shared pc out ∨
            ∃ pc', (next options w (.step r out)).threads[r]? = some ⟨.Restart spec, pc'⟩ ∧ rank pc' < rank pc))

/-- **A Restart succeeds**, in every run from the moment it begins in which the process it replaces
is alive when it is killed, done before the second timeout and forgotten by its watcher when the
new one is started, whatever the other threads do. -/
theorem restart_succeeds (options : XraySupervisorOptions) {w : Supervision} {r : ℕ} {spec : XrayLaunchSpec}
    (hbegun : Begun w r spec) (es : List XraySupervision.Event)
    (h : Admissible (fun w e => Accurate w e ∧ Prompt r w e) (next options) w es) :
    Succeeds options (run (next options) w es) r spec := by
  obtain ⟨pc, hpc⟩ := run_invariant_of_admissible (I := fun w => ∃ pc, Replacing w r spec pc)
    (fun w e hok hw => replacing_next e hok hw) es w h ⟨_, hbegun⟩
  refine ⟨pc, hpc.thread, ?_⟩
  have hfacts := hpc.facts
  by_cases hlocked : pc.Locked
  · refine .inr ⟨?_, fun out haccurate hprompt => ?_⟩
    · rintro result rfl
      cases result with
      | status status => exact ⟨status, rfl, hfacts⟩
      | done | failed => exact hfacts.elim
    · obtain ⟨pc', hnext, hrank | ⟨hwaits, -⟩⟩ := replacing_own options hpc hlocked haccurate hprompt
      · exact .inr ⟨pc', hnext.thread, hrank⟩
      · exact .inl hwaits
  · cases pc with
    | «over» result =>
      cases result with
      | status status => exact .inl ⟨status, rfl, hfacts⟩
      | done | failed => exact hfacts.elim
    | entered | lock | wait | clear | retry | delay | relock => exact hfacts.elim
    | _ => exact absurd trivial hlocked

/-- A Restart, up to the interrupt, of the process that a Start has launched. -/
def restartBegins : List XraySupervision.Event :=
  [.Start XrayIntent.generationOne] ++ List.replicate 7 (.step 0 {}) ++ [.Restart { XrayIntent.generationOne with
    generation := 2 }, .step 2 {}, .step 2 {}, .step 2 {}, .step 2 {}, .step 2 {}]

def oldExits : List XraySupervision.Event := [.exit 0, .step 1 { inspected := false, signalled := false, killed := false }]

theorem restart_succeeds_in_time :
    Succeeds {} (run (next {}) (run (next {}) (init none) (restartBegins.take 11)) (restartBegins.drop 11 ++ oldExits ++
      [.step 1 {}] ++ List.replicate 7 (.step 2 {}))) 2 { XrayIntent.generationOne with generation := 2 } := by
  have hothers : ∀ u < (run (next {}) (init none) (restartBegins.take 11)).threads.length, u ≠ 2 →
      ∀ y ∈ (run (next {}) (init none) (restartBegins.take 11)).threads[u]?, ¬ y.pc.Locked := by decide +kernel
  have hfacts : ∀ tracked ∈ (run (next {}) (init none) (restartBegins.take 11)).shared.current,
      (run (next {}) (init none) (restartBegins.take 11)).shared.Loose tracked.process := by decide +kernel
  refine restart_succeeds {} ⟨by decide +kernel, fun _ => by decide +kernel, fun _ u y hu hy => ?_, hfacts⟩ _
    (by decide +kernel)
  exact hothers u (lt_length_of_getElem? hy) hu y hy

theorem restart_before_watcher :
    Admissible Accurate (next {}) (init none) (restartBegins ++ oldExits ++ [.step 2 {},
        .step 2 { inspected := false, signalled := false, killed := false }, .step 2 {}]) ∧
      (run (next {}) (init none) (restartBegins ++ oldExits ++ [.step 2 {},
        .step 2 { inspected := false, signalled := false, killed := false }, .step 2 {}])).threads[2]?.map Thread.pc =
          some (.over (.failed .processIdentityMismatch)) := by
  constructor <;> decide +kernel

end ForwardX.Agent.XrayRestartRace
