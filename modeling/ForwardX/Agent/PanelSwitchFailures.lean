/-
Switches of the panel URL that fail: `agent/panel_migration.go`.

The switch writes the file first and compensates when the runtime cannot follow. What it writes back
is read from the runtime, so the file is as before exactly when the two were in step; the theorem is
that equivalence, over every state that a run can reach.
-/
import ForwardX.Agent.PanelMigration

namespace ForwardX.Agent.PanelMigration

open Run (run)
open GoText.Text (trimSpace)

section

variable {parse : String → Option URL}

inductive Attempt where
  | directive (d : PanelMigrationDirective)
  | fallback
  | committed (panelURL migrationID : String)

def Process.attempt (parse : String → Option URL) (io : Io) (s : Process) : Attempt → Process × Exit
  | .directive d => s.handlePanelMigrationDirective parse io d
  | .fallback => s.switchToPanelMigrationFallback parse io
  | .committed panelURL migrationID => s.switchToCommittedPanel parse io panelURL migrationID

/-- A process that starts from the config file has the migration of this one. -/
def Restores (parse : String → Option URL) (s : Process) : Prop :=
  ∀ later : ℕ, s.now ≤ later →
    (initializePanelMigration parse s.config later).active = s.runtime.active ∧
      (s.runtime.active = true →
        (initializePanelMigration parse s.config later).id = s.runtime.id ∧
          (initializePanelMigration parse s.config later).fallback = s.runtime.fallback ∧
          unix (initializePanelMigration parse s.config later).startedAt = unix s.runtime.startedAt)

/-- The config file is as before, and a restart has the migration of the process. -/
def NoTrace (parse : String → Option URL) (s after : Process) : Prop :=
  after.config = s.config ∧ after.runtime = s.runtime ∧ Restores parse after

/-- The file and the runtime are in step. -/
structure Recorded (s : Process) : Prop where
  config : s.config = ⟨s.current, s.runtime.fallback, s.runtime.id, unix s.runtime.startedAt⟩
  active : s.runtime.active = true ↔ s.runtime.id ≠ "" ∧ s.runtime.fallback ≠ ""

/-- The directive is one more of the active migration. -/
structure Repeats (parse : String → Option URL) (s : Process) (d : PanelMigrationDirective) : Prop where
  active : s.runtime.active = true
  id : s.runtime.id = d.trimmedID
  fallback : normalizePanelURL parse d.fallbackPanelURL = "" ∨
    normalizePanelURL parse d.fallbackPanelURL = s.runtime.fallback
  startedAt : d.startedAt ≤ 0 ∨ (s.now : ℤ) < unixTime d.startedAt ∨ d.startedAt = unix s.runtime.startedAt

section

variable {s : Process} {io : Io} {fallback id : String} {startedAt : ℤ}

theorem initialize_recorded (panelURL : String) {now later : ℕ} (hid : trimSpace id = id)
    (hfallback : normalizePanelURL parse fallback = fallback) (hstarted : unix startedAt ≠ -62135596800)
    (hpast : startedAt ≤ now) (hlater : now ≤ later) :
    (initializePanelMigration parse ⟨panelURL, fallback, id, unix startedAt⟩ later).active =
        decide (id ≠ "" ∧ fallback ≠ "") ∧
      (initializePanelMigration parse ⟨panelURL, fallback, id, unix startedAt⟩ later).id = id ∧
      (initializePanelMigration parse ⟨panelURL, fallback, id, unix startedAt⟩ later).fallback = fallback ∧
      unix (initializePanelMigration parse ⟨panelURL, fallback, id, unix startedAt⟩ later).startedAt =
        unix startedAt := by
  have htime : ¬ (unixTime (unix startedAt) = zeroTime ∨ (later : ℤ) < unixTime (unix startedAt)) := by
    have hle := unixTime_unix_le startedAt
    rintro (hzero | hfuture)
    · refine hstarted ?_
      have hunix := congrArg unix hzero
      rw [unix_unixTime, zeroTime, unix_unixTime] at hunix
      exact hunix
    · omega
  unfold initializePanelMigration
  dsimp only
  rw [hid, hfallback, if_neg htime, unix_unixTime]
  exact ⟨rfl, rfl, rfl, rfl⟩

theorem noTrace_iff (hid : trimSpace id = id)
    (hfallback : normalizePanelURL parse fallback = fallback) (hstarted : unix startedAt ≠ -62135596800)
    (hpast : startedAt ≤ s.now) :
    NoTrace parse s { s with config := ⟨s.current, fallback, id, unix startedAt⟩ } ↔
      s.config = ⟨s.current, fallback, id, unix startedAt⟩ ∧
        (s.runtime.active = true ↔ id ≠ "" ∧ fallback ≠ "") ∧
        (s.runtime.active = true → s.runtime.id = id ∧ s.runtime.fallback = fallback ∧
          unix s.runtime.startedAt = unix startedAt) := by
  have hstart := fun {later} (hlater : s.now ≤ later) =>
    initialize_recorded s.current hid hfallback hstarted hpast hlater
  constructor
  · rintro ⟨hconfig, -, hrestores⟩
    obtain ⟨hactive, hsame⟩ := hrestores s.now (le_refl _)
    obtain ⟨hactive', hid', hfallback', hunix'⟩ := hstart (le_refl _)
    dsimp only at hactive hsame
    rw [hactive'] at hactive
    rw [hid', hfallback', hunix'] at hsame
    refine ⟨hconfig.symm, ?_, fun hrunning => ?_⟩
    · rw [← hactive, decide_eq_true_eq]
    · obtain ⟨h₁, h₂, h₃⟩ := hsame hrunning
      exact ⟨h₁.symm, h₂.symm, h₃.symm⟩
  · rintro ⟨hconfig, hactive, hsame⟩
    refine ⟨hconfig.symm, rfl, fun later hlater => ?_⟩
    obtain ⟨hactive', hid', hfallback', hunix'⟩ := hstart hlater
    dsimp only
    rw [hactive', hid', hfallback', hunix']
    refine ⟨?_, fun hrunning => ?_⟩
    · rw [Bool.eq_iff_iff, decide_eq_true_eq]
      exact hactive.symm
    · obtain ⟨h₁, h₂, h₃⟩ := hsame hrunning
      exact ⟨h₁.symm, h₂.symm, h₃.symm⟩

theorem persist_back (h : Normal parse s) (hurl : s.runtimePanelURL ≠ "")
    (saved : Config) (hid : trimSpace id = id) (hfallback : normalizePanelURL parse fallback = fallback) :
    (persistPanelMigrationConfig parse .written saved s.current (some (fallback, id, startedAt))).1 =
      ⟨s.current, fallback, id, unix startedAt⟩ := by
  have hcurrent : normalizePanelURL parse s.current = s.current := by
    rw [current_eq hurl]
    exact h.url
  have hne : s.current ≠ "" := by
    rw [current_eq hurl]
    exact hurl
  unfold persistPanelMigrationConfig writePanelConfigAtomic
  dsimp only
  rw [hcurrent, if_pos hne, hid, hfallback]

theorem repeats_iff (h : Normal parse s) {d : PanelMigrationDirective} :
    Repeats parse s d ↔ s.runtime.active = true ∧ s.runtime.id = d.trimmedID ∧
      s.runtime.fallback = s.fallbackOf parse d ∧ unix s.runtime.startedAt = unix (s.startedAtOf d) := by
  have hfallback : s.runtime.active = true → ((normalizePanelURL parse d.fallbackPanelURL = "" ∨
      normalizePanelURL parse d.fallbackPanelURL = s.runtime.fallback) ↔
        s.runtime.fallback = s.fallbackOf parse d) := by
    intro hactive
    obtain ⟨heq, hnamed⟩ | ⟨hnone, heq⟩ | ⟨-, hempty, -⟩ := fallbackOf_cases parse s d
    · rw [heq]
      exact ⟨fun hor => (hor.resolve_left hnamed).symm, fun hsame => .inr hsame.symm⟩
    · rw [heq]
      exact ⟨fun _ => rfl, fun _ => .inl hnone⟩
    · exact absurd hempty (h.active hactive).2
  have htime : s.runtime.id = d.trimmedID → ((d.startedAt ≤ 0 ∨ (s.now : ℤ) < unixTime d.startedAt ∨
      d.startedAt = unix s.runtime.startedAt) ↔ unix s.runtime.startedAt = unix (s.startedAtOf d)) := by
    intro hid
    unfold Process.startedAtOf
    dsimp only
    by_cases hunknown : d.startedAt ≤ 0 ∨ (s.now : ℤ) < unixTime d.startedAt
    · rw [if_pos hunknown, if_pos ⟨hid, started_ne_zeroTime h.started⟩]
      exact ⟨fun _ => rfl, fun _ => hunknown.imp (fun hle => hle) .inl⟩
    · rw [if_neg hunknown, unix_unixTime]
      obtain ⟨hpositive, hpast⟩ := not_or.mp hunknown
      exact ⟨fun hor => ((hor.resolve_left hpositive).resolve_left hpast).symm, fun hsame => .inr (.inr hsame.symm)⟩
  constructor
  · intro hrepeats
    exact ⟨hrepeats.active, hrepeats.id, (hfallback hrepeats.active).mp hrepeats.fallback,
      (htime hrepeats.id).mp hrepeats.startedAt⟩
  · rintro ⟨hactive, hid, hsame, hunix⟩
    exact ⟨hactive, hid, (hfallback hactive).mpr hsame, (htime hid).mpr hunix⟩

theorem noTrace_ends (h : Normal parse s) {target terminalID : String}
    (htarget : normalizePanelURL parse target ≠ "") {after : Process × Exit}
    (hends : Ends parse io s target terminalID after) (hwrites : io.second = .written)
    (hfails : after.2 = .unswitched) : NoTrace parse s after.1 ↔ Recorded s := by
  cases hends with
  | unsaved => cases hfails
  | finished url exit hfinished hurl =>
    rw [show exit = Exit.unswitched from hfails] at hfinished
    cases hfinished
  | unswitched saved hsaved hurl =>
    rw [hwrites, persist_back h (hurl htarget) saved h.id h.fallback]
    rw [noTrace_iff h.id h.fallback h.started h.past]
    constructor
    · exact fun hall => ⟨hall.1, hall.2.1⟩
    · exact fun hrecorded => ⟨hrecorded.config, hrecorded.active, fun _ => ⟨rfl, rfl, rfl⟩⟩

section

variable (hparse : Canonical parse) (h : Normal parse s)

include hparse h

theorem noTrace_prepare {d : PanelMigrationDirective}
    (hid : d.trimmedID ≠ "") (hwrites : io.second = .written) (hfails : (s.prepare parse io d).2 = .unswitched) :
    NoTrace parse s (s.prepare parse io d).1 ↔ Recorded s ∧ Repeats parse s d := by
  obtain heq | ⟨-, hne, ⟨config, heq, -⟩ | ⟨config, saved, heq, hchanges, hurl, -, hconfig⟩ |
    ⟨config, url, connected, exit, heq, hfinished, -⟩⟩ := prepare_cases io d hparse h
  · rw [heq] at hfails
    cases hfails
  · rw [heq] at hfails
    cases hfails
  · have htarget : normalizePanelURL parse (s.targetOf parse d) ≠ "" := by
      generalize htarget : s.targetOf parse d = target at hchanges
      unfold Process.targetOf at htarget
      dsimp only at htarget
      by_cases hnone : normalizePanelURL parse d.targetPanelURL = ""
      · rw [if_pos hnone] at htarget
        exact absurd htarget hchanges
      · rw [if_neg hnone] at htarget
        rw [← htarget, normalizePanelURL_idem hparse]
        exact hnone
    have hnonempty := hurl htarget
    have htrim : trimSpace d.trimmedID = d.trimmedID := GoText.Text.trimSpace_trimSpace d.id
    have hnormal := normalizePanelURL_fallbackOf (d := d) hparse h hnonempty
    obtain ⟨hstarted, hpast⟩ := startedAtOf_spec (d := d) h
    rw [heq, hconfig, hwrites, persist_back h hnonempty saved htrim hnormal]
    rw [noTrace_iff htrim hnormal hstarted hpast, repeats_iff h]
    constructor
    · rintro ⟨hrecord, hactive, hsame⟩
      have hrunning := hactive.mpr ⟨hid, hne⟩
      obtain ⟨hids, hfallbacks, htimes⟩ := hsame hrunning
      refine ⟨⟨?_, ?_⟩, hrunning, hids, hfallbacks, htimes⟩
      · rw [hrecord, hids, hfallbacks, htimes]
      · rw [hids, hfallbacks]
        exact hactive
    · rintro ⟨hrecorded, hrunning, hids, hfallbacks, htimes⟩
      refine ⟨?_, iff_of_true hrunning ⟨hid, hne⟩, fun _ => ⟨hids, hfallbacks, htimes⟩⟩
      rw [hrecorded.config, hids, hfallbacks, htimes]
  · rw [heq] at hfails
    rw [show exit = Exit.unswitched from hfails] at hfinished
    cases hfinished

theorem noTrace_committed {panelURL migrationID : String} (hwrites : io.second = .written)
    (hfails : (s.switchToCommittedPanel parse io panelURL migrationID).2 = .unswitched) :
    NoTrace parse s (s.switchToCommittedPanel parse io panelURL migrationID).1 ↔ Recorded s := by
  generalize hafter : s.switchToCommittedPanel parse io panelURL migrationID = after at hfails ⊢
  unfold Process.switchToCommittedPanel at hafter
  dsimp only at hafter
  by_cases hskip : normalizePanelURL parse panelURL = "" ∨ normalizePanelURL parse panelURL = s.current
  · rw [if_pos hskip] at hafter
    rw [← hafter] at hfails
    cases hfails
  · rw [if_neg hskip] at hafter
    rw [← hafter] at hfails ⊢
    refine noTrace_ends h ?_ (ends_committed hparse h migrationID) hwrites hfails
    rw [normalizePanelURL_idem hparse]
    exact (not_or.mp hskip).1

theorem noTrace_fallback (hwrites : io.second = .written)
    (hfails : (s.switchToPanelMigrationFallback parse io).2 = .unswitched) :
    NoTrace parse s (s.switchToPanelMigrationFallback parse io).1 ↔ Recorded s := by
  cases hactive : s.runtime.active with
  | false =>
    rw [fallback_ignored hactive] at hfails
    cases hfails
  | true =>
    refine noTrace_ends h ?_ (ends_fallback hparse h io hactive) hwrites hfails
    rw [h.fallback]
    exact (h.active hactive).2

theorem noTrace_attempt (a : Attempt) (hwrites : io.second = .written)
    (hfails : (s.attempt parse io a).2 = .unswitched) : NoTrace parse s (s.attempt parse io a).1 ↔
      Recorded s ∧ ∀ d, a = .directive d → d.starts = true → Repeats parse s d := by
  have hany : (∀ d, a = .directive d → d.starts = true → Repeats parse s d) →
      (Recorded s ↔ Recorded s ∧ ∀ d, a = .directive d → d.starts = true → Repeats parse s d) :=
    fun hall => (and_iff_left hall).symm
  cases a with
  | fallback => exact (noTrace_fallback hparse h hwrites hfails).trans (hany fun d hd => by cases hd)
  | committed panelURL migrationID =>
    exact (noTrace_committed hparse h hwrites hfails).trans (hany fun d hd => by cases hd)
  | directive d =>
    dsimp only [Process.attempt] at hfails ⊢
    generalize hafter : s.handlePanelMigrationDirective parse io d = after at hfails ⊢
    unfold Process.handlePanelMigrationDirective at hafter
    dsimp only at hafter
    by_cases hempty : d.trimmedID = "" ∨ d.lowerState = ""
    · rw [if_pos hempty] at hafter
      rw [← hafter] at hfails
      cases hfails
    rw [if_neg hempty] at hafter
    by_cases hstate : d.lowerState = "preparing" ∨ d.lowerState = "committing"
    · rw [if_pos hstate] at hafter
      rw [← hafter] at hfails ⊢
      refine (noTrace_prepare hparse h (not_or.mp hempty).1 hwrites hfails).trans (and_congr_right fun _ => ?_)
      constructor
      · intro hrepeats d' hd _
        obtain rfl := Attempt.directive.inj hd
        exact hrepeats
      · intro hall
        exact hall d rfl (decide_eq_true ⟨(not_or.mp hempty).1, hstate⟩)
    rw [if_neg hstate] at hafter
    have hends : Recorded s ↔ Recorded s ∧ ∀ d', Attempt.directive d = .directive d' → d'.starts = true →
        Repeats parse s d' := by
      refine hany fun d' hd hstarts => ?_
      obtain rfl := Attempt.directive.inj hd
      exact absurd (of_decide_eq_true hstarts).2 hstate
    by_cases hcommitted : d.lowerState = "committed" ∧ normalizePanelURL parse d.targetPanelURL ≠ "" ∧
        normalizePanelURL parse d.targetPanelURL ≠ s.current
    · rw [if_pos hcommitted] at hafter
      rw [← hafter] at hfails ⊢
      exact (noTrace_committed hparse h hwrites hfails).trans hends
    rw [if_neg hcommitted] at hafter
    by_cases hmatches : ¬ (s.runtime.active = true ∧ s.runtime.id = d.trimmedID)
    · rw [if_pos hmatches] at hafter
      rw [← hafter] at hfails
      cases hfails
    rw [if_neg hmatches] at hafter
    by_cases haborted : d.lowerState = "aborted"
    · rw [if_pos haborted] at hafter
      rw [← hafter] at hfails ⊢
      exact (noTrace_fallback hparse h hwrites hfails).trans hends
    rw [if_neg haborted] at hafter
    by_cases hclears : d.lowerState = "committed"
    · rw [if_pos hclears] at hafter
      rw [← hafter] at hfails
      exact absurd hfails clear_exit
    · rw [if_neg hclears] at hafter
      rw [← hafter] at hfails
      cases hfails

end

theorem start_recorded {config : Config} {now : ℕ} (hne : config.panelURL ≠ "")
    (hurl : normalizePanelURL parse (trimRight config.panelURL) = config.panelURL)
    (hnone : config.migrationFallbackPanelURL = "" ∧ config.panelMigrationID = "" ∧
      config.panelMigrationStartedAt = 0) : Recorded (Process.start parse config now) := by
  obtain ⟨panelURL, fallback, id, startedAt⟩ := config
  obtain ⟨rfl, rfl, rfl⟩ := hnone
  have hnil : trimSpace "" = "" := by decide
  have htime : ¬ (unixTime 0 = zeroTime ∨ (now : ℤ) < unixTime 0) := by
    rintro (hzero | hfuture)
    · exact absurd hzero (by decide)
    · exact absurd hfuture (not_lt.mpr (Int.natCast_nonneg now))
  have hruntime : initializePanelMigration parse ⟨panelURL, "", "", 0⟩ now = ⟨false, "", "", 0, 0, "", false⟩ := by
    unfold initializePanelMigration
    dsimp only
    rw [hnil, normalizePanelURL_nil, if_neg htime]
    rfl
  have hcurrent : (Process.start parse ⟨panelURL, "", "", 0⟩ now).current = panelURL := by
    unfold Process.start Process.current
    dsimp only at hurl ⊢
    rw [hurl, if_pos hne]
  refine ⟨?_, ?_⟩
  · rw [hcurrent]
    unfold Process.start
    dsimp only
    rw [hruntime]
    rfl
  · unfold Process.start
    dsimp only
    rw [hruntime]
    exact iff_of_false Bool.noConfusion fun hid => hid.1 rfl

end

/-- In every run, a switch that fails when the runtime URL is changed leaves no trace exactly when the file
and the runtime are in step and a directive that starts a migration is one more of the active one. -/
theorem failed_switches_leave_no_trace (hparse : Canonical parse) (config : Config) (now : ℕ) (events : List Event)
    (io : Io) (a : Attempt) (hwrites : io.second = .written)
    (hfails : ((run (World.step parse) (World.start parse config now) events).process.attempt parse io a).2 =
      .unswitched) :
    NoTrace parse (run (World.step parse) (World.start parse config now) events).process
        ((run (World.step parse) (World.start parse config now) events).process.attempt parse io a).1 ↔
      Recorded (run (World.step parse) (World.start parse config now) events).process ∧
        ∀ d, a = .directive d → d.starts = true →
          Repeats parse (run (World.step parse) (World.start parse config now) events).process d :=
  noTrace_attempt hparse (normal_run hparse config now events) a hwrites hfails

end

theorem failed_switches_leave_no_trace_active :
    NoTrace panels (run (World.step panels) (World.start panels oldPanel 5000000000) [prepared]).process
        ((run (World.step panels) (World.start panels oldPanel 5000000000) [prepared]).process.attempt panels unstable
          .fallback).1 ↔
      Recorded (run (World.step panels) (World.start panels oldPanel 5000000000) [prepared]).process ∧
        ∀ d, Attempt.fallback = .directive d → d.starts = true →
          Repeats panels (run (World.step panels) (World.start panels oldPanel 5000000000) [prepared]).process d :=
  failed_switches_leave_no_trace panels_canonical oldPanel 5000000000 [prepared] unstable .fallback rfl
    (by decide +kernel)

/-- After a migration has finished, a redirect that fails puts its record back: a restart falls back to
the old panel. -/
theorem finished_migration_comes_back : ¬ ∀ (parse : String → Option URL), Canonical parse →
    ∀ (config : Config) (now : ℕ) (events : List Event) (io : Io) (a : Attempt), io.first = .written →
      io.second = .written →
      ((run (World.step parse) (World.start parse config now) events).process.attempt parse io a).2 = .unswitched →
      NoTrace parse (run (World.step parse) (World.start parse config now) events).process
        ((run (World.step parse) (World.start parse config now) events).process.attempt parse io a).1 := by
  intro h
  have htrace := (h panels panels_canonical oldPanel 5000000000 (prepared :: committed) unstable
    (.committed "https://third" "b") rfl rfl (by decide +kernel)).1
  revert htrace
  decide +kernel

end ForwardX.Agent.PanelMigration
