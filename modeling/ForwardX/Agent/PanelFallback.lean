/-
The fallback of a panel migration for heartbeat failures: `agent/panel_migration.go`.

Heartbeats that fail send the agent back to the panel it came from, and nothing else may. The
invariant says what the config file and the runtime know of the migration that the failures are
counted for, between any two locked sections.
-/
import ForwardX.Agent.PanelMigration

namespace ForwardX.Agent.PanelMigration

open List

open Run (run Admissible run_invariant_of_admissible)
open GoText.Text (trimSpace)

section

variable {parse : String → Option URL}

/-! ## What a fallback is to be -/

/-- The URL belongs to the migration, and the failures were recorded in it. -/
structure Fallback.Sound (f : Fallback) (named : List (String × String)) : Prop where
  named : (f.migration, f.url) ∈ named
  some : f.failures ≠ []
  own : ∀ id ∈ f.failures, id = f.migration

/-- What a step must find: for a directive that starts a migration without a fallback, no fallback of
another migration in the runtime; for a switch that was decided on, its migration if any; for a redirect
without an id while no migration is active, the terminal id in the runtime if there is one. -/
def Steady (parse : String → Option URL) (w : World) : Event → Prop
  | .directive _ d => d.starts = true → normalizePanelURL parse d.fallbackPanelURL = "" →
      w.process.runtime.fallback = "" ∨ w.process.runtime.id = d.trimmedID
  | .proceed _ i =>
    (∀ id failures, w.jobs[i]? = some (.fallback (some (id, failures))) → w.process.runtime.active = true →
      w.process.runtime.id = id) ∧
    ∀ target migrationID, w.jobs[i]? = some (.commit target migrationID) → trimSpace migrationID = "" →
      w.process.runtime.active = true ∨ w.process.runtime.terminalID = "" ∨
        w.process.runtime.id = w.process.runtime.terminalID
  | _ => True

/-! ## What belongs to a migration -/

def Belongs (named : List (String × String)) (id fallback : String) : Prop :=
  id ≠ "" → fallback ≠ "" → (id, fallback) ∈ named

/-- What a restart would take from the file belongs together. -/
def BelongsFile (parse : String → Option URL) (named : List (String × String)) (config : Config) : Prop :=
  Belongs named (trimSpace config.panelMigrationID) (normalizePanelURL parse config.migrationFallbackPanelURL)

variable {named : List (String × String)} {config : Config}

theorem Belongs.mono {id fallback : String} (h : Belongs named id fallback) (more : List (String × String)) :
    Belongs (named ++ more) id fallback :=
  fun hid hfallback => mem_append_left more (h hid hfallback)

theorem Fallback.Sound.mono {f : Fallback} (h : f.Sound named) (more : List (String × String)) :
    f.Sound (named ++ more) :=
  ⟨mem_append_left more h.named, h.some, h.own⟩

theorem BelongsFile.write {write : Write} {next : Config} (h : BelongsFile parse named config)
    (hnext : BelongsFile parse named next) : BelongsFile parse named (writePanelConfigAtomic write config next).1 := by
  cases write with
  | written => exact hnext
  | failed => exact h
  | unsynced => exact hnext

section

variable (h : BelongsFile parse named config) (write : Write)

include h write

theorem BelongsFile.clear (panelURL : String) :
    BelongsFile parse named (persistPanelMigrationConfig parse write config panelURL none).1 := by
  have hnil : trimSpace "" = "" := by decide
  unfold persistPanelMigrationConfig
  exact h.write fun hid => absurd hnil hid

theorem BelongsFile.persist (panelURL : String) {id fallback : String} (startedAt : ℤ) (hid : trimSpace id = id)
    (hfallback : normalizePanelURL parse fallback = fallback) (hnew : Belongs named id fallback) :
    BelongsFile parse named
      (persistPanelMigrationConfig parse write config panelURL (some (fallback, id, startedAt))).1 := by
  unfold persistPanelMigrationConfig
  refine h.write ?_
  unfold BelongsFile
  dsimp only
  rw [hid, hfallback, hid, hfallback]
  exact hnew

theorem BelongsFile.panelURL (normalized : String) :
    BelongsFile parse named (persistPanelURL write config normalized).1 := by
  unfold persistPanelURL
  split
  · exact h
  · exact h.write h

end

/-! ## The invariant -/

structure Kept (parse : String → Option URL) (w : World) : Prop where
  normal : Normal parse w.process
  runtime : Belongs w.named w.process.runtime.id w.process.runtime.fallback
  config : BelongsFile parse w.named w.process.config
  length : w.failedFor.length = w.process.runtime.failures
  counted : ∀ id ∈ w.failedFor, id = w.process.runtime.id
  decided : ∀ id failures, Job.fallback (some (id, failures)) ∈ w.jobs →
    failures ≠ [] ∧ ∀ x ∈ failures, x = id
  sound : ∀ f ∈ w.fallbacks, f.Sound w.named
  terminal : w.terminal ≠ "" → w.terminal = w.process.runtime.terminalID

variable {w : World}

theorem Kept.spawn (h : Kept parse w) {job : Job} (hjob : ∀ id failures, job = .fallback (some (id, failures)) →
    failures ≠ [] ∧ ∀ x ∈ failures, x = id) : Kept parse { w with jobs := w.jobs ++ [job] } where
  normal := h.normal
  runtime := h.runtime
  config := h.config
  length := h.length
  counted := h.counted
  decided := by
    intro id failures hmem
    obtain hold | hnew := mem_append.mp hmem
    · exact h.decided id failures hold
    · exact hjob id failures (mem_singleton.mp hnew).symm
  sound := h.sound
  terminal := h.terminal

theorem Kept.goesOn (h : Kept parse w) (i : ℕ) {job : Job}
    (hjob : ∀ id failures, job ≠ .fallback (some (id, failures))) :
    Kept parse { w with jobs := w.jobs.set i job } where
  normal := h.normal
  runtime := h.runtime
  config := h.config
  length := h.length
  counted := h.counted
  decided := by
    intro id failures hmem
    obtain hold | hnew := mem_or_eq_of_mem_set hmem
    · exact h.decided id failures hold
    · exact absurd hnew.symm (hjob id failures)
  sound := h.sound
  terminal := h.terminal

theorem Kept.ended (h : Kept parse w) (ends : String) {io : Io} {target terminalID : String} {after : Process × Exit}
    (hends : Ends parse io w.process target terminalID after)
    (hterminal : ends ≠ "" → ends = terminalID) : Kept parse (w.ended after ends) := by
  have hnormal := h.normal.ends hends
  cases hends with
  | unsaved => exact ⟨hnormal, h.runtime, h.config.clear _ _, h.length, h.counted, h.decided, h.sound, h.terminal⟩
  | unswitched saved hsaved hurl =>
    have hfile : BelongsFile parse w.named saved := by
      have hclear := h.config.clear io.first target
      rw [hsaved] at hclear
      exact hclear
    exact ⟨hnormal, h.runtime, hfile.persist _ _ _ h.normal.id h.normal.fallback h.runtime, h.length, h.counted,
      h.decided, h.sound, h.terminal⟩
  | finished url exit hfinished hurl =>
    unfold World.ended
    dsimp only
    rw [if_pos hfinished, if_pos hfinished]
    exact ⟨hnormal, h.runtime, h.config.clear _ _, rfl, fun _ hmem => (by cases hmem), h.decided, h.sound,
      hterminal⟩

theorem Kept.ended_ignored (h : Kept parse w) (ends : String) :
    Kept parse (w.ended (w.process, .ignored) ends) :=
  ⟨h.normal, h.runtime, h.config, h.length, h.counted, h.decided, h.sound, h.terminal⟩

/-! ## One step -/

variable {d : PanelMigrationDirective}

theorem Kept.names (h : Kept parse w) {io : Io} (hstarts : d.starts = true)
    (hok : Steady parse w (.directive io d)) :
    Belongs (w.named ++ w.names parse d) d.trimmedID (w.process.fallbackOf parse d) := by
  intro hid hne
  obtain ⟨heq, hnamed⟩ | ⟨hnone, heq⟩ | ⟨-, hempty, heq⟩ := fallbackOf_cases parse w.process d
  · refine mem_append_right _ ?_
    unfold World.names
    dsimp only
    rw [if_pos hnamed, heq]
    exact mem_cons_self
  · rw [heq] at hne ⊢
    have hsame := (hok hstarts hnone).resolve_left hne
    rw [← hsame] at hid ⊢
    exact mem_append_left _ (h.runtime hid hne)
  · have hidle : ¬ (w.process.runtime.active = true ∧ w.process.runtime.id = d.trimmedID) := fun hrunning =>
      (h.normal.active hrunning.1).2 hempty
    refine mem_append_right _ ?_
    unfold World.names
    dsimp only
    rw [if_neg hidle, heq]
    exact mem_append_right _ mem_cons_self

theorem Kept.prepare (hparse : Canonical parse) (h : Kept parse w) {io : Io}
    (hurl : w.process.runtimePanelURL ≠ "") (hstarts : d.starts = true) (hok : Steady parse w (.directive io d)) :
    Kept parse (w.prepare parse io d) := by
  have hid : d.trimmedID ≠ "" := (of_decide_eq_true hstarts).1
  have hnames := h.names hstarts hok
  have htrim : trimSpace d.trimmedID = d.trimmedID := GoText.Text.trimSpace_trimSpace d.id
  have hfallback := normalizePanelURL_fallbackOf (d := d) hparse h.normal hurl
  have hnormal := h.normal.prepare hparse io hurl hid
  have hold : BelongsFile parse (w.named ++ w.names parse d) w.process.config := h.config.mono _
  have hsound : ∀ f ∈ w.fallbacks, f.Sound (w.named ++ w.names parse d) := fun f hmem => (h.sound f hmem).mono _
  unfold World.prepare
  dsimp only
  obtain heq | ⟨hterminal, hne, ⟨config, heq, hconfig⟩ | ⟨config, saved, heq, -, -, hsaved, hconfig⟩ |
    ⟨config, url, connected, exit, heq, hfinished, -, hconfig⟩⟩ :=
      prepare_cases io d hparse h.normal
  · rw [heq, if_pos rfl]
    exact h
  · rw [heq] at hnormal ⊢
    rw [if_neg Exit.noConfusion]
    have hfile : BelongsFile parse (w.named ++ w.names parse d) config :=
      hconfig ▸ hold.persist _ _ _ htrim hfallback hnames
    exact ⟨hnormal, h.runtime.mono _, hfile, h.length, h.counted, h.decided, hsound, h.terminal⟩
  · rw [heq] at hnormal ⊢
    rw [if_neg Exit.noConfusion]
    have hfirst := hold.persist io.first (w.process.targetOf parse d) (w.process.startedAtOf d) htrim hfallback hnames
    rw [← hsaved] at hfirst
    have hfile : BelongsFile parse (w.named ++ w.names parse d) config :=
      hconfig ▸ hfirst.persist _ _ _ htrim hfallback hnames
    exact ⟨hnormal, h.runtime.mono _, hfile, h.length, h.counted, h.decided, hsound, h.terminal⟩
  · rw [heq] at hnormal ⊢
    have hignored : exit ≠ .ignored := by
      rintro rfl
      cases hfinished
    have hfile : BelongsFile parse (w.named ++ w.names parse d) config := by
      obtain ⟨hsame, -⟩ | hwritten := hconfig
      · exact hsame ▸ hold
      · exact hwritten ▸ hold.persist _ _ _ htrim hfallback hnames
    rw [if_neg hignored]
    dsimp only
    rw [if_pos hfinished]
    refine ⟨hnormal, hnames, hfile, rfl, fun _ hmem => (by cases hmem), h.decided, hsound, ?_⟩
    dsimp only
    split
    · exact fun hnil => absurd rfl hnil
    · exact h.terminal

theorem Kept.heartbeatFailed (h : Kept parse w) : Kept parse w.heartbeatFailed := by
  have hnormal := h.normal.heartbeatFailed
  unfold World.heartbeatFailed at hnormal ⊢
  dsimp only at hnormal ⊢
  split
  · exact h
  · rename_i hactive
    rw [if_neg hactive] at hnormal
    have hcounted : ∀ id ∈ w.failedFor ++ [w.process.runtime.id], id = w.process.runtime.id := by
      intro id hmem
      obtain hold | hnew := mem_append.mp hmem
      · exact h.counted id hold
      · exact mem_singleton.mp hnew
    have hkept : Kept parse { w with
        process := { w.process with
          runtime := { w.process.runtime with failures := w.process.runtime.failures + 1 } }
        failedFor := w.failedFor ++ [w.process.runtime.id] } := by
      refine ⟨?_, h.runtime, h.config, ?_, hcounted, h.decided, h.sound, h.terminal⟩
      · exact ⟨h.normal.url, h.normal.id, h.normal.fallback, h.normal.started, h.normal.past, h.normal.active⟩
      · rw [length_append, h.length]
        rfl
    split
    · exact hkept
    · split
      · exact hkept
      · refine hkept.spawn fun id failures hjob => ?_
        obtain ⟨rfl, rfl⟩ := Prod.mk.inj (Option.some.inj (Job.fallback.inj hjob))
        exact ⟨append_ne_nil_of_right_ne_nil _ (cons_ne_nil _ _), hcounted⟩

theorem Kept.stream (h : Kept parse w) (connected : Bool) : Kept parse (w.stream connected) := by
  have hnormal := h.normal.stream connected
  unfold World.stream at hnormal ⊢
  dsimp only at hnormal ⊢
  split
  · rename_i hconnected
    rw [if_pos hconnected] at hnormal
    exact ⟨hnormal, h.runtime, h.config, rfl, fun _ hmem => (by cases hmem), h.decided, h.sound, h.terminal⟩
  · rename_i hconnected
    rw [if_neg hconnected] at hnormal
    exact ⟨hnormal, h.runtime, h.config, h.length, h.counted, h.decided, h.sound, h.terminal⟩

section

variable (hparse : Canonical parse) (h : Kept parse w)

include hparse h

theorem Kept.syncPanelURLFromResponse (io : Io) (url : String) :
    Kept parse { w with process := w.process.syncPanelURLFromResponse parse io url } := by
  have hnormal := h.normal.syncPanelURLFromResponse hparse io url
  obtain ⟨config, url', heq, hfile⟩ : ∃ config url', w.process.syncPanelURLFromResponse parse io url =
      { w.process with config := config, runtimePanelURL := url' } ∧ BelongsFile parse w.named config := by
    have hfirst := h.config.panelURL io.first (normalizePanelURL parse url)
    unfold Process.syncPanelURLFromResponse
    dsimp only
    split
    · exact ⟨_, _, rfl, h.config⟩
    · split
      · split
        · exact ⟨_, _, rfl, hfirst⟩
        · exact ⟨_, _, rfl, h.config⟩
      · split
        · exact ⟨_, _, rfl, hfirst⟩
        · split
          · refine ⟨_, _, rfl, ?_⟩
            split
            · exact hfirst
            · exact hfirst.panelURL _ _
          · exact ⟨_, _, rfl, hfirst⟩
  rw [heq] at hnormal ⊢
  exact ⟨hnormal, h.runtime, hfile, h.length, h.counted, h.decided, h.sound, h.terminal⟩

theorem Kept.directive {io : Io}
    (hurl : w.process.runtimePanelURL ≠ "") (hok : Steady parse w (.directive io d)) :
    Kept parse (w.directive parse io d) := by
  unfold World.directive
  dsimp only
  split
  · exact h
  · rename_i hparts
    split
    · rename_i hstate
      exact h.prepare hparse hurl (decide_eq_true ⟨(not_or.mp hparts).1, hstate⟩) hok
    · split
      · split
        · exact h.spawn fun id failures hjob => by cases hjob
        · exact h.spawn fun id failures hjob => by cases hjob
      · split
        · exact h.spawn fun id failures hjob => by cases hjob
        · exact h

theorem Kept.fallback {io : Io} {i : ℕ}
    {decision : Option (String × List String)} (hjob : w.jobs[i]? = some (.fallback decision))
    (hok : Steady parse w (.proceed io i)) : Kept parse (w.proceed parse io i) := by
  unfold World.proceed
  rw [hjob]
  dsimp only
  have hdone : ∀ id failures, Job.done ≠ .fallback (some (id, failures)) := fun _ _ => Job.noConfusion
  cases hactive : w.process.runtime.active with
  | false =>
    rw [fallback_ignored hactive]
    have hkept := (h.ended_ignored w.process.runtime.id).goesOn i hdone
    cases decision with
    | none => exact hkept
    | some decision => exact hkept
  | true =>
    have hends := ends_fallback hparse h.normal io hactive
    have hkept := (h.ended w.process.runtime.id hends fun _ => rfl).goesOn i hdone
    cases decision with
    | none => exact hkept
    | some decision =>
      obtain ⟨id, failures⟩ := decision
      dsimp only
      split
      · obtain ⟨hne, hown⟩ := h.decided id failures (mem_of_getElem? hjob)
        have hid := hok.1 id failures hjob hactive
        obtain ⟨hidNe, hfallbackNe⟩ := h.normal.active hactive
        refine ⟨hkept.normal, hkept.runtime, hkept.config, hkept.length, hkept.counted, hkept.decided, ?_,
          hkept.terminal⟩
        intro f hmem
        obtain hold | hnew := mem_append.mp hmem
        · exact h.sound f hold
        · rw [mem_singleton.mp hnew]
          exact ⟨h.runtime hidNe hfallbackNe, hne, fun x hx => (hown x hx).trans hid.symm⟩
      · exact hkept

theorem Kept.proceed {io : Io} {i : ℕ}
    (hok : Steady parse w (.proceed io i)) : Kept parse (w.proceed parse io i) := by
  cases hjob : w.jobs[i]? with
  | none =>
    unfold World.proceed
    rw [hjob]
    exact h
  | some job =>
    cases job with
    | fallback decision => exact h.fallback hparse hjob hok
    | committed panelURL migrationID =>
      unfold World.proceed
      rw [hjob]
      dsimp only
      split
      · exact h.goesOn i fun _ _ => Job.noConfusion
      · exact h.goesOn i fun _ _ => Job.noConfusion
    | commit target migrationID =>
      unfold World.proceed
      rw [hjob]
      dsimp only
      refine (h.ended _ (ends_committed hparse h.normal migrationID) ?_).goesOn i fun _ _ => Job.noConfusion
      by_cases hid : trimSpace migrationID ≠ ""
      · rw [if_pos hid, if_pos hid]
        exact fun _ => rfl
      · rw [if_neg hid, if_neg hid]
        cases hactive : w.process.runtime.active with
        | true => exact fun _ => rfl
        | false =>
          intro hterminal
          have hsame := h.terminal hterminal
          obtain hrunning | hnone | hown := hok.2 target migrationID hjob (not_not.mp hid)
          · exact absurd (hrunning.symm.trans hactive) Bool.noConfusion
          · exact absurd (hsame.trans hnone) hterminal
          · exact hsame.trans hown.symm
    | matching id =>
      unfold World.proceed
      rw [hjob]
      refine h.goesOn i fun _ _ => ?_
      split <;> exact Job.noConfusion
    | clear =>
      unfold World.proceed
      rw [hjob]
      dsimp only
      cases hactive : w.process.runtime.active with
      | false =>
        rw [clear_ignored hactive]
        exact (h.ended_ignored _).goesOn i fun _ _ => Job.noConfusion
      | true => exact (h.ended _ (ends_clear h.normal hactive) fun _ => rfl).goesOn i fun _ _ => Job.noConfusion
    | done =>
      unfold World.proceed
      rw [hjob]
      exact h

end

theorem kept_start (hparse : Canonical parse) {config : Config} {now : ℕ} {fallbacks : List Fallback}
    (hfile : BelongsFile parse named config) (hsound : ∀ f ∈ fallbacks, f.Sound named) :
    Kept parse { process := Process.start parse config now, jobs := [], named := named, failedFor := []
                 fallbacks := fallbacks, terminal := "" } where
  normal := initialize_normal hparse config now
  runtime := hfile
  config := hfile
  length := rfl
  counted := fun _ hmem => by cases hmem
  decided := fun _ _ hmem => by cases hmem
  sound := hsound
  terminal := fun hnil => absurd rfl hnil

theorem Kept.step (hparse : Canonical parse) (e : Event) (hok : Steady parse w e) (h : Kept parse w) :
    Kept parse (w.step parse e) := by
  cases e with
  | tick elapsed =>
    exact ⟨h.normal.step hparse (.tick elapsed), h.runtime, h.config, h.length, h.counted, h.decided, h.sound,
      h.terminal⟩
  | restart => exact kept_start hparse h.config h.sound
  | heartbeatFailed => exact h.heartbeatFailed
  | heartbeatSucceeded =>
    exact ⟨h.normal.step hparse .heartbeatSucceeded, h.runtime, h.config, rfl, fun _ hmem => (by cases hmem),
      h.decided, h.sound, h.terminal⟩
  | stream connected => exact h.stream connected
  | directive io d =>
    unfold World.step
    dsimp only
    split
    · exact h
    · rename_i hurl
      exact h.directive hparse hurl hok
  | redirected panelURL migrationID =>
    unfold World.step
    dsimp only
    split
    · exact h
    · exact h.spawn fun _ _ hjob => by cases hjob
  | panelURL io url =>
    unfold World.step
    dsimp only
    split
    · exact h
    · exact h.syncPanelURLFromResponse hparse io url
  | proceed io job => exact h.proceed hparse hok

/-! ## Runs -/

theorem Kept.terminal_directive (h : Kept parse w) (io : Io) (hstarts : d.starts = true)
    (hterminal : w.terminal = d.trimmedID) : w.step parse (.directive io d) = w := by
  obtain ⟨hid, hstate⟩ : d.trimmedID ≠ "" ∧ (d.lowerState = "preparing" ∨ d.lowerState = "committing") :=
    of_decide_eq_true hstarts
  have hsame : w.process.runtime.terminalID = d.trimmedID := by
    rw [← h.terminal (hterminal ▸ hid), hterminal]
  have hparts : ¬ (d.trimmedID = "" ∨ d.lowerState = "") := by
    rintro (hnil | hnil)
    · exact hid hnil
    · rw [hnil] at hstate
      exact absurd hstate (by decide)
  have hignored : w.process.prepare parse io d = (w.process, .ignored) := if_pos hsame
  unfold World.step
  dsimp only
  split
  · rfl
  · unfold World.directive
    dsimp only
    rw [if_neg hparts, if_pos hstate]
    unfold World.prepare
    dsimp only
    rw [hignored, if_pos rfl]

/-- In every run whose steps find what they must, each fallback for heartbeat failures is one of its own
migration, and a terminal migration is not taken up again until another one has started. -/
theorem fallbacks_sound (hparse : Canonical parse) (config : Config) (now : ℕ) (events : List Event)
    (hok : Admissible (Steady parse) (World.step parse) (World.start parse config now) events) :
    (∀ f ∈ (run (World.step parse) (World.start parse config now) events).fallbacks,
      f.Sound (run (World.step parse) (World.start parse config now) events).named) ∧
    ∀ (io : Io) (d : PanelMigrationDirective), d.starts = true →
      (run (World.step parse) (World.start parse config now) events).terminal = d.trimmedID →
      ((run (World.step parse) (World.start parse config now) events).step parse (.directive io d)).process.current =
        (run (World.step parse) (World.start parse config now) events).process.current := by
  have hstart : Kept parse (World.start parse config now) :=
    kept_start hparse (fun _ _ => List.mem_cons_self) fun f hmem => by cases hmem
  have hkept := run_invariant_of_admissible (fun _ e hsteady hw => Kept.step hparse e hsteady hw) events _ hok hstart
  refine ⟨hkept.sound, fun io d hstarts hterminal => ?_⟩
  rw [hkept.terminal_directive io hstarts hterminal]

end

/-! ## Two migrations -/

def fallenBack : List Event := [prepared, .heartbeatFailed, .heartbeatFailed, .proceed writable 0]

theorem fallenBack_steady :
    Admissible (Steady panels) (World.step panels) (World.start panels oldPanel 5000000000) fallenBack := by
  have hjob : (run (World.step panels) (World.start panels oldPanel 5000000000)
      [prepared, .heartbeatFailed, .heartbeatFailed]).jobs[0]? = some (.fallback (some ("a", ["a", "a"]))) := by
    decide +kernel
  refine ⟨fun _ _ => .inl (by decide +kernel), trivial, trivial, ⟨?_, ?_⟩, trivial⟩
  · intro id failures hdecided _
    cases hjob.symm.trans hdecided
    decide +kernel
  · intro target migrationID hcommit
    cases hjob.symm.trans hcommit

theorem fallbacks_sound_first :
    (∀ f ∈ (run (World.step panels) (World.start panels oldPanel 5000000000) fallenBack).fallbacks,
      f.Sound (run (World.step panels) (World.start panels oldPanel 5000000000) fallenBack).named) ∧
    ∀ (io : Io) (d : PanelMigrationDirective), d.starts = true →
      (run (World.step panels) (World.start panels oldPanel 5000000000) fallenBack).terminal = d.trimmedID →
      ((run (World.step panels) (World.start panels oldPanel 5000000000) fallenBack).step panels
          (.directive io d)).process.current =
        (run (World.step panels) (World.start panels oldPanel 5000000000) fallenBack).process.current :=
  fallbacks_sound panels_canonical oldPanel 5000000000 fallenBack fallenBack_steady

/-- A second migration, whose directive names no fallback, fails on the third panel. -/
def staleFallback : List Event :=
  prepared :: committed ++
    [.directive writable
      { id := "b", state := "preparing", targetPanelURL := "https://third", fallbackPanelURL := "", startedAt := 2 },
      .heartbeatFailed, .heartbeatFailed, .proceed writable 1]

/-- The agent goes back to the panel the first migration has left. -/
theorem second_migration_falls_back_to_old : ¬ ∀ (parse : String → Option URL), Canonical parse →
    ∀ (config : Config) (now : ℕ) (events : List Event),
      (∀ f ∈ (run (World.step parse) (World.start parse config now) events).fallbacks,
        f.Sound (run (World.step parse) (World.start parse config now) events).named) ∧
      ∀ (io : Io) (d : PanelMigrationDirective), d.starts = true →
        (run (World.step parse) (World.start parse config now) events).terminal = d.trimmedID →
        ((run (World.step parse) (World.start parse config now) events).step parse (.directive io d)).process.current =
          (run (World.step parse) (World.start parse config now) events).process.current := by
  intro h
  have hlogged : ⟨"b", "https://old", ["b", "b"]⟩ ∈
      (run (World.step panels) (World.start panels oldPanel 5000000000) staleFallback).fallbacks := by
    decide +kernel
  have hsound := (h panels panels_canonical oldPanel 5000000000 staleFallback).1 _ hlogged
  have hnamed := hsound.named
  revert hnamed
  decide +kernel

end ForwardX.Agent.PanelMigration
