/-
The agent's side of a panel migration: `agent/panel_migration.go`.

The migration is kept twice, in the config file and in `panelMigrationRuntime`.
-/
import ForwardX.Lib.GoText
import ForwardX.Lib.Run
import Mathlib.Algebra.Order.Group.Int

namespace ForwardX.Agent.PanelMigration

open Run (run)
open GoText.Text (trimSpace)

/-! ## Panel URLs -/

/-- What is read of a `url.URL`; the text is that of `String` without the query and the fragment. -/
structure URL where
  scheme : String
  host : String
  text : String
deriving DecidableEq

/-- `strings.TrimRight(text, "/")`. -/
def trimRight (text : String) : String := String.ofList (text.toList.rdropWhile (· == '/'))

def normalizePanelURL (parse : String → Option URL) (raw : String) : String :=
  let value := trimSpace raw
  if value = "" then ""
  else
    match parse value with
    | none => ""
    | some parsed =>
      if parsed.scheme = "" ∨ parsed.host = "" then ""
      else if parsed.scheme ≠ "http" ∧ parsed.scheme ≠ "https" then ""
      else trimRight parsed.text

/-- What `String` prints of a web URL is parsed as that URL again, also without slashes at its end. -/
def Canonical (parse : String → Option URL) : Prop :=
  ∀ raw parsed, parse raw = some parsed → (parsed.scheme = "http" ∨ parsed.scheme = "https") →
    parsed.host ≠ "" →
      trimSpace (trimRight parsed.text) = trimRight parsed.text ∧ trimRight parsed.text ≠ "" ∧ ∃ again, parse (trimRight parsed.text) = some again ∧ again.scheme = parsed.scheme ∧ again.host ≠ "" ∧
        trimRight again.text = trimRight parsed.text

/-! ## Times -/

def unixTime (seconds : ℤ) : ℤ := seconds * 1000000000

def unix (time : ℤ) : ℤ := time / 1000000000

def zeroTime : ℤ := unixTime (-62135596800)

/-! ## The state -/

/-- The fields of the config file; a missing one is read as its zero value. -/
structure Config where
  panelURL : String
  migrationFallbackPanelURL : String
  panelMigrationID : String
  panelMigrationStartedAt : ℤ
deriving DecidableEq

structure Runtime where
  active : Bool
  id : String
  fallback : String
  startedAt : ℤ
  failures : ℕ
  terminalID : String
  streamConnected : Bool

structure Process where
  /-- `cfg.PanelURL`, as the process was started with it. -/
  cfgPanelURL : String
  config : Config
  runtimePanelURL : String
  runtime : Runtime
  now : ℕ

/-- How a write of the config file ends. The new file may be in place when the write is reported as
failed, since the directory is synced last. -/
inductive Write where
  | written
  | failed
  | unsynced
deriving DecidableEq

structure Io where
  /-- The write before a change of the URL. -/
  first : Write
  /-- The write after a change that failed. -/
  second : Write
  /-- `managedServicesPanelURLPrepareHook`. -/
  prepareHook : Bool
  /-- `managedServicesPanelURLStableHook`. -/
  stableHook : Bool
  /-- `managedServicesDurableHoldPresentHook`. -/
  held : Bool

structure PanelMigrationDirective where
  id : String
  state : String
  targetPanelURL : String
  fallbackPanelURL : String
  startedAt : ℤ

inductive Exit where
  | ignored
  /-- The first write has failed. -/
  | unsaved
  /-- The change of the runtime URL has failed. -/
  | unswitched
  /-- Done, and the URL was the right one. -/
  | kept
  | switched
deriving DecidableEq

def Exit.finished : Exit → Bool
  | .kept => true
  | .switched => true
  | _ => false

def panelMigrationFallbackFailures : ℕ := 2

def panelMigrationFallbackDeadline : ℤ := 180000000000

section

variable (parse : String → Option URL)

def initializePanelMigration (config : Config) (now : ℕ) : Runtime :=
  let id := trimSpace config.panelMigrationID
  let fallback := normalizePanelURL parse config.migrationFallbackPanelURL
  let startedAt := unixTime config.panelMigrationStartedAt
  { active := id ≠ "" ∧ fallback ≠ ""
    id := id
    fallback := fallback
    startedAt := if startedAt = zeroTime ∨ (now : ℤ) < startedAt then now else startedAt
    failures := 0
    terminalID := ""
    streamConnected := false }

def Process.start (config : Config) (now : ℕ) : Process where
  cfgPanelURL := trimRight config.panelURL
  config := config
  runtimePanelURL := normalizePanelURL parse (trimRight config.panelURL)
  runtime := initializePanelMigration parse config now
  now := now

def Process.current (s : Process) : String :=
  if s.runtimePanelURL ≠ "" then s.runtimePanelURL else trimRight s.cfgPanelURL

def setRuntimePanelURLLocked (io : Io) (runtimePanelURL panelURL : String) : String × Bool :=
  let normalized := normalizePanelURL parse panelURL
  if normalized = "" then (runtimePanelURL, false)
  else
    let previous := normalizePanelURL parse runtimePanelURL
    if previous = normalized then (runtimePanelURL, true)
    else if previous ≠ "" ∧ io.prepareHook = false then (runtimePanelURL, false)
    else if previous ≠ "" ∧ io.stableHook = false then (previous, false)
    else (normalized, true)

/-- A write that puts `next` in place. -/
def writePanelConfigAtomic (write : Write) (config next : Config) : Config × Bool :=
  match write with
  | .written => (next, true)
  | .failed => (config, false)
  | .unsynced => (next, false)

/-- `persistPanelMigrationConfig`, with `clear` or with a migration. -/
def persistPanelMigrationConfig (write : Write) (config : Config) (panelURL : String)
    (migration : Option (String × String × ℤ)) : Config × Bool :=
  let normalized := normalizePanelURL parse panelURL
  let panelURL := if normalized ≠ "" then normalized else config.panelURL
  match migration with
  | none => writePanelConfigAtomic write config ⟨panelURL, "", "", 0⟩
  | some (fallback, migrationID, startedAt) =>
    writePanelConfigAtomic write config
      ⟨panelURL, normalizePanelURL parse fallback, trimSpace migrationID, unix startedAt⟩

/-- `strings.ToLower`, as far as it can give an ASCII text. -/
def toLower (text : String) : String :=
  text.map fun c => if c = 'İ' then 'i' else if c = '\u212A' then 'k' else c.toLower

def PanelMigrationDirective.trimmedID (d : PanelMigrationDirective) : String := trimSpace d.id

def PanelMigrationDirective.lowerState (d : PanelMigrationDirective) : String := toLower (trimSpace d.state)

def PanelMigrationDirective.starts (d : PanelMigrationDirective) : Bool :=
  d.trimmedID ≠ "" ∧ (d.lowerState = "preparing" ∨ d.lowerState = "committing")

/-! ### A directive that starts a migration -/

def Process.targetOf (s : Process) (d : PanelMigrationDirective) : String :=
  let target := normalizePanelURL parse d.targetPanelURL
  if target = "" then s.current else target

def Process.fallbackOf (s : Process) (d : PanelMigrationDirective) : String :=
  let fallback := normalizePanelURL parse d.fallbackPanelURL
  let fallback := if fallback = "" then s.runtime.fallback else fallback
  if fallback = "" ∧ s.targetOf parse d ≠ s.current then s.current else fallback

def Process.startedAtOf (s : Process) (d : PanelMigrationDirective) : ℤ :=
  let startedAt := unixTime d.startedAt
  if d.startedAt ≤ 0 ∨ (s.now : ℤ) < startedAt then
    if s.runtime.id = d.trimmedID ∧ s.runtime.startedAt ≠ zeroTime then s.runtime.startedAt else s.now
  else startedAt

def Process.alreadyActive (s : Process) (d : PanelMigrationDirective) : Bool :=
  s.runtime.active && s.runtime.id == d.trimmedID && s.runtime.fallback == s.fallbackOf parse d &&
    s.current == s.targetOf parse d

/-- `handlePanelMigrationDirective` for the states `preparing` and `committing`. -/
def Process.prepare (io : Io) (s : Process) (d : PanelMigrationDirective) : Process × Exit :=
  let id := d.trimmedID
  let target := s.targetOf parse d
  let fallback := s.fallbackOf parse d
  let startedAt := s.startedAtOf d
  if s.runtime.terminalID = id then (s, .ignored)
  else if fallback = "" then (s, .ignored)
  else
    let saved := if s.alreadyActive parse d then (s.config, true)
      else persistPanelMigrationConfig parse io.first s.config target (some (fallback, id, startedAt))
    if saved.2 = false then ({ s with config := saved.1 }, .unsaved)
    else
      let set := if s.current ≠ target then setRuntimePanelURLLocked parse io s.runtimePanelURL target
        else (s.runtimePanelURL, true)
      if set.2 = false then
        let back := if s.alreadyActive parse d then saved
          else persistPanelMigrationConfig parse io.second saved.1 s.current (some (fallback, id, startedAt))
        ({ s with config := back.1, runtimePanelURL := set.1 }, .unswitched)
      else
        ({ s with
            config := saved.1
            runtimePanelURL := set.1
            runtime := { s.runtime with
              active := true
              id := id
              fallback := fallback
              startedAt := startedAt
              failures := 0
              streamConnected := if s.current ≠ target then false else s.runtime.streamConnected } },
          if s.current ≠ target then .switched else .kept)

/-! ### The switches that end a migration -/

/-- The end of the migration in the runtime. Its id, fallback and start stay. -/
def Runtime.finish (r : Runtime) (terminalID : String) : Runtime :=
  { r with terminalID := terminalID, active := false, failures := 0, streamConnected := false }

/-- The change of the URL after the file was written without a migration, and the second write when it
fails. -/
def Process.switchSaved (io : Io) (s : Process) (saved : Config) (target terminalID : String) : Process × Exit :=
  let set := setRuntimePanelURLLocked parse io s.runtimePanelURL target
  if set.2 = false then
    let back := persistPanelMigrationConfig parse io.second saved s.current
      (some (s.runtime.fallback, s.runtime.id, s.runtime.startedAt))
    ({ s with config := back.1, runtimePanelURL := set.1 }, .unswitched)
  else
    ({ s with config := saved, runtimePanelURL := set.1, runtime := s.runtime.finish terminalID }, .switched)

def Process.switchToPanelMigrationFallback (io : Io) (s : Process) : Process × Exit :=
  if s.runtime.active = false then (s, .ignored)
  else if s.runtime.fallback = "" then (s, .ignored)
  else
    let saved := persistPanelMigrationConfig parse io.first s.config s.runtime.fallback none
    if saved.2 = false then ({ s with config := saved.1 }, .unsaved)
    else if s.runtime.fallback ≠ s.current then s.switchSaved parse io saved.1 s.runtime.fallback s.runtime.id
    else ({ s with config := saved.1, runtime := s.runtime.finish s.runtime.id }, .kept)

def Process.switchToCommittedPanelLocked (io : Io) (s : Process) (target migrationID : String) : Process × Exit :=
  let saved := persistPanelMigrationConfig parse io.first s.config target none
  if saved.2 = false then ({ s with config := saved.1 }, .unsaved)
  else
    s.switchSaved parse io saved.1 target
      (if trimSpace migrationID ≠ "" then trimSpace migrationID else s.runtime.id)

def Process.switchToCommittedPanel (io : Io) (s : Process) (panelURL migrationID : String) : Process × Exit :=
  let target := normalizePanelURL parse panelURL
  if target = "" ∨ target = s.current then (s, .ignored)
  else s.switchToCommittedPanelLocked parse io target migrationID

def Process.clearPanelMigrationFallback (io : Io) (s : Process) : Process × Exit :=
  if s.runtime.active = false then (s, .ignored)
  else
    let saved := persistPanelMigrationConfig parse io.first s.config s.current none
    if saved.2 = false then ({ s with config := saved.1 }, .unsaved)
    else ({ s with config := saved.1, runtime := s.runtime.finish s.runtime.id }, .kept)

/-- `handlePanelMigrationDirective`, when nothing comes in between. -/
def Process.handlePanelMigrationDirective (io : Io) (s : Process) (d : PanelMigrationDirective) : Process × Exit :=
  if d.trimmedID = "" ∨ d.lowerState = "" then (s, .ignored)
  else if d.lowerState = "preparing" ∨ d.lowerState = "committing" then s.prepare parse io d
  else
    let target := normalizePanelURL parse d.targetPanelURL
    if d.lowerState = "committed" ∧ target ≠ "" ∧ target ≠ s.current then
      s.switchToCommittedPanel parse io target d.trimmedID
    else if ¬ (s.runtime.active = true ∧ s.runtime.id = d.trimmedID) then (s, .ignored)
    else if d.lowerState = "aborted" then s.switchToPanelMigrationFallback parse io
    else if d.lowerState = "committed" then s.clearPanelMigrationFallback parse io
    else (s, .ignored)

/-! ### Other changes of the URL -/

def persistPanelURL (write : Write) (config : Config) (normalized : String) : Config × Bool :=
  if trimRight config.panelURL = normalized then (config, write = .written)
  else writePanelConfigAtomic write config { config with panelURL := normalized }

def Process.syncPanelURLFromResponse (io : Io) (s : Process) (panelURL : String) : Process :=
  let normalized := normalizePanelURL parse panelURL
  if normalized = "" then s
  else if s.runtimePanelURL = normalized then
    if io.held then { s with config := (persistPanelURL io.first s.config normalized).1 } else s
  else
    let saved := persistPanelURL io.first s.config normalized
    if saved.2 = false then { s with config := saved.1 }
    else
      let set := setRuntimePanelURLLocked parse io s.runtimePanelURL normalized
      if set.2 = false then
        let previous := normalizePanelURL parse s.runtimePanelURL
        let back := if previous = "" then saved else persistPanelURL io.second saved.1 previous
        { s with config := back.1, runtimePanelURL := set.1 }
      else { s with config := saved.1, runtimePanelURL := set.1 }

end


/-! ## Interleavings -/

/-- A handler that has left a lock and is about to take one. -/
inductive Job where
  /-- `switchToPanelMigrationFallback`: for heartbeat failures, with the migration they were decided for
  and the migrations they were counted for; or for an aborted migration. -/
  | fallback (decision : Option (String × List String))
  /-- `switchToCommittedPanel`, before it looks at the current URL. -/
  | committed (panelURL migrationID : String)
  | commit (target migrationID : String)
  /-- A `committed` directive, before it looks for its migration. -/
  | matching (id : String)
  | clear
  | done
deriving DecidableEq

structure Fallback where
  migration : String
  url : String
  failures : List String
deriving DecidableEq

structure World where
  process : Process
  jobs : List Job
  /-- The URLs that belong to a migration: those its directives have named, and the one in use when it
  started. -/
  named : List (String × String)
  /-- The migrations that the counted failures were recorded in. -/
  failedFor : List String
  fallbacks : List Fallback
  /-- The migration that has ended, while no other one has started. -/
  terminal : String

inductive Event where
  | tick (elapsed : ℕ)
  | restart
  | heartbeatFailed
  | heartbeatSucceeded
  | stream (connected : Bool)
  /-- A directive, up to its first lock or its first look at the current URL. -/
  | directive (io : Io) (d : PanelMigrationDirective)
  /-- A redirect by the panel, for a heartbeat or for the report of a rollback. -/
  | redirected (panelURL migrationID : String)
  | panelURL (io : Io) (url : String)
  | proceed (io : Io) (job : ℕ)

section

variable (parse : String → Option URL)

/-- The state of the first process, and what its config file says of a migration. -/
def World.start (config : Config) (now : ℕ) : World where
  process := Process.start parse config now
  jobs := []
  named := [(trimSpace config.panelMigrationID, normalizePanelURL parse config.migrationFallbackPanelURL)]
  failedFor := []
  fallbacks := []
  terminal := ""

def World.restart (w : World) : World :=
  { w with
    process := Process.start parse w.process.config w.process.now
    jobs := []
    failedFor := []
    terminal := "" }

/-- `recordPanelMigrationHeartbeatFailure`, up to the unlock. -/
def World.heartbeatFailed (w : World) : World :=
  let r := w.process.runtime
  if r.active = false then w
  else
    let failures := r.failures + 1
    let failedFor := w.failedFor ++ [r.id]
    let w' := { w with
      process := { w.process with runtime := { r with failures := failures } }, failedFor := failedFor }
    if r.streamConnected then w'
    else if failures < panelMigrationFallbackFailures ∧
        (w.process.now : ℤ) - r.startedAt < panelMigrationFallbackDeadline then w'
    else { w' with jobs := w.jobs ++ [.fallback (some (r.id, failedFor))] }

/-- `recordPanelMigrationHeartbeatSuccess`. -/
def World.heartbeatSucceeded (w : World) : World :=
  { w with
    process := { w.process with runtime := { w.process.runtime with failures := 0 } }
    failedFor := [] }

/-- `recordPanelMigrationStreamConnection`. -/
def World.stream (w : World) (connected : Bool) : World :=
  let r := { w.process.runtime with streamConnected := connected }
  if connected then { w with process := { w.process with runtime := { r with failures := 0 } }, failedFor := [] }
  else { w with process := { w.process with runtime := r } }

def World.names (w : World) (d : PanelMigrationDirective) : List (String × String) :=
  let fallback := normalizePanelURL parse d.fallbackPanelURL
  (if fallback ≠ "" then [(d.trimmedID, fallback)] else []) ++
    if w.process.runtime.active = true ∧ w.process.runtime.id = d.trimmedID then []
    else [(d.trimmedID, w.process.current)]

def World.prepare (io : Io) (w : World) (d : PanelMigrationDirective) : World :=
  let after := w.process.prepare parse io d
  if after.2 = .ignored then w
  else
    { w with
      process := after.1
      named := w.named ++ w.names parse d
      failedFor := if after.2.finished then [] else w.failedFor
      terminal := if after.2.finished ∧ d.trimmedID ≠ w.terminal then "" else w.terminal }

def World.directive (io : Io) (w : World) (d : PanelMigrationDirective) : World :=
  if d.trimmedID = "" ∨ d.lowerState = "" then w
  else if d.lowerState = "preparing" ∨ d.lowerState = "committing" then w.prepare parse io d
  else
    let target := normalizePanelURL parse d.targetPanelURL
    if d.lowerState = "committed" then
      if target ≠ "" ∧ target ≠ w.process.current then
        { w with jobs := w.jobs ++ [.committed target d.trimmedID] }
      else { w with jobs := w.jobs ++ [.matching d.trimmedID] }
    else if d.lowerState = "aborted" ∧ w.process.runtime.active = true ∧ w.process.runtime.id = d.trimmedID then
      { w with jobs := w.jobs ++ [.fallback none] }
    else w

def World.ended (w : World) (after : Process × Exit) (terminal : String) : World :=
  { w with
    process := after.1
    failedFor := if after.2.finished then [] else w.failedFor
    terminal := if after.2.finished then terminal else w.terminal }

def World.proceed (io : Io) (w : World) (i : ℕ) : World :=
  let r := w.process.runtime
  match w.jobs[i]? with
  | some (.fallback decision) =>
    let after := w.process.switchToPanelMigrationFallback parse io
    let w' := { w.ended after r.id with jobs := w.jobs.set i .done }
    match decision with
    | some (_, failures) =>
      if after.2.finished then { w' with fallbacks := w.fallbacks ++ [⟨r.id, r.fallback, failures⟩] } else w'
    | none => w'
  | some (.committed panelURL migrationID) =>
    let target := normalizePanelURL parse panelURL
    if target = "" ∨ target = w.process.current then { w with jobs := w.jobs.set i .done }
    else { w with jobs := w.jobs.set i (.commit target migrationID) }
  | some (.commit target migrationID) =>
    -- a redirect without an id ends the migration that is active, if there is one
    let ends := if trimSpace migrationID ≠ "" then trimSpace migrationID
      else if r.active then r.id else w.terminal
    let after := w.process.switchToCommittedPanelLocked parse io target migrationID
    { w.ended after ends with jobs := w.jobs.set i .done }
  | some (.matching id) =>
    { w with jobs := w.jobs.set i (if r.active = true ∧ r.id = id then .clear else .done) }
  | some .clear =>
    { w.ended (w.process.clearPanelMigrationFallback parse io) r.id with jobs := w.jobs.set i .done }
  | some .done => w
  | none => w

/-- A panel sends nothing while there is no web URL for it. -/
def World.step (w : World) : Event → World
  | .tick elapsed => { w with process := { w.process with now := w.process.now + elapsed } }
  | .restart => w.restart parse
  | .heartbeatFailed => w.heartbeatFailed
  | .heartbeatSucceeded => w.heartbeatSucceeded
  | .stream connected => w.stream connected
  | .directive io d => if w.process.runtimePanelURL = "" then w else w.directive parse io d
  | .redirected panelURL migrationID =>
    if w.process.runtimePanelURL = "" then w else { w with jobs := w.jobs ++ [.committed panelURL migrationID] }
  | .panelURL io url =>
    if w.process.runtimePanelURL = "" then w
    else { w with process := w.process.syncPanelURLFromResponse parse io url }
  | .proceed io job => w.proceed parse io job

end

/-! ## Normal forms -/

theorem unix_unixTime (seconds : ℤ) : unix (unixTime seconds) = seconds :=
  Int.mul_ediv_cancel seconds (by decide)

theorem unixTime_unix_le (time : ℤ) : unixTime (unix time) ≤ time :=
  Int.ediv_mul_le time (by decide)

theorem unix_nonneg (now : ℕ) : 0 ≤ unix now :=
  Int.ediv_nonneg (Int.natCast_nonneg now) (by decide)

open Process

section

variable {parse : String → Option URL}

theorem normalizePanelURL_nil : normalizePanelURL parse "" = "" := by
  have hnil : trimSpace "" = "" := by decide
  unfold normalizePanelURL
  dsimp only
  rw [hnil, if_pos rfl]

theorem normalizePanelURL_cases (parse : String → Option URL) (raw : String) : normalizePanelURL parse raw = "" ∨
    ∃ parsed, parse (trimSpace raw) = some parsed ∧ (parsed.scheme = "http" ∨ parsed.scheme = "https") ∧
      parsed.host ≠ "" ∧ normalizePanelURL parse raw = trimRight parsed.text := by
  unfold normalizePanelURL
  dsimp only
  by_cases hnil : trimSpace raw = ""
  · rw [if_pos hnil]
    exact .inl rfl
  rw [if_neg hnil]
  cases hparsed : parse (trimSpace raw) with
  | none => exact .inl rfl
  | some parsed =>
    dsimp only
    by_cases hparts : parsed.scheme = "" ∨ parsed.host = ""
    · rw [if_pos hparts]
      exact .inl rfl
    rw [if_neg hparts]
    by_cases hweb : parsed.scheme ≠ "http" ∧ parsed.scheme ≠ "https"
    · rw [if_pos hweb]
      exact .inl rfl
    · rw [if_neg hweb]
      exact .inr ⟨parsed, rfl, Decidable.not_and_iff_not_or_not.mp hweb |>.imp not_not.mp not_not.mp,
        (not_or.mp hparts).2, rfl⟩

theorem normalizePanelURL_of_parse {value : String} {parsed : URL} (htrim : trimSpace value = value)
    (hne : value ≠ "") (hparsed : parse value = some parsed)
    (hweb : parsed.scheme = "http" ∨ parsed.scheme = "https") (hhost : parsed.host ≠ "") :
    normalizePanelURL parse value = trimRight parsed.text := by
  have hscheme : parsed.scheme ≠ "" := by
    obtain hhttp | hhttps := hweb
    · rw [hhttp]
      decide
    · rw [hhttps]
      decide
  have hnot : ¬ (parsed.scheme ≠ "http" ∧ parsed.scheme ≠ "https") := fun hneither =>
    hweb.elim hneither.1 hneither.2
  unfold normalizePanelURL
  dsimp only
  rw [htrim, if_neg hne, hparsed]
  dsimp only
  rw [if_neg (not_or.mpr ⟨hscheme, hhost⟩), if_neg hnot]

theorem normalizePanelURL_idem (hparse : Canonical parse) (raw : String) :
    normalizePanelURL parse (normalizePanelURL parse raw) = normalizePanelURL parse raw := by
  obtain hnil | ⟨parsed, hparsed, hweb, hhost, heq⟩ := normalizePanelURL_cases parse raw
  · rw [hnil, normalizePanelURL_nil]
  · obtain ⟨htrim, hne, again, hagain, hscheme, hhost', htext⟩ := hparse _ parsed hparsed hweb hhost
    rw [heq, normalizePanelURL_of_parse htrim hne hagain (hscheme ▸ hweb) hhost', htext]

attribute [irreducible] normalizePanelURL

/-- The fields of the runtime are in normal form, and its URL is one or empty. -/
structure Normal (parse : String → Option URL) (s : Process) : Prop where
  url : normalizePanelURL parse s.runtimePanelURL = s.runtimePanelURL
  id : trimSpace s.runtime.id = s.runtime.id
  fallback : normalizePanelURL parse s.runtime.fallback = s.runtime.fallback
  started : unix s.runtime.startedAt ≠ -62135596800
  past : s.runtime.startedAt ≤ s.now
  active : s.runtime.active = true → s.runtime.id ≠ "" ∧ s.runtime.fallback ≠ ""

theorem started_ne_zeroTime {time : ℤ} (h : unix time ≠ -62135596800) : time ≠ zeroTime := by
  rintro rfl
  exact h (unix_unixTime _)

theorem setRuntimePanelURLLocked_cases (hparse : Canonical parse) (io : Io) {url : String} (target : String)
    (hurl : normalizePanelURL parse url = url) :
    (setRuntimePanelURLLocked parse io url target = (url, false) ∧
        (normalizePanelURL parse target ≠ "" → url ≠ "")) ∨
      ∃ url', setRuntimePanelURLLocked parse io url target = (url', true) ∧
        normalizePanelURL parse url' = url' := by
  unfold setRuntimePanelURLLocked
  dsimp only
  rw [hurl]
  by_cases hnil : normalizePanelURL parse target = ""
  · rw [if_pos hnil]
    exact .inl ⟨rfl, fun hne => absurd hnil hne⟩
  rw [if_neg hnil]
  by_cases hsame : url = normalizePanelURL parse target
  · rw [if_pos hsame]
    exact .inr ⟨url, rfl, hurl⟩
  rw [if_neg hsame]
  by_cases hprepare : url ≠ "" ∧ io.prepareHook = false
  · rw [if_pos hprepare]
    exact .inl ⟨rfl, fun _ => hprepare.1⟩
  rw [if_neg hprepare]
  by_cases hstable : url ≠ "" ∧ io.stableHook = false
  · rw [if_pos hstable]
    exact .inl ⟨rfl, fun _ => hstable.1⟩
  · rw [if_neg hstable]
    exact .inr ⟨normalizePanelURL parse target, rfl, normalizePanelURL_idem hparse target⟩

theorem current_eq {s : Process} (hurl : s.runtimePanelURL ≠ "") : s.current = s.runtimePanelURL := if_pos hurl

theorem initialize_startedAt (config : Config) (now : ℕ) :
    unix (initializePanelMigration parse config now).startedAt ≠ -62135596800 ∧
      (initializePanelMigration parse config now).startedAt ≤ now := by
  unfold initializePanelMigration
  dsimp only
  by_cases hstarted : unixTime config.panelMigrationStartedAt = zeroTime ∨
      (now : ℤ) < unixTime config.panelMigrationStartedAt
  · have hnow := unix_nonneg now
    rw [if_pos hstarted]
    exact ⟨by omega, le_refl _⟩
  · rw [if_neg hstarted, unix_unixTime]
    refine ⟨?_, not_lt.mp (not_or.mp hstarted).2⟩
    intro hzero
    rw [hzero] at hstarted
    exact hstarted (.inl rfl)

theorem initialize_normal (hparse : Canonical parse) (config : Config) (now : ℕ) :
    Normal parse (start parse config now) where
  url := by
    unfold start
    dsimp only
    exact normalizePanelURL_idem hparse (trimRight config.panelURL)
  id := by
    unfold start initializePanelMigration
    dsimp only
    exact GoText.Text.trimSpace_trimSpace config.panelMigrationID
  fallback := by
    unfold start initializePanelMigration
    dsimp only
    exact normalizePanelURL_idem hparse config.migrationFallbackPanelURL
  started := (initialize_startedAt config now).1
  past := (initialize_startedAt config now).2
  active := by
    unfold start initializePanelMigration
    dsimp only
    rw [decide_eq_true_eq]
    exact fun hactive => hactive

section

variable {s : Process} {d : PanelMigrationDirective} {io : Io}

theorem fallbackOf_cases (parse : String → Option URL) (s : Process) (d : PanelMigrationDirective) :
    s.fallbackOf parse d = normalizePanelURL parse d.fallbackPanelURL ∧
      normalizePanelURL parse d.fallbackPanelURL ≠ "" ∨
    normalizePanelURL parse d.fallbackPanelURL = "" ∧ s.fallbackOf parse d = s.runtime.fallback ∨
    normalizePanelURL parse d.fallbackPanelURL = "" ∧ s.runtime.fallback = "" ∧
      s.fallbackOf parse d = s.current := by
  unfold fallbackOf
  dsimp only
  by_cases hnone : normalizePanelURL parse d.fallbackPanelURL = ""
  · rw [if_pos hnone]
    by_cases hold : s.runtime.fallback = "" ∧ s.targetOf parse d ≠ s.current
    · rw [if_pos hold]
      exact .inr (.inr ⟨hnone, hold.1, rfl⟩)
    · rw [if_neg hold]
      exact .inr (.inl ⟨hnone, rfl⟩)
  · rw [if_neg hnone, if_neg fun h => hnone h.1]
    exact .inl ⟨rfl, hnone⟩

theorem normalizePanelURL_fallbackOf (hparse : Canonical parse) (h : Normal parse s) (hurl : s.runtimePanelURL ≠ "") :
    normalizePanelURL parse (s.fallbackOf parse d) = s.fallbackOf parse d := by
  obtain ⟨heq, -⟩ | ⟨-, heq⟩ | ⟨-, -, heq⟩ := fallbackOf_cases parse s d
  · rw [heq]
    exact normalizePanelURL_idem hparse d.fallbackPanelURL
  · rw [heq]
    exact h.fallback
  · rw [heq, current_eq hurl]
    exact h.url

theorem startedAtOf_spec (h : Normal parse s) :
    unix (s.startedAtOf d) ≠ -62135596800 ∧ s.startedAtOf d ≤ s.now := by
  unfold startedAtOf
  dsimp only
  by_cases hunknown : d.startedAt ≤ 0 ∨ (s.now : ℤ) < unixTime d.startedAt
  · rw [if_pos hunknown]
    by_cases hkeeps : s.runtime.id = d.trimmedID ∧ s.runtime.startedAt ≠ zeroTime
    · rw [if_pos hkeeps]
      exact ⟨h.started, h.past⟩
    · have hnow := unix_nonneg s.now
      rw [if_neg hkeeps]
      exact ⟨by omega, le_refl _⟩
  · obtain ⟨hpositive, hpast⟩ := not_or.mp hunknown
    rw [if_neg hunknown, unix_unixTime]
    exact ⟨by omega, not_lt.mp hpast⟩

theorem prepare_cases (io : Io) (d : PanelMigrationDirective) (hparse : Canonical parse) (h : Normal parse s) :
    s.prepare parse io d = (s, .ignored) ∨
      (s.runtime.terminalID ≠ d.trimmedID ∧ s.fallbackOf parse d ≠ "" ∧
        ((∃ config, s.prepare parse io d = ({ s with config := config }, .unsaved) ∧
            config = (persistPanelMigrationConfig parse io.first s.config (s.targetOf parse d)
              (some (s.fallbackOf parse d, d.trimmedID, s.startedAtOf d))).1) ∨
          (∃ config saved, s.prepare parse io d = ({ s with config := config }, .unswitched) ∧
            s.current ≠ s.targetOf parse d ∧
            (normalizePanelURL parse (s.targetOf parse d) ≠ "" → s.runtimePanelURL ≠ "") ∧
            (saved, true) = persistPanelMigrationConfig parse io.first s.config (s.targetOf parse d)
              (some (s.fallbackOf parse d, d.trimmedID, s.startedAtOf d)) ∧
            config = (persistPanelMigrationConfig parse io.second saved s.current
              (some (s.fallbackOf parse d, d.trimmedID, s.startedAtOf d))).1) ∨
          ∃ config url connected exit, s.prepare parse io d = ({ s with
              config := config
              runtimePanelURL := url
              runtime := { s.runtime with
                active := true
                id := d.trimmedID
                fallback := s.fallbackOf parse d
                startedAt := s.startedAtOf d
                failures := 0
                streamConnected := connected } }, exit) ∧
            exit.finished = true ∧ normalizePanelURL parse url = url ∧
            ((config = s.config ∧ s.runtime.active = true ∧ s.runtime.id = d.trimmedID ∧
                s.runtime.fallback = s.fallbackOf parse d ∧ url = s.runtimePanelURL) ∨
              config = (persistPanelMigrationConfig parse io.first s.config (s.targetOf parse d)
                (some (s.fallbackOf parse d, d.trimmedID, s.startedAtOf d))).1))) := by
  generalize hafter : s.prepare parse io d = after
  unfold prepare at hafter
  dsimp only at hafter
  by_cases hterminal : s.runtime.terminalID = d.trimmedID
  · rw [if_pos hterminal] at hafter
    exact .inl hafter.symm
  rw [if_neg hterminal] at hafter
  by_cases hne : s.fallbackOf parse d = ""
  · rw [if_pos hne] at hafter
    exact .inl hafter.symm
  rw [if_neg hne] at hafter
  refine .inr ⟨hterminal, hne, ?_⟩
  cases halready : s.alreadyActive parse d with
  | true =>
    obtain ⟨⟨⟨hactive, hid⟩, hsame⟩, hcurrent⟩ : ((s.runtime.active = true ∧ s.runtime.id = d.trimmedID) ∧
        s.runtime.fallback = s.fallbackOf parse d) ∧ s.current = s.targetOf parse d := by
      unfold alreadyActive at halready
      rw [Bool.and_eq_true, Bool.and_eq_true, Bool.and_eq_true, beq_iff_eq, beq_iff_eq, beq_iff_eq] at halready
      exact halready
    have hstays : ¬ s.current ≠ s.targetOf parse d := not_not.mpr hcurrent
    rw [halready, if_pos rfl, if_neg (Bool.noConfusion), if_neg hstays, if_neg (Bool.noConfusion), if_neg hstays,
      if_neg hstays] at hafter
    exact .inr (.inr ⟨s.config, s.runtimePanelURL, s.runtime.streamConnected, .kept, hafter.symm, rfl, h.url,
      .inl ⟨rfl, hactive, hid, hsame, rfl⟩⟩)
  | false =>
    rw [halready, if_neg Bool.false_ne_true, if_neg Bool.false_ne_true] at hafter
    generalize hsaved : persistPanelMigrationConfig parse io.first s.config (s.targetOf parse d)
      (some (s.fallbackOf parse d, d.trimmedID, s.startedAtOf d)) = saved at hafter
    obtain ⟨saved, ok⟩ := saved
    cases ok with
    | false => exact .inl ⟨saved, hafter.symm, rfl⟩
    | true =>
      refine .inr ?_
      rw [if_neg (Bool.noConfusion)] at hafter
      by_cases hchanges : s.current ≠ s.targetOf parse d
      · rw [if_pos hchanges, if_pos hchanges, if_pos hchanges] at hafter
        obtain ⟨hfails, hnonempty⟩ | ⟨url, hset, hurl⟩ :=
          setRuntimePanelURLLocked_cases hparse io (s.targetOf parse d) h.url
        · rw [hfails, if_pos rfl] at hafter
          exact .inl ⟨_, saved, hafter.symm, hchanges, hnonempty, rfl, rfl⟩
        · rw [hset, if_neg (Bool.noConfusion)] at hafter
          exact .inr ⟨_, url, _, _, hafter.symm, rfl, hurl, .inr rfl⟩
      · rw [if_neg hchanges, if_neg (Bool.noConfusion), if_neg hchanges, if_neg hchanges] at hafter
        exact .inr ⟨_, _, _, _, hafter.symm, rfl, h.url, .inr rfl⟩

end

/-! ### The switches -/

inductive Ends (parse : String → Option URL) (io : Io) (s : Process) (target terminalID : String) :
    Process × Exit → Prop where
  | unsaved : Ends parse io s target terminalID
      ({ s with config := (persistPanelMigrationConfig parse io.first s.config target none).1 }, .unsaved)
  | unswitched (saved : Config)
      (hsaved : persistPanelMigrationConfig parse io.first s.config target none = (saved, true))
      (hurl : normalizePanelURL parse target ≠ "" → s.runtimePanelURL ≠ "") :
      Ends parse io s target terminalID ({ s with
        config := (persistPanelMigrationConfig parse io.second saved s.current
          (some (s.runtime.fallback, s.runtime.id, s.runtime.startedAt))).1 }, .unswitched)
  | finished (url : String) (exit : Exit) (hfinished : exit.finished = true)
      (hurl : normalizePanelURL parse url = url) : Ends parse io s target terminalID ({ s with
        config := (persistPanelMigrationConfig parse io.first s.config target none).1
        runtimePanelURL := url
        runtime := s.runtime.finish terminalID }, exit)

section

variable {s : Process} {io : Io} {target terminalID : String}

section

variable (hparse : Canonical parse) (h : Normal parse s)

include hparse h

theorem ends_switchSaved {saved : Config}
    (hsaved : persistPanelMigrationConfig parse io.first s.config target none = (saved, true)) :
    Ends parse io s target terminalID (s.switchSaved parse io saved target terminalID) := by
  generalize hafter : s.switchSaved parse io saved target terminalID = after
  unfold switchSaved at hafter
  dsimp only at hafter
  obtain ⟨hfails, hnonempty⟩ | ⟨url, hset, hurl⟩ := setRuntimePanelURLLocked_cases hparse io target h.url
  · rw [hfails, if_pos rfl] at hafter
    rw [← hafter]
    exact .unswitched saved hsaved hnonempty
  · have hconfig : saved = (persistPanelMigrationConfig parse io.first s.config target none).1 := by
      rw [hsaved]
    rw [hset, if_neg (Bool.noConfusion), hconfig] at hafter
    rw [← hafter]
    exact .finished url .switched rfl hurl

theorem ends_fallback (io : Io) (hactive : s.runtime.active = true) :
    Ends parse io s s.runtime.fallback s.runtime.id (s.switchToPanelMigrationFallback parse io) := by
  generalize hafter : s.switchToPanelMigrationFallback parse io = after
  unfold switchToPanelMigrationFallback at hafter
  dsimp only at hafter
  rw [if_neg (by rw [hactive]; decide), if_neg (h.active hactive).2] at hafter
  generalize hsaved : persistPanelMigrationConfig parse io.first s.config s.runtime.fallback none = saved at hafter
  obtain ⟨saved, ok⟩ := saved
  have hconfig : saved = (persistPanelMigrationConfig parse io.first s.config s.runtime.fallback none).1 := by
    rw [hsaved]
  cases ok with
  | false =>
    rw [if_pos rfl, hconfig] at hafter
    rw [← hafter]
    exact .unsaved
  | true =>
    rw [if_neg (Bool.noConfusion)] at hafter
    by_cases hchanges : s.runtime.fallback ≠ s.current
    · rw [if_pos hchanges] at hafter
      rw [← hafter]
      exact ends_switchSaved hparse h hsaved
    · rw [if_neg hchanges, hconfig] at hafter
      rw [← hafter]
      exact .finished s.runtimePanelURL .kept rfl h.url

theorem ends_committed (migrationID : String) :
    Ends parse io s target (if trimSpace migrationID ≠ "" then trimSpace migrationID else s.runtime.id)
      (s.switchToCommittedPanelLocked parse io target migrationID) := by
  generalize hafter : s.switchToCommittedPanelLocked parse io target migrationID = after
  unfold switchToCommittedPanelLocked at hafter
  dsimp only at hafter
  generalize hsaved : persistPanelMigrationConfig parse io.first s.config target none = saved at hafter
  obtain ⟨saved, ok⟩ := saved
  cases ok with
  | false =>
    have hconfig : saved = (persistPanelMigrationConfig parse io.first s.config target none).1 := by
      rw [hsaved]
    rw [if_pos rfl, hconfig] at hafter
    rw [← hafter]
    exact .unsaved
  | true =>
    rw [if_neg (Bool.noConfusion)] at hafter
    rw [← hafter]
    exact ends_switchSaved hparse h hsaved

end

theorem ends_clear (h : Normal parse s) (hactive : s.runtime.active = true) :
    Ends parse io s s.current s.runtime.id (s.clearPanelMigrationFallback parse io) := by
  generalize hafter : s.clearPanelMigrationFallback parse io = after
  unfold clearPanelMigrationFallback at hafter
  dsimp only at hafter
  rw [if_neg (by rw [hactive]; decide)] at hafter
  generalize hsaved : persistPanelMigrationConfig parse io.first s.config s.current none = saved at hafter
  obtain ⟨saved, ok⟩ := saved
  have hconfig : saved = (persistPanelMigrationConfig parse io.first s.config s.current none).1 := by
    rw [hsaved]
  cases ok with
  | false =>
    rw [if_pos rfl, hconfig] at hafter
    rw [← hafter]
    exact .unsaved
  | true =>
    rw [if_neg (Bool.noConfusion), hconfig] at hafter
    rw [← hafter]
    exact .finished s.runtimePanelURL .kept rfl h.url

theorem fallback_ignored (hidle : s.runtime.active = false) :
    s.switchToPanelMigrationFallback parse io = (s, .ignored) := if_pos hidle

theorem clear_ignored (hidle : s.runtime.active = false) :
    s.clearPanelMigrationFallback parse io = (s, .ignored) := if_pos hidle

theorem clear_exit : (s.clearPanelMigrationFallback parse io).2 ≠ .unswitched := by
  unfold clearPanelMigrationFallback
  dsimp only
  split
  · exact Exit.noConfusion
  · split
    · exact Exit.noConfusion
    · exact Exit.noConfusion

theorem Normal.ends (h : Normal parse s) {after : Process × Exit} (hends : Ends parse io s target terminalID after) :
    Normal parse after.1 := by
  cases hends with
  | unsaved => exact ⟨h.url, h.id, h.fallback, h.started, h.past, h.active⟩
  | unswitched saved hsaved hurl => exact ⟨h.url, h.id, h.fallback, h.started, h.past, h.active⟩
  | finished url exit hfinished hurl => exact ⟨hurl, h.id, h.fallback, h.started, h.past, Bool.noConfusion⟩

theorem Normal.prepare (hparse : Canonical parse) (h : Normal parse s) (io : Io) (hurl : s.runtimePanelURL ≠ "")
    {d : PanelMigrationDirective} (hid : d.trimmedID ≠ "") : Normal parse (s.prepare parse io d).1 := by
  obtain heq | ⟨-, hne, ⟨config, heq, -⟩ | ⟨config, saved, heq, -⟩ |
    ⟨config, url, connected, exit, heq, -, hnormal, -⟩⟩ := prepare_cases io d hparse h
  · rw [heq]
    exact h
  · rw [heq]
    exact ⟨h.url, h.id, h.fallback, h.started, h.past, h.active⟩
  · rw [heq]
    exact ⟨h.url, h.id, h.fallback, h.started, h.past, h.active⟩
  · rw [heq]
    have htrim : trimSpace d.trimmedID = d.trimmedID := GoText.Text.trimSpace_trimSpace d.id
    obtain ⟨hstarted, hpast⟩ := startedAtOf_spec (d := d) h
    exact ⟨hnormal, htrim, normalizePanelURL_fallbackOf hparse h hurl, hstarted, hpast, fun _ => ⟨hid, hne⟩⟩

theorem Normal.syncPanelURLFromResponse (hparse : Canonical parse) (h : Normal parse s) (io : Io) (url : String) :
    Normal parse (s.syncPanelURLFromResponse parse io url) := by
  have hkeeps : ∀ config, Normal parse { s with config := config } := fun config =>
    ⟨h.url, h.id, h.fallback, h.started, h.past, h.active⟩
  generalize hafter : s.syncPanelURLFromResponse parse io url = after
  unfold Process.syncPanelURLFromResponse at hafter
  dsimp only at hafter
  by_cases hnil : normalizePanelURL parse url = ""
  · rw [if_pos hnil] at hafter
    exact hafter ▸ h
  rw [if_neg hnil] at hafter
  by_cases hsame : s.runtimePanelURL = normalizePanelURL parse url
  · rw [if_pos hsame] at hafter
    by_cases hheld : io.held = true
    · rw [if_pos hheld] at hafter
      exact hafter ▸ hkeeps _
    · rw [if_neg hheld] at hafter
      exact hafter ▸ h
  rw [if_neg hsame] at hafter
  by_cases hunsaved : (persistPanelURL io.first s.config (normalizePanelURL parse url)).2 = false
  · rw [if_pos hunsaved] at hafter
    exact hafter ▸ hkeeps _
  rw [if_neg hunsaved] at hafter
  obtain ⟨hfails, -⟩ | ⟨url', hset, hurl⟩ :=
    setRuntimePanelURLLocked_cases hparse io (normalizePanelURL parse url) h.url
  · rw [hfails, if_pos rfl] at hafter
    exact hafter ▸ hkeeps _
  · rw [hset, if_neg (Bool.noConfusion)] at hafter
    rw [← hafter]
    exact ⟨hurl, h.id, h.fallback, h.started, h.past, h.active⟩

end

/-! ### Runs -/

section

variable {w : World}

theorem Normal.heartbeatFailed (h : Normal parse w.process) : Normal parse w.heartbeatFailed.process := by
  unfold World.heartbeatFailed
  dsimp only
  split
  · exact h
  · split
    · exact ⟨h.url, h.id, h.fallback, h.started, h.past, h.active⟩
    · split
      · exact ⟨h.url, h.id, h.fallback, h.started, h.past, h.active⟩
      · exact ⟨h.url, h.id, h.fallback, h.started, h.past, h.active⟩

theorem Normal.stream (h : Normal parse w.process) (connected : Bool) :
    Normal parse (w.stream connected).process := by
  unfold World.stream
  dsimp only
  split
  · exact ⟨h.url, h.id, h.fallback, h.started, h.past, h.active⟩
  · exact ⟨h.url, h.id, h.fallback, h.started, h.past, h.active⟩

section

variable (hparse : Canonical parse) (h : Normal parse w.process)

include hparse h

theorem Normal.directive (hurl : w.process.runtimePanelURL ≠ "") (io : Io) (d : PanelMigrationDirective) :
    Normal parse (w.directive parse io d).process := by
  unfold World.directive
  dsimp only
  split
  · exact h
  · rename_i hparts
    split
    · unfold World.prepare
      dsimp only
      split
      · exact h
      · exact h.prepare hparse io hurl (not_or.mp hparts).1
    · split
      · split <;> exact h
      · split <;> exact h

theorem Normal.proceed (io : Io) (i : ℕ) : Normal parse (w.proceed parse io i).process := by
  have hfallback : Normal parse (w.process.switchToPanelMigrationFallback parse io).1 := by
    cases hactive : w.process.runtime.active with
    | false =>
      rw [fallback_ignored hactive]
      exact h
    | true => exact h.ends (ends_fallback hparse h io hactive)
  have hclear : Normal parse (w.process.clearPanelMigrationFallback parse io).1 := by
    cases hactive : w.process.runtime.active with
    | false =>
      rw [clear_ignored hactive]
      exact h
    | true => exact h.ends (ends_clear h hactive)
  unfold World.proceed
  dsimp only
  split
  · split
    · split <;> exact hfallback
    · exact hfallback
  · split <;> exact h
  · exact h.ends (ends_committed hparse h _)
  · exact h
  · exact hclear
  · exact h
  · exact h

theorem Normal.step (e : Event) : Normal parse (w.step parse e).process := by
  cases e with
  | tick elapsed =>
    refine ⟨h.url, h.id, h.fallback, h.started, le_trans h.past ?_, h.active⟩
    exact Int.ofNat_le.mpr (Nat.le_add_right _ elapsed)
  | restart => exact initialize_normal hparse _ _
  | heartbeatFailed => exact h.heartbeatFailed
  | heartbeatSucceeded => exact ⟨h.url, h.id, h.fallback, h.started, h.past, h.active⟩
  | stream connected => exact h.stream connected
  | directive io d =>
    unfold World.step
    dsimp only
    split
    · exact h
    · rename_i hurl
      exact h.directive hparse hurl io d
  | redirected panelURL migrationID =>
    unfold World.step
    dsimp only
    split <;> exact h
  | panelURL io url =>
    unfold World.step
    dsimp only
    split
    · exact h
    · exact h.syncPanelURLFromResponse hparse io url
  | proceed io job => exact h.proceed hparse io job

end

theorem normal_run (hparse : Canonical parse) (config : Config) (now : ℕ) (events : List Event) :
    Normal parse (run (World.step parse) (World.start parse config now) events).process :=
  ForwardX.Run.run_invariant (I := fun w : World => Normal parse w.process) (fun _ e hw => hw.step hparse e) events _
    (initialize_normal hparse config now)

end

end

/-! ## Three panels -/

/-- `url.Parse` on the URLs of three panels. -/
def panels (raw : String) : Option URL :=
  if raw = "https://old" ∨ raw = "https://new" ∨ raw = "https://third" then
    some { scheme := "https", host := "panel", text := raw }
  else none

theorem panels_canonical : Canonical panels := by
  intro raw parsed hparsed _ _
  unfold panels at hparsed
  split at hparsed
  · rename_i hraw
    obtain rfl := Option.some.inj hparsed
    dsimp only
    obtain rfl | rfl | rfl := hraw
    · exact ⟨by decide, by decide, ⟨"https", "panel", "https://old"⟩, by decide, rfl, by decide, rfl⟩
    · exact ⟨by decide, by decide, ⟨"https", "panel", "https://new"⟩, by decide, rfl, by decide, rfl⟩
    · exact ⟨by decide, by decide, ⟨"https", "panel", "https://third"⟩, by decide, rfl, by decide, rfl⟩
  · cases hparsed

def writable : Io := { first := .written, second := .written, prepareHook := true, stableHook := true, held := false }

def unstable : Io := { writable with stableHook := false }

/-- The first migration, from the old panel to the new one. -/
def prepared : Event :=
  .directive writable
    { id := "a", state := "preparing", targetPanelURL := "https://new", fallbackPanelURL := "https://old"
      startedAt := 1 }

def committed : List Event :=
  [.directive writable
    { id := "a", state := "committed", targetPanelURL := "https://new", fallbackPanelURL := "", startedAt := 1 },
    .proceed writable 0, .proceed writable 0]

def oldPanel : Config :=
  { panelURL := "https://old", migrationFallbackPanelURL := "", panelMigrationID := ""
    panelMigrationStartedAt := 0 }

end ForwardX.Agent.PanelMigration
