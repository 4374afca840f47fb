/-
Agents that fall silent: `AgentFastLivenessTracker` of `server/agentFastLiveness.ts`.

Timers may come early, late or not at all, and a heartbeat may come between the timer and its
effect. The invariant ties what was told of a host to when it was last heard of.
-/
import ForwardX.Lib.Chain
import ForwardX.Lib.JsMap
import ForwardX.Lib.Run
import ForwardX.Panel.JsValues
import Mathlib.Tactic.Linarith

namespace ForwardX.Panel.FastLiveness

open Chain Run List

/-! ## Versions -/

/-- `normalizeVersion`: white space and one leading `v` are taken away. -/
def normalizeVersion (version : JsString) : JsString :=
  match trim version with
  | u :: rest => if u = 0x76 ∨ u = 0x56 then rest else u :: rest
  | [] => []

/-- `Number.parseInt(x, 10) || 0`, of a text without a minus sign. Beyond 2⁵³ the source's numbers
are rounded, which no comparison with a number below it shows. -/
def parseDecimal (s : JsString) : ℕ :=
  match s.dropWhile isJsSpace with
  | 0x2B :: rest => decimalValue (rest.takeWhile isDigit)
  | rest => decimalValue (rest.takeWhile isDigit)

def versionParts (version : JsString) : List ℕ :=
  ((normalizeVersion version).splitOnP fun u => u = 0x2E || u = 0x2D).map parseDecimal

def firstDifference : List (ℕ × ℕ) → ℤ
  | [] => 0
  | (a, b) :: rest => if a = b then firstDifference rest else if b < a then 1 else -1

/-- A part that is missing counts as zero. -/
def compareVersions (a b : JsString) : ℤ :=
  let pa := versionParts a
  let pb := versionParts b
  firstDifference ((List.range (max pa.length pb.length)).map fun i => (pa.getD i 0, pb.getD i 0))

def isAgentVersionAtLeast (version target : JsString) : Bool :=
  version ≠ [] && target ≠ [] && 0 ≤ compareVersions version target

def agentFastLivenessMinVersion : JsString := js "2.2.171"

def supportsAgentFastLiveness (agentVersion : JsString) : Bool :=
  isAgentVersionAtLeast agentVersion agentFastLivenessMinVersion

/-! ## The tracker -/

structure AgentFastLivenessTrackerOptions where
  silenceMs : ℚ := 90000
  startupGraceMs : ℚ := 90000

namespace AgentFastLivenessTrackerOptions

def silence (o : AgentFastLivenessTrackerOptions) : ℚ := max 1 o.silenceMs

def startupGrace (o : AgentFastLivenessTrackerOptions) : ℚ := max 0 o.startupGraceMs

end AgentFastLivenessTrackerOptions

/-- `isOffline` is what the row says of `isOnline`: `false`, `0` or `"0"`. A time is `none` where
the value is neither a finite number nor a date. -/
structure AgentFastLivenessHost where
  hostId : JsNumber
  agentVersion : JsString
  isOffline : Bool := false
  lastHeartbeat : Option ℚ := none

structure AgentFastLivenessState where
  hostId : ℕ
  agentVersion : JsString
  transitionEpoch : ℕ
  lastSeenAt : Option ℚ
  deadlineAt : ℚ
  offlineAt : Option ℚ
  lastOfflineAt : Option ℚ
  confirmedOffline : Bool

structure MutableAgentFastLivenessState extends AgentFastLivenessState where
  timerGeneration : ℕ
  timer : Option ℕ

inductive AgentFastLivenessTransitionKind where
  | confirmedOffline
  | activityRestored
  deriving DecidableEq

structure AgentFastLivenessTransition extends AgentFastLivenessState where
  kind : AgentFastLivenessTransitionKind

structure LivenessTimer where
  hostId : ℕ
  generation : ℕ
  delayMs : ℚ
  live : Bool := true

/-- A report is one of activity, registered host or not. `registered` tells whether the deadline
is that of the startup grace. -/
inductive LivenessEntry where
  | report (hostId : ℕ) (t : ℚ)
  | registered (hostId : ℕ) (startupGrace : Bool)
  | transition (event : AgentFastLivenessTransition)
  | removed (hostId : ℕ)

structure AgentFastLivenessTracker where
  hosts : JsMap ℕ MutableAgentFastLivenessState := ∅
  transitionEpochCounter : ℕ := 0
  timers : List LivenessTimer := []
  log : List LivenessEntry := []
  clock : ℚ := 0

def normalizedTimestamp (value : Option ℚ) (now : ℚ) : Option ℚ :=
  (value.filter fun t => 0 < t).map fun t => min t now

/-- `Number.MAX_SAFE_INTEGER` is 2⁵³ - 1. -/
def nextGeneration (current : ℕ) : ℕ := if 2 ^ 53 - 1 ≤ current then 1 else current + 1

namespace AgentFastLivenessTracker

/-- `if (timer) clearTimer(timer)`; also what a timer that fires comes to. -/
def clearTimer (timers : List LivenessTimer) : Option ℕ → List LivenessTimer
  | none => timers
  | some t => timers.modify t fun timer => { timer with live := false }

/-- The state is its host's, with the new timer. -/
def arm (w : AgentFastLivenessTracker) (state : MutableAgentFastLivenessState) (now : ℚ) : AgentFastLivenessTracker :=
  { w with
    timers := w.timers ++ [⟨state.hostId, state.timerGeneration, max 0 (state.deadlineAt - now), true⟩]
    hosts := w.hosts.set state.hostId { state with timer := some w.timers.length } }

def emit (w : AgentFastLivenessTracker) (kind : AgentFastLivenessTransitionKind)
    (state : MutableAgentFastLivenessState) : AgentFastLivenessTracker :=
  { w with log := w.log ++ [.transition ⟨state.toAgentFastLivenessState, kind⟩] }

def report (w : AgentFastLivenessTracker) (hostId : ℕ) (now : ℚ) : AgentFastLivenessTracker :=
  { w with log := w.log ++ [.report hostId now] }

def removeHost (w : AgentFastLivenessTracker) (hostId : ℕ) : AgentFastLivenessTracker :=
  match w.hosts.get hostId with
  | none => w
  | some state => { w with
      timers := clearTimer w.timers state.timer
      hosts := w.hosts.delete hostId
      log := w.log ++ [.removed hostId] }

section

variable (options : AgentFastLivenessTrackerOptions)

def heard (state : MutableAgentFastLivenessState) (seenAtValue : Option ℚ) (now : ℚ) (transitionEpoch : ℕ) :
    MutableAgentFastLivenessState :=
  let seenAt := (normalizedTimestamp seenAtValue now).getD now
  { state with
    timer := none
    timerGeneration := nextGeneration state.timerGeneration
    lastSeenAt := some (max (state.lastSeenAt.getD 0) seenAt)
    deadlineAt := now + options.silence
    confirmedOffline := false
    offlineAt := none
    transitionEpoch }

/-- A report of activity, of a host id that is positive; `later` is when the timer is armed. -/
def observeActivity (w : AgentFastLivenessTracker) (hostId : ℕ) (seenAtValue : Option ℚ) (now later : ℚ) :
    AgentFastLivenessTracker :=
  let w := { w.report hostId now with clock := later }
  match w.hosts.get hostId with
  | none => w
  | some state =>
    let w := { w with timers := clearTimer w.timers state.timer }
    if state.confirmedOffline then
      let epoch := nextGeneration w.transitionEpochCounter
      let observed := heard options state seenAtValue now epoch
      ({ w with transitionEpochCounter := epoch }.arm observed later).emit .activityRestored observed
    else w.arm (heard options state seenAtValue now state.transitionEpoch) later

/-- The state of a host that is new; it has not been seen if `activityAt` is absent. -/
def newState (hostId : ℕ) (agentVersion : JsString) (host : AgentFastLivenessHost) (startupGrace : Bool)
    (activityAt : Option ℚ) (now : ℚ) : MutableAgentFastLivenessState where
  hostId := hostId
  agentVersion := agentVersion
  transitionEpoch := 0
  lastSeenAt := activityAt.or (normalizedTimestamp host.lastHeartbeat now)
  deadlineAt := now + (if startupGrace && activityAt.isNone then options.startupGrace else options.silence)
  offlineAt := none
  lastOfflineAt := if startupGrace && host.isOffline then some now else none
  confirmedOffline := false
  timerGeneration := 1
  timer := none

def addHost (w : AgentFastLivenessTracker) (hostId : ℕ) (agentVersion : JsString) (host : AgentFastLivenessHost)
    (startupGrace : Bool) (activityAt : Option (Option ℚ)) (now later : ℚ) : AgentFastLivenessTracker :=
  let seenAt := activityAt.map fun value => (normalizedTimestamp value now).getD now
  let entries := LivenessEntry.registered hostId (startupGrace && seenAt.isNone) ::
    (if seenAt.isSome then [.report hostId now] else [])
  { w with log := w.log ++ entries, clock := later }.arm
    (newState options hostId agentVersion host startupGrace seenAt now) later

/-- `activityAt` may be absent, and may be no time. -/
def registerHost (w : AgentFastLivenessTracker) (host : AgentFastLivenessHost) (startupGrace : Bool)
    (activityAt : Option (Option ℚ)) (now later : ℚ) : AgentFastLivenessTracker :=
  let hostId := positiveInteger host.hostId
  if hostId = 0 then { w with clock := later }
  else
    let agentVersion := trim host.agentVersion
    if ¬ supportsAgentFastLiveness agentVersion then
      let w := if activityAt.isSome then w.report hostId now else w
      { w.removeHost hostId with clock := later }
    else
      match w.hosts.get hostId with
      | some existing =>
        let w := { w with hosts := w.hosts.set hostId { existing with agentVersion } }
        match activityAt with
        | none => { w with clock := later }
        | some value => w.observeActivity options hostId value now later
      | none => w.addHost options hostId agentVersion host startupGrace activityAt now later

/-- Every host with the two readings of its turn. -/
def primeHosts (w : AgentFastLivenessTracker) (hosts : List (AgentFastLivenessHost × ℚ × ℚ)) :
    AgentFastLivenessTracker :=
  hosts.foldl (fun w entry => w.registerHost options entry.1 true none entry.2.1 entry.2.2) w

def registerPresenceCapableHost (w : AgentFastLivenessTracker) (hostIdValue : JsNumber) (seenAtValue : Option ℚ)
    (now later : ℚ) : AgentFastLivenessTracker :=
  if w.hosts.has (positiveInteger hostIdValue) then
    w.observeActivity options (positiveInteger hostIdValue) seenAtValue now later
  else
    w.registerHost options { hostId := hostIdValue, agentVersion := agentFastLivenessMinVersion } false
      (some seenAtValue) now later

def clear (w : AgentFastLivenessTracker) : AgentFastLivenessTracker :=
  { w with
    timers := w.hosts.entries.foldl (fun timers entry => clearTimer timers entry.2.timer) w.timers
    hosts := ∅
    log := w.log ++ w.hosts.entries.map fun entry => .removed entry.1 }

/-- The state of a host that was not heard of for too long. -/
def confirm (state : MutableAgentFastLivenessState) (now : ℚ) (transitionEpoch : ℕ) :
    MutableAgentFastLivenessState :=
  { state with
    confirmedOffline := true
    offlineAt := some now
    lastOfflineAt := some now
    transitionEpoch }

def fire (w : AgentFastLivenessTracker) (t : ℕ) (now later : ℚ) : AgentFastLivenessTracker :=
  match w.timers[t]? with
  | none => { w with clock := later }
  | some timer =>
    let w := { w with timers := clearTimer w.timers (some t), clock := later }
    match w.hosts.get timer.hostId with
    | none => w
    | some current =>
      if current.timerGeneration ≠ timer.generation ∨ current.timer ≠ some t then w
      else
        let current := { current with timer := none }
        if now < current.deadlineAt then w.arm current later
        else if current.confirmedOffline then { w with hosts := w.hosts.set timer.hostId current }
        else
          let epoch := nextGeneration w.transitionEpochCounter
          let confirmed := confirm current later epoch
          let w := { w with
            transitionEpochCounter := epoch
            hosts := w.hosts.set timer.hostId confirmed }
          w.emit .confirmedOffline confirmed

def isCurrent (w : AgentFastLivenessTracker) (event : AgentFastLivenessTransition) : Bool :=
  if event.transitionEpoch = 0 ∨ 2 ^ 53 ≤ event.transitionEpoch then false
  else
    match w.hosts.get event.hostId with
    | none => false
    | some state => state.transitionEpoch = event.transitionEpoch &&
        state.confirmedOffline = (event.kind = .confirmedOffline)

end

end AgentFastLivenessTracker

inductive LivenessEvent where
  | registerHost (host : AgentFastLivenessHost) (startupGrace : Bool) (activityAt : Option (Option ℚ))
      (now later : ℚ)
  | primeHosts (hosts : List (AgentFastLivenessHost × ℚ × ℚ))
  | registerPresenceCapableHost (hostId : JsNumber) (seenAt : Option ℚ) (now later : ℚ)
  | observeActivity (hostId : JsNumber) (seenAt : Option ℚ) (now later : ℚ)
  | removeHost (hostId : JsNumber)
  | clear
  | fire (t : ℕ) (now later : ℚ)

/-- What the step reads from the clock, in this order. -/
def LivenessEvent.readings : LivenessEvent → List ℚ
  | .registerHost _ _ _ now later => [now, later]
  | .primeHosts hosts => hosts.flatMap fun entry => [entry.2.1, entry.2.2]
  | .registerPresenceCapableHost _ _ now later => [now, later]
  | .observeActivity _ _ now later => [now, later]
  | .removeHost _ => []
  | .clear => []
  | .fire _ now later => [now, later]

def stepLiveness (options : AgentFastLivenessTrackerOptions) (w : AgentFastLivenessTracker) :
    LivenessEvent → AgentFastLivenessTracker
  | .registerHost host startupGrace activityAt now later => w.registerHost options host startupGrace activityAt now later
  | .primeHosts hosts => w.primeHosts options hosts
  | .registerPresenceCapableHost hostId seenAt now later =>
    w.registerPresenceCapableHost options hostId seenAt now later
  | .observeActivity hostId seenAt now later =>
    if positiveInteger hostId = 0 then { w with clock := later }
    else w.observeActivity options (positiveInteger hostId) seenAt now later
  | .removeHost hostId => if positiveInteger hostId = 0 then w else w.removeHost (positiveInteger hostId)
  | .clear => w.clear
  | .fire t now later => w.fire t now later

def ClockKeeps (w : AgentFastLivenessTracker) (e : LivenessEvent) : Prop :=
  (w.clock :: e.readings).Pairwise (· ≤ ·)

instance (w : AgentFastLivenessTracker) (e : LivenessEvent) : Decidable (ClockKeeps w e) :=
  inferInstanceAs (Decidable (List.Pairwise _ _))

/-! ## What the log says of a host -/

def LivenessEntry.hostId : LivenessEntry → ℕ
  | .report hostId _ => hostId
  | .registered hostId _ => hostId
  | .transition event => event.hostId
  | .removed hostId => hostId

/-- The host whose transitions before it are not current any more. -/
def LivenessEntry.ends : LivenessEntry → Option ℕ
  | .transition event => some event.hostId
  | .removed hostId => some hostId
  | _ => none

/-- No transition or removal of the host comes after place `i`. -/
def Quiet (log : List LivenessEntry) (i hostId : ℕ) : Prop :=
  ∀ j entry, i < j → log[j]? = some entry → entry.ends ≠ some hostId

def addKind (h : ℕ) (kinds : List AgentFastLivenessTransitionKind) :
    LivenessEntry → List AgentFastLivenessTransitionKind
  | .transition event => if event.hostId = h then kinds ++ [event.kind] else kinds
  | .removed hostId => if hostId = h then [] else kinds
  | _ => kinds

/-- What was told of the host since it was removed last. -/
def kindsSince (h : ℕ) (log : List LivenessEntry) : List AgentFastLivenessTransitionKind :=
  log.foldl (addKind h) []

/-- Strictly in turn, and a loss first. -/
def Alternates (kinds : List AgentFastLivenessTransitionKind) : Prop :=
  ∀ i kind, kinds[i]? = some kind → (kind = .confirmedOffline ↔ i % 2 = 0)

def seen (h : ℕ) (graced : Bool) : LivenessEntry → Bool
  | .registered hostId startupGrace => if hostId = h then startupGrace else graced
  | .report hostId _ => if hostId = h then false else graced
  | _ => graced

/-- The host was primed, and not seen since. -/
def unseen (h : ℕ) (log : List LivenessEntry) : Bool := log.foldl (seen h) false

/-- For how long the host must not have been heard of. -/
def AgentFastLivenessTrackerOptions.period (options : AgentFastLivenessTrackerOptions) (h : ℕ)
    (log : List LivenessEntry) : ℚ :=
  if unseen h log then options.startupGrace else options.silence

def LivenessEntry.isTransition : LivenessEntry → Bool
  | .transition _ => true
  | _ => false

theorem quiet_append {log new : List LivenessEntry} {i h : ℕ} (hi : i < log.length) :
    Quiet (log ++ new) i h ↔ Quiet log i h ∧ ∀ entry ∈ new, entry.ends ≠ some h := by
  constructor
  · intro hquiet
    refine ⟨?_, ?_⟩
    · intro j entry hij hj
      have hlt := lt_length_of_getElem? hj
      exact hquiet j entry hij ((getElem?_append_left hlt).trans hj)
    · intro entry hentry
      obtain ⟨j, hj⟩ := mem_iff_getElem?.mp hentry
      refine hquiet (log.length + j) entry (by omega) ?_
      rw [getElem?_append_right (by omega), Nat.add_sub_cancel_left, hj]
  · rintro ⟨hold, hnew⟩ j entry hij hj
    by_cases hlt : j < log.length
    · rw [getElem?_append_left hlt] at hj
      exact hold j entry hij hj
    · rw [getElem?_append_right (by omega)] at hj
      exact hnew entry (mem_of_getElem? hj)

theorem quiet_last (log : List LivenessEntry) (entry : LivenessEntry) (h : ℕ) :
    Quiet (log ++ [entry]) log.length h := by
  intro j other hj hother
  have hlt := lt_length_of_getElem? hother
  rw [length_append, length_singleton] at hlt
  omega

theorem kindsSince_append (h : ℕ) (log new : List LivenessEntry) :
    kindsSince h (log ++ new) = new.foldl (addKind h) (kindsSince h log) := foldl_append

theorem unseen_append (h : ℕ) (log new : List LivenessEntry) :
    unseen h (log ++ new) = new.foldl (seen h) (unseen h log) := foldl_append

/-- Entries about other hosts. -/
def Elsewhere (h : ℕ) (new : List LivenessEntry) : Prop := ∀ entry ∈ new, entry.hostId ≠ h

variable {new : List LivenessEntry} {h : ℕ}

theorem Elsewhere.foldl {α : Type} (hnew : Elsewhere h new)
    {f : α → LivenessEntry → α} (hf : ∀ a entry, entry.hostId ≠ h → f a entry = a) (a : α) : new.foldl f a = a := by
  induction new with
  | nil => rfl
  | cons entry rest ih =>
    rw [foldl_cons, hf a entry (hnew entry mem_cons_self)]
    exact ih fun other hother => hnew other (mem_cons_of_mem _ hother)

theorem Elsewhere.kindsSince (hnew : Elsewhere h new) (log : List LivenessEntry) :
    kindsSince h (log ++ new) = FastLiveness.kindsSince h log := by
  rw [kindsSince_append]
  refine hnew.foldl ?_ _
  intro kinds entry hne
  cases entry with
  | report | registered => rfl
  | transition event => exact if_neg hne
  | removed hostId => exact if_neg hne

theorem Elsewhere.unseen (hnew : Elsewhere h new) (log : List LivenessEntry) :
    unseen h (log ++ new) = FastLiveness.unseen h log := by
  rw [unseen_append]
  refine hnew.foldl ?_ _
  intro graced entry hne
  cases entry with
  | report hostId t => exact if_neg hne
  | registered hostId startupGrace => exact if_neg hne
  | transition | removed => rfl

theorem LivenessEntry.ends_ne {entry : LivenessEntry} (hne : entry.hostId ≠ h) : entry.ends ≠ some h := by
  cases entry with
  | report | registered => exact nofun
  | transition event => exact fun heq => hne (Option.some.inj heq)
  | removed hostId => exact fun heq => hne (Option.some.inj heq)

theorem alternates_append {kinds : List AgentFastLivenessTransitionKind} (h : Alternates kinds)
    {kind : AgentFastLivenessTransitionKind} (hkind : kind = .confirmedOffline ↔ kinds.length % 2 = 0) :
    Alternates (kinds ++ [kind]) := by
  intro i other hi
  rcases getElem?_concat_iff.mp hi with hold | ⟨rfl, rfl⟩
  · exact h i other hold
  · exact hkind

open AgentFastLivenessTracker

/-! ## What every step keeps -/

section

variable (options : AgentFastLivenessTrackerOptions)

/-- The timer that the state has, if any, is set for it. -/
def Owns (timers : List LivenessTimer) (h : ℕ) (state : MutableAgentFastLivenessState) : Prop :=
  ∀ t ∈ state.timer, ∃ timer, timers[t]? = some timer ∧ timer.hostId = h ∧
    timer.generation = state.timerGeneration ∧ timer.live

/-- Of one host. `current` ties the state's epoch to the last transition told of the host. -/
structure HostKept (timers : List LivenessTimer) (log : List LivenessEntry) (h : ℕ)
    (found : Option MutableAgentFastLivenessState) : Prop where
  named : ∀ state ∈ found, state.hostId = h
  timer : ∀ state ∈ found, Owns timers h state
  armed : ∀ state ∈ found, state.confirmedOffline = false → state.timer.isSome
  deadline : ∀ state ∈ found, ∀ t, .report h t ∈ log → t + options.period h log ≤ state.deadlineAt
  alternates : Alternates (kindsSince h log)
  turn : ∀ state ∈ found, (state.confirmedOffline ↔ (kindsSince h log).length % 2 = 1)
  gone : found = none → kindsSince h log = []
  current : ∀ (i : ℕ) (event : AgentFastLivenessTransition), log[i]? = some (.transition event) → event.hostId = h →
    ((∃ state ∈ found, state.transitionEpoch = event.transitionEpoch) ↔ Quiet log i h)
  kind : ∀ (i : ℕ) (event : AgentFastLivenessTransition), log[i]? = some (.transition event) → event.hostId = h →
    ∀ state ∈ found, state.transitionEpoch = event.transitionEpoch →
      (state.confirmedOffline ↔ event.kind = .confirmedOffline)

variable {options} {timers timers' : List LivenessTimer} {log new : List LivenessEntry} {h : ℕ}
  {found : Option MutableAgentFastLivenessState}

theorem HostKept.frame (hkept : HostKept options timers log h found) (hnew : Elsewhere h new)
    (htimers : ∀ state ∈ found, ∀ t ∈ state.timer, timers'[t]? = timers[t]?) :
    HostKept options timers' (log ++ new) h found where
  named := hkept.named
  timer := by
    intro state hstate t ht
    rw [htimers state hstate t ht]
    exact hkept.timer state hstate t ht
  armed := hkept.armed
  deadline := by
    intro state hstate t ht
    rw [AgentFastLivenessTrackerOptions.period, hnew.unseen]
    rcases mem_append.mp ht with hold | hlate
    · exact hkept.deadline state hstate t hold
    · exact absurd rfl (hnew _ hlate)
  alternates := by
    rw [hnew.kindsSince]
    exact hkept.alternates
  turn := by
    rw [hnew.kindsSince]
    exact hkept.turn
  gone := by
    rw [hnew.kindsSince]
    exact hkept.gone
  current := by
    intro i event hi hhost
    by_cases hlt : i < log.length
    · rw [getElem?_append_left hlt] at hi
      rw [quiet_append hlt, hkept.current i event hi hhost]
      exact ⟨fun hquiet => ⟨hquiet, fun entry hentry => LivenessEntry.ends_ne (hnew entry hentry)⟩, And.left⟩
    · rw [getElem?_append_right (by omega)] at hi
      exact absurd hhost (hnew _ (mem_of_getElem? hi))
  kind := by
    intro i event hi hhost
    by_cases hlt : i < log.length
    · rw [getElem?_append_left hlt] at hi
      exact hkept.kind i event hi hhost
    · rw [getElem?_append_right (by omega)] at hi
      exact absurd hhost (hnew _ (mem_of_getElem? hi))

theorem HostKept.retimed (hkept : HostKept options timers log h found)
    (htimers : ∀ state ∈ found, ∀ t ∈ state.timer, timers'[t]? = timers[t]?) :
    HostKept options timers' log h found := by
  have hframe := hkept.frame (show Elsewhere h [] by simp [Elsewhere]) htimers
  rwa [append_nil] at hframe

variable {state state' : MutableAgentFastLivenessState}

theorem HostKept.rearmed (hkept : HostKept options timers log h (some state)) (hnamed : state'.hostId = h)
    (howns : Owns timers' h state') (harmed : state'.confirmedOffline = false → state'.timer.isSome)
    (hoffline : state'.confirmedOffline = state.confirmedOffline)
    (hepoch : state'.transitionEpoch = state.transitionEpoch) (hdeadline : state'.deadlineAt = state.deadlineAt) :
    HostKept options timers' log h (some state') where
  named := by simpa using hnamed
  timer := by simpa using howns
  armed := by simpa using harmed
  deadline := by simpa [hdeadline] using hkept.deadline
  alternates := hkept.alternates
  turn := by simpa [hoffline] using hkept.turn
  gone := nofun
  current := by simpa [hepoch] using hkept.current
  kind := by simpa [hepoch, hoffline] using hkept.kind

variable {event : AgentFastLivenessTransition}

theorem getElem?_append_entry {entry : LivenessEntry} (hends : entry.ends = none) {i : ℕ}
    (hi : (log ++ [entry])[i]? = some (.transition event)) :
    log[i]? = some (.transition event) ∧ ∀ host, Quiet (log ++ [entry]) i host ↔ Quiet log i host := by
  rcases getElem?_concat_iff.mp hi with hold | ⟨-, hlast⟩
  · refine ⟨hold, fun host => ?_⟩
    rw [quiet_append (lt_length_of_getElem? hold)]
    simp [hends]
  · rw [← hlast] at hends
    cases hends

theorem HostKept.report (hkept : HostKept options timers log h (some state)) (state' : MutableAgentFastLivenessState)
    {now : ℚ}
    (hreports : ∀ t, .report h t ∈ log → t ≤ now) (hnamed : state'.hostId = h) (howns : Owns timers' h state')
    (harmed : state'.confirmedOffline = false → state'.timer.isSome)
    (hoffline : state'.confirmedOffline = state.confirmedOffline)
    (hepoch : state'.transitionEpoch = state.transitionEpoch) (hdeadline : state'.deadlineAt = now + options.silence) :
    HostKept options timers' (log ++ [.report h now]) h (some state') where
  named := by simpa using hnamed
  timer := by simpa using howns
  armed := by simpa using harmed
  deadline := by
    intro found hfound t ht
    obtain rfl := Option.some.inj hfound
    have hseen : options.period h (log ++ [.report h now]) = options.silence := by
      rw [AgentFastLivenessTrackerOptions.period, unseen_append]
      simp [seen]
    have hle : t ≤ now := by
      rcases mem_append.mp ht with hold | hlast
      · exact hreports t hold
      · rw [mem_singleton] at hlast
        cases hlast
        exact le_refl _
    rw [hseen, hdeadline]
    linarith
  alternates := by
    rw [kindsSince_append]
    exact hkept.alternates
  turn := by
    rw [kindsSince_append]
    simpa [hoffline, addKind] using hkept.turn
  gone := nofun
  current := by
    intro i event hi hhost
    obtain ⟨hold, hquiet⟩ := getElem?_append_entry rfl hi
    rw [hquiet]
    simpa [hepoch] using hkept.current i event hold hhost
  kind := by
    intro i event hi hhost
    simpa [hepoch, hoffline] using hkept.kind i event (getElem?_append_entry rfl hi).1 hhost

theorem HostKept.report_none (hkept : HostKept options timers log h none) (now : ℚ) :
    HostKept options timers' (log ++ [.report h now]) h none where
  named := by simp
  timer := by simp
  armed := by simp
  deadline := by simp
  alternates := by
    rw [kindsSince_append]
    exact hkept.alternates
  turn := by simp
  gone hnone := by
    rw [kindsSince_append]
    exact hkept.gone hnone
  current := by
    intro i event hi hhost
    obtain ⟨hold, hquiet⟩ := getElem?_append_entry rfl hi
    rw [hquiet]
    exact hkept.current i event hold hhost
  kind := by simp

theorem HostKept.registered (hkept : HostKept options timers log h none) (state : MutableAgentFastLivenessState)
    {graced : Bool} {now : ℚ} (hreports : ∀ t, .report h t ∈ log → t ≤ now)
    (hepochs : ∀ event, .transition event ∈ log → event.transitionEpoch ≠ state.transitionEpoch)
    (hnamed : state.hostId = h) (howns : Owns timers' h state) (harmed : state.timer.isSome)
    (hoffline : state.confirmedOffline = false)
    (hdeadline : state.deadlineAt = now + (if graced then options.startupGrace else options.silence)) :
    HostKept options timers' (log ++ [.registered h graced]) h (some state) where
  named := by simpa using hnamed
  timer := by simpa using howns
  armed := by simpa using fun _ => harmed
  deadline := by
    intro found hfound t ht
    obtain rfl := Option.some.inj hfound
    have hseen : options.period h (log ++ [.registered h graced])
        = if graced then options.startupGrace else options.silence := by
      rw [AgentFastLivenessTrackerOptions.period, unseen_append]
      simp [seen]
    have hold : .report h t ∈ log := by simpa using ht
    have hle := hreports t hold
    rw [hseen, hdeadline]
    linarith
  alternates := by
    rw [kindsSince_append]
    exact hkept.alternates
  turn := by
    rw [kindsSince_append, hkept.gone rfl]
    simp [hoffline, addKind]
  gone := nofun
  current := by
    intro i event hi hhost
    obtain ⟨hold, hquiet⟩ := getElem?_append_entry rfl hi
    have hne := hepochs event (mem_of_getElem? hold)
    rw [hquiet, ← hkept.current i event hold hhost]
    simp [hne.symm]
  kind := by
    intro i event hi hhost found hfound heq
    obtain rfl := Option.some.inj hfound
    have hold := (getElem?_append_entry rfl hi).1
    exact absurd heq.symm (hepochs event (mem_of_getElem? hold))

theorem HostKept.transition (hkept : HostKept options timers log h (some state))
    (state' : MutableAgentFastLivenessState) (event : AgentFastLivenessTransition) (hnamed : state'.hostId = h)
    (howns : Owns timers' h state') (harmed : state'.confirmedOffline = false → state'.timer.isSome)
    (hflip : state'.confirmedOffline = !state.confirmedOffline) (hdeadline : state'.deadlineAt = state.deadlineAt)
    (hepochs : ∀ event, .transition event ∈ log → event.transitionEpoch ≠ state'.transitionEpoch)
    (hevent : event.toAgentFastLivenessState = state'.toAgentFastLivenessState)
    (hkind : state'.confirmedOffline ↔ event.kind = .confirmedOffline) :
    HostKept options timers' (log ++ [.transition event]) h (some state') := by
  have hhost : event.hostId = h := by
    rw [hevent, hnamed]
  have hkinds : kindsSince h (log ++ [.transition event]) = kindsSince h log ++ [event.kind] := by
    rw [kindsSince_append]
    simp [addKind, hhost]
  have hturn : state.confirmedOffline ↔ (kindsSince h log).length % 2 = 1 := hkept.turn state rfl
  have hparity : state'.confirmedOffline ↔ (kindsSince h log).length % 2 = 0 := by
    rw [hflip, Bool.not_eq_true', ← Bool.not_eq_true, hturn]
    omega
  have hold : ∀ (i : ℕ) (other : AgentFastLivenessTransition),
      (log ++ [.transition event])[i]? = some (.transition other) → i = log.length ∧ other = event ∨
        log[i]? = some (.transition other) ∧ other.transitionEpoch ≠ state'.transitionEpoch := by
    intro i other hi
    rcases getElem?_concat_iff.mp hi with hlog | ⟨hlast, heq⟩
    · exact .inr ⟨hlog, hepochs other (mem_of_getElem? hlog)⟩
    · cases heq
      exact .inl ⟨hlast, rfl⟩
  refine ⟨by simpa using hnamed, by simpa using howns, by simpa using harmed, ?_, ?_, ?_, nofun, ?_, ?_⟩
  · intro found hfound t ht
    obtain rfl := Option.some.inj hfound
    have hperiod : options.period h (log ++ [.transition event]) = options.period h log := by
      rw [AgentFastLivenessTrackerOptions.period, unseen_append]
      rfl
    rw [hperiod, hdeadline]
    exact hkept.deadline state rfl t (by simpa using ht)
  · rw [hkinds]
    exact alternates_append hkept.alternates (hkind.symm.trans hparity)
  · intro found hfound
    obtain rfl := Option.some.inj hfound
    rw [hkinds, length_append, length_singleton, hparity]
    omega
  · intro i other hi hother
    rcases hold i other hi with ⟨rfl, rfl⟩ | ⟨hlog, hne⟩
    · have hepoch : state'.transitionEpoch = other.transitionEpoch := by rw [hevent]
      exact ⟨fun _ => quiet_last log _ h, fun _ => ⟨state', rfl, hepoch⟩⟩
    · constructor
      · rintro ⟨found, hfound, heq⟩
        obtain rfl := Option.some.inj hfound
        exact absurd heq.symm hne
      · -- the new transition comes after it
        intro hquiet
        exact absurd (congrArg some hhost)
          (((quiet_append (lt_length_of_getElem? hlog)).mp hquiet).2 _ mem_cons_self)
  · intro i other hi hother found hfound heq
    obtain rfl := Option.some.inj hfound
    rcases hold i other hi with ⟨-, rfl⟩ | ⟨-, hne⟩
    · exact hkind
    · exact absurd heq.symm hne

theorem hostKept_removed (options : AgentFastLivenessTrackerOptions) (timers : List LivenessTimer)
    (log : List LivenessEntry) (h : ℕ) : HostKept options timers (log ++ [.removed h]) h none := by
  have hkinds : kindsSince h (log ++ [.removed h]) = [] := by
    rw [kindsSince_append]
    simp [addKind]
  refine ⟨by simp, by simp, by simp, by simp, ?_, by simp, fun _ => hkinds, ?_, by simp⟩
  · rw [hkinds]
    simp [Alternates]
  · intro i event hi hhost
    rcases getElem?_concat_iff.mp hi with hlog | ⟨-, heq⟩
    · constructor
      · rintro ⟨state, hstate, -⟩
        cases hstate
      · intro hquiet
        exact absurd rfl (((quiet_append (lt_length_of_getElem? hlog)).mp hquiet).2 _ mem_cons_self)
    · cases heq

variable (options)

/-- `silent` is about the moment a loss is told, when the log ended at its place. -/
structure Kept (w : AgentFastLivenessTracker) : Prop where
  host : ∀ h, HostKept options w.timers w.log h (w.hosts.get h)
  reports : ∀ h t, .report h t ∈ w.log → t ≤ w.clock
  epochs : ∀ event, .transition event ∈ w.log →
    0 < event.transitionEpoch ∧ event.transitionEpoch ≤ w.transitionEpochCounter
  count : w.transitionEpochCounter = w.log.countP LivenessEntry.isTransition
  silent : ∀ (i : ℕ) (event : AgentFastLivenessTransition), w.log[i]? = some (.transition event) →
    event.kind = .confirmedOffline → ∃ offlineAt ∈ event.offlineAt, ∀ t, .report event.hostId t ∈ w.log.take i →
      t + options.period event.hostId (w.log.take i) ≤ offlineAt

variable {options} {w w' : AgentFastLivenessTracker}

theorem Kept.about (hkept : Kept options w) (h : ℕ) (new : List LivenessEntry) (hlog : w'.log = w.log ++ new) (hnew : ∀ entry ∈ new, entry.hostId = h)
    (hhost : HostKept options w'.timers w'.log h (w'.hosts.get h))
    (hothers : ∀ other, other ≠ h → w'.hosts.get other = w.hosts.get other)
    (htimers : ∀ (t : ℕ) (timer : LivenessTimer), w.timers[t]? = some timer → timer.hostId ≠ h →
      w'.timers[t]? = some timer)
    (hclock : w.clock ≤ w'.clock) (hreports : ∀ t, .report h t ∈ new → t ≤ w'.clock)
    (hcount : w'.transitionEpochCounter = w.transitionEpochCounter + new.countP LivenessEntry.isTransition)
    (hepoch : ∀ event, .transition event ∈ new → event.transitionEpoch = w'.transitionEpochCounter)
    (hsilent : ∀ event, .transition event ∈ new → event.kind = .confirmedOffline → new = [.transition event] ∧
      ∃ offlineAt ∈ event.offlineAt, ∀ t, .report h t ∈ w.log → t + options.period h w.log ≤ offlineAt) :
    Kept options w' where
  host := by
    intro other
    by_cases heq : other = h
    · subst heq
      exact hhost
    · rw [hothers other heq, hlog]
      refine (hkept.host other).frame ?_ ?_
      · intro entry hentry hentryHost
        exact heq (hentryHost.symm.trans (hnew entry hentry))
      · intro state hstate t ht
        obtain ⟨timer, htimer, htimerHost, -⟩ := (hkept.host other).timer state hstate t ht
        rw [htimer]
        exact htimers t timer htimer (htimerHost ▸ heq)
  reports := by
    intro host t ht
    rw [hlog] at ht
    rcases mem_append.mp ht with hold | hlate
    · exact (hkept.reports host t hold).trans hclock
    · obtain rfl := hnew _ hlate
      exact hreports t hlate
  epochs := by
    intro event hevent
    rw [hlog] at hevent
    rcases mem_append.mp hevent with hold | hlate
    · obtain ⟨hpos, hle⟩ := hkept.epochs event hold
      exact ⟨hpos, by omega⟩
    · have hpositive : 0 < new.countP LivenessEntry.isTransition := countP_pos_iff.mpr ⟨_, hlate, rfl⟩
      rw [hepoch event hlate]
      omega
  count := by
    rw [hcount, hlog, countP_append, hkept.count]
  silent := by
    intro i event hi hkind
    rw [hlog] at hi ⊢
    by_cases hlt : i < w.log.length
    · rw [getElem?_append_left hlt] at hi
      rw [take_append_of_le_length hlt.le]
      exact hkept.silent i event hi hkind
    · rw [getElem?_append_right (by omega)] at hi
      have hmem := mem_of_getElem? hi
      obtain ⟨rfl, hquiet⟩ := hsilent event hmem hkind
      have hlen := lt_length_of_getElem? hi
      rw [length_singleton] at hlen
      have hlast : i = w.log.length := by omega
      obtain rfl : event.hostId = h := hnew _ hmem
      rw [hlast, take_left]
      exact hquiet

theorem getElem?_clearTimer {timers : List LivenessTimer} {slot : Option ℕ} {t : ℕ} (hne : slot ≠ some t) :
    (clearTimer timers slot)[t]? = timers[t]? := by
  cases slot with
  | none => rfl
  | some own =>
    refine getElem?_modify_ne _ _ ?_
    rintro rfl
    exact hne rfl

theorem getElem?_timers (hkept : Kept options w) {state : MutableAgentFastLivenessState}
    (hget : w.hosts.get h = some state) (added : List LivenessTimer) {t : ℕ} {timer : LivenessTimer}
    (ht : w.timers[t]? = some timer) (hne : timer.hostId ≠ h) :
    (clearTimer w.timers state.timer ++ added)[t]? = some timer := by
  have hnot : state.timer ≠ some t := by
    intro hown
    obtain ⟨owned, howned, hhost, -⟩ := (hkept.host h).timer state hget t hown
    rw [ht] at howned
    obtain rfl := Option.some.inj howned
    exact hne hhost
  have hsame := (getElem?_clearTimer hnot).trans ht
  rw [getElem?_append_left (lt_length_of_getElem? hsame), hsame]

theorem owns_armed (timers : List LivenessTimer) (hnamed : state.hostId = h) (delayMs : ℚ) :
    Owns (timers ++ [⟨state.hostId, state.timerGeneration, delayMs, true⟩]) h
      { state with timer := some timers.length } := by
  intro t ht
  obtain rfl := Option.some.inj ht
  exact ⟨_, getElem?_concat_iff.mpr (.inr ⟨rfl, rfl⟩), hnamed, rfl, rfl⟩

def AgentFastLivenessTracker.transitions (w : AgentFastLivenessTracker) : ℕ :=
  w.log.countP LivenessEntry.isTransition

theorem Kept.nextGeneration_eq (hkept : Kept options w) (hroom : w.transitions + 1 < 2 ^ 53) :
    nextGeneration w.transitionEpochCounter = w.transitionEpochCounter + 1 := by
  have hcount : w.transitionEpochCounter = w.transitions := hkept.count
  rw [nextGeneration, if_neg (by omega)]

theorem Kept.epoch_ne (hkept : Kept options w)
    (hevent : .transition event ∈ w.log) {epoch : ℕ} (hepoch : epoch = w.transitionEpochCounter + 1) :
    event.transitionEpoch ≠ epoch := by
  have hle := (hkept.epochs event hevent).2
  omega

section

variable {now later : ℚ}

theorem get_arm_self (w : AgentFastLivenessTracker) (hnamed : state.hostId = h) (later : ℚ) :
    (w.arm state later).hosts.get h = some { state with timer := some w.timers.length } := by
  rw [arm, JsMap.get_set, if_pos hnamed.symm]

theorem get_arm_other (hnamed : state.hostId = h) {other : ℕ} (hne : other ≠ h) (later : ℚ) :
    (w.arm state later).hosts.get other = w.hosts.get other := by
  rw [arm, JsMap.get_set, if_neg (hnamed ▸ hne)]

theorem Kept.observeActivity (hkept : Kept options w) (h : ℕ) (seenAt : Option ℚ) (hnow : w.clock ≤ now)
    (hlater : now ≤ later) (hroom : (w.observeActivity options h seenAt now later).transitions < 2 ^ 53) :
    Kept options (w.observeActivity options h seenAt now later) := by
  have hreports : ∀ t, .report h t ∈ w.log → t ≤ now := fun t ht => (hkept.reports h t ht).trans hnow
  unfold AgentFastLivenessTracker.observeActivity at hroom ⊢
  dsimp only [report] at hroom ⊢
  cases hget : w.hosts.get h with
  | none =>
    have hhost := hkept.host h
    rw [hget] at hhost
    refine hkept.about h [.report h now] rfl ?_ ?_ (fun _ _ => rfl) (fun _ _ ht _ => ht)
      (hnow.trans hlater) ?_ ?_ ?_ ?_
    · simp [LivenessEntry.hostId]
    · dsimp only
      rw [hget]
      exact hhost.report_none now
    · intro t ht
      simp only [mem_singleton, LivenessEntry.report.injEq, true_and] at ht
      exact ht ▸ hlater
    · rfl
    · simp
    · simp
  | some state =>
    have hhost := hkept.host h
    rw [hget] at hhost
    have hnamed : state.hostId = h := hhost.named state rfl
    simp only [hget] at hroom ⊢
    have hheard : ∀ epoch, (heard options state seenAt now epoch).hostId = h := fun _ => hnamed
    cases hoffline : state.confirmedOffline with
    | false =>
      simp only [hoffline, Bool.false_eq_true, if_false] at hroom ⊢
      refine hkept.about h [.report h now] rfl ?_ ?_ ?_ ?_ (hnow.trans hlater) ?_ ?_ ?_ ?_
      · simp [LivenessEntry.hostId]
      · rw [get_arm_self _ (hheard _)]
        refine hhost.report _ hreports hnamed ?_ (fun _ => rfl) hoffline.symm rfl rfl
        exact owns_armed _ (hheard state.transitionEpoch) _
      · exact fun other hne => get_arm_other (hheard _) hne later
      · exact fun t timer ht hne => getElem?_timers hkept hget _ ht hne
      · intro t ht
        simp only [mem_singleton, LivenessEntry.report.injEq, true_and] at ht
        exact ht ▸ hlater
      · rfl
      · simp
      · simp
    | true =>
      simp only [hoffline, if_true] at hroom ⊢
      have hepoch : nextGeneration w.transitionEpochCounter = w.transitionEpochCounter + 1 := by
        refine hkept.nextGeneration_eq ?_
        simpa [transitions, emit, arm,
          LivenessEntry.isTransition] using hroom
      rw [hepoch]
      have hheard' := hheard (w.transitionEpochCounter + 1)
      generalize hobserved : heard options state seenAt now (w.transitionEpochCounter + 1)
        = observed at *
      refine hkept.about h [.report h now, .transition _] (append_assoc ..) ?_ ?_ ?_ ?_
        (hnow.trans hlater) ?_ ?_ ?_ ?_
      · simp [LivenessEntry.hostId, hheard']
      · -- the report first, with the host still offline, and then the transition
        have howns := owns_armed (clearTimer w.timers state.timer) hheard'
          (max 0 (observed.deadlineAt - later))
        have hreported := hhost.report { observed with
            confirmedOffline := true, transitionEpoch := state.transitionEpoch, timer := some _ }
          hreports hheard' howns (by simp) hoffline.symm rfl (by rw [← hobserved]; rfl)
        have htold := hreported.transition { observed with timer := some _ }
          ⟨observed.toAgentFastLivenessState, .activityRestored⟩ hheard' howns (fun _ => rfl)
          (by rw [← hobserved]; rfl) rfl ?_ rfl (by rw [← hobserved]; simp [heard])
        · rw [emit]
          dsimp only
          rw [get_arm_self _ hheard']
          exact htold
        · intro event hevent
          have hold : .transition event ∈ w.log := by simpa using hevent
          exact hkept.epoch_ne hold (by rw [← hobserved]; rfl)
      · exact fun other hne => get_arm_other hheard' hne later
      · exact fun t timer ht hne => getElem?_timers hkept hget _ ht hne
      · intro t ht
        have heq : t = now := by simpa using ht
        exact heq ▸ hlater
      · rfl
      · intro event hevent
        obtain rfl : event = _ := by simpa using hevent
        rw [← hobserved]
        rfl
      · intro event hevent hkind
        obtain rfl : event = _ := by simpa using hevent
        cases hkind

theorem Kept.removeHost (hkept : Kept options w) (h : ℕ) : Kept options (w.removeHost h) := by
  unfold AgentFastLivenessTracker.removeHost
  split
  · exact hkept
  · rename_i state hget
    refine hkept.about h [.removed h] rfl ?_ ?_ ?_ ?_ (le_refl _) ?_ rfl ?_ ?_
    · simp [LivenessEntry.hostId]
    · have hgone : (w.hosts.delete h).get h = none := by
        rw [JsMap.get_delete, if_pos rfl]
      rw [hgone]
      exact hostKept_removed options _ w.log h
    · intro other hne
      rw [JsMap.get_delete, if_neg hne]
    · intro t timer ht hne
      simpa using getElem?_timers hkept hget [] ht hne
    · simp
    · simp
    · simp

theorem Kept.waits (hkept : Kept options w) (hlater : w.clock ≤ later) : Kept options { w with clock := later } where
  host := hkept.host
  reports h t ht := (hkept.reports h t ht).trans hlater
  epochs := hkept.epochs
  count := hkept.count
  silent := hkept.silent

theorem Kept.addHost (hkept : Kept options w) (hget : w.hosts.get h = none) (agentVersion : JsString)
    (host : AgentFastLivenessHost) (startupGrace : Bool) (activityAt : Option (Option ℚ)) (hnow : w.clock ≤ now)
    (hlater : now ≤ later) :
    Kept options (w.addHost options h agentVersion host startupGrace activityAt now later) := by
  have hreports : ∀ t, .report h t ∈ w.log → t ≤ now := fun t ht => (hkept.reports h t ht).trans hnow
  have hhost := hkept.host h
  rw [hget] at hhost
  have hepochs : ∀ event, .transition event ∈ w.log → event.transitionEpoch ≠ 0 :=
    fun event hevent => Nat.pos_iff_ne_zero.mp (hkept.epochs event hevent).1
  unfold AgentFastLivenessTracker.addHost
  generalize activityAt.map (fun value => (normalizedTimestamp value now).getD now) = seenAt
  have hnamed : (newState options h agentVersion host startupGrace seenAt now).hostId = h := rfl
  refine hkept.about h (.registered h _ :: _) rfl ?_ ?_ ?_ ?_ (hnow.trans hlater) ?_ ?_ ?_ ?_
  · cases seenAt <;> simp [LivenessEntry.hostId]
  · rw [get_arm_self _ hnamed]
    have howns := owns_armed w.timers hnamed
      (max 0 ((newState options h agentVersion host startupGrace seenAt now).deadlineAt - later))
    have hregistered := hhost.registered { newState options h agentVersion host
      startupGrace seenAt now with timer := some w.timers.length } hreports hepochs rfl howns rfl rfl rfl
    cases seenAt with
    | none => exact hregistered
    | some seenAt =>
      have hreported := hregistered.report { newState options h agentVersion host
        startupGrace (some seenAt) now with timer := some w.timers.length } ?_ rfl howns (fun _ => rfl) rfl
        rfl (show _ = now + options.silence by simp [newState])
      · rw [append_assoc] at hreported
        exact hreported
      · intro t ht
        simp only [mem_append, mem_singleton, reduceCtorEq, or_false] at ht
        exact hreports t ht
  · exact fun other hne => get_arm_other hnamed hne later
  · intro t timer ht _
    exact getElem?_concat_of_some ht
  · intro t ht
    have heq : t = now := by
      cases seenAt with
      | none => simp at ht
      | some seenAt => simpa using ht
    exact heq ▸ hlater
  · cases seenAt <;> rfl
  · cases seenAt <;> simp
  · cases seenAt <;> simp

theorem Kept.reject (hkept : Kept options w) (h : ℕ) (reported : Bool) (hnow : w.clock ≤ now) (hlater : now ≤ later) :
    Kept options { (if reported then w.report h now else w).removeHost h with clock := later } := by
  cases reported with
  | false => exact (hkept.removeHost h).waits (by
      unfold AgentFastLivenessTracker.removeHost
      split <;> exact hnow.trans hlater)
  | true =>
    have hhost := hkept.host h
    simp only [if_true]
    unfold AgentFastLivenessTracker.removeHost report
    dsimp only
    have hle : ∀ (t : ℚ) (rest : List LivenessEntry), (∀ t', .report h t' ∉ rest) →
        .report h t ∈ LivenessEntry.report h now :: rest → t ≤ later := by
      intro t rest hrest ht
      rcases mem_cons.mp ht with heq | hmem
      · cases heq
        exact hlater
      · exact absurd hmem (hrest t)
    split
    · rename_i hget
      rw [hget] at hhost
      refine hkept.about h [.report h now] rfl ?_ ?_ (fun _ _ => rfl) (fun _ _ ht _ => ht)
        (hnow.trans hlater) (fun t => hle t [] (by simp)) rfl ?_ ?_
      · simp [LivenessEntry.hostId]
      · dsimp only
        rw [hget]
        exact hhost.report_none now
      · simp
      · simp
    · rename_i state hget
      refine hkept.about h [.report h now, .removed h] (append_assoc ..) ?_ ?_ ?_ ?_
        (hnow.trans hlater) (fun t => hle t [.removed h] (by simp)) rfl ?_ ?_
      · simp [LivenessEntry.hostId]
      · dsimp only
        rw [JsMap.get_delete, if_pos rfl]
        exact hostKept_removed options _ (w.log ++ [.report h now]) h
      · intro other hne
        rw [JsMap.get_delete, if_neg hne]
      · intro t timer ht hne
        simpa using getElem?_timers hkept hget [] ht hne
      · simp
      · simp

theorem Kept.renamed (hkept : Kept options w) {existing : MutableAgentFastLivenessState}
    (hget : w.hosts.get h = some existing) (agentVersion : JsString) :
    Kept options { w with hosts := w.hosts.set h { existing with agentVersion } } := by
  have hhost := hkept.host h
  rw [hget] at hhost
  have hnamed : existing.hostId = h := hhost.named existing rfl
  refine hkept.about h [] (append_nil _).symm (by simp) ?_ ?_ (fun _ _ ht _ => ht) (le_refl _)
    (by simp) rfl (by simp) (by simp)
  · dsimp only
    rw [JsMap.get_set, if_pos rfl]
    exact hhost.rearmed hnamed (hhost.timer existing rfl) (hhost.armed existing rfl) rfl rfl rfl
  · intro other hne
    rw [JsMap.get_set, if_neg hne]

theorem Kept.registerHost (hkept : Kept options w) (host : AgentFastLivenessHost) (startupGrace : Bool)
    (activityAt : Option (Option ℚ)) (hnow : w.clock ≤ now) (hlater : now ≤ later)
    (hroom : (w.registerHost options host startupGrace activityAt now later).transitions < 2 ^ 53) :
    Kept options (w.registerHost options host startupGrace activityAt now later) := by
  unfold AgentFastLivenessTracker.registerHost at hroom ⊢
  dsimp only at hroom ⊢
  split
  · exact hkept.waits (hnow.trans hlater)
  · rename_i hid
    rw [if_neg hid] at hroom
    split
    · exact hkept.reject _ activityAt.isSome hnow hlater
    · rename_i hsupported
      rw [if_neg hsupported] at hroom
      split
      · rename_i existing hget
        rw [hget] at hroom
        dsimp only at hroom
        split
        · exact (hkept.renamed hget _).waits (hnow.trans hlater)
        · exact (hkept.renamed hget _).observeActivity _ _ hnow hlater hroom
      · rename_i hget
        exact hkept.addHost hget _ host startupGrace activityAt hnow hlater

theorem Kept.registerPresenceCapableHost (hkept : Kept options w) (hostId : JsNumber) (seenAt : Option ℚ)
    (hnow : w.clock ≤ now) (hlater : now ≤ later)
    (hroom : (w.registerPresenceCapableHost options hostId seenAt now later).transitions < 2 ^ 53) :
    Kept options (w.registerPresenceCapableHost options hostId seenAt now later) := by
  unfold AgentFastLivenessTracker.registerPresenceCapableHost at hroom ⊢
  split
  · rename_i hhas
    rw [if_pos hhas] at hroom
    exact hkept.observeActivity _ _ hnow hlater hroom
  · rename_i hhas
    rw [if_neg hhas] at hroom
    exact hkept.registerHost _ _ _ hnow hlater hroom

theorem Kept.fire (hkept : Kept options w) (t : ℕ) (hnow : w.clock ≤ now) (hlater : now ≤ later)
    (hroom : (w.fire t now later).transitions < 2 ^ 53) : Kept options (w.fire t now later) := by
  unfold AgentFastLivenessTracker.fire at hroom ⊢
  cases htimer : w.timers[t]? with
  | none => exact hkept.waits (hnow.trans hlater)
  | some timer =>
    simp only [htimer] at hroom ⊢
    have hothers : ∀ (added : List LivenessTimer) (i : ℕ) (other : LivenessTimer), w.timers[i]? = some other →
        other.hostId ≠ timer.hostId →
        (clearTimer w.timers (some t) ++ added)[i]? = some other := by
      intro added i other hi hne
      have hit : some t ≠ some i := by
        rintro heq
        obtain rfl := Option.some.inj heq
        exact hne (congrArg LivenessTimer.hostId (Option.some.inj (hi.symm.trans htimer)))
      have hsame := (getElem?_clearTimer hit).trans hi
      rw [getElem?_append_left (lt_length_of_getElem? hsame), hsame]
    have hhost := hkept.host timer.hostId
    cases hget : w.hosts.get timer.hostId with
    | none =>
      rw [hget] at hhost
      refine hkept.about timer.hostId [] (append_nil _).symm (by simp) ?_ (fun _ _ => rfl) ?_
        (hnow.trans hlater) (by simp) rfl (by simp) (by simp)
      · dsimp only
        rw [hget]
        exact hhost.retimed (by simp)
      · simpa using hothers []
    | some current =>
      rw [hget] at hhost
      have hnamed : current.hostId = timer.hostId := hhost.named current rfl
      simp only [hget] at hroom ⊢
      split
      · -- the timer of the state, if it has one, is another
        rename_i hstale
        refine hkept.about timer.hostId [] (append_nil _).symm (by simp) ?_ (fun _ _ => rfl) ?_
          (hnow.trans hlater) (by simp) rfl (by simp) (by simp)
        · dsimp only
          rw [hget]
          refine hhost.retimed ?_
          intro state hstate own hown
          obtain rfl := Option.some.inj hstate
          refine getElem?_clearTimer ?_
          rintro heq
          obtain rfl := Option.some.inj heq
          obtain ⟨owned, howned, -, hgeneration, -⟩ := hhost.timer current rfl t hown
          rw [htimer] at howned
          obtain rfl := Option.some.inj howned
          exact hstale.elim (fun hne => hne hgeneration.symm) fun hne => hne hown
        · simpa using hothers []
      · rename_i hown
        rw [if_neg hown] at hroom
        split
        · -- too early: the timer is set again
          refine hkept.about timer.hostId [] (append_nil _).symm (by simp) ?_ ?_
            (hothers _) (hnow.trans hlater) (by simp) rfl (by simp) (by simp)
          · rw [get_arm_self _ (by exact hnamed)]
            exact hhost.rearmed hnamed (owns_armed _ (by exact hnamed) _) (fun _ => rfl) rfl rfl rfl
          · exact fun other hne => get_arm_other (by exact hnamed) hne later
        · rename_i hdue
          rw [if_neg hdue] at hroom
          split
          · rename_i hoffline
            refine hkept.about timer.hostId [] (append_nil _).symm (by simp) ?_ ?_ ?_
              (hnow.trans hlater) (by simp) rfl (by simp) (by simp)
            · dsimp only
              rw [JsMap.get_set, if_pos rfl]
              refine hhost.rearmed hnamed (by rintro _ ⟨⟩) ?_ rfl rfl rfl
              intro hnot
              rw [show current.confirmedOffline = false from hnot] at hoffline
              cases hoffline
            · intro other hne
              rw [JsMap.get_set, if_neg hne]
            · simpa using hothers []
          · -- **silent for too long**
            rename_i hoffline
            rw [if_neg hoffline] at hroom
            have hepoch : nextGeneration w.transitionEpochCounter = w.transitionEpochCounter + 1 := by
              refine hkept.nextGeneration_eq ?_
              simpa [transitions, emit,
                LivenessEntry.isTransition] using hroom
            rw [hepoch]
            refine hkept.about timer.hostId [.transition _] rfl ?_ ?_ ?_ ?_ (hnow.trans hlater)
              (by simp) rfl ?_ ?_
            · simp [LivenessEntry.hostId, confirm, hnamed]
            · have hnew : ∀ event, .transition event ∈ w.log →
                  event.transitionEpoch ≠ w.transitionEpochCounter + 1 :=
                fun event hevent => hkept.epoch_ne hevent rfl
              rw [emit]
              dsimp only
              rw [JsMap.get_set, if_pos rfl]
              refine hhost.transition (confirm { current with timer := none } later
                (w.transitionEpochCounter + 1)) _ hnamed (by rintro _ ⟨⟩) (by rintro ⟨⟩) ?_ rfl hnew rfl ?_
              · simp [confirm, hoffline]
              · simp [confirm]
            · intro other hne
              exact (JsMap.get_set ..).trans (if_neg hne)
            · simpa [emit] using hothers []
            · intro event hevent
              obtain rfl : event = _ := by simpa using hevent
              rfl
            · intro event hevent _
              obtain rfl : event = _ := by simpa using hevent
              refine ⟨rfl, later, rfl, ?_⟩
              intro reportedAt hreported
              have hdeadline := hhost.deadline current rfl reportedAt hreported
              rw [not_lt] at hdue
              exact hdeadline.trans (hdue.trans hlater)

theorem Kept.clear (hkept : Kept options w) : Kept options w.clear := by
  have hremoved : ∀ entry ∈ w.hosts.entries.map fun entry => LivenessEntry.removed entry.1,
      ∃ h, entry = .removed h := by
    intro entry hentry
    obtain ⟨e, -, rfl⟩ := mem_map.mp hentry
    exact ⟨e.1, rfl⟩
  have hno : ∀ event, LivenessEntry.transition event ∉ w.hosts.entries.map fun entry => LivenessEntry.removed entry.1 := by
    intro event hevent
    obtain ⟨h, heq⟩ := hremoved _ hevent
    cases heq
  have hlog : w.clear.log = w.log ++ w.hosts.entries.map fun entry => LivenessEntry.removed entry.1 := rfl
  refine ⟨?_, ?_, ?_, ?_, ?_⟩
  · intro h
    have hnone : w.clear.hosts.get h = none := rfl
    rw [hnone, hlog]
    by_cases hmem : h ∈ w.hosts.entries.map Prod.fst
    · -- its entry is followed by those of other hosts
      obtain ⟨⟨h', state⟩, hentry, rfl⟩ := mem_map.mp hmem
      obtain ⟨before, after, hsplit⟩ := append_of_mem hentry
      have hnodup := w.hosts.nodup
      rw [hsplit, map_append, map_cons, nodup_append] at hnodup
      have hafter := (nodup_cons.mp hnodup.2.1).1
      rw [hsplit, map_append, map_cons, ← singleton_append, ← append_assoc, ← append_assoc]
      refine (hostKept_removed options w.timers _ h').frame ?_ (by simp)
      intro entry hother heq
      obtain ⟨other, hin, rfl⟩ := mem_map.mp hother
      exact hafter (mem_map.mpr ⟨other, hin, heq⟩)
    · have hhost := hkept.host h
      have hget : w.hosts.get h = none := by
        rw [Option.eq_none_iff_forall_ne_some]
        intro state hstate
        exact hmem (mem_map.mpr ⟨_, JsMap.get_eq_some_iff.mp hstate, rfl⟩)
      rw [hget] at hhost
      refine hhost.frame ?_ (by simp)
      intro entry hother heq
      obtain ⟨other, hin, rfl⟩ := mem_map.mp hother
      exact hmem (mem_map.mpr ⟨other, hin, heq⟩)
  · intro h t ht
    rcases mem_append.mp (hlog ▸ ht) with hold | hlate
    · exact hkept.reports h t hold
    · obtain ⟨h', heq⟩ := hremoved _ hlate
      cases heq
  · intro event hevent
    rcases mem_append.mp (hlog ▸ hevent) with hold | hlate
    · exact hkept.epochs event hold
    · exact absurd hlate (hno event)
  · have hzero : (w.hosts.entries.map fun entry => LivenessEntry.removed entry.1).countP LivenessEntry.isTransition
        = 0 := by
      rw [countP_eq_zero]
      intro entry hentry
      obtain ⟨h, rfl⟩ := hremoved entry hentry
      exact Bool.false_ne_true
    rw [hlog, countP_append, hzero]
    exact hkept.count
  · intro i event hi hkind
    rw [hlog] at hi ⊢
    by_cases hlt : i < w.log.length
    · rw [getElem?_append_left hlt] at hi
      rw [take_append_of_le_length hlt.le]
      exact hkept.silent i event hi hkind
    · rw [getElem?_append_right (by omega)] at hi
      exact absurd (mem_of_getElem? hi) (hno event)

end

end

/-! ## Every run -/

section

variable {options : AgentFastLivenessTrackerOptions} {w : AgentFastLivenessTracker}

open AgentFastLivenessTracker

theorem log_removeHost (w : AgentFastLivenessTracker) (h : ℕ) : w.log <+: (w.removeHost h).log := by
  unfold removeHost
  split
  · exact prefix_rfl
  · exact prefix_append _ _

theorem log_observeActivity (w : AgentFastLivenessTracker) (h : ℕ) (seenAt : Option ℚ) (now later : ℚ) :
    w.log <+: (w.observeActivity options h seenAt now later).log := by
  unfold observeActivity
  dsimp only [report]
  split
  · exact prefix_append _ _
  · split
    · exact (prefix_append _ _).trans (prefix_append _ _)
    · exact prefix_append _ _

theorem log_registerHost (w : AgentFastLivenessTracker) (host : AgentFastLivenessHost) (startupGrace : Bool)
    (activityAt : Option (Option ℚ)) (now later : ℚ) :
    w.log <+: (w.registerHost options host startupGrace activityAt now later).log := by
  unfold registerHost
  dsimp only
  split
  · exact prefix_rfl
  · split
    · refine List.IsPrefix.trans ?_ (log_removeHost _ _)
      split
      · exact prefix_append _ _
      · exact prefix_rfl
    · split
      · split
        · exact prefix_rfl
        · generalize hrenamed : AgentFastLivenessTracker.mk _ _ _ _ _ = renamed
          have hlog : w.log = renamed.log := by rw [← hrenamed]
          rw [hlog]
          exact log_observeActivity renamed _ _ _ _
      · exact prefix_append _ _

theorem clock_registerHost (w : AgentFastLivenessTracker) (host : AgentFastLivenessHost) (startupGrace : Bool)
    (now later : ℚ) : (w.registerHost options host startupGrace none now later).clock = later := by
  unfold registerHost
  dsimp only
  split
  · rfl
  · split
    · rfl
    · split
      · rfl
      · rfl

theorem log_primeHosts (hosts : List (AgentFastLivenessHost × ℚ × ℚ)) :
    ∀ w : AgentFastLivenessTracker, w.log <+: (w.primeHosts options hosts).log := by
  induction hosts with
  | nil => intro w; exact prefix_rfl
  | cons entry rest ih => intro w; exact (log_registerHost w _ _ _ _ _).trans (ih _)

theorem log_step (w : AgentFastLivenessTracker) (e : LivenessEvent) : w.log <+: (stepLiveness options w e).log := by
  cases e with
  | registerHost host startupGrace activityAt now later => exact log_registerHost w host startupGrace activityAt now later
  | primeHosts hosts => exact log_primeHosts hosts w
  | registerPresenceCapableHost hostId seenAt now later =>
    unfold stepLiveness registerPresenceCapableHost
    dsimp only
    split
    · exact log_observeActivity w _ _ _ _
    · exact log_registerHost w _ _ _ _ _
  | observeActivity hostId seenAt now later =>
    unfold stepLiveness
    dsimp only
    split
    · exact prefix_rfl
    · exact log_observeActivity w _ _ _ _
  | removeHost hostId =>
    unfold stepLiveness
    dsimp only
    split
    · exact prefix_rfl
    · exact log_removeHost w _
  | clear => exact prefix_append _ _
  | fire t now later =>
    unfold stepLiveness fire
    dsimp only
    split
    · exact prefix_rfl
    · split
      · exact prefix_rfl
      · split
        · exact prefix_rfl
        · split
          · exact prefix_rfl
          · split
            · exact prefix_rfl
            · exact prefix_append _ _

theorem transitions_le {w w' : AgentFastLivenessTracker} (h : w.log <+: w'.log) : w.transitions ≤ w'.transitions := by
  obtain ⟨new, hnew⟩ := h
  rw [transitions, transitions, ← hnew, countP_append]
  exact Nat.le_add_right _ _

theorem Kept.primeHosts (hosts : List (AgentFastLivenessHost × ℚ × ℚ)) :
    ∀ {w : AgentFastLivenessTracker}, Kept options w →
      (w.clock :: hosts.flatMap fun entry => [entry.2.1, entry.2.2]).Pairwise (· ≤ ·) →
      (w.primeHosts options hosts).transitions < 2 ^ 53 → Kept options (w.primeHosts options hosts) := by
  induction hosts with
  | nil => exact fun hkept _ _ => hkept
  | cons entry rest ih =>
    intro w hkept hclock hroom
    obtain ⟨host, now, later⟩ := entry
    have hafter : (w.registerHost options host true none now later).transitions < 2 ^ 53 :=
      lt_of_le_of_lt (transitions_le (log_primeHosts rest _)) hroom
    rw [flatMap_cons] at hclock
    obtain ⟨hfirst, hrest⟩ := pairwise_cons.mp hclock
    obtain ⟨hsecond, hrest⟩ := pairwise_cons.mp hrest
    have hregistered := hkept.registerHost host true none (hfirst now (by simp)) (hsecond later (by simp)) hafter
    refine ih hregistered ?_ hroom
    rw [clock_registerHost]
    exact hrest

theorem Kept.step {e : LivenessEvent} (hkept : Kept options w) (hclock : ClockKeeps w e)
    (hroom : (stepLiveness options w e).transitions < 2 ^ 53) : Kept options (stepLiveness options w e) := by
  have htwo : ∀ {now later : ℚ}, e.readings = [now, later] → w.clock ≤ now ∧ now ≤ later := by
    intro now later hreadings
    rw [ClockKeeps, hreadings] at hclock
    simp only [pairwise_cons, mem_cons] at hclock
    exact ⟨hclock.1 now (by simp), hclock.2.1 later (by simp)⟩
  cases e with
  | registerHost host startupGrace activityAt now later =>
    exact hkept.registerHost host startupGrace activityAt (htwo rfl).1 (htwo rfl).2 hroom
  | primeHosts hosts => exact Kept.primeHosts hosts hkept hclock hroom
  | registerPresenceCapableHost hostId seenAt now later =>
    exact hkept.registerPresenceCapableHost hostId seenAt (htwo rfl).1 (htwo rfl).2 hroom
  | observeActivity hostId seenAt now later =>
    unfold stepLiveness at hroom ⊢
    dsimp only at hroom ⊢
    split
    · exact hkept.waits ((htwo rfl).1.trans (htwo rfl).2)
    · rename_i hid
      rw [if_neg hid] at hroom
      exact hkept.observeActivity _ seenAt (htwo rfl).1 (htwo rfl).2 hroom
  | removeHost hostId =>
    unfold stepLiveness
    dsimp only
    split
    · exact hkept
    · exact hkept.removeHost _
  | clear => exact hkept.clear
  | fire t now later => exact hkept.fire t (htwo rfl).1 (htwo rfl).2 hroom

theorem Kept.begin (options : AgentFastLivenessTrackerOptions) : Kept options {} where
  host h := by
    refine ⟨by simp, by simp, by simp, by simp, ?_, by simp, fun _ => rfl, by simp, by simp⟩
    simp [Alternates, kindsSince]
  reports := by simp
  epochs := by simp
  count := rfl
  silent := by simp

theorem kept_of_run {events : List LivenessEvent} (h : Admissible ClockKeeps (stepLiveness options) {} events)
    (hroom : (run (stepLiveness options) {} events).transitions < 2 ^ 53) :
    Kept options (run (stepLiveness options) {} events) := by
  have hrun := run_invariant_of_admissible (I := fun w => w.transitions < 2 ^ 53 → Kept options w) ?_ events _ h
    (fun _ => Kept.begin options)
  · exact hrun hroom
  · intro w e hclock hkept hroom
    have hbefore : w.transitions < 2 ^ 53 := lt_of_le_of_lt (transitions_le (log_step w e)) hroom
    exact (hkept hbefore).step hclock hroom

theorem Kept.isCurrent_iff (hkept : Kept options w) (hroom : w.transitions < 2 ^ 53) {i : ℕ}
    {event : AgentFastLivenessTransition} (hi : w.log[i]? = some (.transition event)) :
    w.isCurrent event ↔ Quiet w.log i event.hostId := by
  have hhost := hkept.host event.hostId
  obtain ⟨hpos, hle⟩ := hkept.epochs event (mem_of_getElem? hi)
  have hcount : w.transitionEpochCounter = w.transitions := hkept.count
  rw [← hhost.current i event hi rfl, isCurrent, if_neg (by omega)]
  cases hget : w.hosts.get event.hostId with
  | none => simp
  | some state =>
    rw [hget] at hhost
    have hkind := hhost.kind i event hi rfl state rfl
    by_cases hepoch : state.transitionEpoch = event.transitionEpoch
    · have hiff := hkind hepoch
      cases hoffline : state.confirmedOffline <;> simp_all
    · simp [hepoch]

end

/-- **Fast liveness.** In every run whose clock does not go back, with fewer than 2⁵³ transitions: a
loss is told only of a host that was not heard of for its period. -/
theorem liveness_tracked (options : AgentFastLivenessTrackerOptions) (events : List LivenessEvent)
    (h : Admissible ClockKeeps (stepLiveness options) {} events)
    (hroom : (run (stepLiveness options) {} events).transitions < 2 ^ 53) :
    let w := run (stepLiveness options) {} events
    (∀ (i : ℕ) (event : AgentFastLivenessTransition), w.log[i]? = some (.transition event) →
      event.kind = .confirmedOffline → ∃ offlineAt ∈ event.offlineAt, ∀ t,
        .report event.hostId t ∈ w.log.take i → t + options.period event.hostId (w.log.take i) ≤ offlineAt) ∧
    (∀ h, Alternates (kindsSince h w.log)) ∧
    (∀ h, ∀ state ∈ w.hosts.get h, state.confirmedOffline = false → ∃ t ∈ state.timer, ∃ timer,
      w.timers[t]? = some timer ∧ timer.hostId = h ∧ timer.generation = state.timerGeneration ∧ timer.live) ∧
    ∀ (i : ℕ) (event : AgentFastLivenessTransition), w.log[i]? = some (.transition event) →
      (w.isCurrent event ↔ Quiet w.log i event.hostId) := by
  have hkept := kept_of_run h hroom
  refine ⟨hkept.silent, fun h => (hkept.host h).alternates, ?_, fun i event hi => hkept.isCurrent_iff hroom hi⟩
  intro h state hstate hoffline
  obtain ⟨t, ht⟩ := Option.isSome_iff_exists.mp ((hkept.host h).armed state hstate hoffline)
  exact ⟨t, ht, (hkept.host h).timer state hstate t ht⟩

/-- Host 5 is primed, found silent, heard of again and found silent once more. -/
def lostTwice : List LivenessEvent :=
  [.primeHosts [(⟨.finite 5, js "2.2.171", true, none⟩, 10, 11)], .fire 0 90010 90011,
    .observeActivity (.finite 5) none 90020 90020, .fire 0 90021 90021, .fire 1 180019 180019,
    .fire 2 180020 180021]

theorem liveness_tracked_lost :
    Alternates (kindsSince 5 (run (stepLiveness {}) {} lostTwice).log) ∧
    kindsSince 5 (run (stepLiveness {}) {} lostTwice).log =
      [.confirmedOffline, .activityRestored, .confirmedOffline] := by
  have htracked := liveness_tracked {} lostTwice (by decide +kernel) (by decide +kernel)
  exact ⟨htracked.2.1 5, by decide +kernel⟩

end ForwardX.Panel.FastLiveness
