/-
Hosts that go silent: `ForwardGroupHostSilenceScheduler` of `server/forwardGroupHealthRecheck.ts`.
-/
import ForwardX.Lib.Run
import ForwardX.Lib.Timers
import ForwardX.Panel.JsValues

namespace ForwardX.Panel.HostSilence

open Run

/-! ## The scheduler -/

structure ForwardGroupHostSilenceSchedulerOptions where
  silenceMs : ℚ := 0
  retryMs : ℚ := 1000

namespace ForwardGroupHostSilenceSchedulerOptions

def silence (o : ForwardGroupHostSilenceSchedulerOptions) : ℚ := max 0 o.silenceMs

def retry (o : ForwardGroupHostSilenceSchedulerOptions) : ℚ := max 1 o.retryMs

end ForwardGroupHostSilenceSchedulerOptions

def timerDelay (dueAt now : ℚ) : ℚ := min 2147483647 (max 0 (dueAt - now))

inductive SilenceJob where
  | host (hostId object : ℕ)
  | group (dueAt : ℚ)

structure HostSilenceState where
  generation : ℕ
  seenAt : ℚ
  silentAt : ℚ
  attemptAt : ℚ
  timer : Option ℕ
  resolving : Bool
  object : ℕ
  resolved : Bool
  deriving DecidableEq

structure HostGroupDeadline where
  hostId : ℕ
  groupId : ℕ
  generation : ℕ
  dueAt : ℚ
  object : ℕ
  deriving DecidableEq

inductive SilenceReport where
  | resolve (hostId : ℕ) (retryAt : ℚ)
  | trigger (groupIds : List ℕ) (retryAt : ℚ)

/-- A lookup that has not ended; `caught` is between the two halves of its failure. -/
structure Resolution where
  hostId : ℕ
  object : ℕ
  caught : Bool

structure Trigger where
  dueEntries : List HostGroupDeadline
  caught : Bool

def Trigger.groupIds (t : Trigger) : List ℕ := JsSet.ofList (t.dueEntries.map HostGroupDeadline.groupId)

/-- `objects` is the number of states made so far. The key of a deadline is its host and its
group. -/
structure ForwardGroupHostSilenceScheduler where
  hosts : JsMap ℕ HostSilenceState := ∅
  groupDeadlines : JsMap (ℕ × ℕ) HostGroupDeadline := ∅
  groupTimer : Option ℕ := none
  groupTimerDueAt : Option ℚ := none
  groupTriggerRunning : Bool := false
  timers : Timers SilenceJob := ∅
  objects : ℕ := 0
  resolutions : List Resolution := []
  triggers : List Trigger := []
  reports : List SilenceReport := []

namespace ForwardGroupHostSilenceScheduler

section

variable (o : ForwardGroupHostSilenceSchedulerOptions)

/-- `hosts.get(hostId) === state`, with the state. -/
def attached (w : ForwardGroupHostSilenceScheduler) (hostId object : ℕ) : Option HostSilenceState :=
  (w.hosts.get hostId).filter fun state => state.object = object

def armHost (w : ForwardGroupHostSilenceScheduler) (hostId object : ℕ) (now : ℚ) : ForwardGroupHostSilenceScheduler :=
  match w.attached hostId object with
  | none => w
  | some state =>
    if state.timer.isSome ∨ state.resolving then w
    else { w with
      hosts := w.hosts.set hostId { state with timer := some w.timers.next }
      timers := w.timers.setTimer (.host hostId object) (timerDelay state.attemptAt now) }

/-! ### The group timer -/

def earliestGroupDueAt (w : ForwardGroupHostSilenceScheduler) : Option ℚ :=
  (w.groupDeadlines.entries.map fun e => e.2.dueAt).min?

def armGroupTimer (w : ForwardGroupHostSilenceScheduler) (force : Bool) (now : ℚ) : ForwardGroupHostSilenceScheduler :=
  if w.groupTriggerRunning then w
  else
    match w.earliestGroupDueAt with
    | none => { w with timers := w.timers.clear w.groupTimer, groupTimer := none, groupTimerDueAt := none }
    | some dueAt =>
      if force = false ∧ w.groupTimer.isSome ∧ w.groupTimerDueAt = some dueAt then w
      else { w with
        timers := (w.timers.clear w.groupTimer).setTimer (.group dueAt) (timerDelay dueAt now)
        groupTimer := some (w.timers.clear w.groupTimer).next
        groupTimerDueAt := some dueAt }

def removeDeadlinesForHost (w : ForwardGroupHostSilenceScheduler) (hostId : ℕ) (now : ℚ) :
    ForwardGroupHostSilenceScheduler :=
  if w.groupDeadlines.entries.any fun e => e.2.hostId = hostId then
    armGroupTimer { w with groupDeadlines := w.groupDeadlines.filter fun _ d => d.hostId ≠ hostId } true now
  else w

/-- `triggerDueGroups` up to its `await`. -/
def triggerDueGroups (w : ForwardGroupHostSilenceScheduler) (now later : ℚ) : ForwardGroupHostSilenceScheduler :=
  if w.groupTriggerRunning then w
  else
    let dueEntries := (w.groupDeadlines.entries.map Prod.snd).filter fun d => d.dueAt ≤ now
    let left := { w with groupDeadlines := w.groupDeadlines.filter fun _ d => now < d.dueAt }
    if dueEntries = [] then left.armGroupTimer false later
    else { left with groupTriggerRunning := true, triggers := w.triggers ++ [⟨dueEntries, false⟩] }

def readd (w : ForwardGroupHostSilenceScheduler) (retryAt : ℚ) (deadline : HostGroupDeadline) :
    ForwardGroupHostSilenceScheduler :=
  match w.hosts.get deadline.hostId with
  | none => w
  | some state =>
    if state.generation ≠ deadline.generation then w
    else if ∃ existing ∈ w.groupDeadlines.get (deadline.hostId, deadline.groupId), existing.dueAt ≤ retryAt then w
    else { w with
      groupDeadlines := w.groupDeadlines.set (deadline.hostId, deadline.groupId) { deadline with dueAt := retryAt } }

/-- The `finally` of `triggerDueGroups`. -/
def finishTrigger (w : ForwardGroupHostSilenceScheduler) (i : ℕ) (now : ℚ) : ForwardGroupHostSilenceScheduler :=
  armGroupTimer { w with groupTriggerRunning := false, triggers := w.triggers.eraseIdx i } true now

def triggerSucceeded (w : ForwardGroupHostSilenceScheduler) (i : ℕ) (now : ℚ) : ForwardGroupHostSilenceScheduler :=
  if ∃ t ∈ w.triggers[i]?, t.caught = false then w.finishTrigger i now else w

def triggerFailed (w : ForwardGroupHostSilenceScheduler) (i : ℕ) (now : ℚ) : ForwardGroupHostSilenceScheduler :=
  match w.triggers[i]? with
  | none => w
  | some t =>
    if t.caught then w
    else
      let retried := t.dueEntries.foldl (fun w d => w.readd (now + o.retry) d) w
      { retried with
        triggers := w.triggers.set i { t with caught := true }
        reports := w.reports ++ [.trigger t.groupIds (now + o.retry)] }

def triggerEnded (w : ForwardGroupHostSilenceScheduler) (i : ℕ) (now : ℚ) : ForwardGroupHostSilenceScheduler :=
  if ∃ t ∈ w.triggers[i]?, t.caught then w.finishTrigger i now else w

/-! ### Hosts -/

def observed (existing : Option HostSilenceState) (seenAt : ℚ) (notBeforeValue : JsNumber) (object : ℕ) :
    HostSilenceState where
  generation := (existing.map HostSilenceState.generation).getD 0 + 1
  seenAt := seenAt
  silentAt := seenAt + o.silence
  attemptAt := max (seenAt + o.silence) (match notBeforeValue with
    | .finite q => max 0 q
    | _ => 0)
  timer := none
  resolving := false
  object := object
  resolved := false

def observe (w : ForwardGroupHostSilenceScheduler) (hostIdValue seenAtValue notBeforeValue : JsNumber)
    (now later : ℚ) : ForwardGroupHostSilenceScheduler :=
  match positiveInteger hostIdValue, seenAtValue with
  | 0, _ => w
  | hostId + 1, .finite seenAt =>
    if seenAt < 0 then w
    else
      let existing := w.hosts.get (hostId + 1)
      let state := observed o existing seenAt notBeforeValue w.objects
      if ∃ old ∈ existing, seenAt < old.seenAt ∨ (seenAt = old.seenAt ∧ state.silentAt = old.silentAt) then w
      else
        let replaced := { w with
          timers := w.timers.clear (existing.bind HostSilenceState.timer)
          hosts := w.hosts.set (hostId + 1) state
          objects := w.objects + 1 }
        (replaced.removeDeadlinesForHost (hostId + 1) now).armHost (hostId + 1) state.object later
  | _, _ => w

def clear (w : ForwardGroupHostSilenceScheduler) (hostIdValue : JsNumber) (now : ℚ) : ForwardGroupHostSilenceScheduler :=
  let hostId := positiveInteger hostIdValue
  removeDeadlinesForHost { w with
    timers := w.timers.clear ((w.hosts.get hostId).bind HostSilenceState.timer)
    hosts := w.hosts.delete hostId } hostId now

/-- `resolveHost` up to its `await`. -/
def resolveHost (w : ForwardGroupHostSilenceScheduler) (hostId object : ℕ) : ForwardGroupHostSilenceScheduler :=
  match w.attached hostId object with
  | none => w
  | some state =>
    if state.resolving then w
    else { w with
      hosts := w.hosts.set hostId { state with resolving := true }
      resolutions := w.resolutions ++ [⟨hostId, object, false⟩] }

def byGroupId (resolved : List (JsNumber × JsNumber)) : JsMap ℕ ℚ :=
  resolved.foldl (fun m value =>
    match positiveInteger value.1, value.2 with
    | 0, _ => m
    | groupId + 1, .finite timeoutMs =>
      if ∃ previous ∈ m.get (groupId + 1), previous ≤ max 0 timeoutMs then m
      else m.set (groupId + 1) (max 0 timeoutMs)
    | _, _ => m) ∅

def addDeadlines (w : ForwardGroupHostSilenceScheduler) (hostId : ℕ) (state : HostSilenceState)
    (resolved : List (JsNumber × JsNumber)) : ForwardGroupHostSilenceScheduler :=
  { w with
    groupDeadlines := (byGroupId resolved).entries.foldl (fun m e =>
      m.set (hostId, e.1) ⟨hostId, e.1, state.generation, state.silentAt + e.2, state.object⟩) w.groupDeadlines }

/-- The `finally` of `resolveHost`, with the result of the lookup. -/
def finishHost (w : ForwardGroupHostSilenceScheduler) (hostId object : ℕ) (resolved : Bool) (now later : ℚ) :
    ForwardGroupHostSilenceScheduler :=
  match w.attached hostId object with
  | none => w
  | some state =>
    let free := { w with
      hosts := w.hosts.set hostId { state with resolving := false, resolved := state.resolved || resolved } }
    if now < state.attemptAt then free.armHost hostId object later else free

def resolveSucceeded (w : ForwardGroupHostSilenceScheduler) (i : ℕ) (resolved : List (JsNumber × JsNumber))
    (now later last : ℚ) : ForwardGroupHostSilenceScheduler :=
  match w.resolutions[i]? with
  | none => w
  | some r =>
    if r.caught then w
    else
      let ended := { w with resolutions := w.resolutions.eraseIdx i }
      match ended.attached r.hostId r.object with
      | none => ended
      | some state =>
        ((ended.addDeadlines r.hostId state resolved).armGroupTimer false now).finishHost r.hostId r.object true
          later last

def resolveFailed (w : ForwardGroupHostSilenceScheduler) (i : ℕ) (now : ℚ) : ForwardGroupHostSilenceScheduler :=
  match w.resolutions[i]? with
  | none => w
  | some r =>
    if r.caught then w
    else
      match w.attached r.hostId r.object with
      | none => { w with resolutions := w.resolutions.eraseIdx i }
      | some state => { w with
          hosts := w.hosts.set r.hostId { state with attemptAt := now + o.retry }
          resolutions := w.resolutions.set i { r with caught := true }
          reports := w.reports ++ [.resolve r.hostId (now + o.retry)] }

def resolveEnded (w : ForwardGroupHostSilenceScheduler) (i : ℕ) (now later : ℚ) : ForwardGroupHostSilenceScheduler :=
  match w.resolutions[i]? with
  | none => w
  | some r =>
    if r.caught then
      finishHost { w with resolutions := w.resolutions.eraseIdx i } r.hostId r.object false now later
    else w

/-! ### Timers -/

def fireHost (w : ForwardGroupHostSilenceScheduler) (hostId object timer : ℕ) (now later : ℚ) :
    ForwardGroupHostSilenceScheduler :=
  match (w.attached hostId object).filter fun state => state.timer = some timer with
  | none => w
  | some state =>
    let fired := { w with hosts := w.hosts.set hostId { state with timer := none } }
    if now < state.attemptAt then fired.armHost hostId object later else fired.resolveHost hostId object

def fireGroup (w : ForwardGroupHostSilenceScheduler) (dueAt : ℚ) (timer : ℕ) (now later last : ℚ) :
    ForwardGroupHostSilenceScheduler :=
  if w.groupTimer ≠ some timer then w
  else
    let fired := { w with groupTimer := none, groupTimerDueAt := none }
    if now < dueAt then fired.armGroupTimer false later else fired.triggerDueGroups later last

def fire (w : ForwardGroupHostSilenceScheduler) (timer : ℕ) (now later last : ℚ) : ForwardGroupHostSilenceScheduler :=
  match w.timers.job timer with
  | none => w
  | some (.host hostId object) =>
    fireHost { w with timers := w.timers.clearTimer timer } hostId object timer now later
  | some (.group dueAt) => fireGroup { w with timers := w.timers.clearTimer timer } dueAt timer now later last

def dispose (w : ForwardGroupHostSilenceScheduler) : ForwardGroupHostSilenceScheduler :=
  { w with
    timers := (w.hosts.entries.foldl (fun ts e => ts.clear e.2.timer) w.timers).clear w.groupTimer
    hosts := ∅
    groupDeadlines := ∅
    groupTimer := none
    groupTimerDueAt := none }

end

end ForwardGroupHostSilenceScheduler

inductive SilenceEvent where
  | observe (hostIdValue seenAtValue notBeforeValue : JsNumber) (now later : ℚ)
  | clear (hostIdValue : JsNumber) (now : ℚ)
  | dispose
  | fire (timer : ℕ) (now later last : ℚ)
  | resolveSucceeded (i : ℕ) (resolved : List (JsNumber × JsNumber)) (now later last : ℚ)
  | resolveFailed (i : ℕ) (now : ℚ)
  | resolveEnded (i : ℕ) (now later : ℚ)
  | triggerSucceeded (i : ℕ) (now : ℚ)
  | triggerFailed (i : ℕ) (now : ℚ)
  | triggerEnded (i : ℕ) (now : ℚ)

def stepSilence (o : ForwardGroupHostSilenceSchedulerOptions) (w : ForwardGroupHostSilenceScheduler) :
    SilenceEvent → ForwardGroupHostSilenceScheduler
  | .observe hostIdValue seenAtValue notBeforeValue now later =>
    w.observe o hostIdValue seenAtValue notBeforeValue now later
  | .clear hostIdValue now => w.clear hostIdValue now
  | .dispose => w.dispose
  | .fire timer now later last => w.fire timer now later last
  | .resolveSucceeded i resolved now later last => w.resolveSucceeded i resolved now later last
  | .resolveFailed i now => w.resolveFailed o i now
  | .resolveEnded i now later => w.resolveEnded i now later
  | .triggerSucceeded i now => w.triggerSucceeded i now
  | .triggerFailed i now => w.triggerFailed o i now
  | .triggerEnded i now => w.triggerEnded i now

/-! ## What a part of the code leaves alone

Groups and hosts share nothing but the table of timers. -/

/-- Only hosts and their timers change. -/
structure SameGroups (w w' : ForwardGroupHostSilenceScheduler) : Prop where
  groupDeadlines : w'.groupDeadlines = w.groupDeadlines
  groupTimer : w'.groupTimer = w.groupTimer
  groupTimerDueAt : w'.groupTimerDueAt = w.groupTimerDueAt
  groupTriggerRunning : w'.groupTriggerRunning = w.groupTriggerRunning
  triggers : w'.triggers = w.triggers

/-- Only deadlines, triggers and the group timer change. -/
structure SameHosts (w w' : ForwardGroupHostSilenceScheduler) : Prop where
  hosts : w'.hosts = w.hosts
  resolutions : w'.resolutions = w.resolutions
  objects : w'.objects = w.objects

theorem SameGroups.refl (w : ForwardGroupHostSilenceScheduler) : SameGroups w w := ⟨rfl, rfl, rfl, rfl, rfl⟩

theorem SameHosts.refl (w : ForwardGroupHostSilenceScheduler) : SameHosts w w := ⟨rfl, rfl, rfl⟩

variable {w w' w'' : ForwardGroupHostSilenceScheduler}

theorem SameGroups.after (h' : SameGroups w' w'') (h : SameGroups w w') :
    SameGroups w w'' where
  groupDeadlines := h'.groupDeadlines.trans h.groupDeadlines
  groupTimer := h'.groupTimer.trans h.groupTimer
  groupTimerDueAt := h'.groupTimerDueAt.trans h.groupTimerDueAt
  groupTriggerRunning := h'.groupTriggerRunning.trans h.groupTriggerRunning
  triggers := h'.triggers.trans h.triggers

theorem SameHosts.after (h' : SameHosts w' w'') (h : SameHosts w w') :
    SameHosts w w'' :=
  ⟨h'.hosts.trans h.hosts, h'.resolutions.trans h.resolutions, h'.objects.trans h.objects⟩

section

variable {o : ForwardGroupHostSilenceSchedulerOptions} {w : ForwardGroupHostSilenceScheduler}

open ForwardGroupHostSilenceScheduler

theorem attached_eq_some_iff {hostId object : ℕ} {state : HostSilenceState} :
    w.attached hostId object = some state ↔ w.hosts.get hostId = some state ∧ state.object = object := by
  simp [attached, Option.filter_eq_some_iff]

theorem sameGroups_armHost (hostId object : ℕ) (now : ℚ) : SameGroups w (w.armHost hostId object now) := by
  rw [armHost]
  split
  · exact SameGroups.refl w
  · split
    · exact SameGroups.refl w
    · exact ⟨rfl, rfl, rfl, rfl, rfl⟩

theorem sameGroups_resolveHost (hostId object : ℕ) : SameGroups w (w.resolveHost hostId object) := by
  rw [resolveHost]
  split
  · exact SameGroups.refl w
  · split
    · exact SameGroups.refl w
    · exact ⟨rfl, rfl, rfl, rfl, rfl⟩

theorem sameGroups_finishHost (hostId object : ℕ) (resolved : Bool) (now later : ℚ) :
    SameGroups w (w.finishHost hostId object resolved now later) := by
  rw [finishHost]
  split
  · exact SameGroups.refl w
  · dsimp only
    split
    · exact (sameGroups_armHost _ _ _).after ⟨rfl, rfl, rfl, rfl, rfl⟩
    · exact ⟨rfl, rfl, rfl, rfl, rfl⟩

theorem sameGroups_fireHost (hostId object timer : ℕ) (now later : ℚ) :
    SameGroups w (w.fireHost hostId object timer now later) := by
  rw [fireHost]
  split
  · exact SameGroups.refl w
  · dsimp only
    split
    · exact (sameGroups_armHost _ _ _).after ⟨rfl, rfl, rfl, rfl, rfl⟩
    · exact (sameGroups_resolveHost _ _).after ⟨rfl, rfl, rfl, rfl, rfl⟩

theorem sameGroups_resolveFailed (i : ℕ) (now : ℚ) : SameGroups w (w.resolveFailed o i now) := by
  rw [resolveFailed]
  split
  · exact SameGroups.refl w
  · split
    · exact SameGroups.refl w
    · split
      · exact ⟨rfl, rfl, rfl, rfl, rfl⟩
      · exact ⟨rfl, rfl, rfl, rfl, rfl⟩

theorem sameGroups_resolveEnded (i : ℕ) (now later : ℚ) : SameGroups w (w.resolveEnded i now later) := by
  rw [resolveEnded]
  split
  · exact SameGroups.refl w
  · split
    · exact (sameGroups_finishHost _ _ _ _ _).after ⟨rfl, rfl, rfl, rfl, rfl⟩
    · exact SameGroups.refl w

theorem sameHosts_armGroupTimer (force : Bool) (now : ℚ) : SameHosts w (w.armGroupTimer force now) := by
  rw [armGroupTimer]
  split
  · exact SameHosts.refl w
  · split
    · exact ⟨rfl, rfl, rfl⟩
    · split
      · exact SameHosts.refl w
      · exact ⟨rfl, rfl, rfl⟩

theorem sameHosts_removeDeadlinesForHost (hostId : ℕ) (now : ℚ) : SameHosts w (w.removeDeadlinesForHost hostId now) := by
  rw [removeDeadlinesForHost]
  split
  · exact (sameHosts_armGroupTimer _ _).after ⟨rfl, rfl, rfl⟩
  · exact SameHosts.refl w

theorem sameHosts_triggerDueGroups (now later : ℚ) : SameHosts w (w.triggerDueGroups now later) := by
  rw [triggerDueGroups]
  split
  · exact SameHosts.refl w
  · dsimp only
    split
    · exact (sameHosts_armGroupTimer _ _).after ⟨rfl, rfl, rfl⟩
    · exact ⟨rfl, rfl, rfl⟩

theorem sameHosts_fireGroup (dueAt : ℚ) (timer : ℕ) (now later last : ℚ) :
    SameHosts w (w.fireGroup dueAt timer now later last) := by
  rw [fireGroup]
  split
  · exact SameHosts.refl w
  · dsimp only
    split
    · exact (sameHosts_armGroupTimer _ _).after ⟨rfl, rfl, rfl⟩
    · exact (sameHosts_triggerDueGroups _ _).after ⟨rfl, rfl, rfl⟩

theorem sameHosts_finishTrigger (i : ℕ) (now : ℚ) : SameHosts w (w.finishTrigger i now) :=
  (sameHosts_armGroupTimer _ _).after ⟨rfl, rfl, rfl⟩

theorem foldl_readd (retryAt : ℚ) (entries : List HostGroupDeadline) : ∀ w : ForwardGroupHostSilenceScheduler,
    ∃ groupDeadlines, entries.foldl (fun w d => w.readd retryAt d) w = { w with groupDeadlines } := by
  induction entries with
  | nil => intro w; exact ⟨_, rfl⟩
  | cons d rest ih =>
    intro w
    have hone : ∃ groupDeadlines, w.readd retryAt d = { w with groupDeadlines } := by
      rw [readd]
      split
      · exact ⟨_, rfl⟩
      · split
        · exact ⟨_, rfl⟩
        · split
          · exact ⟨_, rfl⟩
          · exact ⟨_, rfl⟩
    obtain ⟨one, hone⟩ := hone
    obtain ⟨all, hall⟩ := ih { w with groupDeadlines := one }
    exact ⟨all, by rw [List.foldl_cons, hone, hall]⟩

theorem sameHosts_triggerFailed (i : ℕ) (now : ℚ) : SameHosts w (w.triggerFailed o i now) := by
  rw [triggerFailed]
  split
  · exact SameHosts.refl w
  · rename_i t _
    split
    · exact SameHosts.refl w
    · obtain ⟨groupDeadlines, hfold⟩ := foldl_readd (now + o.retry) t.dueEntries w
      rw [hfold]
      exact ⟨rfl, rfl, rfl⟩

end

end ForwardX.Panel.HostSilence
