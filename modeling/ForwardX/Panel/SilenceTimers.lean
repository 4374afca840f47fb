/-
No silent host is forgotten, and the group timer is for the earliest deadline.

A host is in the table of deadlines, in a lookup, or waits to be tried again; a lookup that fails
after its time is what the condition excludes.
-/
import ForwardX.Panel.HostSilence
import Mathlib.Data.List.MinMax

namespace ForwardX.Panel.HostSilence

open Run ForwardGroupHostSilenceScheduler Option List

/-! ## The group timer -/

section

variable {o : ForwardGroupHostSilenceSchedulerOptions} {w : ForwardGroupHostSilenceScheduler}

theorem earliestGroupDueAt_eq_some_iff {dueAt : ℚ} : w.earliestGroupDueAt = some dueAt ↔
    (∃ key d, w.groupDeadlines.get key = some d ∧ d.dueAt = dueAt) ∧
    ∀ key d, w.groupDeadlines.get key = some d → dueAt ≤ d.dueAt := by
  have hmem : ∀ {t : ℚ}, t ∈ w.groupDeadlines.entries.map (fun e => e.2.dueAt)
      ↔ ∃ key d, w.groupDeadlines.get key = some d ∧ d.dueAt = t := by
    intro t
    simp [List.mem_map, JsMap.get_eq_some_iff]
  rw [earliestGroupDueAt, min?_eq_some_iff, hmem]
  refine and_congr_right fun _ => ?_
  constructor
  · intro h key d hd
    exact h d.dueAt (hmem.mpr ⟨key, d, hd, rfl⟩)
  · intro h t ht
    obtain ⟨key, d, hd, rfl⟩ := hmem.mp ht
    exact h key d hd

/-- While no trigger is running, the group timer is for the earliest deadline. -/
structure GroupsArmed (w : ForwardGroupHostSilenceScheduler) : Prop where
  dueAt : w.groupTriggerRunning = false → w.groupTimerDueAt = w.earliestGroupDueAt
  timer : w.groupTriggerRunning = false → w.earliestGroupDueAt.isSome → w.groupTimer.isSome
  triggers : w.triggers.length = if w.groupTriggerRunning then 1 else 0

theorem GroupsArmed.start : GroupsArmed {} := ⟨fun _ => rfl, nofun, rfl⟩

variable {w' : ForwardGroupHostSilenceScheduler}

theorem SameGroups.armed (hsame : SameGroups w w') (h : GroupsArmed w) :
    GroupsArmed w' := by
  have hearliest : w'.earliestGroupDueAt = w.earliestGroupDueAt := by
    rw [earliestGroupDueAt, hsame.groupDeadlines]
    rfl
  constructor
  · rw [hearliest, hsame.groupTimerDueAt, hsame.groupTriggerRunning]
    exact h.dueAt
  · rw [hearliest, hsame.groupTimer, hsame.groupTriggerRunning]
    exact h.timer
  · rw [hsame.triggers, hsame.groupTriggerRunning]
    exact h.triggers

theorem GroupsArmed.of_same (h : GroupsArmed w) (hsame : SameGroups w w') :
    GroupsArmed w' :=
  hsame.armed h

theorem groupsArmed_armGroupTimer (force : Bool) (now : ℚ)
    (htriggers : w.triggers.length = if w.groupTriggerRunning then 1 else 0) :
    GroupsArmed (w.armGroupTimer force now) := by
  rw [armGroupTimer]
  split
  · rename_i hrunning
    refine ⟨?_, ?_, htriggers⟩
    · intro hidle
      rw [hrunning] at hidle
      cases hidle
    · intro hidle
      rw [hrunning] at hidle
      cases hidle
  · split
    · rename_i hnone
      refine ⟨fun _ => hnone.symm, ?_, htriggers⟩
      intro _ hsome
      have heq : w.earliestGroupDueAt.isSome = true := hsome
      rw [hnone] at heq
      cases heq
    · rename_i dueAt hsome
      split
      · rename_i hset
        exact ⟨fun _ => hset.2.2.trans hsome.symm, fun _ _ => hset.2.1, htriggers⟩
      · exact ⟨fun _ => hsome.symm, fun _ _ => rfl, htriggers⟩

theorem GroupsArmed.removeDeadlinesForHost (h : GroupsArmed w) (hostId : ℕ) (now : ℚ) :
    GroupsArmed (w.removeDeadlinesForHost hostId now) := by
  rw [ForwardGroupHostSilenceScheduler.removeDeadlinesForHost]
  split
  · exact groupsArmed_armGroupTimer _ _ h.triggers
  · exact h

theorem GroupsArmed.observe (h : GroupsArmed w) (hostIdValue seenAtValue notBeforeValue : JsNumber)
    (now later : ℚ) : GroupsArmed (w.observe o hostIdValue seenAtValue notBeforeValue now later) := by
  unfold ForwardGroupHostSilenceScheduler.observe
  split
  · exact h
  · split
    · exact h
    · dsimp only
      split
      · exact h
      · refine (sameGroups_armHost _ _ _).armed (GroupsArmed.removeDeadlinesForHost ?_ _ _)
        exact h.of_same ⟨rfl, rfl, rfl, rfl, rfl⟩
  · exact h

theorem GroupsArmed.clear (h : GroupsArmed w) (hostIdValue : JsNumber) (now : ℚ) :
    GroupsArmed (w.clear hostIdValue now) :=
  GroupsArmed.removeDeadlinesForHost
    (w := { w with
      timers := w.timers.clear ((w.hosts.get (positiveInteger hostIdValue)).bind HostSilenceState.timer)
      hosts := w.hosts.delete (positiveInteger hostIdValue) })
    (h.of_same ⟨rfl, rfl, rfl, rfl, rfl⟩) _ _

theorem GroupsArmed.dispose (h : GroupsArmed w) : GroupsArmed w.dispose :=
  ⟨fun _ => rfl, nofun, h.triggers⟩

theorem groupsArmed_triggerDueGroups (now later : ℚ)
    (htriggers : w.triggers.length = if w.groupTriggerRunning then 1 else 0) :
    GroupsArmed (w.triggerDueGroups now later) := by
  rw [triggerDueGroups]
  split
  · rename_i hrunning
    exact ⟨by simp [hrunning], by simp [hrunning], htriggers⟩
  · rename_i hidle
    dsimp only
    split
    · exact groupsArmed_armGroupTimer _ _ htriggers
    · refine ⟨(by simp), (by simp), ?_⟩
      rw [if_neg hidle] at htriggers
      simpa using htriggers

section

variable (h : GroupsArmed w)

include h

theorem GroupsArmed.fire (timer : ℕ) (now later last : ℚ) : GroupsArmed (w.fire timer now later last) := by
  rw [ForwardGroupHostSilenceScheduler.fire]
  split
  · exact h
  · exact (sameGroups_fireHost _ _ _ _ _).armed (h.of_same ⟨rfl, rfl, rfl, rfl, rfl⟩)
  · rw [fireGroup]
    split
    · exact h.of_same ⟨rfl, rfl, rfl, rfl, rfl⟩
    · dsimp only
      split
      · exact groupsArmed_armGroupTimer _ _ h.triggers
      · exact groupsArmed_triggerDueGroups _ _ h.triggers

theorem GroupsArmed.finishTrigger {i : ℕ} {t : Trigger} (hi : w.triggers[i]? = some t) (now : ℚ) :
    GroupsArmed (w.finishTrigger i now) := by
  refine groupsArmed_armGroupTimer _ _ ?_
  have hlt := (List.getElem?_eq_some_iff.mp hi).1
  have hlength := h.triggers
  rw [length_eraseIdx_of_lt hlt]
  split at hlength
  · simp [hlength]
  · omega

theorem GroupsArmed.triggerSucceeded (i : ℕ) (now : ℚ) : GroupsArmed (w.triggerSucceeded i now) := by
  rw [ForwardGroupHostSilenceScheduler.triggerSucceeded]
  split
  · rename_i hi
    obtain ⟨t, hi, -⟩ := hi
    exact h.finishTrigger hi now
  · exact h

theorem GroupsArmed.triggerEnded (i : ℕ) (now : ℚ) : GroupsArmed (w.triggerEnded i now) := by
  rw [ForwardGroupHostSilenceScheduler.triggerEnded]
  split
  · rename_i hi
    obtain ⟨t, hi, -⟩ := hi
    exact h.finishTrigger hi now
  · exact h

theorem GroupsArmed.triggerFailed (i : ℕ) (now : ℚ) : GroupsArmed (w.triggerFailed o i now) := by
  rw [ForwardGroupHostSilenceScheduler.triggerFailed]
  split
  · exact h
  · rename_i t hi
    split
    · exact h
    · obtain ⟨groupDeadlines, hfold⟩ := foldl_readd (now + o.retry) t.dueEntries w
      rw [hfold]
      have hrunning : w.groupTriggerRunning = true := by
        have hlt := (List.getElem?_eq_some_iff.mp hi).1
        have hlength := h.triggers
        split at hlength
        · assumption
        · omega
      refine ⟨by simp [hrunning], by simp [hrunning], ?_⟩
      simpa using h.triggers

theorem GroupsArmed.resolveSucceeded (i : ℕ) (resolved : List (JsNumber × JsNumber))
    (now later last : ℚ) : GroupsArmed (w.resolveSucceeded i resolved now later last) := by
  rw [ForwardGroupHostSilenceScheduler.resolveSucceeded]
  split
  · exact h
  · split
    · exact h
    · dsimp only
      split
      · exact h.of_same ⟨rfl, rfl, rfl, rfl, rfl⟩
      · exact (sameGroups_finishHost _ _ _ _ _).armed (groupsArmed_armGroupTimer _ _ h.triggers)

end

theorem GroupsArmed.step (e : SilenceEvent) (h : GroupsArmed w) : GroupsArmed (stepSilence o w e) := by
  cases e with
  | observe hostIdValue seenAtValue notBeforeValue now later =>
    exact h.observe hostIdValue seenAtValue notBeforeValue now later
  | clear hostIdValue now => exact h.clear hostIdValue now
  | dispose => exact h.dispose
  | fire timer now later last => exact h.fire timer now later last
  | resolveSucceeded i resolved now later last => exact h.resolveSucceeded i resolved now later last
  | resolveFailed i now => exact (sameGroups_resolveFailed i now).armed h
  | resolveEnded i now later => exact (sameGroups_resolveEnded i now later).armed h
  | triggerSucceeded i now => exact h.triggerSucceeded i now
  | triggerFailed i now => exact h.triggerFailed i now
  | triggerEnded i now => exact h.triggerEnded i now

end

/-! ## The timers -/

section

variable {o : ForwardGroupHostSilenceSchedulerOptions} {w : ForwardGroupHostSilenceScheduler}

/-- `state.timer`, of a state that is attached. -/
def slot (hosts : JsMap ℕ HostSilenceState) (hostId object : ℕ) : Option ℕ :=
  ((hosts.get hostId).filter fun state => state.object = object).bind HostSilenceState.timer

theorem slot_of_get {hosts : JsMap ℕ HostSilenceState} {hostId : ℕ} {state : HostSilenceState}
    (hget : hosts.get hostId = some state) (object : ℕ) :
    slot hosts hostId object = if state.object = object then state.timer else none := by
  rw [slot, hget, filter_some]
  by_cases hsame : state.object = object
  · simp [hsame]
  · simp [hsame]

theorem slot_set (hosts : JsMap ℕ HostSilenceState) (hostId : ℕ) (state : HostSilenceState) (other object : ℕ) :
    slot (hosts.set hostId state) other object
      = if other = hostId then (if state.object = object then state.timer else none) else slot hosts other object := by
  split
  · rename_i heq
    refine slot_of_get ?_ object
    rw [JsMap.get_set, if_pos heq]
  · rename_i hne
    rw [slot, JsMap.get_set, if_neg hne]
    rfl

theorem slot_delete (hosts : JsMap ℕ HostSilenceState) (hostId other object : ℕ) :
    slot (hosts.delete hostId) other object = if other = hostId then none else slot hosts other object := by
  rw [slot, JsMap.get_delete]
  split
  · rfl
  · rfl

theorem slot_of_attached {hostId object : ℕ} {state : HostSilenceState}
    (h : w.attached hostId object = some state) : slot w.hosts hostId object = state.timer := by
  rw [slot, ← attached, h]
  rfl

/-- The slots of the scheduler are right about its timers. -/
structure TimersKept (w : ForwardGroupHostSilenceScheduler) : Prop where
  host : ∀ hostId object, w.timers.Owned (· = .host hostId object) (slot w.hosts hostId object)
  group : w.timers.Owned (fun a => ∃ dueAt, a = .group dueAt) w.groupTimer
  due : ∀ timer dueAt, w.timers.job timer = some (.group dueAt) → w.groupTimerDueAt = some dueAt

theorem TimersKept.start : TimersKept {} where
  host _ _ := Timers.owned_empty _
  group := Timers.owned_empty _
  due := by simp

theorem TimersKept.hosts_change {w' : ForwardGroupHostSilenceScheduler} (h : TimersKept w)
    (htimers : w'.timers = w.timers) (hslot : ∀ hostId object, slot w'.hosts hostId object = slot w.hosts hostId object)
    (hgroup : w'.groupTimer = w.groupTimer) (hdue : w'.groupTimerDueAt = w.groupTimerDueAt) : TimersKept w' where
  host := by
    intro hostId object
    rw [htimers, hslot]
    exact h.host hostId object
  group := by
    rw [htimers, hgroup]
    exact h.group
  due := by
    rw [htimers, hdue]
    exact h.due

theorem slot_set_same {hostId : ℕ} {state state' : HostSilenceState} (hget : w.hosts.get hostId = some state)
    (hobject : state'.object = state.object) (htimer : state'.timer = state.timer) : ∀ other object,
      slot (w.hosts.set hostId state') other object = slot w.hosts other object := by
  intro other object
  rw [slot_set]
  split
  · rename_i heq
    subst heq
    rw [hobject, htimer, slot_of_get hget]
  · rfl

section

variable (h : TimersKept w)

include h

theorem TimersKept.deadlines_change (groupDeadlines : JsMap (ℕ × ℕ) HostGroupDeadline) :
    TimersKept { w with groupDeadlines } :=
  ⟨h.host, h.group, h.due⟩

theorem TimersKept.armGroupTimer (force : Bool) (now : ℚ) : TimersKept (w.armGroupTimer force now) := by
  have hhost : ∀ hostId object, (w.timers.clear w.groupTimer).Owned (· = .host hostId object)
      (slot w.hosts hostId object) := by
    intro hostId object
    refine (h.host hostId object).clear_other h.group ?_
    rintro _ ⟨dueAt, rfl⟩
    simp
  have hnone : ∀ timer dueAt, (w.timers.clear w.groupTimer).job timer ≠ some (.group dueAt) := by
    intro timer dueAt hjob
    exact absurd (h.group.clear.eq_some hjob ⟨dueAt, rfl⟩) (by simp)
  rw [ForwardGroupHostSilenceScheduler.armGroupTimer]
  split
  · exact h
  · split
    · exact ⟨hhost, h.group.clear, fun timer dueAt hjob => absurd hjob (hnone timer dueAt)⟩
    · rename_i dueAt _
      split
      · exact h
      · constructor
        · intro hostId object
          exact (hhost hostId object).setTimer_other (a := .group dueAt) (by simp) _
        · exact h.group.clear.setTimer ⟨dueAt, rfl⟩ _
        · intro timer dueAt' hjob
          rw [Timers.job_setTimer] at hjob
          split at hjob
          · rw [SilenceJob.group.inj (Option.some.inj hjob)]
          · exact absurd hjob (hnone timer dueAt')

theorem TimersKept.removeDeadlinesForHost (hostId : ℕ) (now : ℚ) :
    TimersKept (w.removeDeadlinesForHost hostId now) := by
  rw [ForwardGroupHostSilenceScheduler.removeDeadlinesForHost]
  split
  · exact (h.deadlines_change _).armGroupTimer _ _
  · exact h

theorem TimersKept.triggerDueGroups (now later : ℚ) : TimersKept (w.triggerDueGroups now later) := by
  rw [ForwardGroupHostSilenceScheduler.triggerDueGroups]
  split
  · exact h
  · dsimp only
    split
    · exact (h.deadlines_change _).armGroupTimer _ _
    · exact ⟨h.host, h.group, h.due⟩

theorem TimersKept.armHost (hostId object : ℕ) (now : ℚ) : TimersKept (w.armHost hostId object now) := by
  rw [ForwardGroupHostSilenceScheduler.armHost]
  split
  · exact h
  · rename_i state hattached
    split
    · exact h
    · rename_i hfree
      obtain ⟨hget, hobject⟩ := attached_eq_some_iff.mp hattached
      have hnone : state.timer = none := by
        rw [← not_isSome_iff_eq_none]
        exact fun hsome => hfree (.inl hsome)
      constructor
      · intro other object'
        rw [slot_set]
        split
        · rename_i heq
          subst heq
          split
          · rename_i hsame
            obtain rfl := hobject.symm.trans hsame
            have howned := h.host other object
            rw [slot_of_attached hattached, hnone] at howned
            exact howned.setTimer (a := .host other object) rfl _
          · rename_i hne
            have howned := h.host other object'
            rw [slot_of_get hget, if_neg hne] at howned
            refine howned.setTimer_other ?_ _
            rintro ⟨⟩
            exact hne hobject
        · rename_i hne
          refine (h.host other object').setTimer_other ?_ _
          rintro ⟨⟩
          exact hne rfl
      · refine h.group.setTimer_other ?_ _
        rintro ⟨_, ⟨⟩⟩
      · intro timer dueAt hjob
        rw [Timers.job_setTimer] at hjob
        split at hjob
        · cases Option.some.inj hjob
        · exact h.due timer dueAt hjob

theorem TimersKept.resolveHost (hostId object : ℕ) : TimersKept (w.resolveHost hostId object) := by
  rw [ForwardGroupHostSilenceScheduler.resolveHost]
  split
  · exact h
  · rename_i state hattached
    split
    · exact h
    · have hget := (attached_eq_some_iff.mp hattached).1
      exact h.hosts_change rfl (slot_set_same hget rfl rfl) rfl rfl

theorem TimersKept.finishHost (hostId object : ℕ) (resolved : Bool) (now later : ℚ) :
    TimersKept (w.finishHost hostId object resolved now later) := by
  rw [ForwardGroupHostSilenceScheduler.finishHost]
  split
  · exact h
  · rename_i state hattached
    have hget := (attached_eq_some_iff.mp hattached).1
    have hfree : TimersKept { w with
        hosts := w.hosts.set hostId { state with resolving := false, resolved := state.resolved || resolved } } :=
      h.hosts_change rfl (slot_set_same hget rfl rfl) rfl rfl
    dsimp only
    split
    · exact hfree.armHost _ _ _
    · exact hfree

end

theorem TimersKept.replace {w' : ForwardGroupHostSilenceScheduler} (h : TimersKept w) {hostId : ℕ}
    (htimers : w'.timers = w.timers.clear ((w.hosts.get hostId).bind HostSilenceState.timer))
    (hslot : ∀ other object, slot w'.hosts other object = if other = hostId then none else slot w.hosts other object)
    (hgroup : w'.groupTimer = w.groupTimer) (hdue : w'.groupTimerDueAt = w.groupTimerDueAt) : TimersKept w' := by
  cases hget : w.hosts.get hostId with
  | none =>
    rw [hget] at htimers
    refine h.hosts_change htimers ?_ hgroup hdue
    intro other object
    rw [hslot]
    split
    · rename_i heq
      simp [slot, heq, hget]
    · rfl
  | some state =>
    have hown := h.host hostId state.object
    rw [slot_of_get hget, if_pos rfl] at hown
    rw [hget] at htimers
    constructor
    · intro other object
      rw [htimers, hslot]
      by_cases hsame : other = hostId ∧ state.object = object
      · obtain ⟨rfl, rfl⟩ := hsame
        rw [if_pos rfl]
        exact hown.clear
      · have hother := (h.host other object).clear_other hown (by
          rintro _ rfl
          rintro ⟨⟩
          exact hsame ⟨rfl, rfl⟩)
        split
        · rename_i heq
          subst heq
          have hne : state.object ≠ object := fun heq => hsame ⟨rfl, heq⟩
          rw [slot_of_get hget, if_neg hne] at hother
          exact hother
        · exact hother
    · rw [htimers, hgroup]
      refine h.group.clear_other hown ?_
      rintro _ rfl ⟨_, ⟨⟩⟩
    · intro timer dueAt hjob
      rw [hdue]
      refine h.due timer dueAt ?_
      rw [htimers] at hjob
      rw [bind_some, Timers.job_clear] at hjob
      split at hjob
      · cases hjob
      · exact hjob

theorem TimersKept.observe (h : TimersKept w) (hostIdValue seenAtValue notBeforeValue : JsNumber)
    (now later : ℚ) : TimersKept (w.observe o hostIdValue seenAtValue notBeforeValue now later) := by
  unfold ForwardGroupHostSilenceScheduler.observe
  split
  · exact h
  · split
    · exact h
    · dsimp only
      split
      · exact h
      · refine TimersKept.armHost (TimersKept.removeDeadlinesForHost ?_ _ _) _ _ _
        refine h.replace rfl ?_ rfl rfl
        intro other object
        rw [slot_set]
        split
        · exact ite_self none
        · rfl
  · exact h

theorem TimersKept.clear (h : TimersKept w) (hostIdValue : JsNumber) (now : ℚ) : TimersKept (w.clear hostIdValue now) := by
  refine TimersKept.removeDeadlinesForHost ?_ _ _
  exact h.replace rfl (slot_delete _ _) rfl rfl

theorem job_foldl_clear {ts : Timers SilenceJob} {entries : List (ℕ × HostSilenceState)} {timer : ℕ} {a : SilenceJob}
    (hjob : (entries.foldl (fun ts e => ts.clear e.2.timer) ts).job timer = some a) :
    ts.job timer = some a ∧ ∀ e ∈ entries, e.2.timer ≠ some timer := by
  induction entries generalizing ts with
  | nil => exact ⟨hjob, by simp⟩
  | cons e rest ih =>
    obtain ⟨hclear, hrest⟩ := ih hjob
    rw [Timers.job_clear] at hclear
    split at hclear
    · cases hclear
    · rename_i hne
      exact ⟨hclear, forall_mem_cons.mpr ⟨hne, hrest⟩⟩

section

variable (h : TimersKept w)

include h

theorem TimersKept.job_dispose (timer : ℕ) : w.dispose.timers.job timer = none := by
  rw [eq_none_iff_forall_ne_some]
  intro a hjob
  rw [dispose, Timers.job_clear] at hjob
  split at hjob
  · cases hjob
  · rename_i hgroup
    obtain ⟨hold, hcleared⟩ := job_foldl_clear hjob
    cases a with
    | group dueAt => exact hgroup (h.group.eq_some hold ⟨dueAt, rfl⟩)
    | host hostId object =>
      have hslot := (h.host hostId object).eq_some hold rfl
      rw [slot, bind_eq_some_iff] at hslot
      obtain ⟨state, hstate, htimer⟩ := hslot
      have hget := (filter_eq_some_iff.mp hstate).1
      exact hcleared _ (JsMap.get_eq_some_iff.mp hget) htimer

theorem TimersKept.dispose : TimersKept w.dispose := by
  constructor
  · intro hostId object timer
    rw [h.job_dispose]
    simp [slot, ForwardGroupHostSilenceScheduler.dispose]
  · intro timer
    rw [h.job_dispose]
    simp [ForwardGroupHostSilenceScheduler.dispose]
  · intro timer dueAt hjob
    rw [h.job_dispose] at hjob
    cases hjob

theorem TimersKept.fireHost {hostId object timer : ℕ}
    (hjob : w.timers.job timer = some (.host hostId object)) (now later : ℚ) :
    TimersKept (ForwardGroupHostSilenceScheduler.fireHost { w with timers := w.timers.clearTimer timer } hostId object
      timer now later) := by
  have hown := (h.host hostId object).eq_some hjob rfl
  have hslot := hown
  rw [slot, bind_eq_some_iff] at hslot
  obtain ⟨state, hstate, htimer⟩ := hslot
  have hattached : w.attached hostId object = some state := hstate
  have hfire : ({ w with timers := w.timers.clearTimer timer } : ForwardGroupHostSilenceScheduler).fireHost hostId object
      timer now later = (let fired : ForwardGroupHostSilenceScheduler := { w with
        timers := w.timers.clearTimer timer, hosts := w.hosts.set hostId { state with timer := none } }
      if now < state.attemptAt then fired.armHost hostId object later else fired.resolveHost hostId object) := by
    have hfound : (({ w with timers := w.timers.clearTimer timer } : ForwardGroupHostSilenceScheduler).attached hostId
        object).filter (fun state => state.timer = some timer) = some state := by
      rw [filter_eq_some_iff]
      exact ⟨hattached, by simpa using htimer⟩
    rw [ForwardGroupHostSilenceScheduler.fireHost, hfound]
  have hfired : TimersKept { w with
      timers := w.timers.clearTimer timer, hosts := w.hosts.set hostId { state with timer := none } } := by
    obtain ⟨hget, rfl⟩ := attached_eq_some_iff.mp hattached
    constructor
    · intro other object'
      rw [slot_set]
      by_cases hsame : other = hostId ∧ state.object = object'
      · obtain ⟨rfl, rfl⟩ := hsame
        have hclear := (h.host other state.object).clear
        rw [hown] at hclear
        rw [if_pos rfl, ite_self]
        exact hclear
      · have hother := (h.host other object').clearTimer_other ((h.host other object').ne_some hjob (by
          rintro ⟨⟩
          exact hsame ⟨rfl, rfl⟩))
        split
        · rename_i heq
          subst heq
          have hne : state.object ≠ object' := fun heq => hsame ⟨rfl, heq⟩
          rw [slot_of_get hget, if_neg hne] at hother
          rw [if_neg hne]
          exact hother
        · exact hother
    · refine h.group.clearTimer_other (h.group.ne_some hjob ?_)
      rintro ⟨_, ⟨⟩⟩
    · intro timer' dueAt hjob'
      rw [Timers.job_clearTimer] at hjob'
      split at hjob'
      · cases hjob'
      · exact h.due timer' dueAt hjob'
  rw [hfire]
  dsimp only
  split
  · exact hfired.armHost _ _ _
  · exact hfired.resolveHost _ _

theorem TimersKept.fireGroup {dueAt : ℚ} {timer : ℕ}
    (hjob : w.timers.job timer = some (.group dueAt)) (now later last : ℚ) :
    TimersKept (ForwardGroupHostSilenceScheduler.fireGroup { w with timers := w.timers.clearTimer timer } dueAt timer now
      later last) := by
  have hown := h.group.eq_some hjob ⟨dueAt, rfl⟩
  have hclear := h.group.clear
  rw [hown] at hclear
  have hfired : TimersKept { w with
      timers := w.timers.clearTimer timer, groupTimer := none, groupTimerDueAt := none } := by
    constructor
    · intro hostId object
      exact (h.host hostId object).clearTimer_other ((h.host hostId object).ne_some hjob nofun)
    · exact hclear
    · intro timer' dueAt' hjob'
      exact absurd (hclear.eq_some hjob' ⟨dueAt', rfl⟩) nofun
  rw [ForwardGroupHostSilenceScheduler.fireGroup, if_neg (not_not.mpr hown)]
  dsimp only
  split
  · exact hfired.armGroupTimer _ _
  · exact hfired.triggerDueGroups _ _

theorem TimersKept.fire (timer : ℕ) (now later last : ℚ) : TimersKept (w.fire timer now later last) := by
  rw [ForwardGroupHostSilenceScheduler.fire]
  split
  · exact h
  · rename_i hjob
    exact h.fireHost hjob now later
  · rename_i hjob
    exact h.fireGroup hjob now later last

theorem TimersKept.finishTrigger (i : ℕ) (now : ℚ) : TimersKept (w.finishTrigger i now) := by
  refine TimersKept.armGroupTimer ?_ _ _
  exact ⟨h.host, h.group, h.due⟩

theorem TimersKept.triggerFailed (i : ℕ) (now : ℚ) : TimersKept (w.triggerFailed o i now) := by
  rw [ForwardGroupHostSilenceScheduler.triggerFailed]
  split
  · exact h
  · rename_i t _
    split
    · exact h
    · obtain ⟨groupDeadlines, hfold⟩ := foldl_readd (now + o.retry) t.dueEntries w
      rw [hfold]
      exact ⟨h.host, h.group, h.due⟩

theorem TimersKept.resolveSucceeded (i : ℕ) (resolved : List (JsNumber × JsNumber))
    (now later last : ℚ) : TimersKept (w.resolveSucceeded i resolved now later last) := by
  rw [ForwardGroupHostSilenceScheduler.resolveSucceeded]
  split
  · exact h
  · split
    · exact h
    · dsimp only
      split
      · exact ⟨h.host, h.group, h.due⟩
      · refine TimersKept.finishHost (TimersKept.armGroupTimer ?_ _ _) _ _ _ _ _
        exact ⟨h.host, h.group, h.due⟩

theorem TimersKept.resolveFailed (i : ℕ) (now : ℚ) : TimersKept (w.resolveFailed o i now) := by
  rw [ForwardGroupHostSilenceScheduler.resolveFailed]
  split
  · exact h
  · split
    · exact h
    · split
      · exact ⟨h.host, h.group, h.due⟩
      · rename_i state hattached
        exact h.hosts_change rfl (slot_set_same (attached_eq_some_iff.mp hattached).1 rfl rfl) rfl rfl

theorem TimersKept.resolveEnded (i : ℕ) (now later : ℚ) : TimersKept (w.resolveEnded i now later) := by
  rw [ForwardGroupHostSilenceScheduler.resolveEnded]
  split
  · exact h
  · split
    · refine TimersKept.finishHost ?_ _ _ _ _ _
      exact ⟨h.host, h.group, h.due⟩
    · exact h

end

theorem TimersKept.step (e : SilenceEvent) (h : TimersKept w) : TimersKept (stepSilence o w e) := by
  cases e with
  | observe hostIdValue seenAtValue notBeforeValue now later =>
    exact h.observe hostIdValue seenAtValue notBeforeValue now later
  | clear hostIdValue now => exact h.clear hostIdValue now
  | dispose => exact h.dispose
  | fire timer now later last => exact h.fire timer now later last
  | resolveSucceeded i resolved now later last => exact h.resolveSucceeded i resolved now later last
  | resolveFailed i now => exact h.resolveFailed i now
  | resolveEnded i now later => exact h.resolveEnded i now later
  | triggerSucceeded i now =>
    rw [stepSilence, triggerSucceeded]
    split
    · exact h.finishTrigger i now
    · exact h
  | triggerFailed i now => exact h.triggerFailed i now
  | triggerEnded i now =>
    rw [stepSilence, triggerEnded]
    split
    · exact h.finishTrigger i now
    · exact h

end

/-! ## Hosts -/

section

variable {o : ForwardGroupHostSilenceSchedulerOptions} {w : ForwardGroupHostSilenceScheduler}

def Resolving (resolutions : List Resolution) (hostId object : ℕ) : Prop :=
  ∃ r ∈ resolutions, r.hostId = hostId ∧ r.object = object

/-- The state of a host is resolved, or something will resolve it. -/
structure HostKept (resolutions : List Resolution) (hostId : ℕ) (state : HostSilenceState) : Prop where
  unresolved : state.resolved = false → state.timer.isSome ∨ state.resolving
  resolving : state.resolving → Resolving resolutions hostId state.object

def HostsKept (w : ForwardGroupHostSilenceScheduler) : Prop :=
  ∀ hostId state, w.hosts.get hostId = some state → HostKept w.resolutions hostId state

variable {w' : ForwardGroupHostSilenceScheduler}

theorem SameHosts.kept (hsame : SameHosts w w') (h : HostsKept w) :
    HostsKept w' := by
  intro hostId state hget
  rw [hsame.hosts] at hget
  rw [hsame.resolutions]
  exact h hostId state hget

variable {resolutions : List Resolution}

theorem HostsKept.set {hosts : JsMap ℕ HostSilenceState} {hostId : ℕ}
    {state : HostSilenceState}
    (hothers : ∀ other state, other ≠ hostId → hosts.get other = some state → HostKept resolutions other state)
    (hown : HostKept resolutions hostId state) : ∀ other state',
      (hosts.set hostId state).get other = some state' → HostKept resolutions other state' := by
  intro other state' hget
  rw [JsMap.get_set] at hget
  split at hget
  · rename_i heq
    subst heq
    obtain rfl := Option.some.inj hget
    exact hown
  · rename_i hne
    exact hothers other state' hne hget

theorem hostsKept_armHost {hostId object : ℕ}
    (hown : ∃ state, w.attached hostId object = some state ∧
      (state.resolving → Resolving w.resolutions hostId state.object))
    (hothers : ∀ other state, other ≠ hostId → w.hosts.get other = some state → HostKept w.resolutions other state)
    (now : ℚ) : HostsKept (w.armHost hostId object now) := by
  obtain ⟨state, hattached, hown⟩ := hown
  obtain ⟨hget, -⟩ := attached_eq_some_iff.mp hattached
  rw [armHost, hattached]
  dsimp only
  split
  · rename_i hset
    intro other state' hget'
    by_cases heq : other = hostId
    · subst heq
      obtain rfl := Option.some.inj (hget.symm.trans hget')
      exact ⟨fun _ => hset, hown⟩
    · exact hothers other state' heq hget'
  · exact HostsKept.set hothers ⟨fun _ => .inl rfl, hown⟩

theorem hostsKept_observe (h : HostsKept w) (hostIdValue seenAtValue notBeforeValue : JsNumber)
    (now later : ℚ) : HostsKept (w.observe o hostIdValue seenAtValue notBeforeValue now later) := by
  unfold observe
  split
  · exact h
  · rename_i hostId seenAt _
    split
    · exact h
    · dsimp only
      split
      · exact h
      · let state := observed o (w.hosts.get (hostId + 1)) seenAt notBeforeValue w.objects
        refine hostsKept_armHost ⟨state, ?_, (by rintro ⟨⟩)⟩ ?_ _
        · rw [attached_eq_some_iff, (sameHosts_removeDeadlinesForHost _ _).hosts, JsMap.get_set, if_pos rfl]
          exact ⟨rfl, rfl⟩
        · intro other state hne hget
          rw [(sameHosts_removeDeadlinesForHost _ _).resolutions]
          rw [(sameHosts_removeDeadlinesForHost _ _).hosts] at hget
          rw [JsMap.get_set, if_neg hne] at hget
          exact h other state hget
  · exact h

theorem hostsKept_clear (h : HostsKept w) (hostIdValue : JsNumber) (now : ℚ) : HostsKept (w.clear hostIdValue now) := by
  refine (sameHosts_removeDeadlinesForHost _ _).kept ?_
  intro other state hget
  rw [JsMap.get_delete] at hget
  split at hget
  · cases hget
  · exact h other state hget

theorem hostsKept_fireHost (h : HostsKept w) (hostId object timer : ℕ) (now later : ℚ) :
    HostsKept (w.fireHost hostId object timer now later) := by
  rw [fireHost]
  split
  · exact h
  · rename_i state hfound
    have hattached : w.attached hostId object = some state := (filter_eq_some_iff.mp hfound).1
    obtain ⟨hget, hobject⟩ := attached_eq_some_iff.mp hattached
    have hkept := h hostId state hget
    have hfired : attached { w with
        hosts := w.hosts.set hostId { state with timer := none } } hostId object = some { state with timer := none } := by
      rw [attached_eq_some_iff, JsMap.get_set, if_pos rfl]
      exact ⟨rfl, hobject⟩
    have hothers : ∀ other state', other ≠ hostId →
        (w.hosts.set hostId { state with timer := none }).get other = some state' →
        HostKept w.resolutions other state' := by
      intro other state' hne hget'
      rw [JsMap.get_set, if_neg hne] at hget'
      exact h other state' hget'
    dsimp only
    split
    · exact hostsKept_armHost ⟨_, hfired, hkept.resolving⟩ hothers _
    · -- the lookup begins, unless there is one
      rw [resolveHost, hfired]
      dsimp only
      split
      · rename_i hresolving
        exact HostsKept.set (fun other state' hne => h other state') ⟨fun _ => .inr hresolving, hkept.resolving⟩
      · refine HostsKept.set ?_ ⟨fun _ => .inr rfl, fun _ => ⟨⟨hostId, object, false⟩, by simp, rfl, hobject.symm⟩⟩
        intro other state' hne hget'
        have hother := hothers other state' hne hget'
        refine ⟨hother.unresolved, fun hresolving => ?_⟩
        obtain ⟨r, hmem, hr⟩ := hother.resolving hresolving
        exact ⟨r, mem_append_left _ hmem, hr⟩

theorem Resolving.eraseIdx {i : ℕ} {r : Resolution} (hi : resolutions[i]? = some r)
    {hostId object : ℕ} (h : Resolving resolutions hostId object) (hne : ¬ (r.hostId = hostId ∧ r.object = object)) :
    Resolving (resolutions.eraseIdx i) hostId object := by
  obtain ⟨r', hmem, hr'⟩ := h
  obtain ⟨j, hj⟩ := mem_iff_getElem?.mp hmem
  refine ⟨r', mem_eraseIdx_iff_getElem?.mpr ⟨j, ?_, hj⟩, hr'⟩
  rintro rfl
  obtain rfl := Option.some.inj (hi.symm.trans hj)
  exact hne hr'

theorem hostsKept_finishHost {i : ℕ} {r : Resolution} (hi : w.resolutions[i]? = some r) (h : HostsKept w)
    (hhosts : w'.hosts = w.hosts)
    (hresolutions : w'.resolutions = w.resolutions.eraseIdx i) {resolved : Bool} {now : ℚ}
    (hok : resolved = true ∨ ∀ state ∈ w.attached r.hostId r.object, now < state.attemptAt) (later : ℚ) :
    HostsKept (w'.finishHost r.hostId r.object resolved now later) := by
  have hsame : ∀ hostId object, w'.attached hostId object = w.attached hostId object := by
    intro hostId object
    rw [attached, hhosts]
    rfl
  -- every state but that of the lookup keeps its own
  have hkept : ∀ hostId state, w'.hosts.get hostId = some state → ¬ (r.hostId = hostId ∧ r.object = state.object) →
      HostKept w'.resolutions hostId state := by
    intro hostId state hget hne
    rw [hhosts] at hget
    rw [hresolutions]
    have hbefore := h hostId state hget
    exact ⟨hbefore.unresolved, fun hresolving => (hbefore.resolving hresolving).eraseIdx hi hne⟩
  rw [finishHost, hsame]
  split
  · rename_i hnone
    intro hostId state hget
    refine hkept hostId state hget ?_
    rintro ⟨rfl, hobject⟩
    rw [hhosts] at hget
    cases hnone.symm.trans (attached_eq_some_iff.mpr ⟨hget, hobject.symm⟩)
  · rename_i state hattached
    obtain ⟨hget, hobject⟩ := attached_eq_some_iff.mp hattached
    have hothers : ∀ other state', other ≠ r.hostId → w'.hosts.get other = some state' →
        HostKept w'.resolutions other state' :=
      fun other state' hne hget' => hkept other state' hget' fun heq => hne heq.1.symm
    dsimp only
    split
    · refine hostsKept_armHost ⟨{ state with resolving := false, resolved := state.resolved || resolved }, ?_, (by simp)⟩
        ?_ _
      · rw [attached_eq_some_iff, JsMap.get_set, if_pos rfl]
        exact ⟨rfl, hobject⟩
      · intro other state' hne hget'
        rw [JsMap.get_set, if_neg hne] at hget'
        exact hothers other state' hne hget'
    · rename_i hlate
      refine HostsKept.set hothers ⟨?_, (by simp)⟩
      intro hunresolved
      rcases hok with rfl | hearly
      · simp at hunresolved
      · exact absurd (hearly state hattached) hlate

/-- The clock is before the next attempt when a failed lookup ends. -/
def RetryAhead (w : ForwardGroupHostSilenceScheduler) : SilenceEvent → Prop
  | .resolveEnded i now _ => ∀ r ∈ w.resolutions[i]?, r.caught →
      ∀ state ∈ w.attached r.hostId r.object, now < state.attemptAt
  | _ => True

instance (w : ForwardGroupHostSilenceScheduler) : (e : SilenceEvent) → Decidable (RetryAhead w e)
  | .resolveEnded i now _ => inferInstanceAs (Decidable (∀ r ∈ w.resolutions[i]?, r.caught →
      ∀ state ∈ w.attached r.hostId r.object, now < state.attemptAt))
  | .observe .. | .clear .. | .dispose | .fire .. | .resolveSucceeded .. | .resolveFailed .. => .isTrue trivial
  | .triggerSucceeded .. | .triggerFailed .. | .triggerEnded .. => .isTrue trivial

theorem hostsKept_resolveSucceeded (h : HostsKept w) (i : ℕ) (resolved : List (JsNumber × JsNumber))
    (now later last : ℚ) : HostsKept (w.resolveSucceeded i resolved now later last) := by
  rw [resolveSucceeded]
  split
  · exact h
  · rename_i r hi
    split
    · exact h
    · dsimp only
      split
      · rename_i hnone
        intro hostId state hget
        have hbefore := h hostId state hget
        refine ⟨hbefore.unresolved, fun hresolving => (hbefore.resolving hresolving).eraseIdx hi ?_⟩
        rintro ⟨rfl, hobject⟩
        cases hnone.symm.trans (attached_eq_some_iff.mpr ⟨hget, hobject.symm⟩)
      · refine hostsKept_finishHost hi h ?_ ?_ (.inl rfl) last
        · exact (sameHosts_armGroupTimer _ _).hosts
        · exact (sameHosts_armGroupTimer _ _).resolutions

theorem hostsKept_resolveFailed (h : HostsKept w) (i : ℕ) (now : ℚ) : HostsKept (w.resolveFailed o i now) := by
  rw [resolveFailed]
  split
  · exact h
  · rename_i r hi
    have hset : ∀ {hostId object : ℕ}, Resolving w.resolutions hostId object →
        Resolving (w.resolutions.set i { r with caught := true }) hostId object := by
      rintro hostId object ⟨r', hmem, hr'⟩
      obtain ⟨j, hj⟩ := mem_iff_getElem?.mp hmem
      by_cases hij : i = j
      · subst hij
        obtain rfl := Option.some.inj (hi.symm.trans hj)
        exact ⟨_, mem_set (List.getElem?_eq_some_iff.mp hi).1 _, hr'⟩
      · exact ⟨r', mem_of_getElem? (by rw [getElem?_set_ne hij]; exact hj), hr'⟩
    split
    · exact h
    · split
      · rename_i hnone
        intro hostId state hget
        have hbefore := h hostId state hget
        refine ⟨hbefore.unresolved, fun hresolving => (hbefore.resolving hresolving).eraseIdx hi ?_⟩
        rintro ⟨rfl, hobject⟩
        cases hnone.symm.trans (attached_eq_some_iff.mpr ⟨hget, hobject.symm⟩)
      · rename_i state hattached
        have hbefore := h r.hostId state (attached_eq_some_iff.mp hattached).1
        refine HostsKept.set ?_ ⟨hbefore.unresolved, fun hresolving => hset (hbefore.resolving hresolving)⟩
        intro other state' _ hget
        have hother := h other state' hget
        exact ⟨hother.unresolved, fun hresolving => hset (hother.resolving hresolving)⟩

theorem hostsKept_resolveEnded (h : HostsKept w) {i : ℕ} {now later : ℚ} (hok : RetryAhead w (.resolveEnded i now later)) :
    HostsKept (w.resolveEnded i now later) := by
  rw [resolveEnded]
  split
  · exact h
  · rename_i r hi
    split
    · rename_i hcaught
      refine hostsKept_finishHost hi h ?_ ?_ (.inr (hok r hi hcaught)) later
      · rfl
      · rfl
    · exact h

theorem hostsKept_step {e : SilenceEvent} (hok : RetryAhead w e) (h : HostsKept w) : HostsKept (stepSilence o w e) := by
  cases e with
  | observe hostIdValue seenAtValue notBeforeValue now later =>
    exact hostsKept_observe h hostIdValue seenAtValue notBeforeValue now later
  | clear hostIdValue now => exact hostsKept_clear h hostIdValue now
  | dispose =>
    intro hostId state hget
    cases hget
  | fire timer now later last =>
    rw [stepSilence, fire]
    split
    · exact h
    · exact hostsKept_fireHost (w := { w with timers := w.timers.clearTimer timer }) h _ _ _ _ _
    · exact (sameHosts_fireGroup _ _ _ _ _).kept h
  | resolveSucceeded i resolved now later last => exact hostsKept_resolveSucceeded h i resolved now later last
  | resolveFailed i now => exact hostsKept_resolveFailed h i now
  | resolveEnded i now later => exact hostsKept_resolveEnded h hok
  | triggerSucceeded i now =>
    rw [stepSilence, triggerSucceeded]
    split
    · exact (sameHosts_finishTrigger i now).kept h
    · exact h
  | triggerFailed i now => exact (sameHosts_triggerFailed i now).kept h
  | triggerEnded i now =>
    rw [stepSilence, triggerEnded]
    split
    · exact (sameHosts_finishTrigger i now).kept h
    · exact h

end

/-- **Silent hosts are not forgotten**, in a run whose failed lookups all end before the time they are
to be tried again at. -/
theorem silent_hosts_kept (o : ForwardGroupHostSilenceSchedulerOptions) (events : List SilenceEvent)
    (h : Admissible RetryAhead (stepSilence o) {} events) :
    let w := run (stepSilence o) {} events
    (∀ hostId state, w.hosts.get hostId = some state → state.resolved = false →
      (∃ timer, state.timer = some timer ∧ w.timers.job timer = some (.host hostId state.object)) ∨
        ∃ r ∈ w.resolutions, r.hostId = hostId ∧ r.object = state.object) ∧
    ((∃ key d, w.groupDeadlines.get key = some d) → w.triggers = [] → ∃ timer dueAt,
      w.timers.job timer = some (.group dueAt) ∧ (∃ key d, w.groupDeadlines.get key = some d ∧ d.dueAt = dueAt) ∧
        ∀ key d, w.groupDeadlines.get key = some d → dueAt ≤ d.dueAt) := by
  have hkept : HostsKept (run (stepSilence o) {} events) :=
    run_invariant_of_admissible (fun _ _ hok h => hostsKept_step hok h) events _ h (fun _ _ hget => by cases hget)
  have htimers : TimersKept (run (stepSilence o) {} events) :=
    run_invariant (fun _ e h => h.step e) events _ TimersKept.start
  have hgroups : GroupsArmed (run (stepSilence o) {} events) :=
    run_invariant (fun _ e h => h.step e) events _ GroupsArmed.start
  constructor
  · intro hostId state hget hunresolved
    have hhost := hkept hostId state hget
    rcases hhost.unresolved hunresolved with htimer | hresolving
    · left
      obtain ⟨timer, htimer⟩ := Option.isSome_iff_exists.mp htimer
      have hslot : slot (run (stepSilence o) {} events).hosts hostId state.object = some timer := by
        rw [slot_of_get hget, if_pos rfl, htimer]
      obtain ⟨_, hjob, rfl⟩ := (htimers.host hostId state.object timer).mpr hslot
      exact ⟨timer, htimer, hjob⟩
    · exact .inr (hhost.resolving hresolving)
  · rintro ⟨key, d, hd⟩ hidle
    have hrunning : (run (stepSilence o) {} events).groupTriggerRunning = false := by
      have hlength := hgroups.triggers
      rw [hidle] at hlength
      by_contra hrun
      simp [hrun] at hlength
    have hsome : (run (stepSilence o) {} events).earliestGroupDueAt.isSome := by
      rw [ForwardGroupHostSilenceScheduler.earliestGroupDueAt, List.isSome_min?_iff]
      intro hnil
      have hmem := List.mem_map_of_mem (f := fun e => e.2.dueAt) (JsMap.get_eq_some_iff.mp hd)
      rw [hnil] at hmem
      cases hmem
    obtain ⟨timer, htimer⟩ := Option.isSome_iff_exists.mp (hgroups.timer hrunning hsome)
    obtain ⟨_, hjob, dueAt, rfl⟩ := (htimers.group timer).mpr htimer
    refine ⟨timer, dueAt, hjob, earliestGroupDueAt_eq_some_iff.mp ?_⟩
    rw [← hgroups.dueAt hrunning]
    exact htimers.due timer dueAt hjob

/-- Host 1 falls silent at 5 s, and its lookup fails at 6 s. -/
def silentOnce : List SilenceEvent :=
  [.observe (.finite 1) (.finite 5000) .nan 5000 5000, .fire 0 6000 6000 6000, .resolveFailed 0 6000]

theorem silent_hosts_kept_retried : ∃ state,
    (run (stepSilence {}) {} (silentOnce ++ [.resolveEnded 0 6001 6001])).hosts.get 1 = some state ∧
      ((∃ timer, state.timer = some timer ∧ (run (stepSilence {}) {}
          (silentOnce ++ [.resolveEnded 0 6001 6001])).timers.job timer = some (.host 1 state.object)) ∨
        ∃ r ∈ (run (stepSilence {}) {} (silentOnce ++ [.resolveEnded 0 6001 6001])).resolutions,
          r.hostId = 1 ∧ r.object = state.object) := by
  have hkept := silent_hosts_kept {} (silentOnce ++ [.resolveEnded 0 6001 6001]) (by decide +kernel)
  have hget : (run (stepSilence {}) {} (silentOnce ++ [.resolveEnded 0 6001 6001])).hosts.get 1
      = some ⟨1, 5000, 5000, 7000, some 1, false, 0, false⟩ := by decide +kernel
  exact ⟨_, hget, hkept.1 1 _ hget rfl⟩

/-- The second read of the clock is a second after the first: the host is not resolved, has no
timer, and is not being looked up. -/
theorem silent_host_forgotten :
    ¬ (let w := run (stepSilence {}) {} (silentOnce ++ [.resolveEnded 0 7000 7000])
      ∀ hostId state, w.hosts.get hostId = some state → state.resolved = false →
        (∃ timer, state.timer = some timer ∧ w.timers.job timer = some (.host hostId state.object)) ∨
          ∃ r ∈ w.resolutions, r.hostId = hostId ∧ r.object = state.object) := by
  intro h
  have hget : (run (stepSilence {}) {} (silentOnce ++ [.resolveEnded 0 7000 7000])).hosts.get 1
      = some ⟨1, 5000, 5000, 7000, none, false, 0, false⟩ := by decide +kernel
  have hnone : (run (stepSilence {}) {} (silentOnce ++ [.resolveEnded 0 7000 7000])).resolutions = [] := by
    decide +kernel
  rcases h 1 _ hget rfl with ⟨timer, htimer, -⟩ | ⟨r, hr, -⟩
  · cases htimer
  · rw [hnone] at hr
    cases hr

end ForwardX.Panel.HostSilence
