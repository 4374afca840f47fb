/-
No deadline outlives the observation it was made for.
-/
import ForwardX.Panel.HostSilence

namespace ForwardX.Panel.HostSilence

open Run ForwardGroupHostSilenceScheduler

section

variable {o : ForwardGroupHostSilenceSchedulerOptions} {w : ForwardGroupHostSilenceScheduler}

/-- The deadline is of the host's current observation. -/
def Current (w : ForwardGroupHostSilenceScheduler) (d : HostGroupDeadline) : Prop :=
  ∃ state, w.hosts.get d.hostId = some state ∧ state.object = d.object

def DeadlinesCurrent (w : ForwardGroupHostSilenceScheduler) : Prop :=
  ∀ key d, w.groupDeadlines.get key = some d → Current w d

def SameObject (w w' : ForwardGroupHostSilenceScheduler) (hostId : ℕ) : Prop :=
  ∀ object, (∃ state, w.hosts.get hostId = some state ∧ state.object = object) →
    ∃ state, w'.hosts.get hostId = some state ∧ state.object = object

variable {w' : ForwardGroupHostSilenceScheduler}

theorem SameObject.of_hosts (hhosts : w'.hosts = w.hosts) (hostId : ℕ) : SameObject w w' hostId := by
  intro object h
  rw [hhosts]
  exact h

theorem SameObject.after {w' w'' : ForwardGroupHostSilenceScheduler} {hostId : ℕ} (h' : SameObject w' w'' hostId)
    (h : SameObject w w' hostId) : SameObject w w'' hostId :=
  fun object hobject => h' object (h object hobject)

theorem sameObject_set {written : ℕ} {state state' : HostSilenceState}
    (hget : w.hosts.get written = some state) (hobject : state'.object = state.object)
    (hhosts : w'.hosts = w.hosts.set written state') (hostId : ℕ) : SameObject w w' hostId := by
  rintro object ⟨old, hold, rfl⟩
  rw [hhosts, JsMap.get_set]
  split
  · rename_i heq
    subst heq
    obtain rfl := Option.some.inj (hget.symm.trans hold)
    exact ⟨state', rfl, hobject⟩
  · exact ⟨old, hold, rfl⟩

theorem sameObject_armHost (armed object : ℕ) (now : ℚ) (hostId : ℕ) :
    SameObject w (w.armHost armed object now) hostId := by
  rw [armHost]
  split
  · exact SameObject.of_hosts rfl hostId
  · rename_i state hattached
    split
    · exact SameObject.of_hosts rfl hostId
    · refine sameObject_set (attached_eq_some_iff.mp hattached).1 ?_ rfl hostId
      rfl

theorem sameObject_resolveHost (resolving object : ℕ) (hostId : ℕ) :
    SameObject w (w.resolveHost resolving object) hostId := by
  rw [resolveHost]
  split
  · exact SameObject.of_hosts rfl hostId
  · rename_i state hattached
    split
    · exact SameObject.of_hosts rfl hostId
    · refine sameObject_set (attached_eq_some_iff.mp hattached).1 ?_ rfl hostId
      rfl

theorem sameObject_finishHost (finished object : ℕ) (resolved : Bool) (now later : ℚ) (hostId : ℕ) :
    SameObject w (w.finishHost finished object resolved now later) hostId := by
  rw [finishHost]
  split
  · exact SameObject.of_hosts rfl hostId
  · rename_i state hattached
    have hfree : SameObject w { w with
        hosts := w.hosts.set finished { state with resolving := false, resolved := state.resolved || resolved } }
        hostId := by
      refine sameObject_set (attached_eq_some_iff.mp hattached).1 ?_ rfl hostId
      rfl
    dsimp only
    split
    · exact (sameObject_armHost _ _ _ _).after hfree
    · exact hfree

theorem sameObject_fireHost (fired object timer : ℕ) (now later : ℚ) (hostId : ℕ) :
    SameObject w (w.fireHost fired object timer now later) hostId := by
  rw [fireHost]
  split
  · exact SameObject.of_hosts rfl hostId
  · rename_i state hfound
    have hget := (attached_eq_some_iff.mp (Option.filter_eq_some_iff.mp hfound).1).1
    have hfree : SameObject w { w with hosts := w.hosts.set fired { state with timer := none } } hostId := by
      refine sameObject_set hget ?_ rfl hostId
      rfl
    dsimp only
    split
    · exact (sameObject_armHost _ _ _ _).after hfree
    · exact (sameObject_resolveHost _ _ _).after hfree

theorem sameObject_resolveFailed (i : ℕ) (now : ℚ) (hostId : ℕ) : SameObject w (w.resolveFailed o i now) hostId := by
  rw [resolveFailed]
  split
  · exact SameObject.of_hosts rfl hostId
  · split
    · exact SameObject.of_hosts rfl hostId
    · split
      · exact SameObject.of_hosts rfl hostId
      · rename_i state hattached
        refine sameObject_set (attached_eq_some_iff.mp hattached).1 ?_ rfl hostId
        rfl

theorem sameObject_resolveEnded (i : ℕ) (now later : ℚ) (hostId : ℕ) :
    SameObject w (w.resolveEnded i now later) hostId := by
  rw [resolveEnded]
  split
  · exact SameObject.of_hosts rfl hostId
  · split
    · exact (sameObject_finishHost _ _ _ _ _ _).after (SameObject.of_hosts rfl hostId)
    · exact SameObject.of_hosts rfl hostId

/-! ## What each part does to the deadlines -/

theorem DeadlinesCurrent.fewer (h : DeadlinesCurrent w)
    (hsub : ∀ key d, w'.groupDeadlines.get key = some d → w.groupDeadlines.get key = some d)
    (hsame : ∀ key d, w'.groupDeadlines.get key = some d → SameObject w w' d.hostId) : DeadlinesCurrent w' := by
  intro key d hd
  exact hsame key d hd d.object (h key d (hsub key d hd))

theorem groupDeadlines_armGroupTimer (force : Bool) (now : ℚ) :
    (w.armGroupTimer force now).groupDeadlines = w.groupDeadlines := by
  rw [armGroupTimer]
  split
  · rfl
  · split
    · rfl
    · split
      · rfl
      · rfl

theorem triggers_armGroupTimer (force : Bool) (now : ℚ) : (w.armGroupTimer force now).triggers = w.triggers := by
  rw [armGroupTimer]
  split
  · rfl
  · split
    · rfl
    · split
      · rfl
      · rfl

theorem get_removeDeadlinesForHost {hostId : ℕ} {now : ℚ} {key : ℕ × ℕ} {d : HostGroupDeadline}
    (hd : (w.removeDeadlinesForHost hostId now).groupDeadlines.get key = some d) :
    w.groupDeadlines.get key = some d ∧ d.hostId ≠ hostId := by
  rw [removeDeadlinesForHost] at hd
  split at hd
  · rw [groupDeadlines_armGroupTimer, JsMap.get_filter, Option.filter_eq_some_iff] at hd
    simpa using hd
  · rename_i hnone
    refine ⟨hd, ?_⟩
    intro heq
    refine hnone (List.any_eq_true.mpr ⟨_, JsMap.get_eq_some_iff.mp hd, ?_⟩)
    simpa using heq

theorem triggers_removeDeadlinesForHost (hostId : ℕ) (now : ℚ) :
    (w.removeDeadlinesForHost hostId now).triggers = w.triggers := by
  rw [removeDeadlinesForHost]
  split
  · exact triggers_armGroupTimer _ _
  · rfl

theorem deadlinesCurrent_observe (h : DeadlinesCurrent w) (hostIdValue seenAtValue notBeforeValue : JsNumber)
    (now later : ℚ) : DeadlinesCurrent (w.observe o hostIdValue seenAtValue notBeforeValue now later) := by
  unfold observe
  split
  · exact h
  · split
    · exact h
    · dsimp only
      split
      · exact h
      · refine h.fewer ?_ ?_
        · intro key d hd
          rw [(sameGroups_armHost _ _ _).groupDeadlines] at hd
          exact (get_removeDeadlinesForHost hd).1
        · -- the host that is observed has no deadline left
          intro key d hd
          rw [(sameGroups_armHost _ _ _).groupDeadlines] at hd
          have hne := (get_removeDeadlinesForHost hd).2
          refine (sameObject_armHost _ _ _ _).after ?_
          intro object hobject
          rw [(sameHosts_removeDeadlinesForHost _ _).hosts, JsMap.get_set, if_neg hne]
          exact hobject
  · exact h

theorem deadlinesCurrent_clear (h : DeadlinesCurrent w) (hostIdValue : JsNumber) (now : ℚ) :
    DeadlinesCurrent (w.clear hostIdValue now) := by
  refine h.fewer ?_ ?_
  · intro key d hd
    exact (get_removeDeadlinesForHost hd).1
  · intro key d hd object hobject
    have hne := (get_removeDeadlinesForHost hd).2
    rw [clear, (sameHosts_removeDeadlinesForHost _ _).hosts, JsMap.get_delete, if_neg hne]
    exact hobject

theorem get_triggerDueGroups {now later : ℚ} {key : ℕ × ℕ} {d : HostGroupDeadline}
    (hd : (w.triggerDueGroups now later).groupDeadlines.get key = some d) : w.groupDeadlines.get key = some d := by
  have hfilter : ∀ {p : ℕ × ℕ → HostGroupDeadline → Bool}, (w.groupDeadlines.filter p).get key = some d →
      w.groupDeadlines.get key = some d := by
    intro p hp
    rw [JsMap.get_filter, Option.filter_eq_some_iff] at hp
    exact hp.1
  rw [triggerDueGroups] at hd
  split at hd
  · exact hd
  · dsimp only at hd
    split at hd
    · rw [groupDeadlines_armGroupTimer] at hd
      exact hfilter hd
    · exact hfilter hd

section

variable (h : DeadlinesCurrent w)

include h

theorem deadlinesCurrent_fire (timer : ℕ) (now later last : ℚ) :
    DeadlinesCurrent (w.fire timer now later last) := by
  rw [fire]
  split
  · exact h
  · refine h.fewer ?_ ?_
    · intro key d hd
      rw [(sameGroups_fireHost _ _ _ _ _).groupDeadlines] at hd
      exact hd
    · intro key d _
      exact (sameObject_fireHost _ _ _ _ _ _).after (SameObject.of_hosts rfl _)
  · refine h.fewer ?_ ?_
    · intro key d hd
      rw [fireGroup] at hd
      split at hd
      · exact hd
      · dsimp only at hd
        split at hd
        · rw [groupDeadlines_armGroupTimer] at hd
          exact hd
        · have hbefore := get_triggerDueGroups hd
          exact hbefore
    · intro key d _
      refine SameObject.of_hosts ?_ _
      exact (sameHosts_fireGroup _ _ _ _ _).hosts

theorem deadlinesCurrent_finishTrigger (i : ℕ) (now : ℚ) : DeadlinesCurrent (w.finishTrigger i now) := by
  refine h.fewer ?_ ?_
  · intro key d hd
    rw [finishTrigger, groupDeadlines_armGroupTimer] at hd
    exact hd
  · intro key d _
    exact SameObject.of_hosts (sameHosts_finishTrigger i now).hosts _

theorem deadlinesCurrent_addDeadlines {hostId : ℕ} {state : HostSilenceState}
    (hget : w.hosts.get hostId = some state) (resolved : List (JsNumber × JsNumber)) :
    DeadlinesCurrent (w.addDeadlines hostId state resolved) := by
  have hloop : ∀ (entries : List (ℕ × ℚ)) (m : JsMap (ℕ × ℕ) HostGroupDeadline),
      (∀ key d, m.get key = some d → Current w d) → ∀ key d,
      (entries.foldl (fun m e => m.set (hostId, e.1)
        ⟨hostId, e.1, state.generation, state.silentAt + e.2, state.object⟩) m).get key = some d → Current w d := by
    intro entries
    induction entries with
    | nil => intro m hm; exact hm
    | cons e rest ih =>
      intro m hm
      refine ih _ ?_
      intro key d hd
      rw [JsMap.get_set] at hd
      split at hd
      · obtain rfl := Option.some.inj hd
        exact ⟨state, hget, rfl⟩
      · exact hm key d hd
  exact hloop _ _ h

theorem deadlinesCurrent_resolveSucceeded (i : ℕ) (resolved : List (JsNumber × JsNumber))
    (now later last : ℚ) : DeadlinesCurrent (w.resolveSucceeded i resolved now later last) := by
  rw [resolveSucceeded]
  split
  · exact h
  · rename_i r _
    split
    · exact h
    · dsimp only
      split
      · exact h
      · rename_i state hattached
        have hadded : DeadlinesCurrent (addDeadlines
            { w with resolutions := w.resolutions.eraseIdx i } r.hostId state resolved) :=
          deadlinesCurrent_addDeadlines (w := { w with resolutions := w.resolutions.eraseIdx i }) h
            (attached_eq_some_iff.mp hattached).1 resolved
        refine hadded.fewer ?_ ?_
        · intro key d hd
          rw [(sameGroups_finishHost _ _ _ _ _).groupDeadlines, groupDeadlines_armGroupTimer] at hd
          exact hd
        · intro key d _
          refine (sameObject_finishHost _ _ _ _ _ _).after (SameObject.of_hosts ?_ _)
          exact (sameHosts_armGroupTimer _ _).hosts

end

/-! ## A trigger that fails -/

/-- A due entry's host has the entry's generation only in the entry's observation. -/
def NoReusedGeneration (w : ForwardGroupHostSilenceScheduler) : SilenceEvent → Prop
  | .triggerFailed i _ => ∀ t ∈ w.triggers[i]?, t.caught = false → ∀ d ∈ t.dueEntries,
      ∀ state ∈ w.hosts.get d.hostId, state.generation = d.generation → state.object = d.object
  | _ => True

instance (w : ForwardGroupHostSilenceScheduler) : (e : SilenceEvent) → Decidable (NoReusedGeneration w e)
  | .triggerFailed i _ => inferInstanceAs (Decidable (∀ t ∈ w.triggers[i]?, t.caught = false → ∀ d ∈ t.dueEntries,
      ∀ state ∈ w.hosts.get d.hostId, state.generation = d.generation → state.object = d.object))
  | .observe .. | .clear .. | .dispose | .fire .. | .resolveSucceeded .. | .resolveFailed .. => .isTrue trivial
  | .resolveEnded .. | .triggerSucceeded .. | .triggerEnded .. => .isTrue trivial

theorem deadlinesCurrent_readd (h : DeadlinesCurrent w) {d : HostGroupDeadline}
    (hok : ∀ state ∈ w.hosts.get d.hostId, state.generation = d.generation → state.object = d.object) (retryAt : ℚ) :
    DeadlinesCurrent (w.readd retryAt d) ∧ (w.readd retryAt d).hosts = w.hosts := by
  rw [readd]
  split
  · exact ⟨h, rfl⟩
  · rename_i state hget
    split
    · exact ⟨h, rfl⟩
    · rename_i hgeneration
      split
      · exact ⟨h, rfl⟩
      · refine ⟨?_, rfl⟩
        intro key d' hd'
        rw [JsMap.get_set] at hd'
        split at hd'
        · obtain rfl := Option.some.inj hd'
          exact ⟨state, hget, hok state hget (not_not.mp hgeneration)⟩
        · exact h key d' hd'

theorem deadlinesCurrent_triggerFailed (h : DeadlinesCurrent w) {i : ℕ} {now : ℚ}
    (hok : NoReusedGeneration w (.triggerFailed i now)) : DeadlinesCurrent (w.triggerFailed o i now) := by
  rw [triggerFailed]
  split
  · exact h
  · rename_i t hi
    split
    · exact h
    · rename_i hcaught
      have hentries := hok t hi (Bool.eq_false_iff.mpr hcaught)
      have hall := List.foldlRecOn t.dueEntries (fun w d => w.readd (now + o.retry) d)
        (motive := fun w' => DeadlinesCurrent w' ∧ w'.hosts = w.hosts) ⟨h, rfl⟩ (by
          rintro w' ⟨hw', hhosts⟩ d hd
          obtain ⟨hreadd, hsame⟩ := deadlinesCurrent_readd hw' (hhosts ▸ hentries d hd) (now + o.retry)
          exact ⟨hreadd, hsame.trans hhosts⟩)
      exact hall.1

theorem deadlinesCurrent_step {e : SilenceEvent} (hok : NoReusedGeneration w e) (h : DeadlinesCurrent w) :
    DeadlinesCurrent (stepSilence o w e) := by
  cases e with
  | observe hostIdValue seenAtValue notBeforeValue now later =>
    exact deadlinesCurrent_observe h hostIdValue seenAtValue notBeforeValue now later
  | clear hostIdValue now => exact deadlinesCurrent_clear h hostIdValue now
  | dispose =>
    intro key d hd
    cases hd
  | fire timer now later last => exact deadlinesCurrent_fire h timer now later last
  | resolveSucceeded i resolved now later last => exact deadlinesCurrent_resolveSucceeded h i resolved now later last
  | resolveFailed i now =>
    refine h.fewer ?_ fun _ d _ => sameObject_resolveFailed i now d.hostId
    intro key d hd
    rw [stepSilence, (sameGroups_resolveFailed i now).groupDeadlines] at hd
    exact hd
  | resolveEnded i now later =>
    refine h.fewer ?_ fun _ d _ => sameObject_resolveEnded i now later d.hostId
    intro key d hd
    rw [stepSilence, (sameGroups_resolveEnded i now later).groupDeadlines] at hd
    exact hd
  | triggerSucceeded i now =>
    rw [stepSilence, triggerSucceeded]
    split
    · exact deadlinesCurrent_finishTrigger h i now
    · exact h
  | triggerFailed i now => exact deadlinesCurrent_triggerFailed h hok
  | triggerEnded i now =>
    rw [stepSilence, triggerEnded]
    split
    · exact deadlinesCurrent_finishTrigger h i now
    · exact h

/-! ## A trigger that starts -/

theorem triggers_fire (timer : ℕ) (now later last : ℚ) : (w.fire timer now later last).triggers = w.triggers ∨
    ∃ t, (w.fire timer now later last).triggers = w.triggers ++ [t] ∧
      ∀ d ∈ t.dueEntries, ∃ key, w.groupDeadlines.get key = some d := by
  rw [fire]
  split
  · exact .inl rfl
  · exact .inl (sameGroups_fireHost _ _ _ _ _).triggers
  · rw [fireGroup]
    split
    · exact .inl rfl
    · dsimp only
      split
      · exact .inl (triggers_armGroupTimer _ _)
      · rw [triggerDueGroups]
        split
        · exact .inl rfl
        · dsimp only
          split
          · exact .inl (triggers_armGroupTimer _ _)
          · refine .inr ⟨_, rfl, ?_⟩
            intro d hd
            obtain ⟨⟨key, d'⟩, hmem, rfl⟩ := List.mem_map.mp (List.mem_filter.mp hd).1
            exact ⟨key, JsMap.get_eq_some_iff.mpr hmem⟩

theorem triggers_step (e : SilenceEvent) : (stepSilence o w e).triggers.length ≤ w.triggers.length ∨
    ∃ t, (stepSilence o w e).triggers = w.triggers ++ [t] ∧
      ∀ d ∈ t.dueEntries, ∃ key, w.groupDeadlines.get key = some d := by
  have hfinish : ∀ (i : ℕ) (now : ℚ), (w.finishTrigger i now).triggers.length ≤ w.triggers.length := by
    intro i now
    rw [finishTrigger, triggers_armGroupTimer]
    exact List.length_eraseIdx_le _ _
  cases e with
  | observe hostIdValue seenAtValue notBeforeValue now later =>
    left
    refine le_of_eq (congrArg List.length ?_)
    rw [stepSilence]
    unfold observe
    split
    · rfl
    · split
      · rfl
      · dsimp only
        split
        · rfl
        · rw [(sameGroups_armHost _ _ _).triggers, triggers_removeDeadlinesForHost]
    · rfl
  | clear hostIdValue now =>
    left
    rw [stepSilence, clear, triggers_removeDeadlinesForHost]
  | dispose => exact .inl (le_refl _)
  | fire timer now later last =>
    rcases triggers_fire (w := w) timer now later last with hsame | hstarts
    · exact .inl (le_of_eq (congrArg List.length hsame))
    · exact .inr hstarts
  | resolveSucceeded i resolved now later last =>
    left
    refine le_of_eq (congrArg List.length ?_)
    rw [stepSilence, resolveSucceeded]
    split
    · rfl
    · split
      · rfl
      · dsimp only
        split
        · rfl
        · rw [(sameGroups_finishHost _ _ _ _ _).triggers, triggers_armGroupTimer]
          rfl
  | resolveFailed i now => exact .inl (le_of_eq (congrArg List.length (sameGroups_resolveFailed i now).triggers))
  | resolveEnded i now later =>
    exact .inl (le_of_eq (congrArg List.length (sameGroups_resolveEnded i now later).triggers))
  | triggerSucceeded i now =>
    left
    rw [stepSilence, triggerSucceeded]
    split
    · exact hfinish i now
    · exact le_refl _
  | triggerFailed i now =>
    left
    rw [stepSilence, triggerFailed]
    split
    · exact le_refl _
    · split
      · exact le_refl _
      · simp
  | triggerEnded i now =>
    left
    rw [stepSilence, triggerEnded]
    split
    · exact hfinish i now
    · exact le_refl _

end

/-- **No stale deadline**, in a run whose triggers fail only while no due entry's generation is
used again: every deadline that is scheduled, the ones added again included, and every deadline
that a trigger starts with is of the current observation of its host. -/
theorem deadlines_current (o : ForwardGroupHostSilenceSchedulerOptions) (events : List SilenceEvent)
    (h : Admissible NoReusedGeneration (stepSilence o) {} events) :
    let w := run (stepSilence o) {} events
    (∀ key d, w.groupDeadlines.get key = some d → Current w d) ∧
    ∀ e t, (stepSilence o w e).triggers = w.triggers ++ [t] → ∀ d ∈ t.dueEntries, Current w d := by
  have hcurrent : DeadlinesCurrent (run (stepSilence o) {} events) :=
    run_invariant_of_admissible (fun _ _ hok h => deadlinesCurrent_step hok h) events _ h (fun _ _ hd => by cases hd)
  refine ⟨hcurrent, ?_⟩
  intro e t hstarts d hd
  rcases triggers_step (o := o) (w := run (stepSilence o) {} events) e with hfewer | ⟨t', hstarts', hscheduled⟩
  · rw [hstarts, List.length_append, List.length_singleton] at hfewer
    omega
  · obtain rfl : t = t' := by simpa using hstarts.symm.trans hstarts'
    obtain ⟨key, hget⟩ := hscheduled d hd
    exact hcurrent key d hget

/-- Host 1 falls silent, and the trigger for its group 9 is running. -/
def triggeredOnce : List SilenceEvent :=
  [.observe (.finite 1) (.finite 5000) .nan 5000 5000, .fire 0 6000 6000 6000,
    .resolveSucceeded 0 [(.finite 9, .finite 0)] 6000 6000 6000, .fire 1 6000 6000 6000]

theorem deadlines_current_retried : ∃ d,
    (run (stepSilence {}) {} (triggeredOnce ++ [.triggerFailed 0 6300])).groupDeadlines.get (1, 9) = some d ∧
      Current (run (stepSilence {}) {} (triggeredOnce ++ [.triggerFailed 0 6300])) d := by
  have hget : (run (stepSilence {}) {} (triggeredOnce ++ [.triggerFailed 0 6300])).groupDeadlines.get (1, 9)
      = some ⟨1, 9, 1, 7300, 0⟩ := by decide +kernel
  exact ⟨_, hget, (deadlines_current {} (triggeredOnce ++ [.triggerFailed 0 6300]) (by decide +kernel)).1 _ _ hget⟩

/-- While the trigger runs, the host is cleared and observed again, both times as generation 1:
the deadline of the old observation is added again. -/
theorem stale_deadline_readded :
    ¬ (let w := run (stepSilence {}) {} (triggeredOnce ++ [.clear (.finite 1) 6100,
        .observe (.finite 1) (.finite 6200) .nan 6200 6200, .triggerFailed 0 6300])
      ∀ key d, w.groupDeadlines.get key = some d → Current w d) := by
  intro h
  obtain ⟨state, hstate, hobject⟩ := h (1, 9) ⟨1, 9, 1, 7300, 0⟩ (by decide +kernel)
  have hget : (run (stepSilence {}) {} (triggeredOnce ++ [.clear (.finite 1) 6100,
      .observe (.finite 1) (.finite 6200) .nan 6200 6200, .triggerFailed 0 6300])).hosts.get 1
        = some ⟨1, 6200, 6200, 6200, some 2, false, 1, false⟩ := by decide +kernel
  obtain rfl := Option.some.inj (hget.symm.trans hstate)
  cases hobject

end ForwardX.Panel.HostSilence
