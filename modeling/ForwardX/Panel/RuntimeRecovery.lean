/-
The recovery of an agent's runtime: `AgentRuntimeRecoveryCoordinator` of
`server/agentRuntimeRecovery.ts`.

Callers join a recovery that is under way, and a cool-down follows one that went well. Each caller
is covered by a task that started after the state it complains of.
-/
import ForwardX.Lib.Chain
import ForwardX.Lib.JsMap
import ForwardX.Lib.Run
import ForwardX.Panel.JsValues

namespace ForwardX.Panel.RuntimeRecovery

open Chain Run Option

/-! ## The coordinator -/

structure AgentRuntimeRecoveryCoordinatorOptions where
  cooldownMs : ℚ := 60 * 1000

/-- The promise is named by the number of the request that made it. -/
structure InFlight where
  strength : ℤ
  promise : ℕ
  deriving DecidableEq

structure RecoveryState where
  lastSuccessAt : ℚ := 0
  lastSuccessStrength : ℤ := -1
  inFlight : Option InFlight := none

/-- How far a request is. Its own task is `queued` behind `Promise.resolve()`, then `started`,
and `settled` until the request goes on. It has returned `true` when it `ran`, and `false` when
it was `refused`, `coalesced` with the recovery it awaited, or came too soon after a `recent`
one. -/
inductive RequestPhase where
  | refused
  | waiting (running : InFlight)
  | queued
  | started
  | settled (failed : Bool)
  | ran (t : ℚ)
  | threw
  | coalesced (running : InFlight)
  | recent (now : ℚ)
  deriving DecidableEq

/-- How the promise of the request's task was settled. -/
def RequestPhase.failed : RequestPhase → Option Bool
  | .settled failed => some failed
  | .ran _ => some false
  | .threw => some true
  | _ => none

def RequestPhase.Running (phase : RequestPhase) : Prop := phase = .queued ∨ phase = .started

instance (phase : RequestPhase) : Decidable phase.Running := inferInstanceAs (Decidable (_ ∨ _))

def RequestPhase.Marked (phase : RequestPhase) : Prop := phase.Running ∨ ∃ failed, phase = .settled failed

structure RecoveryRequest where
  hostId : JsNumber
  strength : ℤ
  phase : RequestPhase

structure AgentRuntimeRecoveryCoordinator where
  states : JsMap JsNumber RecoveryState := ∅
  requests : List RecoveryRequest := []

/-- `Number.isFinite(hostId) && hostId > 0`. -/
def isHost : JsNumber → Bool
  | .finite q => 0 < q
  | _ => false

/-- `preserveReportedRuntime` may be absent. -/
def recoveryStrength (preserveReportedRuntime : Option Bool) : ℤ :=
  if preserveReportedRuntime = some true then 0 else 1

namespace AgentRuntimeRecoveryCoordinator

section

variable (options : AgentRuntimeRecoveryCoordinatorOptions)

/-- The body of `run` for a host, up to its first `await`; `c` is the request. -/
def evaluate (states : JsMap JsNumber RecoveryState) (c : ℕ) (hostId : JsNumber) (strength : ℤ) (now : ℚ) :
    JsMap JsNumber RecoveryState × RequestPhase :=
  let state := (states.get hostId).getD {}
  let states := if states.has hostId then states else states.set hostId state
  match state.inFlight with
  | some running => (states, .waiting running)
  | none =>
    if now - state.lastSuccessAt < max 0 options.cooldownMs ∧ strength ≤ state.lastSuccessStrength then
      (states, .recent now)
    else (states.set hostId { state with inFlight := some ⟨strength, c⟩ }, .queued)

/-- What a request writes behind its own `await`. -/
def finish (states : JsMap JsNumber RecoveryState) (c : ℕ) (request : RecoveryRequest) (failed : Bool) (now : ℚ) :
    JsMap JsNumber RecoveryState :=
  match states.get request.hostId with
  | none => states
  | some state =>
    if state.inFlight.map InFlight.promise = some c then
      states.set request.hostId
        (if failed then { state with inFlight := none }
        else ⟨now, request.strength, none⟩)
    else states

def setPhase (w : AgentRuntimeRecoveryCoordinator) (c : ℕ) (phase : RequestPhase) : AgentRuntimeRecoveryCoordinator :=
  { w with requests := w.requests.modify c fun request => { request with phase } }

def request (w : AgentRuntimeRecoveryCoordinator) (hostId : JsNumber) (preserveReportedRuntime : Option Bool)
    (now : ℚ) : AgentRuntimeRecoveryCoordinator :=
  let strength := recoveryStrength preserveReportedRuntime
  if isHost hostId then
    let (states, phase) := evaluate options w.states w.requests.length hostId strength now
    ⟨states, w.requests ++ [⟨hostId, strength, phase⟩]⟩
  else { w with requests := w.requests ++ [⟨hostId, strength, .refused⟩] }

def start (w : AgentRuntimeRecoveryCoordinator) (c : ℕ) : AgentRuntimeRecoveryCoordinator :=
  match w.requests[c]? with
  | some request => if request.phase = .queued then w.setPhase c .started else w
  | none => w

/-- The task ends, one way or the other. -/
def settle (w : AgentRuntimeRecoveryCoordinator) (c : ℕ) (failed : Bool) : AgentRuntimeRecoveryCoordinator :=
  match w.requests[c]? with
  | some request => if request.phase = .started then w.setPhase c (.settled failed) else w
  | none => w

/-- The request goes on behind its `await`, if the promise is settled. -/
def resume (w : AgentRuntimeRecoveryCoordinator) (c : ℕ) (now : ℚ) : AgentRuntimeRecoveryCoordinator :=
  match w.requests[c]? with
  | none => w
  | some request =>
    match request.phase with
    | .settled failed =>
      setPhase { w with states := finish w.states c request failed now } c (if failed then .threw else .ran now)
    | .waiting running =>
      match w.requests[running.promise]?.bind fun other => other.phase.failed with
      | none => w
      | some failed =>
        if request.strength ≤ running.strength ∧ failed = false then w.setPhase c (.coalesced running)
        else
          let (states, phase) := evaluate options w.states c request.hostId request.strength now
          setPhase { w with states } c phase
    | _ => w

def clear (w : AgentRuntimeRecoveryCoordinator) (hostId : JsNumber) : AgentRuntimeRecoveryCoordinator :=
  if isHost hostId then { w with states := w.states.delete hostId } else w

def clearAll (w : AgentRuntimeRecoveryCoordinator) : AgentRuntimeRecoveryCoordinator := { w with states := ∅ }

end

end AgentRuntimeRecoveryCoordinator

inductive RecoveryEvent where
  | request (hostId : JsNumber) (preserveReportedRuntime : Option Bool) (now : ℚ)
  | start (c : ℕ)
  | settle (c : ℕ) (failed : Bool)
  | resume (c : ℕ) (now : ℚ)
  | clear (hostId : JsNumber)
  | clearAll

def stepRecovery (options : AgentRuntimeRecoveryCoordinatorOptions) (w : AgentRuntimeRecoveryCoordinator) :
    RecoveryEvent → AgentRuntimeRecoveryCoordinator
  | .request hostId preserveReportedRuntime now => w.request options hostId preserveReportedRuntime now
  | .start c => w.start c
  | .settle c failed => w.settle c failed
  | .resume c now => w.resume options c now
  | .clear hostId => w.clear hostId
  | .clearAll => w.clearAll

def NotInFlight (w : AgentRuntimeRecoveryCoordinator) : RecoveryEvent → Prop
  | .clear hostId => ∀ request ∈ w.requests, request.hostId = hostId → ¬ request.phase.Running
  | .clearAll => ∀ request ∈ w.requests, ¬ request.phase.Running
  | _ => True

instance (w : AgentRuntimeRecoveryCoordinator) : (e : RecoveryEvent) → Decidable (NotInFlight w e)
  | .request _ _ _ | .start _ | .settle _ _ | .resume _ _ => .isTrue trivial
  | .clear hostId => inferInstanceAs (Decidable (∀ request ∈ w.requests, request.hostId = hostId →
      ¬ request.phase.Running))
  | .clearAll => inferInstanceAs (Decidable (∀ request ∈ w.requests, ¬ request.phase.Running))

/-! ## What one request does to the others -/

def RequestPhase.Made (phase : RequestPhase) : Prop := phase.Running ∨ phase.failed.isSome

theorem RequestPhase.Marked.made {phase : RequestPhase} (h : phase.Marked) : phase.Made := by
  rcases h with hrunning | ⟨failed, rfl⟩
  · exact .inl hrunning
  · exact .inr rfl

structure Progress (r r' : RecoveryRequest) : Prop where
  hostId : r'.hostId = r.hostId
  strength : r'.strength = r.strength
  made : r.phase.Made → r'.phase.Made
  failed : ∀ failed, r.phase.failed = some failed → r'.phase.failed = some failed
  ran : ∀ t, r.phase = .ran t → r'.phase = .ran t

theorem progress_of_not_made {r : RecoveryRequest} (h : ¬ r.phase.Made) (phase : RequestPhase) :
    Progress r { r with phase } where
  hostId := rfl
  strength := rfl
  made hmade := absurd hmade h
  failed failed heq := by
    refine absurd (.inr ?_) h
    rw [heq]
    rfl
  ran t heq := by
    refine absurd (.inr ?_) h
    rw [heq]
    rfl

/-- Only the request `c` changes, to `r'`. -/
structure Moves (requests requests' : List RecoveryRequest) (c : ℕ) (r' : RecoveryRequest) : Prop where
  new : requests'[c]? = some r'
  other : ∀ i, i ≠ c → requests'[i]? = requests[i]?
  progress : ∀ r, requests[c]? = some r → Progress r r'

theorem moves_append (requests : List RecoveryRequest) (r' : RecoveryRequest) :
    Moves requests (requests ++ [r']) requests.length r' where
  new := by simp
  other i hi := by
    rcases lt_or_gt_of_ne hi with hlt | hgt
    · exact List.getElem?_append_left hlt
    · rw [List.getElem?_eq_none (by simp; omega), List.getElem?_eq_none (by omega)]
  progress r hr := by
    rw [List.getElem?_eq_none le_rfl] at hr
    cases hr

theorem moves_setPhase {w : AgentRuntimeRecoveryCoordinator} {c : ℕ} {r : RecoveryRequest} {phase : RequestPhase}
    (hr : w.requests[c]? = some r) (hprogress : Progress r { r with phase }) :
    Moves w.requests (w.setPhase c phase).requests c { r with phase } where
  new := by
    refine getElem?_modify_iff.mpr ⟨r, hr, ?_⟩
    rw [if_pos rfl]
  other i hi := by
    have hmodify : (w.setPhase c phase).requests = w.requests.modify c fun request => { request with phase } := rfl
    rw [hmodify, List.getElem?_modify_ne _ _ hi.symm]
  progress r' hr' := by
    obtain rfl := Option.some.inj (hr.symm.trans hr')
    exact hprogress

theorem Moves.exists {requests requests' : List RecoveryRequest} {c : ℕ} {r' : RecoveryRequest}
    (h : Moves requests requests' c r') {P : RecoveryRequest → Prop}
    (hP : ∀ r, requests[c]? = some r → Progress r r' → P r → P r') {i : ℕ}
    (hi : ∃ r, requests[i]? = some r ∧ P r) : ∃ r, requests'[i]? = some r ∧ P r := by
  obtain ⟨r, hr, hholds⟩ := hi
  by_cases hic : i = c
  · subst hic
    exact ⟨r', h.new, hP r hr (h.progress r hr) hholds⟩
  · exact ⟨r, (h.other i hic).trans hr, hholds⟩

/-! ## What is known of requests -/

section

variable (options : AgentRuntimeRecoveryCoordinatorOptions)

/-- A recovery of the host and strength succeeded at `t`. -/
def RanAt (requests : List RecoveryRequest) (hostId : JsNumber) (strength : ℤ) (t : ℚ) : Prop :=
  ∃ (c : ℕ) (r : RecoveryRequest), requests[c]? = some r ∧ r.hostId = hostId ∧ r.strength = strength ∧
    r.phase = .ran t

def Promised (requests : List RecoveryRequest) (hostId : JsNumber) (running : InFlight)
    (P : RequestPhase → Prop) : Prop :=
  ∃ r, requests[running.promise]? = some r ∧ r.hostId = hostId ∧ r.strength = running.strength ∧ P r.phase

/-- What a request that is over, or waits, relies on. -/
def Founded (requests : List RecoveryRequest) (r : RecoveryRequest) : Prop :=
  match r.phase with
  | .refused => isHost r.hostId = false
  | .waiting running => Promised requests r.hostId running RequestPhase.Made
  | .coalesced running => r.strength ≤ running.strength ∧
      Promised requests r.hostId running fun phase => phase.failed = some false
  | .recent now => ∃ strength t, r.strength ≤ strength ∧ RanAt requests r.hostId strength t ∧
      now - t < max 0 options.cooldownMs
  | _ => True

variable {requests requests' : List RecoveryRequest}

section

variable {c : ℕ} {r' : RecoveryRequest} (h : Moves requests requests' c r')

include h

theorem RanAt.moves {hostId : JsNumber} {strength : ℤ} {t : ℚ}
    (hran : RanAt requests hostId strength t) : RanAt requests' hostId strength t := by
  obtain ⟨i, hi⟩ := hran
  refine ⟨i, h.exists ?_ hi⟩
  rintro r - hprogress ⟨hhost, hstrength, hphase⟩
  exact ⟨hprogress.hostId.trans hhost, hprogress.strength.trans hstrength, hprogress.ran t hphase⟩

theorem Promised.moves {hostId : JsNumber} {running : InFlight} {P : RequestPhase → Prop}
    (hP : ∀ r, requests[c]? = some r → Progress r r' → P r.phase → P r'.phase)
    (hmade : Promised requests hostId running P) : Promised requests' hostId running P := by
  refine h.exists ?_ hmade
  rintro r hr hprogress ⟨hhost, hstrength, hphase⟩
  exact ⟨hprogress.hostId.trans hhost, hprogress.strength.trans hstrength, hP r hr hprogress hphase⟩

theorem Founded.moves {r : RecoveryRequest} (hr : Founded options requests r) :
    Founded options requests' r := by
  unfold Founded at hr ⊢
  split at hr
  · exact hr
  · exact hr.moves h fun _ _ hprogress => hprogress.made
  · exact ⟨hr.1, hr.2.moves h fun _ _ hprogress => hprogress.failed false⟩
  · obtain ⟨strength, t, hle, hran, hsoon⟩ := hr
    exact ⟨strength, t, hle, hran.moves h, hsoon⟩
  · trivial

end

/-- `unique` says that a task in flight is the one its host's state tells of, and `marker` that a state
tells of a request that has not gone on yet. -/
structure Kept (states : JsMap JsNumber RecoveryState) (requests : List RecoveryRequest) : Prop where
  nonneg : ∀ r ∈ requests, 0 ≤ r.strength
  unique : ∀ (c : ℕ) (r : RecoveryRequest), requests[c]? = some r → r.phase.Running →
    ∃ state ∈ states.get r.hostId, state.inFlight = some ⟨r.strength, c⟩
  marker : ∀ hostId, ∀ state ∈ states.get hostId, ∀ running ∈ state.inFlight,
    Promised requests hostId running RequestPhase.Marked
  recorded : ∀ hostId, ∀ state ∈ states.get hostId,
    state.lastSuccessStrength = -1 ∨ RanAt requests hostId state.lastSuccessStrength state.lastSuccessAt
  founded : ∀ r ∈ requests, Founded options requests r

theorem Kept.start : Kept options ∅ [] where
  nonneg := by simp
  unique := by simp
  marker := by simp
  recorded := by simp
  founded := by simp

variable {options} {states states' : JsMap JsNumber RecoveryState} {requests requests' : List RecoveryRequest}
  {c : ℕ} {r' : RecoveryRequest}

section

variable (h : Kept options states requests) (hmoves : Moves requests requests' c r')
  (hnonneg : 0 ≤ r'.strength) (hfounded : Founded options requests' r')

include h hmoves hnonneg hfounded

theorem Kept.moves
    (hunique : ∀ (i : ℕ) (r : RecoveryRequest), requests'[i]? = some r → r.phase.Running →
      ∃ state ∈ states'.get r.hostId, state.inFlight = some ⟨r.strength, i⟩)
    (hmarker : ∀ hostId, ∀ state ∈ states'.get hostId, ∀ running ∈ state.inFlight,
      Promised requests' hostId running RequestPhase.Marked)
    (hrecorded : ∀ hostId, ∀ state ∈ states'.get hostId,
      state.lastSuccessStrength = -1 ∨ RanAt requests' hostId state.lastSuccessStrength state.lastSuccessAt) :
    Kept options states' requests' := by
  have hall : ∀ P : RecoveryRequest → Prop, P r' → (∀ r ∈ requests, P r) → ∀ r ∈ requests', P r := by
    intro P hnew hold r hr
    obtain ⟨i, hi⟩ := List.mem_iff_getElem?.mp hr
    by_cases hic : i = c
    · subst hic
      obtain rfl := Option.some.inj (hmoves.new.symm.trans hi)
      exact hnew
    · rw [hmoves.other i hic] at hi
      exact hold r (List.mem_of_getElem? hi)
  refine ⟨hall _ hnonneg h.nonneg, hunique, hmarker, hrecorded, hall _ hfounded ?_⟩
  intro r hr
  exact (h.founded r hr).moves options hmoves

theorem Kept.moves_same (hrunning : r'.phase.Running → ∃ r, requests[c]? = some r ∧ r.phase.Running)
    (hmarked : ∀ r, requests[c]? = some r → r.phase.Marked → r'.phase.Marked) :
    Kept options states requests' := by
  refine h.moves hmoves hnonneg hfounded ?_ ?_ ?_
  · intro i other hother hrun
    by_cases hic : i = c
    · subst hic
      obtain rfl := Option.some.inj (hmoves.new.symm.trans hother)
      obtain ⟨r, hr, hrbefore⟩ := hrunning hrun
      rw [(hmoves.progress r hr).hostId, (hmoves.progress r hr).strength]
      exact h.unique i r hr hrbefore
    · rw [hmoves.other i hic] at hother
      exact h.unique i other hother hrun
  · intro hostId state hstate running hrun
    refine (h.marker hostId state hstate running hrun).moves hmoves ?_
    intro r hr _ hphase
    exact hmarked r hr hphase
  · intro hostId state hstate
    exact (h.recorded hostId state hstate).imp_right fun hran => hran.moves hmoves

end

/-! ## The parts of a run -/

open AgentRuntimeRecoveryCoordinator

theorem evaluate_spec (options : AgentRuntimeRecoveryCoordinatorOptions) (states : JsMap JsNumber RecoveryState)
    (c : ℕ) (hostId : JsNumber) (strength : ℤ) (now : ℚ) :
    let state := (states.get hostId).getD {}
    let evaluated := evaluate options states c hostId strength now
    (∀ other, other ≠ hostId → evaluated.1.get other = states.get other) ∧
    ((∃ running, state.inFlight = some running ∧ evaluated.2 = .waiting running ∧
        evaluated.1.get hostId = some state) ∨
      (state.inFlight = none ∧ evaluated.2 = .recent now ∧ evaluated.1.get hostId = some state ∧
        now - state.lastSuccessAt < max 0 options.cooldownMs ∧ strength ≤ state.lastSuccessStrength) ∨
      (state.inFlight = none ∧ evaluated.2 = .queued ∧
        evaluated.1.get hostId = some { state with inFlight := some ⟨strength, c⟩ })) := by
  intro state evaluated
  have hhere : (if states.has hostId then states else states.set hostId state).get hostId = some state := by
    split
    · rename_i hhas
      obtain ⟨found, hfound⟩ := isSome_iff_exists.mp hhas
      simp only [state, hfound, getD_some]
    · rw [JsMap.get_set, if_pos rfl]
  have helse : ∀ other, other ≠ hostId →
      (if states.has hostId then states else states.set hostId state).get other = states.get other := by
    intro other hne
    split
    · rfl
    · rw [JsMap.get_set, if_neg hne]
  have hevaluated : evaluated = evaluate options states c hostId strength now := rfl
  rw [evaluate] at hevaluated
  cases hflight : state.inFlight with
  | some running =>
    simp only [state] at hflight
    simp only [hflight] at hevaluated
    rw [hevaluated]
    exact ⟨helse, .inl ⟨running, rfl, rfl, hhere⟩⟩
  | none =>
    simp only [state] at hflight
    simp only [hflight] at hevaluated
    rw [hevaluated]
    split
    · rename_i hsoon
      exact ⟨helse, .inr (.inl ⟨rfl, rfl, hhere, hsoon⟩)⟩
    · refine ⟨?_, .inr (.inr ⟨rfl, rfl, ?_⟩)⟩
      · intro other hne
        rw [JsMap.get_set, if_neg hne]
        exact helse other hne
      · rw [JsMap.get_set, if_pos rfl]

theorem Kept.evaluate (h : Kept options states requests) {hostId : JsNumber} {strength : ℤ} (hstrength : 0 ≤ strength)
    {now : ℚ} (hmoves : Moves requests requests' c
      ⟨hostId, strength, (evaluate options states c hostId strength now).2⟩)
    (hbefore : ∀ r, requests[c]? = some r → ¬ r.phase.Made) :
    Kept options (AgentRuntimeRecoveryCoordinator.evaluate options states c hostId strength now).1 requests' := by
  obtain ⟨helse, hhere⟩ := evaluate_spec options states c hostId strength now
  generalize AgentRuntimeRecoveryCoordinator.evaluate options states c hostId strength now = evaluated at *
  obtain ⟨states', phase⟩ := evaluated
  generalize hstate : (states.get hostId).getD {} = state at *
  dsimp only at *
  -- what the host's state was before: there, or with nothing in it
  have hmarker : ∀ running ∈ state.inFlight, Promised requests hostId running RequestPhase.Marked := by
    intro running hrunning
    cases hget : states.get hostId with
    | none =>
      rw [hget, getD_none] at hstate
      subst hstate
      cases hrunning
    | some found =>
      rw [hget, getD_some] at hstate
      subst hstate
      exact h.marker hostId found hget running hrunning
  have hrecorded : state.lastSuccessStrength = -1 ∨
      RanAt requests hostId state.lastSuccessStrength state.lastSuccessAt := by
    cases hget : states.get hostId with
    | none =>
      rw [hget, getD_none] at hstate
      subst hstate
      exact .inl rfl
    | some found =>
      rw [hget, getD_some] at hstate
      subst hstate
      exact h.recorded hostId found hget
  have hmarked : ∀ (host : JsNumber) (running : InFlight), Promised requests host running RequestPhase.Marked →
      Promised requests' host running RequestPhase.Marked := by
    intro host running hpromised
    refine hpromised.moves hmoves ?_
    intro r hr _ hphase
    exact absurd hphase.made (hbefore r hr)
  have hflight : ∀ (i : ℕ) (r : RecoveryRequest), requests[i]? = some r → r.phase.Running → r.hostId = hostId →
      state.inFlight = some ⟨r.strength, i⟩ := by
    rintro i r hr hrunning rfl
    obtain ⟨found, hfound, hin⟩ := h.unique i r hr hrunning
    rw [mem_def] at hfound
    rw [hfound, getD_some] at hstate
    exact hstate ▸ hin
  have hothers : ∀ (i : ℕ) (r : RecoveryRequest), requests[i]? = some r → r.phase.Running → r.hostId ≠ hostId →
      ∃ state ∈ states'.get r.hostId, state.inFlight = some ⟨r.strength, i⟩ := by
    intro i r hr hrunning hne
    rw [helse _ hne]
    exact h.unique i r hr hrunning
  have hrecorded' : ∀ new, states'.get hostId = some new → new.lastSuccessAt = state.lastSuccessAt →
      new.lastSuccessStrength = state.lastSuccessStrength → ∀ host, ∀ found ∈ states'.get host,
        found.lastSuccessStrength = -1 ∨ RanAt requests' host found.lastSuccessStrength found.lastSuccessAt := by
    intro new hnew hat hlast host found hfound
    by_cases hhost : host = hostId
    · subst hhost
      obtain rfl := Option.some.inj (hnew.symm.trans hfound)
      rw [hat, hlast]
      exact hrecorded.imp_right fun hran => hran.moves hmoves
    · rw [helse host hhost] at hfound
      exact (h.recorded host found hfound).imp_right fun hran => hran.moves hmoves
  -- the request makes no promise, and the state is as it was
  have hsame : states'.get hostId = some state → ¬ phase.Running →
      Founded options requests' ⟨hostId, strength, phase⟩ → Kept options states' requests' := by
    intro hhere hnot hfounded
    refine h.moves hmoves hstrength hfounded ?_ ?_ (hrecorded' state hhere rfl rfl)
    · intro i r hr hrunning
      by_cases hic : i = c
      · subst hic
        obtain rfl := Option.some.inj (hmoves.new.symm.trans hr)
        exact absurd hrunning hnot
      · rw [hmoves.other i hic] at hr
        by_cases hhost : r.hostId = hostId
        · exact ⟨state, hhost ▸ hhere, hflight i r hr hrunning hhost⟩
        · exact hothers i r hr hrunning hhost
    · intro host found hfound running hrunning
      by_cases hhost : host = hostId
      · subst hhost
        obtain rfl := Option.some.inj (hhere.symm.trans hfound)
        exact hmarked host running (hmarker running hrunning)
      · rw [helse host hhost] at hfound
        exact hmarked host running (h.marker host found hfound running hrunning)
  rcases hhere with ⟨running, hin, rfl, hhere⟩ | ⟨hin, rfl, hhere, hsoon, hstronger⟩ | ⟨hin, rfl, hhere⟩
  · refine hsame hhere (by simp [RequestPhase.Running]) ?_
    obtain ⟨r, hr, hhost, hrun, hphase⟩ := hmarked hostId running (hmarker running hin)
    exact ⟨r, hr, hhost, hrun, hphase.made⟩
  · refine hsame hhere (by simp [RequestPhase.Running]) ?_
    rcases hrecorded with hnone | hran
    · rw [hnone] at hstronger
      omega
    · exact ⟨_, _, hstronger, hran.moves hmoves, hsoon⟩
  · refine h.moves hmoves hstrength trivial ?_ ?_ (hrecorded' _ hhere rfl rfl)
    · intro i r hr hrunning
      by_cases hic : i = c
      · subst hic
        obtain rfl := Option.some.inj (hmoves.new.symm.trans hr)
        exact ⟨_, hhere, rfl⟩
      · rw [hmoves.other i hic] at hr
        by_cases hhost : r.hostId = hostId
        · -- a task of the host in flight would be in its state
          have hsome := hflight i r hr hrunning hhost
          rw [hin] at hsome
          cases hsome
        · exact hothers i r hr hrunning hhost
    · intro host found hfound running hrunning
      by_cases hhost : host = hostId
      · subst hhost
        obtain rfl := Option.some.inj (hhere.symm.trans hfound)
        obtain rfl := Option.some.inj hrunning
        exact ⟨_, hmoves.new, rfl, rfl, .inl (.inl rfl)⟩
      · rw [helse host hhost] at hfound
        exact hmarked host running (h.marker host found hfound running hrunning)

theorem get_finish (states : JsMap JsNumber RecoveryState) (c : ℕ) (r : RecoveryRequest) (failed : Bool) (now : ℚ)
    (host : JsNumber) : (finish states c r failed now).get host = (states.get host).map fun state =>
      if host = r.hostId ∧ state.inFlight.map InFlight.promise = some c then
        (if failed then { state with inFlight := none } else ⟨now, r.strength, none⟩)
      else state := by
  unfold finish
  split
  · rename_i hnone
    by_cases hhost : host = r.hostId
    · rw [hhost, hnone, map_none]
    · simp [hhost]
  · rename_i state hstate
    split
    · rename_i hpromise
      rw [JsMap.get_set]
      split
      · rename_i hhost
        simp only [hhost, hstate, map_some, hpromise, and_self, if_true]
      · rename_i hhost
        simp [hhost]
    · rename_i hpromise
      by_cases hhost : host = r.hostId
      · simp only [hhost, hstate, map_some, hpromise, and_false, if_false]
      · simp [hhost]

/-- **A request goes on after its own task**, and takes its promise out of the state if that is
in the table still. -/
theorem Kept.finish (h : Kept options states requests) {r : RecoveryRequest} (hr : requests[c]? = some r)
    {failed : Bool} {now : ℚ}
    (hmoves : Moves requests requests' c { r with phase := if failed then .threw else .ran now }) :
    Kept options (AgentRuntimeRecoveryCoordinator.finish states c r failed now) requests' := by
  have hread := get_finish states c r failed now
  generalize AgentRuntimeRecoveryCoordinator.finish states c r failed now = states' at *
  have hkeeps : ∀ (host : JsNumber) (state : RecoveryState), states.get host = some state →
      ¬ (host = r.hostId ∧ state.inFlight.map InFlight.promise = some c) → states'.get host = some state := by
    intro host state hstate hnot
    rw [hread, hstate, map_some, if_neg hnot]
  refine h.moves hmoves (h.nonneg r (List.mem_of_getElem? hr)) ?_ ?_ ?_ ?_
  · cases failed
    · trivial
    · trivial
  · intro i other hother hrunning
    have hic : i ≠ c := by
      rintro rfl
      obtain rfl := Option.some.inj (hmoves.new.symm.trans hother)
      cases failed <;> simp [RequestPhase.Running] at hrunning
    rw [hmoves.other i hic] at hother
    obtain ⟨state, hstate, hin⟩ := h.unique i other hother hrunning
    refine ⟨state, hkeeps _ _ hstate ?_, hin⟩
    rintro ⟨-, hpromise⟩
    rw [hin] at hpromise
    exact hic (Option.some.inj hpromise)
  · intro host found hfound running hrunning
    rw [mem_def, hread] at hfound
    obtain ⟨state, hstate, hnew⟩ := map_eq_some_iff.mp hfound
    split at hnew
    · subst hnew
      cases failed <;> cases hrunning
    · rename_i hnot
      subst hnew
      obtain ⟨other, hother, hhost, hstrength, hmarked⟩ := h.marker host state hstate running hrunning
      refine ⟨other, ?_, hhost, hstrength, hmarked⟩
      rw [hmoves.other running.promise ?_, hother]
      rintro rfl
      obtain rfl := Option.some.inj (hr.symm.trans hother)
      exact hnot ⟨hhost.symm, by rw [mem_def.mp hrunning, map_some]⟩
  · intro host found hfound
    rw [mem_def, hread] at hfound
    obtain ⟨state, hstate, hnew⟩ := map_eq_some_iff.mp hfound
    have hold := (h.recorded host state hstate).imp_right fun hran => hran.moves hmoves
    split at hnew
    · rename_i hhere
      subst hnew
      cases failed with
      | true => exact hold
      | false => exact .inr ⟨c, _, hmoves.new, hhere.1.symm, rfl, rfl⟩
    · subst hnew
      exact hold

theorem Kept.cleared (h : Kept options states requests)
    (hget : ∀ host, states'.get host = states.get host ∨
      (states'.get host = none ∧ ∀ r ∈ requests, r.hostId = host → ¬ r.phase.Running)) :
    Kept options states' requests where
  nonneg := h.nonneg
  unique := by
    intro i r hr hrunning
    rcases hget r.hostId with hsame | ⟨-, hnot⟩
    · rw [hsame]
      exact h.unique i r hr hrunning
    · exact absurd hrunning (hnot r (List.mem_of_getElem? hr) rfl)
  marker := by
    intro host state hstate
    rcases hget host with hsame | ⟨hgone, -⟩
    · exact h.marker host state (hsame ▸ hstate)
    · rw [hgone] at hstate
      cases hstate
  recorded := by
    intro host state hstate
    rcases hget host with hsame | ⟨hgone, -⟩
    · exact h.recorded host state (hsame ▸ hstate)
    · rw [hgone] at hstate
      cases hstate
  founded := h.founded

end

/-! ## Every run -/

section

open AgentRuntimeRecoveryCoordinator

variable {options : AgentRuntimeRecoveryCoordinatorOptions} {w : AgentRuntimeRecoveryCoordinator}

theorem recoveryStrength_nonneg (preserveReportedRuntime : Option Bool) :
    0 ≤ recoveryStrength preserveReportedRuntime := by
  unfold recoveryStrength
  split <;> omega

section

variable (h : Kept options w.states w.requests)

include h

theorem Kept.request (hostId : JsNumber) (preserve : Option Bool) (now : ℚ) :
    Kept options (w.request options hostId preserve now).states (w.request options hostId preserve now).requests := by
  unfold AgentRuntimeRecoveryCoordinator.request
  dsimp only
  have hnew : ∀ r, w.requests[w.requests.length]? = some r → ¬ r.phase.Made := by
    intro r hr
    rw [List.getElem?_eq_none le_rfl] at hr
    cases hr
  split
  · exact h.evaluate (recoveryStrength_nonneg preserve) (moves_append _ _) hnew
  · rename_i hnot
    refine h.moves_same (moves_append _ _) (recoveryStrength_nonneg preserve) (Bool.eq_false_iff.mpr hnot) ?_ ?_
    · simp [RequestPhase.Running]
    · intro r hr hmarked
      exact absurd hmarked.made (hnew r hr)

theorem Kept.start_task (c : ℕ) : Kept options (w.start c).states (w.start c).requests := by
  unfold AgentRuntimeRecoveryCoordinator.start
  split
  · rename_i r hr
    split
    · rename_i hqueued
      refine h.moves_same (moves_setPhase hr ⟨rfl, rfl, ?_, ?_, ?_⟩) (h.nonneg r (List.mem_of_getElem? hr)) trivial
        ?_ ?_
      · exact fun _ => .inl (.inr rfl)
      · simp [hqueued, RequestPhase.failed]
      · simp [hqueued]
      · exact fun _ => ⟨r, hr, .inl hqueued⟩
      · exact fun _ _ _ => .inl (.inr rfl)
    · exact h
  · exact h

theorem Kept.settle (c : ℕ) (failed : Bool) :
    Kept options (w.settle c failed).states (w.settle c failed).requests := by
  unfold AgentRuntimeRecoveryCoordinator.settle
  split
  · rename_i r hr
    split
    · rename_i hstarted
      refine h.moves_same (moves_setPhase hr ⟨rfl, rfl, ?_, ?_, ?_⟩) (h.nonneg r (List.mem_of_getElem? hr)) trivial
        ?_ ?_
      · exact fun _ => .inr rfl
      · simp [hstarted, RequestPhase.failed]
      · simp [hstarted]
      · simp [RequestPhase.Running]
      · exact fun _ _ _ => .inr ⟨failed, rfl⟩
    · exact h
  · exact h

theorem Kept.resume (c : ℕ) (now : ℚ) :
    Kept options (w.resume options c now).states (w.resume options c now).requests := by
  unfold AgentRuntimeRecoveryCoordinator.resume
  split
  · exact h
  rename_i r hr
  split
  · -- the request's own task has ended
    rename_i failed hphase
    refine h.finish hr (moves_setPhase (w := { w with states := _ }) hr ⟨rfl, rfl, ?_, ?_, ?_⟩)
    · intro _
      cases failed
      · exact .inr rfl
      · exact .inr rfl
    · intro failed' heq
      rw [hphase] at heq
      obtain rfl := Option.some.inj heq
      cases failed
      · rfl
      · rfl
    · simp [hphase]
  · -- the task it awaited has ended
    rename_i running hphase
    have hnot : ¬ r.phase.Made := by
      simp [hphase, RequestPhase.Made, RequestPhase.Running, RequestPhase.failed]
    split
    · exact h
    · rename_i failed hfailed
      split
      · rename_i hcovers
        have hmoves := moves_setPhase (w := w) hr (progress_of_not_made hnot (.coalesced running))
        have hwaited : Founded options w.requests r := h.founded r (List.mem_of_getElem? hr)
        rw [Founded, hphase] at hwaited
        have hended : Promised w.requests r.hostId running fun phase => phase.failed = some false := by
          obtain ⟨other, hother, hhost, hstrength, -⟩ := hwaited
          rw [hother, bind_some, hcovers.2] at hfailed
          exact ⟨other, hother, hhost, hstrength, hfailed⟩
        refine h.moves_same hmoves (h.nonneg r (List.mem_of_getElem? hr)) ?_ ?_ ?_
        · exact ⟨hcovers.1, hended.moves hmoves fun _ _ hprogress => hprogress.failed false⟩
        · simp [RequestPhase.Running]
        · intro r₂ hr₂ hmarked
          obtain rfl := Option.some.inj (hr.symm.trans hr₂)
          exact absurd hmarked.made hnot
      · refine h.evaluate (h.nonneg r (List.mem_of_getElem? hr))
          (moves_setPhase (w := { w with states := _ }) hr (progress_of_not_made hnot _)) ?_
        intro r₂ hr₂
        obtain rfl := Option.some.inj (hr.symm.trans hr₂)
        exact hnot
  · exact h

end

theorem Kept.step {e : RecoveryEvent} (hok : NotInFlight w e) (h : Kept options w.states w.requests) :
    Kept options (stepRecovery options w e).states (stepRecovery options w e).requests := by
  cases e with
  | request hostId preserve now => exact h.request hostId preserve now
  | start c => exact h.start_task c
  | settle c failed => exact h.settle c failed
  | resume c now => exact h.resume c now
  | clear hostId =>
    rw [stepRecovery, AgentRuntimeRecoveryCoordinator.clear]
    split
    · refine h.cleared ?_
      intro host
      rw [JsMap.get_delete]
      split
      · rename_i hhost
        refine .inr ⟨rfl, ?_⟩
        intro r hr heq
        exact hok r hr (heq.trans hhost)
      · exact .inl rfl
    · exact h
  | clearAll => exact h.cleared fun host => .inr ⟨rfl, fun r hr _ => hok r hr⟩

theorem kept_of_run {events : List RecoveryEvent} (h : Admissible NotInFlight (stepRecovery options) {} events) :
    Kept options (run (stepRecovery options) {} events).states (run (stepRecovery options) {} events).requests :=
  run_invariant_of_admissible (I := fun w => Kept options w.states w.requests)
    (fun _ _ hok hkept => hkept.step hok) events _ h (Kept.start options)

/-- What the coordinator knows of the last success for a host: when it was, and how strong. -/
def AgentRuntimeRecoveryCoordinator.cooldown (w : AgentRuntimeRecoveryCoordinator) (hostId : JsNumber) : Option (ℚ × ℤ) :=
  (w.states.get hostId).map fun state => (state.lastSuccessAt, state.lastSuccessStrength)

theorem cooldown_resume_of_failed {c : ℕ} {r : RecoveryRequest} (hr : w.requests[c]? = some r)
    (hphase : r.phase = .settled true) (now : ℚ) (hostId : JsNumber) :
    (w.resume options c now).cooldown hostId = w.cooldown hostId := by
  have hstates : (w.resume options c now).states = finish w.states c r true now := by
    unfold AgentRuntimeRecoveryCoordinator.resume
    simp only [hr, hphase]
    rfl
  rw [cooldown, hstates, get_finish, map_map, cooldown]
  congr 1
  funext state
  rw [Function.comp_apply]
  split
  · rfl
  · rfl

end

def RequestPhase.Skipped (phase : RequestPhase) : Prop :=
  phase = .refused ∨ (∃ running, phase = .coalesced running) ∨ ∃ now, phase = .recent now

/-- **Recoveries are coordinated**, in every run in which no host is cleared while a task of it is in
flight. -/
theorem recoveries_coordinated (options : AgentRuntimeRecoveryCoordinatorOptions) (events : List RecoveryEvent)
    (h : Admissible NotInFlight (stepRecovery options) {} events) :
    let w := run (stepRecovery options) {} events
    (∀ (c c' : ℕ) (r r' : RecoveryRequest), w.requests[c]? = some r → w.requests[c']? = some r' →
      r.phase.Running → r'.phase.Running → r.hostId = r'.hostId → c = c') ∧
    (∀ r ∈ w.requests, isHost r.hostId → r.phase.Skipped →
      (∃ running, r.phase = .coalesced running ∧ ∃ other, w.requests[running.promise]? = some other ∧
        other.hostId = r.hostId ∧ r.strength ≤ other.strength ∧ other.phase.failed = some false) ∨
      (∃ now, r.phase = .recent now ∧ ∃ other ∈ w.requests, ∃ t, other.hostId = r.hostId ∧
        r.strength ≤ other.strength ∧ other.phase = .ran t ∧ now - t < max 0 options.cooldownMs)) ∧
    (∀ hostId, ∀ state ∈ w.states.get hostId, 0 ≤ state.lastSuccessStrength →
      ∃ r ∈ w.requests, r.hostId = hostId ∧ r.strength = state.lastSuccessStrength ∧
        r.phase = .ran state.lastSuccessAt) ∧
    ∀ (c : ℕ) (r : RecoveryRequest), w.requests[c]? = some r → r.phase = .settled true →
      ∀ now hostId, (w.resume options c now).cooldown hostId = w.cooldown hostId := by
  have hkept := kept_of_run h
  refine ⟨?_, ?_, ?_, ?_⟩
  · intro c c' r r' hr hr' hrunning hrunning' hhost
    obtain ⟨state, hstate, hin⟩ := hkept.unique c r hr hrunning
    obtain ⟨state', hstate', hin'⟩ := hkept.unique c' r' hr' hrunning'
    rw [hhost] at hstate
    obtain rfl := Option.some.inj (hstate.symm.trans hstate')
    exact congrArg InFlight.promise (Option.some.inj (hin.symm.trans hin'))
  · intro r hr hvalid hskipped
    have hfounded := hkept.founded r hr
    rcases hskipped with hphase | ⟨running, hphase⟩ | ⟨now, hphase⟩
    · rw [Founded, hphase] at hfounded
      rw [hfounded] at hvalid
      cases hvalid
    · rw [Founded, hphase] at hfounded
      obtain ⟨hle, other, hother, hhost, hstrength, hended⟩ := hfounded
      exact .inl ⟨running, hphase, other, hother, hhost, hstrength ▸ hle, hended⟩
    · rw [Founded, hphase] at hfounded
      obtain ⟨strength, t, hle, ⟨c, other, hother, hhost, hstrength, hran⟩, hsoon⟩ := hfounded
      exact .inr ⟨now, hphase, other, List.mem_of_getElem? hother, t, hhost, hstrength ▸ hle, hran, hsoon⟩
  · intro hostId state hstate hsuccess
    rcases hkept.recorded hostId state hstate with hnone | ⟨c, r, hr, hhost, hstrength, hran⟩
    · omega
    · exact ⟨r, List.mem_of_getElem? hr, hhost, hstrength, hran⟩
  · intro c r hr hphase now hostId
    exact cooldown_resume_of_failed hr hphase now hostId

/-- A light recovery of host 5 is awaited by a full one, which runs its own task then; a second
full request joins it, and a light one comes too soon. -/
def joinedTwice : List RecoveryEvent :=
  [.request (.finite 5) (some true) 100000, .start 0, .request (.finite 5) none 100001, .settle 0 false,
    .resume 0 100002, .resume 1 100002, .request (.finite 5) none 100003, .start 1, .settle 1 false,
    .resume 2 100004, .resume 1 100004, .request (.finite 5) (some true) 100005]

theorem recoveries_coordinated_joined :
    let w := run (stepRecovery {}) {} joinedTwice
    (w.requests.map RecoveryRequest.phase) = [.ran 100002, .ran 100004, .coalesced ⟨1, 1⟩, .recent 100005] ∧
    ∀ r ∈ w.requests, isHost r.hostId → r.phase.Skipped →
      (∃ running, r.phase = .coalesced running ∧ ∃ other, w.requests[running.promise]? = some other ∧
        other.hostId = r.hostId ∧ r.strength ≤ other.strength ∧ other.phase.failed = some false) ∨
      (∃ now, r.phase = .recent now ∧ ∃ other ∈ w.requests, ∃ t, other.hostId = r.hostId ∧
        r.strength ≤ other.strength ∧ other.phase = .ran t ∧ now - t < max 0 (60 * 1000)) := by
  refine ⟨by decide +kernel, ?_⟩
  exact (recoveries_coordinated {} joinedTwice (by decide +kernel)).2.1

end ForwardX.Panel.RuntimeRecovery
