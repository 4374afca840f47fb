/-
The health decisions of the agent, `agent/forward_group_health.go`.

A status turns only when all answers of a window say so. The proof reads the gate as a function of
one key's own observations: other keys do not touch it, and a gap longer than the time to live
starts it again, so it is enough to follow a block of equal answers from its start.
-/
import ForwardX.Lib.GoMap
import ForwardX.Lib.GoText
import Mathlib.Algebra.Order.Group.Int

namespace ForwardX.Agent.HealthDecisions

open List

open GoText.Text (trimSpace)

def second : ℤ := 1000000000

def forwardGroupHealthDecisionTTL : ℤ := 30 * 60 * second

inductive Status where
  | healthy | unhealthy | unknown
  deriving DecidableEq

/-- `pending` is `none` for the empty text. -/
structure DecisionState where
  stable : Status
  pending : Option Status := none
  pendingAt : Option ℤ := none
  lastSeenAt : ℤ

abbrev States := GoMap String DecisionState

def normalizeForwardGroupHealthWindow (seconds fallback : ℤ) : ℤ :=
  let seconds := if seconds < 10 then fallback else seconds
  let seconds := if seconds < 10 then 10 else seconds
  seconds * second

def failoverWindow (failoverSeconds : ℤ) : ℤ := normalizeForwardGroupHealthWindow failoverSeconds 60

def recoverWindow (recoverSeconds : ℤ) : ℤ := normalizeForwardGroupHealthWindow recoverSeconds 120

/-- What is stored for a key, and the answer, when the state `found` was stored. -/
def nextDecision (found : Option DecisionState) (desired : Status) (window now : ℤ) :
    DecisionState × (Status × Bool) :=
  match found with
  | none =>
    if desired = .healthy then ({ stable := .healthy, lastSeenAt := now }, (.healthy, false))
    else
      ({ stable := .unknown, pending := some desired, pendingAt := some now, lastSeenAt := now },
        (.unknown, true))
  | some state =>
    let state := { state with lastSeenAt := now }
    if state.stable = desired then ({ state with pending := none, pendingAt := none }, (state.stable, false))
    else if state.stable = .unknown ∧ desired = .healthy then
      ({ state with stable := .healthy, pending := none, pendingAt := none }, (.healthy, false))
    else
      match state.pendingAt with
      | none => ({ state with pending := some desired, pendingAt := some now }, (state.stable, true))
      | some pendingAt =>
        if state.pending ≠ some desired then
          ({ state with pending := some desired, pendingAt := some now }, (state.stable, true))
        else if window ≤ now - pendingAt then
          ({ state with stable := desired, pending := none, pendingAt := none }, (desired, false))
        else (state, (state.stable, true))

structure Observation where
  key : String
  timedOut : Bool
  failoverSeconds : ℤ
  recoverSeconds : ℤ
  now : ℤ

def Observation.desired (o : Observation) : Status := if o.timedOut then .unhealthy else .healthy

def Observation.window (o : Observation) : ℤ :=
  if o.timedOut then failoverWindow o.failoverSeconds else recoverWindow o.recoverSeconds

/-- The loop that deletes what has not been seen for long. -/
def purged (states : States) (o : Observation) : States :=
  GoMap.filter (fun _ state => !(forwardGroupHealthDecisionTTL < o.now - state.lastSeenAt)) states

def observe (states : States) (o : Observation) : States × (Status × Bool) :=
  let key := trimSpace o.key
  if key = "" then (states, (.unknown, true))
  else
    let states := purged states o
    let decided := nextDecision (states.lookup key) o.desired o.window o.now
    (states.insert key decided.1, decided.2)

def statesAfter (os : List Observation) : States := os.foldl (fun states o => (observe states o).1) ∅

/-! ## What the observations of a key call for -/

/-- The observations of a key since its last gap, the newest first. -/
def recent (key : String) (os : List Observation) : List Observation :=
  os.foldl (fun own o =>
    if trimSpace o.key = key then
      match own with
      | [] => [o]
      | last :: _ => if forwardGroupHealthDecisionTTL < o.now - last.now then [o] else o :: own
    else own) []

/-- The time of the first of the equal observations at the end. -/
def blockStart : List Observation → ℤ
  | [] => 0
  | [o] => o.now
  | o :: e :: earlier => if e.timedOut = o.timedOut then blockStart (e :: earlier) else o.now

/-- How long the block of equal observations at the end is, when `o` is the newest. -/
def span (o : Observation) (earlier : List Observation) : ℤ := o.now - blockStart (o :: earlier)

/-- The status after the observations, the newest of which is first. -/
def report : List Observation → Status
  | [] => .unknown
  | o :: earlier =>
    if o.timedOut then
      if failoverWindow o.failoverSeconds ≤ span o earlier then .unhealthy else report earlier
    else if report earlier = .unhealthy ∧ span o earlier < recoverWindow o.recoverSeconds then .unhealthy
    else .healthy

/-! ## The gate -/

def stateOf (o : Observation) (earlier : List Observation) : DecisionState :=
  { stable := report (o :: earlier)
    pending := if report (o :: earlier) = o.desired then none else some o.desired
    pendingAt := if report (o :: earlier) = o.desired then none else some (blockStart (o :: earlier))
    lastSeenAt := o.now }

@[simp] theorem lastSeenAt_stateOf (o : Observation) (earlier : List Observation) :
    (stateOf o earlier).lastSeenAt = o.now := rfl

theorem normalizeForwardGroupHealthWindow_pos (seconds fallback : ℤ) :
    0 < normalizeForwardGroupHealthWindow seconds fallback := by
  simp only [normalizeForwardGroupHealthWindow, second]
  split_ifs <;> omega

theorem report_ne_unknown {o : Observation} {earlier : List Observation} (h : o.timedOut = false) :
    report (o :: earlier) ≠ .unknown := by
  rw [report, h, if_neg Bool.false_ne_true]
  split_ifs <;> nofun

/-- The first observation of a key, or the first after a gap. -/
theorem nextDecision_none (o : Observation) :
    nextDecision none o.desired o.window o.now = (stateOf o [], (report [o], report [o] != o.desired)) := by
  have hspan : ¬ failoverWindow o.failoverSeconds ≤ span o [] := by
    have := normalizeForwardGroupHealthWindow_pos o.failoverSeconds 60
    rw [span, blockStart, failoverWindow]
    omega
  cases htimedOut : o.timedOut <;>
    simp [nextDecision, stateOf, report, Observation.desired, htimedOut, hspan, blockStart]

/-- **The next observation** of a key. -/
theorem nextDecision_some (o last : Observation) (earlier : List Observation) :
    nextDecision (some (stateOf last earlier)) o.desired o.window o.now =
      (stateOf o (last :: earlier),
        (report (o :: last :: earlier), report (o :: last :: earlier) != o.desired)) := by
  have hfailover := normalizeForwardGroupHealthWindow_pos o.failoverSeconds 60
  have hrecover := normalizeForwardGroupHealthWindow_pos o.recoverSeconds 120
  have hunknown := @report_ne_unknown last earlier
  have hstart : blockStart (o :: last :: earlier) =
    if last.timedOut = o.timedOut then blockStart (last :: earlier) else o.now := rfl
  have hreport : report (o :: last :: earlier) =
      if o.timedOut then
        if failoverWindow o.failoverSeconds ≤ span o (last :: earlier) then .unhealthy
        else report (last :: earlier)
      else if report (last :: earlier) = .unhealthy ∧
          span o (last :: earlier) < recoverWindow o.recoverSeconds then .unhealthy
      else .healthy := rfl
  rw [stateOf, stateOf, hreport, span, hstart]
  generalize report (last :: earlier) = before at *
  generalize blockStart (last :: earlier) = start at *
  -- the kinds of the two observations and the status before; then the length of the block
  cases hnew : o.timedOut <;> cases hold : last.timedOut <;> cases before <;>
    simp_all [nextDecision, Observation.desired, Observation.window, failoverWindow, recoverWindow]
  · obtain hlong | hlong := le_or_gt (normalizeForwardGroupHealthWindow o.recoverSeconds 120) (o.now - start)
    · simp [hlong, not_lt.mpr hlong]
    · simp [hlong, not_le.mpr hlong]
  · by_cases hlong : normalizeForwardGroupHealthWindow o.failoverSeconds 60 ≤ o.now - start <;> simp [hlong]
  · by_cases hlong : normalizeForwardGroupHealthWindow o.failoverSeconds 60 ≤ o.now - start <;> simp [hlong]

theorem recent_concat (key : String) (os : List Observation) (o : Observation) :
    recent key (os ++ [o]) =
      if trimSpace o.key = key then
        match recent key os with
        | [] => [o]
        | last :: _ =>
          if forwardGroupHealthDecisionTTL < o.now - last.now then [o] else o :: recent key os
      else recent key os := by
  rw [recent, foldl_append]
  rfl

theorem statesAfter_concat (os : List Observation) (o : Observation) :
    statesAfter (os ++ [o]) = (observe (statesAfter os) o).1 := by
  rw [statesAfter, foldl_append]
  rfl

/-- What the gate knows of a key: its state, or none when it was never seen or a later call, of
whatever key, has dropped it. -/
def Known (key : String) (os : List Observation) (states : States) : Prop :=
  match recent key os with
  | [] => states.lookup key = none
  | last :: earlier => states.lookup key = some (stateOf last earlier) ∨
    states.lookup key = none ∧ ∃ o ∈ os, forwardGroupHealthDecisionTTL < o.now - last.now

variable {os : List Observation} {o : Observation}

/-- **A call on a key** answers what its observations call for. -/
theorem nextDecision_purged (htimes : ∀ earlier ∈ os, earlier.now ≤ o.now)
    (hknown : Known (trimSpace o.key) os (statesAfter os)) :
    ∃ earlier, recent (trimSpace o.key) (os ++ [o]) = o :: earlier ∧
      nextDecision ((purged (statesAfter os) o).lookup (trimSpace o.key)) o.desired o.window o.now =
        (stateOf o earlier, (report (o :: earlier), report (o :: earlier) != o.desired)) := by
  rw [recent_concat, if_pos rfl, purged, GoMap.lookup_filter]
  unfold Known at hknown
  cases hrecent : recent (trimSpace o.key) os with
  | nil =>
    rw [hrecent] at hknown
    exact ⟨[], rfl, by rw [hknown]; exact nextDecision_none o⟩
  | cons last earlier =>
    rw [hrecent] at hknown
    by_cases hgap : forwardGroupHealthDecisionTTL < o.now - last.now
    · refine ⟨[], if_pos hgap, ?_⟩
      obtain hknown | ⟨hknown, -⟩ := hknown
      · rw [hknown, Option.filter_some, lastSeenAt_stateOf,
          if_neg fun h => of_decide_eq_false ((Bool.not_eq_true' _).mp h) hgap]
        exact nextDecision_none o
      · rw [hknown]
        exact nextDecision_none o
    · refine ⟨last :: earlier, if_neg hgap, ?_⟩
      obtain hknown | ⟨-, dropping, hmem, hdropped⟩ := hknown
      · rw [hknown, Option.filter_some, lastSeenAt_stateOf,
          if_pos ((Bool.not_eq_true' _).mpr (decide_eq_false hgap))]
        exact nextDecision_some o last earlier
      · have := htimes dropping hmem
        omega

/-- A call leaves other keys alone, or drops them. -/
theorem Known.other {key : String} {states states' : States} (h : Known key os states)
    (hother : trimSpace o.key ≠ key)
    (hlookup : states'.lookup key = states.lookup key ∨ states'.lookup key = (purged states o).lookup key) :
    Known key (os ++ [o]) states' := by
  unfold Known at h ⊢
  rw [recent_concat, if_neg hother]
  cases hrecent : recent key os with
  | nil =>
    rw [hrecent] at h
    obtain hlookup | hlookup := hlookup
    · exact hlookup.trans h
    · rw [hlookup, purged, GoMap.lookup_filter, h, Option.filter_none]
  | cons last earlier =>
    rw [hrecent] at h
    have hlater : (∃ e ∈ os, forwardGroupHealthDecisionTTL < e.now - last.now) →
        ∃ e ∈ os ++ [o], forwardGroupHealthDecisionTTL < e.now - last.now := fun ⟨e, he, hlong⟩ =>
      ⟨e, mem_append_left _ he, hlong⟩
    obtain hlookup | hlookup := hlookup
    · rw [hlookup]
      exact h.imp_right fun hnone => ⟨hnone.1, hlater hnone.2⟩
    · rw [hlookup, purged, GoMap.lookup_filter]
      obtain h | h := h
      · rw [h, Option.filter_some]
        by_cases hgap : forwardGroupHealthDecisionTTL < o.now - last.now
        · refine .inr ⟨if_neg fun h => of_decide_eq_false ((Bool.not_eq_true' _).mp h) hgap, o, by simp, hgap⟩
        · exact .inl (if_pos ((Bool.not_eq_true' _).mpr (decide_eq_false hgap)))
      · rw [h.1]
        exact .inr ⟨rfl, hlater h.2⟩

theorem known_statesAfter (htimes : os.Pairwise fun a b => a.now ≤ b.now) {key : String} (hkey : key ≠ "") :
    Known key os (statesAfter os) := by
  induction os using List.reverseRecOn with
  | nil => rfl
  | append_singleton os o ih =>
    obtain ⟨hbefore, -, hlater⟩ := pairwise_append.mp htimes
    have hknown := ih hbefore
    rw [statesAfter_concat, observe]
    by_cases hblank : trimSpace o.key = ""
    · rw [if_pos hblank]
      exact hknown.other (hblank ▸ hkey.symm) (.inl rfl)
    · rw [if_neg hblank]
      by_cases hsame : trimSpace o.key = key
      · subst hsame
        obtain ⟨earlier, hrecent, hnext⟩ :=
          nextDecision_purged (fun e he => hlater e he o mem_cons_self) hknown
        unfold Known
        rw [hrecent]
        refine .inl ((AList.lookup_insert _).trans ?_)
        exact congrArg (fun decided => some decided.1) hnext
      · exact hknown.other hsame (.inr (AList.lookup_insert_ne (Ne.symm hsame)))

/-- **The decisions are debounced.** A blank key is answered at once; the answer for any other key depends on
the observations of the key since its last gap. -/
theorem decisions_debounced (htimes : (os ++ [o]).Pairwise fun a b => a.now ≤ b.now) :
    let answer := (observe (statesAfter os) o).2
    (trimSpace o.key = "" → answer = (.unknown, true)) ∧ (trimSpace o.key ≠ "" → ∃ earlier, recent (trimSpace o.key) (os ++ [o]) = o :: earlier ∧
      answer = (report (o :: earlier), report (o :: earlier) != o.desired) ∧
      (report earlier ≠ .unhealthy → (answer.1 = .unhealthy ↔
        o.timedOut = true ∧ failoverWindow o.failoverSeconds ≤ span o earlier)) ∧
      (report earlier = .unhealthy → answer.1 ≠ .unknown ∧ (answer.1 = .healthy ↔
        o.timedOut = false ∧ recoverWindow o.recoverSeconds ≤ span o earlier)) ∧
      (report earlier = .unknown → (answer.1 = .healthy ↔ o.timedOut = false)) ∧
      (report earlier = .healthy → answer.1 ≠ .unknown)) := by
  intro answer
  refine ⟨fun hblank => ?_, fun hkey => ?_⟩
  · change (observe (statesAfter os) o).2 = _
    rw [observe, if_pos hblank]
  obtain ⟨hbefore, -, hlater⟩ := List.pairwise_append.mp htimes
  obtain ⟨earlier, hrecent, hnext⟩ := nextDecision_purged
    (fun e he => hlater e he o List.mem_cons_self) (known_statesAfter hbefore hkey)
  have hanswer : answer = (report (o :: earlier), report (o :: earlier) != o.desired) := by
    change (observe (statesAfter os) o).2 = _
    rw [observe, if_neg hkey]
    exact congrArg Prod.snd hnext
  refine ⟨earlier, hrecent, hanswer, ?_⟩
  rw [hanswer, report]
  generalize report earlier = before
  cases o.timedOut <;> cases before <;> simp <;> split_ifs <;> simp_all

theorem decisions_debounced_timeouts :
    let timeout (now : ℤ) : Observation := ⟨"group:1", true, 60, 120, now * second⟩
    let observed := [timeout 0, timeout 30]
    ∃ earlier, recent (trimSpace "group:1") (observed ++ [timeout 90]) = timeout 90 :: earlier ∧
      (observe (statesAfter observed) (timeout 90)).2.1 = report (timeout 90 :: earlier) := by
  intro timeout observed
  obtain ⟨earlier, hrecent, hanswer, -⟩ := (@decisions_debounced observed (timeout 90)
    (by decide)).2 (by decide)
  exact ⟨earlier, hrecent, congrArg Prod.fst hanswer⟩

theorem blank_key_unknown :
    (observe (statesAfter []) ⟨" ", false, 60, 120, 0⟩).2 = (.unknown, true) := by decide

end ForwardX.Agent.HealthDecisions
