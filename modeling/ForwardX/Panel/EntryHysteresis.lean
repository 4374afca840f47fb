/-
The windows that keep the record set of an entry group from flapping: evaluations of
`syncEntryGroupDdns` in `server/repositories/forwardGroupRepository.ts`, with any samples and
liveness in between.

What an evaluation knows of the past it has from the columns of a row. The invariant says what these
columns tell of the last failure and the last sample that was good, and the condition is that no
evaluation in between has overwritten them.
-/
import ForwardX.Panel.EntryGroupDdns
import ForwardX.Panel.HealthVerdicts

namespace ForwardX.Panel.EntryHysteresis

open GroupHealth EntryGroupDdns Run List
open HealthVerdicts (entryFindings_final recoverDelay_pos storeEntryHealth_windows)

/-! ## Runs -/

/-- What evaluations have made of a member: when it was judged unhealthy, and the samples, in seconds,
by which it was judged healthy. -/
structure History where
  unhealthyAt : List ℤ := []
  seen : List ℤ := []

/-- The rows, the recorded addresses, the time of the last evaluation; and for the statements the
history of each member, and the addresses that have left the record set. -/
structure Course where
  entries : List Entry
  recorded : List String
  last : ℤ
  histories : List History
  left : List String := []

inductive Event where
  | sample (i : ℕ) (status : HealthStatus) (checkedAt : Option ℤ)
  | host (i : ℕ) (value : String) (liveness : MemberAgentLiveness)
  | evaluate (now : ℤ) (out : EntryGroupDdns.Outcome)

def sampleColumn (group : Group) (member : Member) : Option ℤ :=
  if group.chinaHealthCheckEnabled then member.chinaHealthCheckedAt else member.lastCheckedAt

/-- A sample of the source that the group uses. It leaves the windows as they are. -/
def takeSample (group : Group) (status : HealthStatus) (checkedAt : Option ℤ) (entry : Entry) : Entry :=
  { entry with member :=
    if group.chinaHealthCheckEnabled then
      { entry.member with chinaHealthStatus := status, chinaHealthCheckedAt := checkedAt }
    else { entry.member with healthStatus := status, lastCheckedAt := checkedAt } }

def History.note (group : Group) (now : ℤ) (history : History) (judged : Entry × Option Health) : History :=
  match judged.2 with
  | none => history
  | some health =>
    if health.healthPending then history
    else if health.healthy then
      { history with seen := (sampleColumn group judged.1.member).toList ++ history.seen }
    else { history with unhealthyAt := now :: history.unhealthyAt }

def evaluation (group : Group) (recordType : RecordType) (w : Course) (now : ℤ) (out : EntryGroupDdns.Outcome) :
    List (Entry × Option Health) × Commit :=
  syncEntryGroupDdns group recordType w.recorded w.entries now out

def next (group : Group) (recordType : RecordType) (w : Course) : Event → Course
  | .sample i status checkedAt => { w with entries := w.entries.modify i (takeSample group status checkedAt) }
  | .host i value liveness => { w with entries := w.entries.modify i fun entry => { entry with value, liveness } }
  | .evaluate now out =>
    let (judged, result) := evaluation group recordType w now out
    { entries := judged.map Prod.fst
      recorded := result.recorded
      last := now
      histories := (w.histories.zip judged).map fun p => p.1.note group now p.2
      left := w.left ++ w.recorded.filter fun value => !result.recorded.contains value }

/-! ## The condition -/

/-- A member is judged healthy while its address is not recorded: if an evaluation judged it unhealthy
less than the recovery delay ago, its row still says so. -/
def FirstHealthy (group : Group) (w : Course) (now : ℤ) : Prop :=
  ∀ p ∈ w.entries.zip w.histories, p.1.considered = true → p.1.value ∉ w.recorded →
    (entryFindings group p.1.member p.1.liveness now).healthy = true →
      (∃ u ∈ p.2.unhealthyAt, now - u < forwardGroupRecoverDelayMs group) → wasUnhealthy p.1.member = true

/-- The evidence is in order: a sample that counts is not of the future, and a host that is offline
was heard of after the samples that counted. -/
def InOrder (group : Group) (w : Course) (now : ℤ) : Prop :=
  ∀ p ∈ w.entries.zip w.histories,
    (∀ checkedAt ∈ sampleColumn group p.1.member, checkedAt * 1000 ≤ now) ∧
      (p.1.liveness.available = false → ∀ c ∈ p.2.seen, ∀ since ∈ p.1.liveness.failureSince, c * 1000 ≤ since)

/-- Evaluations do not go back in time, and neither do the samples of a member. -/
def Tame (group : Group) (w : Course) : Event → Prop
  | .sample i _ checkedAt => ∀ history ∈ w.histories[i]?, ∀ c ∈ history.seen, ∃ c' ∈ checkedAt, c ≤ c'
  | .host _ _ _ => True
  | .evaluate now _ => w.last ≤ now ∧ FirstHealthy group w now ∧ InOrder group w now

instance (group : Group) (w : Course) : (e : Event) → Decidable (Tame group w e)
  | .sample i _ checkedAt => inferInstanceAs (Decidable (∀ history ∈ w.histories[i]?, ∀ c ∈ history.seen, ∃ c' ∈ checkedAt, c ≤ c'))
  | .host _ _ _ => .isTrue trivial
  | .evaluate now _ => by
    unfold Tame FirstHealthy InOrder
    infer_instance

/-! ## One evaluation -/

/-- What the loop does with a member when it is not stopped before. -/
def judge (group : Group) (now : ℤ) (entry : Entry) : Entry × Option Health :=
  if entry.considered then
    ({ entry with member := (evaluateEntryMember group entry.member entry.liveness now).2 },
      some (evaluateEntryMember group entry.member entry.liveness now).1)
  else (entry, none)

/-- The member puts its address into the record set. -/
def Includes (group : Group) (previous : List String) (now : ℤ) (entry : Entry) (value : String) : Prop :=
  entry.considered = true ∧ entry.value = value ∧
    isIncluded entry.member (evaluateEntryMember group entry.member entry.liveness now).1 (previous.contains value) = true

variable {group : Group} {recordType : RecordType} {previous : List String} {now : ℤ}

theorem mem_includeMember {values : List String} {value v : String} :
    v ∈ includeMember values value ↔ v ∈ values ∨ v = value := by
  unfold includeMember
  split
  · rename_i hmem
    rw [contains_iff_mem] at hmem
    exact ⟨.inl, fun h => h.elim id fun h => h ▸ hmem⟩
  · rw [mem_append, mem_singleton]

theorem sweepEntry_judge (group : Group) (previous : List String) (now : ℤ) (hname : recordType ≠ .CNAME) {sweep : Sweep}
    (hgoes : sweep.stopped = false) (entry : Entry) :
    (sweepEntry group recordType previous now sweep entry).2 = judge group now entry ∧
      (sweepEntry group recordType previous now sweep entry).1.stopped = false ∧
      ∀ v, v ∈ (sweepEntry group recordType previous now sweep entry).1.values ↔
        v ∈ sweep.values ∨ Includes group previous now entry v := by
  unfold sweepEntry judge
  simp only [hgoes, Bool.false_or]
  cases hconsidered : entry.considered with
  | false => simp [Includes, hconsidered, hgoes]
  | true =>
    refine ⟨rfl, by simp [hname], fun v => ?_⟩
    simp only [Bool.not_true, Bool.false_eq_true, if_false]
    split
    · rename_i hincluded
      rw [mem_includeMember]
      refine or_congr_right ⟨fun h => ?_, fun h => h.2.1.symm⟩
      subst h
      exact ⟨hconsidered, rfl, hincluded⟩
    · rename_i hout
      refine ⟨.inl, fun h => h.elim id fun ⟨_, hvalue, hincluded⟩ => absurd ?_ hout⟩
      subst hvalue
      exact hincluded

theorem sweepEntries_judge (group : Group) (previous : List String) (now : ℤ) (hname : recordType ≠ .CNAME) (entries : List Entry)
    {sweep : Sweep} (hgoes : sweep.stopped = false) :
    (sweepEntries group recordType previous now sweep entries).2 = entries.map (judge group now) ∧
      ∀ v, v ∈ (sweepEntries group recordType previous now sweep entries).1.values ↔
        v ∈ sweep.values ∨ ∃ entry ∈ entries, Includes group previous now entry v := by
  induction entries generalizing sweep with
  | nil => exact ⟨rfl, fun v => by simp [sweepEntries]⟩
  | cons entry entries ih =>
    obtain ⟨hjudged, hgoes', hvalues⟩ := sweepEntry_judge group previous now hname hgoes entry
    obtain ⟨hrest, hrestValues⟩ := ih hgoes'
    refine ⟨?_, fun v => ?_⟩
    · rw [map_cons, ← hjudged, ← hrest]
      rfl
    · change v ∈ (sweepEntries group recordType previous now
        (sweepEntry group recordType previous now sweep entry).1 entries).1.values ↔ _
      rw [hrestValues, hvalues, or_assoc, exists_mem_cons_iff]

/-- What is sent or recorded was recorded before or is in the new set, unless nothing was recorded. -/
structure Sound (previous values : List String) (result : Commit) : Prop where
  emitted : ∀ v, v ∈ result.sent ∨ v ∈ result.recorded → v ∈ previous ∨ v ∈ values ∨ previous = []
  dropped : ∀ v ∈ previous, v ∉ result.recorded → v ∉ values
  unsent : ∀ v, result.sent ≠ [] → v ∉ result.sent → v ∉ values
  filled : previous ≠ [] → result.recorded ≠ []

section

variable {values sent : List String} (hsent : sent = [] ∨ sent = values)

include hsent

theorem unsent_of : ∀ v, sent ≠ [] → v ∉ sent → v ∉ values := by
  intro v hne hout
  rcases hsent with rfl | rfl
  · exact absurd rfl hne
  · exact hout

theorem sound_kept : Sound previous values { sent, recorded := previous } := by
  refine ⟨fun v hv => ?_, fun v hv hgone => absurd hv hgone, unsent_of hsent, id⟩
  rcases hv with hv | hv
  · rcases hsent with rfl | rfl
    · simp at hv
    · exact .inr (.inl hv)
  · exact .inl hv

theorem sound_replaced (hvalues : values ≠ []) : Sound previous values { sent, recorded := values } := by
  refine ⟨fun v hv => .inr (.inl ?_), fun v _ hgone => hgone, unsent_of hsent, fun _ => hvalues⟩
  rcases hv with hv | hv
  · rcases hsent with rfl | rfl
    · simp at hv
    · exact hv
  · exact hv

end

theorem sound_preserve (entries : List Entry) (out : EntryGroupDdns.Outcome) : Sound previous [] (preserve previous entries out) := by
  unfold preserve
  cases hfallback : fallbackValue previous entries with
  | none => exact sound_kept (.inl rfl)
  | some retained =>
    have hretained : retained ∈ previous ∨ previous = [] := by
      unfold fallbackValue at hfallback
      cases previous with
      | nil => exact .inr rfl
      | cons v vs =>
        simp only [head?_cons, Option.some_or, Option.some.injEq] at hfallback
        exact .inl (hfallback ▸ mem_cons_self)
    have hone {sent recorded : List String} (hsent : sent = [] ∨ sent = [retained])
        (hrecorded : recorded = [retained] ∨ recorded = previous) : Sound previous [] { sent, recorded } := by
      refine ⟨fun v hv => ?_, fun v _ _ => not_mem_nil, fun v _ _ => not_mem_nil, fun hne => ?_⟩
      · have hv' : v = retained ∨ v ∈ previous := by
          rcases hv with hv | hv
          · rcases hsent with rfl | rfl
            · simp at hv
            · exact .inl (by simpa using hv)
          · rcases hrecorded with rfl | rfl
            · exact .inl (by simpa using hv)
            · exact .inr hv
        rcases hv' with rfl | hv'
        · exact hretained.elim .inl fun h => .inr (.inr h)
        · exact .inl hv'
      · rcases hrecorded with rfl | rfl
        · exact cons_ne_nil _ _
        · exact hne
    dsimp only
    split
    · exact hone (.inl rfl) (.inl rfl)
    · split
      · exact hone (.inl rfl) (.inl rfl)
      · split
        · exact hone (.inr rfl) (.inl rfl)
        · exact hone (.inr rfl) (.inr rfl)

theorem sound_commit (entries : List Entry) (sweep : Sweep) (judged : List (Entry × Option Health)) (out : EntryGroupDdns.Outcome) :
    Sound previous sweep.values (commit group previous entries sweep judged out) := by
  unfold commit
  dsimp only
  split
  · exact sound_kept (.inl rfl)
  split
  · exact sound_kept (.inl rfl)
  split
  · exact sound_kept (.inl rfl)
  split
  · rename_i hempty
    rw [List.isEmpty_iff] at hempty
    rw [hempty]
    split
    · exact sound_kept (.inl rfl)
    · exact sound_preserve entries out
  rename_i hvalues
  rw [List.isEmpty_iff] at hvalues
  split
  · exact sound_replaced (.inl rfl) hvalues
  split
  · exact sound_replaced (.inl rfl) hvalues
  split
  · exact sound_kept (.inl rfl)
  split
  · exact sound_kept (.inl rfl)
  split
  · exact sound_replaced (.inr rfl) hvalues
  · exact sound_kept (.inr rfl)

/-! ## One member -/

structure Logged (group : Group) (last : ℤ) (entry : Entry) (history : History) : Prop where
  flagged : history.unhealthyAt ≠ [] → (entry.member.failureSince.isSome = true ∧ entry.member.healthySince = none) ∨
    (entry.member.failureSince = none ∧ (group.chinaHealthCheckEnabled = true → entry.member.healthStatus ≠ .unhealthy))
  window : ∀ c ∈ history.seen, ∀ since ∈ entry.member.failureSince, c ≤ since
  sample : ∀ c ∈ history.seen, ∃ c' ∈ sampleColumn group entry.member, c ≤ c'
  past : ∀ c ∈ history.seen, c * 1000 ≤ last

variable {entry : Entry} {history : History} {last : ℤ}

variable {liveness : MemberAgentLiveness} {member : Member} {health : Health}

theorem healthFinal_entry : (entryFindings group member liveness now).healthFinal = false := by
  unfold entryFindings
  dsimp only
  split
  · rfl
  · split
    · split
      · split <;> rfl
      · rfl
    · rfl
    · rfl
    · rfl

theorem healthy_entryFindings :
    (entryFindings group member liveness now).healthy = true ↔ liveness.available = true ∧
      agentHealthSampleIsCurrent liveness (entryCheckedAt group member) = true ∧ entryStateAt group member now = .healthy := by
  unfold entryFindings
  dsimp only
  cases havailable : liveness.available with
  | false => simp
  | true =>
    cases hcurrent : agentHealthSampleIsCurrent liveness (entryCheckedAt group member) with
    | false =>
      simp only [Bool.not_true, Bool.not_false, Bool.false_eq_true, if_false, Bool.or_true, if_true]
      split <;> simp
    | true =>
      cases hstate : entryStateAt group member now with
      | pending =>
        simp only [Bool.not_true, Bool.false_eq_true, if_false, Bool.or_false, if_true]
        split
        · split <;> simp
        · simp
      | _ => simp

theorem healthy_status (hagent : group.chinaHealthCheckEnabled = false)
    (h : (entryFindings group member liveness now).healthy = true) : member.healthStatus = .healthy := by
  obtain ⟨-, -, hstate⟩ := healthy_entryFindings.mp h
  rw [entryStateAt, hagent, if_neg (by simp), forwardGroupAgentHealthStateAt] at hstate
  unfold healthStateAt at hstate
  cases hstatus : member.healthStatus with
  | healthy => rfl
  | unknown => simp [hstatus] at hstate
  | unhealthy =>
    simp only [hstatus] at hstate
    split at hstate <;> cases hstate

theorem le_observed {c : ℤ} (hnow : c * 1000 ≤ now) (hsample : ∃ c' ∈ sampleColumn group member, c ≤ c')
    (hoffline : liveness.available = false → ∀ since ∈ liveness.failureSince, c * 1000 ≤ since) :
    ∀ o ∈ (entryFindings group member liveness now).observedFailureSince, c * 1000 ≤ o := by
  obtain ⟨c', hc', hle⟩ := hsample
  have hchecked : entryCheckedAt group member = some (c' * 1000) := by
    have hcolumn : (if group.chinaHealthCheckEnabled then member.chinaHealthCheckedAt else member.lastCheckedAt) = some c' := hc'
    rw [entryCheckedAt, hcolumn]
    rfl
  have hle' : c * 1000 ≤ c' * 1000 := by omega
  intro o ho
  unfold entryFindings at ho
  rw [hchecked] at ho
  cases havailable : liveness.available with
  | false =>
    simp only [havailable, Bool.not_false, if_true, Option.mem_some_iff] at ho
    cases hsince : liveness.failureSince with
    | none =>
      rw [hsince, Option.getD_none] at ho
      omega
    | some since =>
      rw [hsince, Option.getD_some] at ho
      exact ho ▸ hoffline havailable since hsince
  | true =>
    cases hcurrent : agentHealthSampleIsCurrent liveness (some (c' * 1000)) with
    | false =>
      -- the sample is from before the Agent was offline, and the wait is from then
      cases hoff : liveness.lastOfflineAt with
      | none => simp [agentHealthSampleIsCurrent, hoff] at hcurrent
      | some offline =>
        simp only [agentHealthSampleIsCurrent, hoff, Option.getD_some, decide_eq_false_iff_not, not_lt] at hcurrent
        simp only [havailable, agentHealthSampleIsCurrent, hoff, Option.getD_some, Bool.not_true, Bool.false_eq_true, if_false,
          entryWaitingSince, hcurrent.not_gt, decide_false, Bool.not_false, Bool.or_true, if_true] at ho
        split at ho
        · simp only [Option.mem_some_iff, freshnessTtlMs] at ho
          omega
        · simp at ho
    | true =>
      simp only [havailable, hcurrent, Bool.not_true, Bool.false_eq_true, if_false, if_true, Option.isNone_some, Bool.or_self] at ho
      cases hstate : entryStateAt group member now with
      | pending | healthy => simp [hstate] at ho
      | unhealthy =>
        simp only [hstate, Option.map_some, Option.mem_some_iff] at ho
        omega
      | stale =>
        simp only [hstate, Option.map_some, Option.mem_some_iff, freshnessTtlMs] at ho
        omega

theorem le_failureStart {x : ℤ} {before observed : Option ℤ} (hbefore : ∀ p ∈ before, x ≤ p)
    (hobserved : ∀ o ∈ observed, x ≤ o) (hnow : x ≤ now) : x ≤ failureStart before observed now := by
  unfold failureStart
  have hstart : x ≤ (before.or observed).getD now := by
    cases before with
    | some p => exact hbefore p rfl
    | none =>
      cases observed with
      | some o => exact hobserved o rfl
      | none => exact hnow
  cases observed with
  | none => exact hstart
  | some o =>
    dsimp only
    split
    · exact hobserved o rfl
    · exact hstart

theorem sampleColumn_store :
    sampleColumn group (storeEntryHealth member health now) = sampleColumn group member := by
  have hcolumns : (storeEntryHealth member health now).chinaHealthCheckedAt = member.chinaHealthCheckedAt ∧
      (storeEntryHealth member health now).lastCheckedAt = member.lastCheckedAt := by
    unfold storeEntryHealth
    dsimp only
    generalize (if health.healthy then HealthStatus.healthy else HealthStatus.unhealthy) = status
    split
    · exact ⟨rfl, rfl⟩
    · split <;> exact ⟨rfl, rfl⟩
  rw [sampleColumn, hcolumns.1, hcolumns.2, sampleColumn]

theorem logged_healthy {history : History} {value : String}
    (hle : last ≤ now) (hjudged : health.healthPending = false) (hhealthy : health.healthy = true)
    (hfailure : health.failureSince = none) (hdated : ∀ checkedAt ∈ sampleColumn group member, checkedAt * 1000 ≤ now)
    (h : Logged group last ⟨member, value, liveness⟩ history) :
    Logged group now ⟨storeEntryHealth member health now, value, liveness⟩
      { history with seen := (sampleColumn group member).toList ++ history.seen } := by
  obtain ⟨hstatus, hsince, -⟩ := storeEntryHealth_windows member now hjudged
  rw [hfailure, Option.map_none] at hsince
  rw [if_pos hhealthy] at hstatus
  refine ⟨fun _ => .inr ⟨hsince, fun _ => ?_⟩, fun c _ since hs => ?_, fun c hc => ?_, fun c hc => ?_⟩
  · rw [hstatus]
    exact nofun
  · rw [hsince] at hs
    exact absurd hs nofun
  · rw [sampleColumn_store]
    rcases mem_append.mp hc with hc | hc
    · exact ⟨c, Option.mem_toList.mp hc, le_rfl⟩
    · exact h.sample c hc
  · rcases mem_append.mp hc with hc | hc
    · exact hdated c (Option.mem_toList.mp hc)
    · exact (h.past c hc).trans hle

theorem logged_unhealthy {history : History} {value : String}
    {start : ℤ} (hle : last ≤ now) (hjudged : health.healthPending = false)
    (hfailure : health.failureSince = some start) (hhealthySince : health.healthySince = none)
    (hstart : ∀ c ∈ history.seen, c * 1000 ≤ start) (h : Logged group last ⟨member, value, liveness⟩ history) :
    Logged group now ⟨storeEntryHealth member health now, value, liveness⟩
      { history with unhealthyAt := now :: history.unhealthyAt } := by
  obtain ⟨-, hsince, hhealthy⟩ := storeEntryHealth_windows member now hjudged
  rw [hfailure, Option.map_some] at hsince
  rw [hhealthySince, Option.map_none] at hhealthy
  refine ⟨fun _ => .inl ⟨?_, hhealthy⟩, fun c hc since hs => ?_, fun c hc => ?_, fun c hc => (h.past c hc).trans hle⟩
  · rw [hsince]
    rfl
  · rw [hsince, Option.mem_some_iff] at hs
    rw [← hs, toColumn, Int.le_ediv_iff_mul_le (by decide)]
    exact hstart c hc
  · rw [sampleColumn_store]
    exact h.sample c hc

theorem le_failure (hle : last ≤ now)
    (hoffline : entry.liveness.available = false → ∀ c ∈ history.seen, ∀ since ∈ entry.liveness.failureSince, c * 1000 ≤ since)
    (h : Logged group last entry history) :
    ∀ c ∈ history.seen, c * 1000 ≤ failureStart (toDate entry.member.failureSince)
      (entryFindings group entry.member entry.liveness now).observedFailureSince now := by
  intro c hc
  have hnow : c * 1000 ≤ now := (h.past c hc).trans hle
  refine le_failureStart (fun since hsince => ?_) (le_observed hnow (h.sample c hc) fun hoff => hoffline hoff c hc) hnow
  obtain ⟨column, hcolumn, rfl⟩ := Option.map_eq_some_iff.mp hsince
  have := h.window c hc column hcolumn
  omega

theorem logged_judge (hle : last ≤ now) (hdated : ∀ checkedAt ∈ sampleColumn group entry.member, checkedAt * 1000 ≤ now)
    (hoffline : entry.liveness.available = false → ∀ c ∈ history.seen, ∀ since ∈ entry.liveness.failureSince, c * 1000 ≤ since)
    (h : Logged group last entry history) :
    Logged group now (judge group now entry).1 (history.note group now (judge group now entry)) := by
  have hkept : Logged group now entry history := ⟨h.flagged, h.window, h.sample, fun c hc => (h.past c hc).trans hle⟩
  obtain ⟨member, value, liveness⟩ := entry
  unfold judge
  split
  · set found := entryFindings group member liveness now with hfound
    have hhealth : (evaluateEntryMember group member liveness now).1 = conclude group member found now now := rfl
    have hmember : (evaluateEntryMember group member liveness now).2 =
        storeEntryHealth member (conclude group member found now now) now := rfl
    rw [hmember, hhealth]
    unfold History.note
    dsimp only
    split
    · rename_i hpending
      rw [storeEntryHealth, if_pos hpending]
      exact hkept
    · rename_i hpending
      rw [Bool.not_eq_true] at hpending
      have hpending' : found.pending = false := hpending
      split
      · rename_i hhealthy
        have hfailure : (conclude group member found now now).failureSince = none := by
          have hhealthy' : found.healthy = true := hhealthy
          simp [conclude, hhealthy']
        rw [sampleColumn_store]
        exact logged_healthy hle hpending hhealthy hfailure hdated h
      · rename_i hhealthy
        have hhealthy' : found.healthy = false := Bool.not_eq_true _ ▸ hhealthy
        have hfailure : (conclude group member found now now).failureSince =
            some (failureStart (toDate member.failureSince) found.observedFailureSince now) := by
          simp [conclude, hhealthy', hpending']
        have hnone : (conclude group member found now now).healthySince = none := by simp [conclude, hhealthy']
        exact logged_unhealthy hle hpending hfailure hnone (le_failure hle hoffline h) h
  · exact hkept

/-! ## The run -/

/-- What holds after every step. -/
structure Kept (group : Group) (w : Course) : Prop where
  lengths : w.histories.length = w.entries.length
  logged : ∀ (i : ℕ) entry history, w.entries[i]? = some entry → w.histories[i]? = some history → Logged group w.last entry history
  filled : w.left ≠ [] → w.recorded ≠ []

variable {w : Course}

theorem mem_zip {i : ℕ} (hentry : w.entries[i]? = some entry) (hhistory : w.histories[i]? = some history) :
    (entry, history) ∈ w.entries.zip w.histories :=
  mem_of_getElem? (getElem?_zip_eq_some.mpr ⟨hentry, hhistory⟩)

theorem logged_of_mem (h : Kept group w) (hmem : (entry, history) ∈ w.entries.zip w.histories) :
    Logged group w.last entry history := by
  obtain ⟨i, hi⟩ := mem_iff_getElem?.mp hmem
  obtain ⟨hentry, hhistory⟩ := getElem?_zip_eq_some.mp hi
  exact h.logged i entry history hentry hhistory

theorem logged_takeSample {status : HealthStatus} {checkedAt : Option ℤ} (hnewer : ∀ c ∈ history.seen, ∃ c' ∈ checkedAt, c ≤ c')
    (h : Logged group last entry history) :
    Logged group last (takeSample group status checkedAt entry) history := by
  unfold takeSample
  cases hchina : group.chinaHealthCheckEnabled with
  | true =>
    refine ⟨fun hne => ?_, h.window, fun c hc => ?_, h.past⟩
    · rw [if_pos rfl]
      exact h.flagged hne
    · rw [sampleColumn, hchina]
      exact hnewer c hc
  | false =>
    refine ⟨fun hne => ?_, h.window, fun c hc => ?_, h.past⟩
    · rcases h.flagged hne with hl | hr
      · exact .inl hl
      · exact .inr ⟨hr.1, fun hon => by simp [hchina] at hon⟩
    · rw [sampleColumn, hchina]
      exact hnewer c hc

theorem kept_modify {i : ℕ} {f : Entry → Entry} (h : Kept group w)
    (hf : ∀ entry history, w.histories[i]? = some history → Logged group w.last entry history → Logged group w.last (f entry) history) :
    Kept group { w with entries := w.entries.modify i f } := by
  refine ⟨by rw [length_modify, h.lengths], fun j entry history hentry hhistory => ?_, h.filled⟩
  rw [getElem?_modify, Option.map_eq_map, Option.map_eq_some_iff] at hentry
  obtain ⟨before, hbefore, rfl⟩ := hentry
  have hlogged := h.logged j before history hbefore hhistory
  split
  · rename_i hij
    exact hf before history (hij ▸ hhistory) hlogged
  · exact hlogged

theorem kept_evaluate (hname : recordType ≠ .CNAME) {out : EntryGroupDdns.Outcome} (hle : w.last ≤ now) (horder : InOrder group w now)
    (h : Kept group w) : Kept group (next group recordType w (.evaluate now out)) := by
  have hjudged : (evaluation group recordType w now out).1 = w.entries.map (judge group now) :=
    (sweepEntries_judge group w.recorded now hname w.entries rfl).1
  have hnext : next group recordType w (.evaluate now out) =
      { entries := (w.entries.map (judge group now)).map Prod.fst
        recorded := (evaluation group recordType w now out).2.recorded
        last := now
        histories := (w.histories.zip (w.entries.map (judge group now))).map fun p => p.1.note group now p.2
        left := w.left ++ w.recorded.filter fun value => !(evaluation group recordType w now out).2.recorded.contains value } := by
    rw [← hjudged]
    rfl
  have hsound : Sound w.recorded _ (evaluation group recordType w now out).2 := sound_commit w.entries _ _ out
  rw [hnext]
  refine ⟨?_, fun i entry history hentry hhistory => ?_, fun hleft => ?_⟩
  · simp [h.lengths]
  · simp only [getElem?_map, Option.map_eq_some_iff] at hentry hhistory
    obtain ⟨-, ⟨before, hbefore, rfl⟩, rfl⟩ := hentry
    obtain ⟨⟨kept, result⟩, hzip, rfl⟩ := hhistory
    obtain ⟨hkept, hresult⟩ := getElem?_zip_eq_some.mp hzip
    rw [getElem?_map, hbefore, Option.map_some, Option.some.injEq] at hresult
    subst hresult
    obtain ⟨hdated, hoffline⟩ := horder _ (mem_zip hbefore hkept)
    exact logged_judge hle hdated hoffline (h.logged i before kept hbefore hkept)
  · -- an address has left before or leaves now, and either way something was recorded
    refine hsound.filled fun hempty => hleft ?_
    have hnone : w.left = [] := by_contra fun hne => h.filled hne hempty
    simp [hnone, hempty]

theorem kept_next (hname : recordType ≠ .CNAME) (w : Course) (e : Event) (htame : Tame group w e) (h : Kept group w) :
    Kept group (next group recordType w e) := by
  cases e with
  | sample i status checkedAt =>
    exact kept_modify h fun entry history hhistory hlogged => logged_takeSample (htame history hhistory) hlogged
  | host i value liveness =>
    exact kept_modify h fun entry history _ hlogged => ⟨hlogged.flagged, hlogged.window, hlogged.sample, hlogged.past⟩
  | evaluate now out => exact kept_evaluate hname htame.1 htame.2.2 h

/-- The rows and the recorded addresses at the beginning. -/
def start (entries : List Entry) (recorded : List String) (last : ℤ) : Course :=
  { entries, recorded, last, histories := entries.map fun _ => {} }

theorem kept_start (entries : List Entry) (recorded : List String) (last : ℤ) : Kept group (start entries recorded last) := by
  refine ⟨by simp [start], fun i entry history _ hhistory => ?_, fun hne => absurd rfl hne⟩
  simp only [start, getElem?_map, Option.map_eq_some_iff] at hhistory
  obtain ⟨-, -, rfl⟩ := hhistory
  exact ⟨fun hne => absurd rfl hne, fun c hc => absurd hc not_mem_nil, fun c hc => absurd hc not_mem_nil,
    fun c hc => absurd hc not_mem_nil⟩

/-! ## The verdicts at an evaluation -/

def verdict (group : Group) (entry : Entry) (now : ℤ) : Health :=
  (evaluateEntryMember group entry.member entry.liveness now).1

theorem isIncluded_new (h : isIncluded member health false = true) :
    health.healthPending = false ∧ health.healthy = true ∧ (wasUnhealthy member = false ∨ health.recoveredLongEnough = true) := by
  unfold isIncluded at h
  cases hpending : health.healthPending with
  | true => simp [hpending] at h
  | false =>
    cases hhealthy : health.healthy with
    | false => simp [hpending, hhealthy] at h
    | true =>
      refine ⟨rfl, rfl, ?_⟩
      simpa [hpending, hhealthy] using h

theorem isIncluded_old (h : isIncluded member health true = false) :
    health.healthPending = false ∧ health.healthy = false ∧ health.failedLongEnough = true := by
  unfold isIncluded at h
  cases hpending : health.healthPending with
  | true => simp [hpending] at h
  | false =>
    cases hhealthy : health.healthy with
    | true => simp [hpending, hhealthy] at h
    | false =>
      refine ⟨rfl, rfl, ?_⟩
      simpa [hpending, hhealthy] using h

theorem healthySince_of_recovered (h : (verdict group entry now).recoveredLongEnough = true) :
    entry.member.healthySince ≠ none := by
  intro hnone
  have hfinal : (entryFindings group entry.member entry.liveness now).healthFinal = false := healthFinal_entry
  have hpos := recoverDelay_pos group
  simp only [verdict, evaluateEntryMember, conclude, hfinal, hnone, toDate, Option.map_none, Option.getD_none, Bool.and_false,
    Bool.false_or] at h
  split at h
  · simp only [Option.any_some, decide_eq_true_eq, sub_self] at h
    omega
  · simp at h

theorem unhealthyAt_of_recovered (h : Logged group last entry history) (hwas : wasUnhealthy entry.member = true)
    (hhealthy : (verdict group entry now).healthy = true) (hrecovered : (verdict group entry now).recoveredLongEnough = true) :
    history.unhealthyAt = [] := by
  by_contra hne
  rcases h.flagged hne with ⟨-, hnone⟩ | ⟨hfailure, hstatus⟩
  · exact healthySince_of_recovered hrecovered hnone
  · have hunhealthy : entry.member.healthStatus = .unhealthy := by simpa [wasUnhealthy, hfailure] using hwas
    have hagent : group.chinaHealthCheckEnabled = false := by
      by_contra hchina
      exact hstatus (by simpa using hchina) hunhealthy
    have := healthy_status hagent (hhealthy : (entryFindings group entry.member entry.liveness now).healthy = true)
    rw [hunhealthy] at this
    cases this

theorem failed_since (hpending : (verdict group entry now).healthPending = false)
    (hhealthy : (verdict group entry now).healthy = false) (h : (verdict group entry now).failedLongEnough = true) :
    failureStart (toDate entry.member.failureSince) (entryFindings group entry.member entry.liveness now).observedFailureSince now ≤
      now - forwardGroupFailoverDelayMs group := by
  have hpending' : (entryFindings group entry.member entry.liveness now).pending = false := hpending
  have hhealthy' : (entryFindings group entry.member entry.liveness now).healthy = false := hhealthy
  have hfinal : (entryFindings group entry.member entry.liveness now).failureFinal = false := entryFindings_final
  simp only [verdict, evaluateEntryMember, conclude, hpending', hhealthy', hfinal, Bool.or_self, Bool.false_or,
    Bool.false_eq_true, if_false, Option.any_some, decide_eq_true_eq] at h
  omega

/-- An address that was dropped comes back when its member is healthy and was not unhealthy within the recovery delay, and an
address is dropped when its member is unhealthy and the failover delay is over since the last sample that it was healthy by. -/
theorem record_set_steady (group : Group) (recordType : RecordType) (hname : recordType ≠ .CNAME) (entries : List Entry)
    (recorded : List String) (last : ℤ) (es : List Event) (now : ℤ) (out : EntryGroupDdns.Outcome)
    (hes : Admissible (Tame group) (next group recordType) (start entries recorded last) es)
    (hnow : Tame group (run (next group recordType) (start entries recorded last) es) (.evaluate now out)) :
    let w := run (next group recordType) (start entries recorded last) es
    let result := (evaluation group recordType w now out).2
    (∀ v ∈ w.left, v ∉ w.recorded → v ∈ result.sent ∨ v ∈ result.recorded →
      ∃ p ∈ w.entries.zip w.histories, p.1.considered = true ∧ p.1.value = v ∧
        (verdict group p.1 now).healthPending = false ∧ (verdict group p.1 now).healthy = true ∧
        ∀ u ∈ p.2.unhealthyAt, forwardGroupRecoverDelayMs group ≤ now - u) ∧
    ∀ v ∈ w.recorded, v ∉ result.recorded ∨ (result.sent ≠ [] ∧ v ∉ result.sent) →
      ∀ p ∈ w.entries.zip w.histories, p.1.considered = true → p.1.value = v →
        (verdict group p.1 now).healthPending = false ∧ (verdict group p.1 now).healthy = false ∧
        ∀ c ∈ p.2.seen, c * 1000 ≤ now - forwardGroupFailoverDelayMs group := by
  intro w result
  have hkept : Kept group w := run_invariant_of_admissible (kept_next hname) es _ hes (kept_start entries recorded last)
  obtain ⟨hle, hfirst, horder⟩ := hnow
  have hsound : Sound w.recorded (sweepEntries group recordType w.recorded now {} w.entries).1.values result :=
    sound_commit w.entries _ (sweepEntries group recordType w.recorded now {} w.entries).2 out
  have hvalues : ∀ v, v ∈ (sweepEntries group recordType w.recorded now {} w.entries).1.values ↔
      v ∈ ([] : List String) ∨ ∃ entry ∈ w.entries, Includes group w.recorded now entry v :=
    (sweepEntries_judge group w.recorded now hname w.entries rfl).2
  refine ⟨fun v hleft hout hemitted => ?_, fun v hin hdropped p hp hconsidered hvalue => ?_⟩
  · have hrecorded : w.recorded ≠ [] := hkept.filled (List.ne_nil_of_mem hleft)
    have hnew : v ∈ (sweepEntries group recordType w.recorded now {} w.entries).1.values :=
      ((hsound.emitted v hemitted).resolve_left hout).resolve_right hrecorded
    obtain ⟨entry, hentry, hconsidered, hvalue, hincluded⟩ := ((hvalues v).mp hnew).resolve_left List.not_mem_nil
    have hcontains : w.recorded.contains v = false := by simpa using hout
    rw [hcontains] at hincluded
    obtain ⟨hpending, hhealthy, hcause⟩ := isIncluded_new hincluded
    obtain ⟨i, hi⟩ := List.mem_iff_getElem?.mp hentry
    obtain ⟨history, hhistory⟩ : ∃ history, w.histories[i]? = some history :=
      ⟨_, List.getElem?_eq_getElem (hkept.lengths ▸ (List.getElem?_eq_some_iff.mp hi).1)⟩
    refine ⟨(entry, history), mem_zip hi hhistory, hconsidered, hvalue, hpending, hhealthy, fun u hu => ?_⟩
    by_contra hrecent
    have hwas := hfirst (entry, history) (mem_zip hi hhistory) hconsidered (hvalue ▸ hout) hhealthy ⟨u, hu, by omega⟩
    rcases hcause with hwas' | hrecovered
    · rw [hwas] at hwas'
      cases hwas'
    · have hempty := unhealthyAt_of_recovered (hkept.logged i entry history hi hhistory) hwas hhealthy hrecovered
      rw [hempty] at hu
      exact absurd hu List.not_mem_nil
  · obtain ⟨entry, history⟩ := p
    have hgone : v ∉ (sweepEntries group recordType w.recorded now {} w.entries).1.values := by
      rcases hdropped with hdropped | ⟨hne, hunsent⟩
      · exact hsound.dropped v hin hdropped
      · exact hsound.unsent v hne hunsent
    have hout : isIncluded entry.member (verdict group entry now) true = false := by
      rw [← Bool.not_eq_true]
      intro hincluded
      refine hgone ((hvalues v).mpr (.inr ⟨entry, (List.of_mem_zip hp).1, hconsidered, hvalue, ?_⟩))
      rw [List.contains_iff_mem.mpr hin]
      exact hincluded
    obtain ⟨hpending, hhealthy, hfailed⟩ := isIncluded_old hout
    refine ⟨hpending, hhealthy, fun c hc => ?_⟩
    have hsince := failed_since hpending hhealthy hfailed
    exact (le_failure hle (horder _ hp).2 (logged_of_mem hkept hp) c hc).trans hsince

/-! ## An example -/

def sampleGroup : Group := { groupMode := .entry, chinaHealthCheckEnabled := true, updatedAt := 1699990000 }

def sampleEntry (value : String) : Entry :=
  { member := { chinaHealthStatus := .healthy, chinaHealthCheckedAt := some 1699999990, updatedAt := 1699990000 }
    value
    liveness := { available := true } }

def sampleStart : Course := start [sampleEntry "192.0.2.1", sampleEntry "192.0.2.2"] ["192.0.2.1", "192.0.2.2"] 1700000000000

/-- The first member fails, its address is dropped, and it is healthy again. -/
def failedAndBack : List Event := [.evaluate 1700000000000 {},
  .sample 0 .unhealthy (some 1700000005), .evaluate 1700000005000 {},
  .sample 0 .unhealthy (some 1700000070), .evaluate 1700000070000 {},
  .sample 0 .healthy (some 1700000080), .evaluate 1700000080000 {}]

theorem record_set_steady_recovered : let w := run (next sampleGroup .A) sampleStart failedAndBack
    (w.left = ["192.0.2.1"] ∧ w.recorded = ["192.0.2.2"]) ∧
      ∃ p ∈ w.entries.zip w.histories, p.1.considered = true ∧ p.1.value = "192.0.2.1" ∧
        (verdict sampleGroup p.1 1700000200000).healthPending = false ∧
        (verdict sampleGroup p.1 1700000200000).healthy = true ∧
        ∀ u ∈ p.2.unhealthyAt, forwardGroupRecoverDelayMs sampleGroup ≤ 1700000200000 - u := by
  intro w
  have hruns : (w.left = ["192.0.2.1"] ∧ w.recorded = ["192.0.2.2"]) ∧
      "192.0.2.1" ∈ (evaluation sampleGroup .A w 1700000200000 {}).2.recorded ∧
      Admissible (Tame sampleGroup) (next sampleGroup .A) sampleStart failedAndBack ∧
      Tame sampleGroup w (.evaluate 1700000200000 {}) := by decide +kernel
  obtain ⟨⟨hleft, hrecorded⟩, hback, hes, hnow⟩ := hruns
  refine ⟨⟨hleft, hrecorded⟩, ?_⟩
  exact (record_set_steady sampleGroup .A (by decide) _ _ _ failedAndBack 1700000200000 {} hes hnow).1 "192.0.2.1"
    (hleft ▸ List.mem_cons_self) (hrecorded ▸ by decide) (.inr hback)

/-- One second after the first healthy evaluation it comes back all the same: the row says nothing of the failure. -/
theorem dropped_address_back : let w := run (next sampleGroup .A) sampleStart failedAndBack
    "192.0.2.1" ∈ w.left ∧ "192.0.2.1" ∉ w.recorded ∧
      "192.0.2.1" ∈ (evaluation sampleGroup .A w 1700000081000 {}).2.sent ∧
      ¬ ∃ p ∈ w.entries.zip w.histories, p.1.considered = true ∧ p.1.value = "192.0.2.1" ∧
        (verdict sampleGroup p.1 1700000081000).healthPending = false ∧
        (verdict sampleGroup p.1 1700000081000).healthy = true ∧
        ∀ u ∈ p.2.unhealthyAt, forwardGroupRecoverDelayMs sampleGroup ≤ 1700000081000 - u := by
  decide +kernel

end ForwardX.Panel.EntryHysteresis
