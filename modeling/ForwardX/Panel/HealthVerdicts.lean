/-
Evaluations of one member, one after the other, between which nothing is recorded: the verdicts of
`evaluateMemberHealth` and `syncEntryGroupDdns` in `server/repositories/forwardGroupRepository.ts`.

A verdict is stored with the row and read by the next evaluation, which has only the clock as news.
The windows must not be shortened or started again by that; the proof follows the start of a failure
through the columns, where it is rounded to seconds.
-/
import ForwardX.Panel.GroupHealth
import ForwardX.Lib.Run

namespace ForwardX.Panel.HealthVerdicts

open GroupHealth Run

/-- An evaluation of a member of a group of either mode. -/
def evaluate (group : Group) (host : GroupHealth.Host) (rules : List Rule) (member : Member) (now later : ℤ) : Health × Member :=
  match group.groupMode with
  | .failover => evaluateMemberHealth group member (resolveMemberAgentLiveness host now) rules now later
  | .entry => evaluateEntryMember group member (resolveMemberAgentLiveness host now) now

def Health.Unhealthy (health : Health) : Prop := health.healthy = false ∧ health.healthPending = false

instance (health : Health) : Decidable (Health.Unhealthy health) := inferInstanceAs (Decidable (_ ∧ _))

/-! ## Sequences of evaluations -/

/-- The row of the member, when its last evaluation began and ended and with what result; and whether
an evaluation has judged it unhealthy, and failed long enough. -/
structure Course where
  member : Member
  began : ℤ
  last : ℤ
  judged : Option Health := none
  unhealthy : Bool := false
  failed : Bool := false

/-- An evaluation looks at the clock when it begins and when it ends. -/
structure Evaluation where
  now : ℤ
  later : ℤ

def next (group : Group) (host : GroupHealth.Host) (rules : List Rule) (w : Course) (e : Evaluation) : Course :=
  let (health, member) := evaluate group host rules w.member e.now e.later
  { member
    began := e.now
    last := e.later
    judged := some health
    unhealthy := w.unhealthy || decide (Health.Unhealthy health)
    failed := w.failed || health.failedLongEnough }

/-! ## The condition -/

/-- The first rule that does not work has no probe, and is still waited for. -/
def awaited (group : Group) (member : Member) (liveness : MemberAgentLiveness) (now : ℤ) : List Rule → Bool
  | [] => false
  | rule :: rules =>
    match ruleHealth group member liveness now rule with
    | .working _ _ => awaited group member liveness now rules
    | .missing expiresAt => now < expiresAt
    | _ => false

/-- A member that is recorded as unhealthy is waited for again: its group is a failover group and the
first rule that does not work has no probe, or it is an entry group with a China health check and
there is no sample. -/
def WaitedForAgain (group : Group) (host : GroupHealth.Host) (rules : List Rule) (member : Member) (now : ℤ) : Prop :=
  let liveness := resolveMemberAgentLiveness host now
  member.healthStatus = .unhealthy ∧ liveness.available = true ∧ match group.groupMode with
    | .failover => awaited group member liveness now (rules.filter Rule.templateEnabled) = true
    | .entry => group.chinaHealthCheckEnabled = true ∧ member.chinaHealthCheckedAt = none ∧
        liveness.lastOfflineAt = none ∧ now < entryWaitingSince member liveness + freshnessTtlMs

instance (group : Group) (host : GroupHealth.Host) (rules : List Rule) (member : Member) (now : ℤ) :
    Decidable (WaitedForAgain group host rules member now) := by
  unfold WaitedForAgain
  cases group.groupMode <;> infer_instance

/-- No sample is of more than a minute after now. -/
def Dated (group : Group) (rules : List Rule) (member : Member) (now : ℤ) : Prop :=
  (∀ rule ∈ rules, ∀ probe ∈ rule.latestTcping, probe.recordedAt * 1000 ≤ now + 60000) ∧
    (∀ checkedAt ∈ entryCheckedAt group member, checkedAt ≤ now + 60000) ∧
    ∀ checkedAt ∈ toDate member.chinaHealthCheckedAt, checkedAt ≤ now + 60000

instance (group : Group) (rules : List Rule) (member : Member) (now : ℤ) : Decidable (Dated group rules member now) :=
  inferInstanceAs (Decidable (_ ∧ _ ∧ _))

/-- A host that falls silent does not take back a failure that was final, unless its group waits for
longer than a host is silent by then. -/
def FallsSilent (group : Group) (host : GroupHealth.Host) (w : Course) (now : ℤ) : Prop :=
  group.groupMode = .failover ∧ w.failed = true ∧ (resolveMemberAgentLiveness host w.began).available = true ∧
    (resolveMemberAgentLiveness host now).available = false ∧ hostOnlineTtlMs < forwardGroupFailoverDelayMs group

instance (group : Group) (host : GroupHealth.Host) (w : Course) (now : ℤ) : Decidable (FallsSilent group host w now) :=
  inferInstanceAs (Decidable (_ ∧ _ ∧ _ ∧ _ ∧ _))

structure Steady (group : Group) (host : GroupHealth.Host) (rules : List Rule) (w : Course) (e : Evaluation) : Prop where
  ordered : w.last ≤ e.now ∧ e.now ≤ e.later
  dated : Dated group rules w.member e.now
  found : ¬ WaitedForAgain group host rules w.member e.now
  heard : ¬ FallsSilent group host w e.now

instance (group : Group) (host : GroupHealth.Host) (rules : List Rule) (w : Course) (e : Evaluation) :
    Decidable (Steady group host rules w e) :=
  decidable_of_iff ((w.last ≤ e.now ∧ e.now ≤ e.later) ∧ Dated group rules w.member e.now ∧
      ¬ WaitedForAgain group host rules w.member e.now ∧ ¬ FallsSilent group host w e.now)
    ⟨fun h => ⟨h.1, h.2.1, h.2.2.1, h.2.2.2⟩, fun h => ⟨h.ordered, h.dated, h.found, h.heard⟩⟩

/-! ## Liveness -/

theorem lastOfflineAt_resolve (host : GroupHealth.Host) (now now' : ℤ) :
    (resolveMemberAgentLiveness host now').lastOfflineAt = (resolveMemberAgentLiveness host now).lastOfflineAt := rfl

theorem current_resolve (host : GroupHealth.Host) (now now' : ℤ) (sampleAt : Option ℤ) :
    agentHealthSampleIsCurrent (resolveMemberAgentLiveness host now') sampleAt =
      agentHealthSampleIsCurrent (resolveMemberAgentLiveness host now) sampleAt := rfl

theorem available_of_later {host : GroupHealth.Host} {now now' : ℤ} (hle : now ≤ now')
    (h : (resolveMemberAgentLiveness host now').available = true) :
    (resolveMemberAgentLiveness host now).available = true := by
  unfold resolveMemberAgentLiveness at h ⊢
  cases hfast : host.fastState with
  | some fastState =>
    rw [hfast] at h
    exact h
  | none =>
    rw [hfast] at h
    simp only [Bool.and_eq_true, decide_eq_true_eq] at h ⊢
    obtain ⟨hfound, hseen, hrecent⟩ := h
    refine ⟨hfound, hseen, ?_⟩
    omega

theorem silent_since {host : GroupHealth.Host} {now now' : ℤ} (h : (resolveMemberAgentLiveness host now).available = true)
    (h' : (resolveMemberAgentLiveness host now').available = false) :
    ∃ since, (resolveMemberAgentLiveness host now').failureSince = some since ∧ hostOnlineTtlMs < now' - since := by
  unfold resolveMemberAgentLiveness at h h' ⊢
  cases hfast : host.fastState with
  | some fastState =>
    rw [hfast] at h h'
    rw [h] at h'
    cases h'
  | none =>
    rw [hfast] at h h'
    simp only [Bool.and_eq_true, decide_eq_true_eq] at h
    obtain ⟨hfound, hseen, -⟩ := h
    simp only [hfound, Bool.true_and, decide_eq_false_iff_not, hseen, true_and, not_le] at h'
    refine ⟨min host.lastSeenAt now', ?_, h'⟩
    simp only [hfound, hseen, true_and, Bool.true_and, if_true]
    rw [if_neg (by rw [decide_eq_true_eq]; omega)]

/-! ## Rules -/

variable {group : Group} {host : GroupHealth.Host} {member member' : Member} {rules : List Rule} {now now' : ℤ}

theorem fresh_of_later {probe : Probe} (hle : now ≤ now') (hdated : probe.recordedAt * 1000 ≤ now + 60000)
    (h : probe.fresh now' = true) : probe.fresh now = true := by
  simp only [Probe.fresh, Bool.and_eq_true, decide_eq_true_eq] at h ⊢
  omega

/-- What time makes of the health of a rule: a probe expires, and a missing one is still missing. -/
def Ages : RuleHealth → RuleHealth → Prop
  | .missing _, .missing _ => True
  | .undecided e, .expired e' | .failed e, .expired e' | .timedOut e, .expired e' | .working _ e, .expired e' => e = e'
  | old, new => old = new

/-- What becomes of the health of a rule: a probe expires after its deadline, and a missing one is
waited for from the row that is stored. -/
def aged (now' waits : ℤ) : RuleHealth → RuleHealth
  | .blocked => .blocked
  | .reconnected => .reconnected
  | .expired since => .expired since
  | .missing _ => .missing waits
  | .undecided e => if e < now' then .expired e else .undecided e
  | .failed e => if e < now' then .expired e else .failed e
  | .timedOut e => if e < now' then .expired e else .timedOut e
  | .working final e => if e < now' then .expired e else .working final e

theorem fresh_iff {probe : Probe} (hle : now ≤ now') (h : probe.fresh now = true) :
    probe.fresh now' = true ↔ ¬ probe.recordedAt * 1000 + freshnessTtlMs < now' := by
  simp only [Probe.fresh, Bool.and_eq_true, decide_eq_true_eq] at h ⊢
  omega

theorem ruleHealth_aged {rule : Rule} (hle : now ≤ now')
    (hdated : ∀ probe ∈ rule.latestTcping, probe.recordedAt * 1000 ≤ now + 60000) :
    ruleHealth group member' (resolveMemberAgentLiveness host now') now' rule =
      aged now' (waitingSince group member' + freshnessTtlMs)
        (ruleHealth group member (resolveMemberAgentLiveness host now) now rule) := by
  unfold ruleHealth
  split
  · rfl
  · rw [current_resolve host now now']
    split
    · rfl
    · cases hprobe : rule.latestTcping with
      | none => rfl
      | some probe =>
        dsimp only
        cases hfresh : probe.fresh now with
        | false =>
          have hfresh' : probe.fresh now' = false := by
            by_contra hne
            rw [fresh_of_later hle (hdated probe hprobe) (by simpa using hne)] at hfresh
            cases hfresh
          rw [hfresh']
          rfl
        | true =>
          by_cases hexpired : probe.recordedAt * 1000 + freshnessTtlMs < now'
          · have hfresh' : probe.fresh now' = false := by
              rw [← Bool.not_eq_true, fresh_iff hle hfresh]
              exact not_not.mpr hexpired
            simp only [hfresh', Bool.not_true, Bool.not_false, Bool.false_eq_true, if_false, if_true]
            cases probe.healthStatus with
            | none => cases probe.isTimeout <;> simp [aged, hexpired]
            | some status => cases status <;> simp [aged, hexpired]
          · have hfresh' : probe.fresh now' = true := (fresh_iff hle hfresh).mpr hexpired
            simp only [hfresh', Bool.not_true, Bool.false_eq_true, if_false]
            cases probe.healthStatus with
            | none => cases probe.isTimeout <;> simp [aged, hexpired]
            | some status => cases status <;> simp [aged, hexpired]

theorem ages_aged {waits : ℤ} (health : RuleHealth) : Ages health (aged now' waits health) := by
  cases health with
  | blocked | reconnected | expired => rfl
  | missing => trivial
  | undecided e | failed e | timedOut e | working _ e =>
    dsimp only [aged]
    split <;> rfl

theorem ruleHealth_ages {rule : Rule} (hle : now ≤ now')
    (hdated : ∀ probe ∈ rule.latestTcping, probe.recordedAt * 1000 ≤ now + 60000) :
    Ages (ruleHealth group member (resolveMemberAgentLiveness host now) now rule)
      (ruleHealth group member' (resolveMemberAgentLiveness host now') now' rule) := by
  rw [ruleHealth_aged hle hdated]
  exact ages_aged _

/-- The findings of a walk that has met no bad rule yet. -/
structure Open (found : Findings) : Prop where
  healthy : found.healthy = true
  pending : found.pending = false
  failureFinal : found.failureFinal = false
  observed : found.observedFailureSince = none

def Findings.Unhealthy (found : Findings) : Prop := found.healthy = false ∧ found.pending = false

/-- Later the verdict is no better, and a failure that was final still is. -/
def NoBetter (found found' : Findings) : Prop :=
  Findings.Unhealthy found → Findings.Unhealthy found' ∧ (found.failureFinal = true → found'.failureFinal = true)

theorem probe_later {l l' : MemberAgentLiveness}
    (hages : ∀ rule ∈ rules, Ages (ruleHealth group member l now rule) (ruleHealth group member' l' now' rule))
    {found found' : Findings} (hopen : Open found) (hopen' : Open found')
    (hfound : awaited group member' l' now' rules = false) :
    NoBetter (probe group member l now found rules) (probe group member' l' now' found' rules) ∧
      (Open (probe group member l now found rules) → Open (probe group member' l' now' found' rules) ∨
        (Findings.Unhealthy (probe group member' l' now' found' rules) ∧
          (probe group member' l' now' found' rules).failureFinal = true)) := by
  induction rules generalizing found found' with
  | nil =>
    refine ⟨fun h => ?_, fun _ => .inl hopen'⟩
    exact absurd (hopen.healthy.symm.trans h.1) (by simp)
  | cons rule rules ih =>
    have hrule := hages rule List.mem_cons_self
    unfold probe
    unfold awaited at hfound
    generalize ruleHealth group member l now rule = old at hrule
    generalize ruleHealth group member' l' now' rule = new at hrule hfound
    cases old with
    | blocked =>
      cases new <;> simp only [Ages, reduceCtorEq] at hrule
      exact ⟨fun _ => ⟨⟨rfl, hopen'.pending⟩, fun h => absurd (h.symm.trans hopen.failureFinal) (by simp)⟩,
        fun h => absurd h.healthy (by simp)⟩
    | reconnected =>
      cases new <;> simp only [Ages, reduceCtorEq] at hrule
      exact ⟨fun h => absurd h.2 (by simp), fun h => absurd h.healthy (by simp)⟩
    | expired since =>
      cases new <;> simp only [Ages, reduceCtorEq] at hrule
      exact ⟨fun _ => ⟨⟨rfl, hopen'.pending⟩, fun _ => rfl⟩, fun h => absurd h.healthy (by simp)⟩
    | missing expiresAt =>
      cases new <;> simp only [Ages, reduceCtorEq] at hrule
      rename_i expiresAt'
      have hdue : expiresAt' ≤ now' := by simpa using hfound
      dsimp only
      rw [if_pos hdue]
      refine ⟨fun _ => ⟨⟨rfl, hopen'.pending⟩, fun _ => rfl⟩, fun h => ?_⟩
      have hbad := h.healthy
      split at hbad <;> cases hbad
    | undecided expiresAt =>
      refine ⟨fun h => ?_, fun h => absurd h.healthy (by simp)⟩
      exact absurd h.2 (by simp)
    | failed expiresAt =>
      refine ⟨fun _ => ?_, fun h => absurd h.healthy (by simp)⟩
      cases new <;> simp only [Ages, reduceCtorEq] at hrule
      · exact ⟨⟨rfl, hopen'.pending⟩, fun _ => rfl⟩
      · exact ⟨⟨rfl, hopen'.pending⟩, fun _ => rfl⟩
    | timedOut expiresAt =>
      refine ⟨fun _ => ?_, fun h => absurd h.healthy (by simp)⟩
      cases new <;> simp only [Ages, reduceCtorEq] at hrule
      · exact ⟨⟨rfl, hopen'.pending⟩, fun _ => rfl⟩
      · exact ⟨⟨rfl, hopen'.pending⟩, fun h => absurd (h.symm.trans hopen.failureFinal) (by simp)⟩
    | working final expiresAt =>
      cases new with
      | working final' expiresAt' =>
        exact ih (fun r hr => hages r (List.mem_cons_of_mem _ hr))
          ⟨hopen.healthy, hopen.pending, hopen.failureFinal, hopen.observed⟩
          ⟨hopen'.healthy, hopen'.pending, hopen'.failureFinal, hopen'.observed⟩ hfound
      | expired since =>
        exact ⟨fun _ => ⟨⟨rfl, hopen'.pending⟩, fun _ => rfl⟩, fun _ => .inr ⟨⟨rfl, hopen'.pending⟩, rfl⟩⟩
      | _ => simp only [Ages, reduceCtorEq] at hrule

/-! ## Findings -/

variable {l : MemberAgentLiveness} {found : Findings}

theorem probe_final (hopen : Open found) (h : (probe group member l now found rules).failureFinal = true) :
    Findings.Unhealthy (probe group member l now found rules) := by
  induction rules generalizing found with
  | nil => exact absurd (h.symm.trans hopen.failureFinal) (by simp)
  | cons rule rules ih =>
    unfold probe at h ⊢
    generalize ruleHealth group member l now rule = health at h ⊢
    cases health with
    | working final expiresAt => exact ih ⟨hopen.healthy, hopen.pending, hopen.failureFinal, hopen.observed⟩ h
    | missing expiresAt =>
      dsimp only at h ⊢
      split at h
      · rename_i hdue
        rw [if_pos hdue]
        exact ⟨rfl, hopen.pending⟩
      · exact absurd (h.symm.trans hopen.failureFinal) (by simp)
    | expired since => exact ⟨rfl, hopen.pending⟩
    | failed expiresAt => exact ⟨rfl, hopen.pending⟩
    | _ => exact absurd (h.symm.trans hopen.failureFinal) (by simp)

theorem probe_open (hopen : Open found)
    (h : (probe group member l now found rules).healthy = true) : Open (probe group member l now found rules) := by
  induction rules generalizing found with
  | nil => exact hopen
  | cons rule rules ih =>
    unfold probe at h ⊢
    generalize ruleHealth group member l now rule = health at h ⊢
    cases health with
    | working final expiresAt => exact ih ⟨hopen.healthy, hopen.pending, hopen.failureFinal, hopen.observed⟩ h
    | missing expiresAt =>
      dsimp only at h
      split at h <;> cases h
    | _ => cases h

theorem unhealthy_chinaFindings (hopen : Open found) :
    Findings.Unhealthy (chinaFindings member l now found) ↔
      agentHealthSampleIsCurrent l (toDate member.chinaHealthCheckedAt) = true ∧
        (forwardGroupChinaHealthStateAt member now = .unhealthy ∨ forwardGroupChinaHealthStateAt member now = .stale) := by
  unfold chinaFindings Findings.Unhealthy
  cases hcurrent : agentHealthSampleIsCurrent l (toDate member.chinaHealthCheckedAt) with
  | false => simp
  | true => cases hstate : forwardGroupChinaHealthStateAt member now <;> simp [hopen.pending, hopen.healthy]

theorem final_chinaFindings : (chinaFindings member l now found).failureFinal = found.failureFinal := by
  unfold chinaFindings
  dsimp only
  split <;> rfl

theorem stateAt_later {status : HealthStatus} {checkedAt : Option ℤ} (hle : now ≤ now')
    (hdated : ∀ c ∈ checkedAt, c ≤ now + 60000)
    (h : healthStateAt status checkedAt now = .unhealthy ∨ healthStateAt status checkedAt now = .stale) :
    healthStateAt status checkedAt now' = .unhealthy ∨ healthStateAt status checkedAt now' = .stale := by
  cases status with
  | unknown => simp [healthStateAt] at h
  | unhealthy =>
    unfold healthStateAt
    dsimp only
    split
    · exact .inl rfl
    · exact .inr rfl
  | healthy =>
    refine .inr ?_
    unfold healthStateAt at h ⊢
    dsimp only at h ⊢
    split at h
    · simp at h
    · rename_i hstale
      rw [if_neg]
      cases checkedAt with
      | none => simp
      | some c =>
        have hc := hdated c rfl
        simp only [Option.getD_some] at hstale ⊢
        omega

/-- The columns that an evaluation leaves alone. -/
structure SameSamples (member member' : Member) : Prop where
  isEnabled : member'.isEnabled = member.isEnabled
  status : member'.chinaHealthStatus = member.chinaHealthStatus
  checkedAt : member'.chinaHealthCheckedAt = member.chinaHealthCheckedAt

theorem failoverFindings_later (rules : List Rule) (hle : now ≤ now') (hsame : SameSamples member member')
    (hdated : Dated group rules member now)
    (hfound : (resolveMemberAgentLiveness host now').available = true →
      awaited group member' (resolveMemberAgentLiveness host now') now' (rules.filter Rule.templateEnabled) = false)
    (h : Findings.Unhealthy (failoverFindings group member (resolveMemberAgentLiveness host now) rules now)) :
    Findings.Unhealthy (failoverFindings group member' (resolveMemberAgentLiveness host now') rules now') ∧
      ((failoverFindings group member (resolveMemberAgentLiveness host now) rules now).failureFinal = true →
        (failoverFindings group member' (resolveMemberAgentLiveness host now') rules now').failureFinal = true ∨
          ((resolveMemberAgentLiveness host now).available = true ∧
            (resolveMemberAgentLiveness host now').available = false ∧
            (failoverFindings group member' (resolveMemberAgentLiveness host now') rules now').observedFailureSince =
              some ((resolveMemberAgentLiveness host now').failureSince.getD now'))) := by
  unfold failoverFindings at h ⊢
  rw [hsame.isEnabled]
  split at h
  · rename_i hdisabled
    rw [if_pos hdisabled, if_pos hdisabled]
    exact ⟨⟨rfl, rfl⟩, fun hf => by cases hf⟩
  rename_i henabled
  rw [if_neg henabled, if_neg henabled]
  split at h
  · rename_i hnone
    rw [if_pos hnone, if_pos hnone]
    exact ⟨⟨rfl, rfl⟩, fun hf => by cases hf⟩
  rename_i hsome
  rw [if_neg hsome, if_neg hsome]
  cases havailable' : (resolveMemberAgentLiveness host now').available with
  | false =>
    refine ⟨⟨rfl, rfl⟩, fun hf => .inr ⟨?_, rfl, rfl⟩⟩
    by_contra hoff
    rw [if_pos (by simpa using hoff)] at hf
    cases hf
  | true =>
    have havailable := available_of_later hle havailable'
    have hages : ∀ rule ∈ rules.filter Rule.templateEnabled, Ages (ruleHealth group member (resolveMemberAgentLiveness host now) now rule)
        (ruleHealth group member' (resolveMemberAgentLiveness host now') now' rule) := fun rule hrule =>
      ruleHealth_ages hle (hdated.1 rule (List.mem_filter.mp hrule).1)
    have hstart : Open ({ healthy := true, healthFinal := true } : Findings) := ⟨rfl, rfl, rfl, rfl⟩
    obtain ⟨hnobetter, hopen⟩ := probe_later hages hstart hstart (hfound havailable')
    rw [if_neg (by simp [havailable])] at h
    simp only [havailable, Bool.not_true, Bool.false_eq_true, if_false]
    generalize hf : probe group member (resolveMemberAgentLiveness host now) now { healthy := true, healthFinal := true }
      (rules.filter Rule.templateEnabled) = found at h hnobetter hopen ⊢
    generalize probe group member' (resolveMemberAgentLiveness host now') now' { healthy := true, healthFinal := true }
      (rules.filter Rule.templateEnabled) = found' at hnobetter hopen ⊢
    cases hhealthy : found.healthy with
    | false =>
      simp only [hhealthy, Bool.false_and, Bool.false_eq_true, if_false] at h ⊢
      obtain ⟨hbad, hfinal⟩ := hnobetter h
      simp only [hbad.1, Bool.false_and, Bool.false_eq_true, if_false]
      exact ⟨hbad, fun hf => .inl (hfinal hf)⟩
    | true =>
      have hopened : Open found := hf ▸ probe_open hstart (hf ▸ hhealthy)
      rcases hopen hopened with hopened' | ⟨hbad, hfinal⟩
      · cases hchina : group.chinaHealthCheckEnabled with
        | false =>
          simp only [hchina, Bool.and_false, Bool.false_eq_true, if_false] at h
          exact absurd (hhealthy.symm.trans h.1) (by simp)
        | true =>
          simp only [hhealthy, hopened'.healthy, hchina, Bool.and_self, if_true] at h ⊢
          obtain ⟨hcurrent, hstate⟩ := (unhealthy_chinaFindings hopened).mp h
          refine ⟨(unhealthy_chinaFindings hopened').mpr ⟨?_, ?_⟩, fun hfinal => ?_⟩
          · rw [hsame.checkedAt]
            exact hcurrent
          · unfold forwardGroupChinaHealthStateAt
            rw [hsame.status, hsame.checkedAt]
            exact stateAt_later hle hdated.2.2 hstate
          · rw [final_chinaFindings, hopened.failureFinal] at hfinal
            cases hfinal
      · simp only [hbad.1, Bool.false_and, Bool.false_eq_true, if_false]
        exact ⟨hbad, fun _ => .inl hfinal⟩

theorem entryFindings_later (hle : now ≤ now') (hsame : SameSamples member member')
    (hchecked : member'.lastCheckedAt = member.lastCheckedAt) (hstored : member'.healthStatus = .unhealthy)
    (hdated : Dated group rules member now)
    (hfound : (resolveMemberAgentLiveness host now').available = true → ¬ (group.chinaHealthCheckEnabled = true ∧
      member'.chinaHealthCheckedAt = none ∧ (resolveMemberAgentLiveness host now').lastOfflineAt = none ∧
        now' < entryWaitingSince member' (resolveMemberAgentLiveness host now') + freshnessTtlMs))
    (h : Findings.Unhealthy (entryFindings group member (resolveMemberAgentLiveness host now) now)) :
    Findings.Unhealthy (entryFindings group member' (resolveMemberAgentLiveness host now') now') := by
  have hcheckedAt : entryCheckedAt group member' = entryCheckedAt group member := by
    unfold entryCheckedAt
    rw [hsame.checkedAt, hchecked]
  unfold entryFindings at h ⊢
  cases havailable' : (resolveMemberAgentLiveness host now').available with
  | false => exact ⟨rfl, rfl⟩
  | true =>
    have havailable := available_of_later hle havailable'
    simp only [havailable, Bool.not_true, Bool.false_eq_true, if_false, hcheckedAt, current_resolve host now now'] at h ⊢
    cases hcurrent : agentHealthSampleIsCurrent (resolveMemberAgentLiveness host now) (entryCheckedAt group member) with
    | false =>
      -- the wait is from when the Agent was last offline
      have hoffline : ∃ offline, (resolveMemberAgentLiveness host now).lastOfflineAt = some offline := by
        cases hoff : (resolveMemberAgentLiveness host now).lastOfflineAt with
        | none => simp [agentHealthSampleIsCurrent, hoff] at hcurrent
        | some offline => exact ⟨offline, rfl⟩
      obtain ⟨offline, hoffline⟩ := hoffline
      have hoffline' := (lastOfflineAt_resolve host now now').trans hoffline
      simp only [hcurrent, Bool.false_eq_true, if_false, Bool.not_false, Bool.or_true, if_true, entryWaitingSince, hoffline,
        hoffline', Option.getD_some] at h ⊢
      split at h
      · rw [if_pos (by omega)]
        exact ⟨rfl, rfl⟩
      · exact absurd h.2 (by simp)
    | true =>
      simp only [hcurrent, if_true, Bool.not_true, Bool.or_false] at h ⊢
      have hbad : (entryStateAt group member now = .unhealthy ∨ entryStateAt group member now = .stale) ∨
          (entryStateAt group member now = .pending ∧ entryCheckedAt group member = none) := by
        cases hstate : entryStateAt group member now with
        | unhealthy => exact .inl (.inl rfl)
        | stale => exact .inl (.inr rfl)
        | healthy =>
          rw [hstate] at h
          exact absurd h.1 (by simp)
        | pending =>
          rw [hstate] at h
          refine .inr ⟨rfl, ?_⟩
          cases hsample : entryCheckedAt group member with
          | none => rfl
          | some c => simp [hsample, Findings.Unhealthy] at h
      cases hchina : group.chinaHealthCheckEnabled with
      | false =>
        -- the stored status is that of the sample now
        have hstate : entryStateAt group member' now' = .unhealthy ∨ entryStateAt group member' now' = .stale := by
          unfold entryStateAt forwardGroupAgentHealthStateAt
          rw [hchina, if_neg (by simp), hstored]
          unfold healthStateAt
          dsimp only
          split
          · exact .inl rfl
          · exact .inr rfl
        rcases hstate with hstate | hstate
        · rw [hstate]
          exact ⟨rfl, rfl⟩
        · rw [hstate]
          exact ⟨rfl, rfl⟩
      | true =>
        have hstates : entryStateAt group member' now' =
            healthStateAt member.chinaHealthStatus (toDate member.chinaHealthCheckedAt) now' := by
          unfold entryStateAt forwardGroupChinaHealthStateAt
          rw [hchina, if_pos rfl, hsame.status, hsame.checkedAt]
        have hstates' : entryStateAt group member now =
            healthStateAt member.chinaHealthStatus (toDate member.chinaHealthCheckedAt) now := by
          unfold entryStateAt forwardGroupChinaHealthStateAt
          rw [hchina, if_pos rfl]
        rcases hbad with hbad | ⟨hpending, hnone⟩
        · rw [hstates'] at hbad
          rw [hstates]
          rcases stateAt_later hle hdated.2.2 hbad with hstate | hstate
          · rw [hstate]
            exact ⟨rfl, rfl⟩
          · rw [hstate]
            exact ⟨rfl, rfl⟩
        · have hunknown : member.chinaHealthStatus = .unknown := by
            rw [hstates'] at hpending
            unfold healthStateAt at hpending
            dsimp only at hpending
            split at hpending
            · assumption
            · split at hpending <;> cases hpending
            · split at hpending <;> cases hpending
          have hsample : member'.chinaHealthCheckedAt = none := by
            rw [hsame.checkedAt]
            simpa [entryCheckedAt, hchina, toDate] using hnone
          have hpending' : entryStateAt group member' now' = .pending := by
            rw [hstates, hunknown]
            rfl
          rw [hpending] at h
          rw [hpending']
          simp only [hnone, Option.isNone_none, if_true] at h ⊢
          have hdue : entryWaitingSince member' (resolveMemberAgentLiveness host now') + freshnessTtlMs ≤ now' := by
            cases hoff : (resolveMemberAgentLiveness host now).lastOfflineAt with
            | none =>
              have hoff' := (lastOfflineAt_resolve host now now').trans hoff
              by_contra hwaits
              exact hfound havailable' ⟨hchina, hsample, hoff', by omega⟩
            | some offline =>
              have hoff' := (lastOfflineAt_resolve host now now').trans hoff
              simp only [entryWaitingSince, hoff, hoff', Option.getD_some] at h ⊢
              split at h
              · omega
              · exact absurd h.2 (by simp)
          rw [if_pos hdue]
          exact ⟨rfl, rfl⟩

/-! ## Windows -/

theorem recoverDelay_pos (group : Group) : 0 < forwardGroupRecoverDelayMs group := by
  unfold forwardGroupRecoverDelayMs
  have : (10 : ℤ) ≤ max 10 (if group.recoverSeconds = 0 then 120 else group.recoverSeconds) := le_max_left _ _
  omega

theorem failureStart_le {since : ℤ} {observed : Option ℤ} : failureStart (some since) observed now ≤ since := by
  cases observed with
  | none => exact le_refl since
  | some o =>
    change (if o < since then o else since) ≤ since
    split <;> omega

theorem failureStart_le_observed (now : ℤ) (previous : Option ℤ) (observed : ℤ) :
    failureStart previous (some observed) now ≤ observed := by
  unfold failureStart
  dsimp only
  split <;> omega

theorem toColumn_le (instant : ℤ) : toColumn instant * 1000 ≤ instant := Int.ediv_mul_le instant (by decide)

theorem toColumn_instant (column : ℤ) : toColumn (column * 1000) = column := by
  rw [toColumn, Int.mul_ediv_cancel column (by decide)]

theorem map_toColumn_toDate (column : Option ℤ) : (toDate column).map toColumn = column := by
  cases column with
  | none => rfl
  | some column => exact congrArg some (toColumn_instant column)

theorem storeEntryHealth_windows (member : Member) (now : ℤ) {health : Health} (hjudged : health.healthPending = false) :
    (storeEntryHealth member health now).healthStatus = (if health.healthy then .healthy else .unhealthy) ∧
      (storeEntryHealth member health now).failureSince = health.failureSince.map toColumn ∧
      (storeEntryHealth member health now).healthySince = health.healthySince.map toColumn := by
  unfold storeEntryHealth
  dsimp only
  rw [hjudged, if_neg Bool.false_ne_true]
  generalize (if health.healthy then HealthStatus.healthy else HealthStatus.unhealthy) = status
  split
  · exact ⟨rfl, rfl, rfl⟩
  · rename_i hsame
    simp only [not_or, not_not] at hsame
    obtain ⟨hstatus, hfailure, hhealthy⟩ := hsame
    exact ⟨hstatus, by rw [← hfailure, map_toColumn_toDate], by rw [← hhealthy, map_toColumn_toDate]⟩

/-- What is stored of an unhealthy member: the failure began when it did, or in the same second. -/
structure Recorded (member member' : Member) (failureSince : ℤ) : Prop where
  same : SameSamples member member'
  status : member'.healthStatus = .unhealthy
  since : ∃ since, toDate member'.failureSince = some since ∧ since ≤ failureSince

theorem recorded_storeHealth (l : MemberAgentLiveness) (now : ℤ) {health : Health} {failureSince : ℤ}
    (h : Health.Unhealthy health) (hsince : health.failureSince = some failureSince) :
    Recorded member (storeHealth member l health now) failureSince := by
  unfold storeHealth
  simp only [h.1, h.2, Bool.false_eq_true, if_false]
  split
  · refine ⟨⟨rfl, rfl, rfl⟩, rfl, _, ?_, toColumn_le failureSince⟩
    simp [hsince, toDate]
  · rename_i hkept
    simp only [not_or, not_not] at hkept
    exact ⟨⟨rfl, rfl, rfl⟩, hkept.1.1, _, hkept.1.2.1.trans hsince, le_refl _⟩

theorem recorded_storeEntryHealth (member : Member) (now : ℤ) {health : Health} {failureSince : ℤ} (h : Health.Unhealthy health)
    (hsince : health.failureSince = some failureSince) :
    Recorded member (storeEntryHealth member health now) failureSince ∧
      (storeEntryHealth member health now).lastCheckedAt = member.lastCheckedAt := by
  unfold storeEntryHealth
  simp only [h.1, h.2, Bool.false_eq_true, if_false]
  split
  · refine ⟨⟨⟨rfl, rfl, rfl⟩, rfl, _, ?_, toColumn_le failureSince⟩, rfl⟩
    simp [hsince, toDate]
  · rename_i hkept
    simp only [not_or, not_not] at hkept
    exact ⟨⟨⟨rfl, rfl, rfl⟩, hkept.1, _, hkept.2.1.trans hsince, le_refl _⟩, rfl⟩

theorem failureSince_conclude {later : ℤ} (h : Findings.Unhealthy found) :
    (conclude group member found now later).failureSince =
      some (failureStart (toDate member.failureSince) found.observedFailureSince now) := by
  simp [conclude, h.1, h.2]

theorem failed_conclude {later : ℤ} (h : Findings.Unhealthy found) :
    (conclude group member found now later).failedLongEnough = true ↔ found.failureFinal = true ∨
      forwardGroupFailoverDelayMs group ≤
        later - failureStart (toDate member.failureSince) found.observedFailureSince now := by
  simp [conclude, h.1, h.2]

theorem window_later {later later' failureSince : ℤ} {observed' : Option ℤ} (hrecorded : Recorded member member' failureSince)
    (hle : later ≤ later') (h : forwardGroupFailoverDelayMs group ≤ later - failureSince) :
    forwardGroupFailoverDelayMs group ≤ later' - failureStart (toDate member'.failureSince) observed' now' := by
  obtain ⟨since, hsince, hearlier⟩ := hrecorded.since
  have hstart : failureStart (toDate member'.failureSince) observed' now' ≤ since := by
    rw [hsince]
    exact failureStart_le
  omega

theorem failoverFindings_final (h : (failoverFindings group member l rules now).failureFinal = true) :
    Findings.Unhealthy (failoverFindings group member l rules now) := by
  unfold failoverFindings at h ⊢
  split at h
  · cases h
  rename_i henabled
  rw [if_neg henabled]
  split at h
  · cases h
  rename_i hsome
  rw [if_neg hsome]
  split at h
  · cases h
  rename_i havailable
  rw [if_neg havailable]
  dsimp only at h ⊢
  have hstart : Open ({ healthy := true, healthFinal := true } : Findings) := ⟨rfl, rfl, rfl, rfl⟩
  split at h
  · rename_i hhealthy
    rw [final_chinaFindings, (probe_open hstart (by simp_all)).failureFinal] at h
    cases h
  · rename_i hhealthy
    rw [if_neg hhealthy]
    exact probe_final hstart h

theorem entryFindings_final : (entryFindings group member l now).failureFinal = false := by
  unfold entryFindings
  dsimp only
  split
  · rfl
  · split
    · split
      · split <;> rfl
      · rfl
    · rfl
    · rfl
    · rfl

theorem unhealthy_of_failed {later : ℤ} (h : (evaluate group host rules member now later).1.failedLongEnough = true) :
    Health.Unhealthy (evaluate group host rules member now later).1 := by
  have hconclude {found : Findings} {later : ℤ} (hfinal : found.failureFinal = true → Findings.Unhealthy found)
      (h : (conclude group member found now later).failedLongEnough = true) :
      Health.Unhealthy (conclude group member found now later) := by
    by_contra hne
    have hgood : (found.healthy || found.pending) = true := by
      rw [Bool.or_eq_true]
      by_contra hnot
      rw [not_or, Bool.not_eq_true, Bool.not_eq_true] at hnot
      exact hne hnot
    have hnotfinal : found.failureFinal = false := by
      by_contra hfinal'
      exact hne (hfinal (by simpa using hfinal'))
    simp [conclude, hgood, hnotfinal] at h
  unfold evaluate at h ⊢
  cases hmode : group.groupMode with
  | failover =>
    rw [hmode] at h
    exact hconclude failoverFindings_final h
  | entry =>
    rw [hmode] at h
    exact hconclude (fun hfinal => by simp [entryFindings_final] at hfinal) h

/-! ## One evaluation after the other -/

theorem evaluate_later {later later' : ℤ} (h : Health.Unhealthy (evaluate group host rules member now later).1)
    (hle : later ≤ now') (hbegan : now ≤ later) (hended : now' ≤ later') (hdated : Dated group rules member now)
    (hfound : ¬ WaitedForAgain group host rules (evaluate group host rules member now later).2 now')
    (hheard : ¬ (group.groupMode = .failover ∧ (evaluate group host rules member now later).1.failedLongEnough = true ∧
      (resolveMemberAgentLiveness host now).available = true ∧ (resolveMemberAgentLiveness host now').available = false ∧
        hostOnlineTtlMs < forwardGroupFailoverDelayMs group)) :
    Health.Unhealthy (evaluate group host rules (evaluate group host rules member now later).2 now' later').1 ∧
      ((evaluate group host rules member now later).1.failedLongEnough = true →
        (evaluate group host rules (evaluate group host rules member now later).2 now' later').1.failedLongEnough = true) := by
  have hnow : now ≤ now' := le_trans hbegan hle
  unfold WaitedForAgain at hfound
  unfold evaluate at h hfound hheard ⊢
  cases hmode : group.groupMode with
  | failover =>
    simp only [hmode, evaluateMemberHealth] at h hfound hheard ⊢
    have hrecorded : Recorded member _ _ := recorded_storeHealth (resolveMemberAgentLiveness host now) now h
      (failureSince_conclude h)
    obtain ⟨hunhealthy, hfinal⟩ := failoverFindings_later rules hnow hrecorded.same hdated
      (fun havailable => by
        by_contra hawaited
        exact hfound ⟨hrecorded.status, havailable, by simpa using hawaited⟩) h
    refine ⟨hunhealthy, fun hfailed => ?_⟩
    have hfailed' := hfailed
    rw [failed_conclude h] at hfailed'
    rw [failed_conclude hunhealthy]
    rcases hfailed' with hended' | hwindow
    · rcases hfinal hended' with hfinal' | ⟨havailable, hsilent, hobserved⟩
      · exact .inl hfinal'
      · -- the host has been silent for longer than the group waits
        refine .inr ?_
        obtain ⟨since, hsince, hlong⟩ := silent_since havailable hsilent
        have hdelay : forwardGroupFailoverDelayMs group ≤ hostOnlineTtlMs := by
          by_contra hlonger
          exact hheard ⟨trivial, hfailed, havailable, hsilent, by omega⟩
        rw [hobserved, hsince, Option.getD_some]
        have hstart := failureStart_le_observed now' (toDate (storeHealth member (resolveMemberAgentLiveness host now)
          (conclude group member (failoverFindings group member (resolveMemberAgentLiveness host now) rules now) now later)
            now).failureSince) since
        omega
    · exact .inr (window_later hrecorded (by omega) hwindow)
  | entry =>
    simp only [hmode, evaluateEntryMember] at h hfound ⊢
    obtain ⟨hrecorded, hchecked⟩ := recorded_storeEntryHealth member now h (failureSince_conclude h)
    have hunhealthy := entryFindings_later hnow hrecorded.same hchecked hrecorded.status hdated
      (fun havailable hwaits => hfound ⟨hrecorded.status, havailable, hwaits⟩) h
    refine ⟨hunhealthy, fun hfailed => ?_⟩
    rw [failed_conclude h] at hfailed
    rw [failed_conclude hunhealthy]
    rcases hfailed with hfinal | hwindow
    · rw [entryFindings_final] at hfinal
      cases hfinal
    · exact .inr (window_later hrecorded hnow hwindow)

/-! ## The result -/

/-- The last evaluation judged the member unhealthy, and failed long enough if one before did. -/
structure Judged (group : Group) (host : GroupHealth.Host) (rules : List Rule) (w : Course) (member : Member) : Prop where
  ordered : w.began ≤ w.last
  dated : Dated group rules member w.began
  stored : w.member = (evaluate group host rules member w.began w.last).2
  health : w.judged = some (evaluate group host rules member w.began w.last).1
  unhealthy : Health.Unhealthy (evaluate group host rules member w.began w.last).1
  failed : w.failed = true ↔ (evaluate group host rules member w.began w.last).1.failedLongEnough = true

structure Kept (group : Group) (host : GroupHealth.Host) (rules : List Rule) (w : Course) : Prop where
  failed : w.failed = true → w.unhealthy = true
  judged : w.unhealthy = true → ∃ member, Judged group host rules w member

theorem kept_next (w : Course) (e : Evaluation) (hsteady : Steady group host rules w e) (h : Kept group host rules w) :
    Kept group host rules (next group host rules w e) := by
  obtain ⟨⟨hlast, hended⟩, hdated, hfound, hheard⟩ := hsteady
  cases hunhealthy : w.unhealthy with
  | false =>
    have hfailed : w.failed = false := by
      by_contra hne
      rw [h.failed (by simpa using hne)] at hunhealthy
      cases hunhealthy
    refine ⟨fun hf => ?_, fun hu => ⟨w.member, ?_⟩⟩
    · simp only [next, hfailed, Bool.false_or] at hf
      simp [next, unhealthy_of_failed hf]
    · simp only [next, hunhealthy, Bool.false_or, decide_eq_true_eq] at hu
      exact ⟨hended, hdated, rfl, rfl, hu, by simp [next, hfailed]⟩
  | true =>
    obtain ⟨member, hjudged⟩ := h.judged hunhealthy
    have hstored := hjudged.stored
    rw [hstored] at hfound
    have hheard' : ¬ (group.groupMode = .failover ∧
        (evaluate group host rules member w.began w.last).1.failedLongEnough = true ∧
        (resolveMemberAgentLiveness host w.began).available = true ∧
        (resolveMemberAgentLiveness host e.now).available = false ∧
        hostOnlineTtlMs < forwardGroupFailoverDelayMs group) := fun ⟨hmode, hfailed, hsilent⟩ =>
      hheard ⟨hmode, hjudged.failed.mpr hfailed, hsilent⟩
    obtain ⟨hstill, hlong⟩ := evaluate_later hjudged.unhealthy hlast hjudged.ordered hended hjudged.dated hfound hheard'
    rw [← hstored] at hstill hlong
    refine ⟨fun _ => by simp [next, hunhealthy], fun _ => ⟨w.member, hended, hdated, rfl, rfl, hstill, ?_⟩⟩
    simp only [next, Bool.or_eq_true, or_iff_right_iff_imp]
    exact fun hf => hlong (hjudged.failed.mp hf)

/-- **Verdicts are stable without news**: of evaluations between which nothing is recorded, the last one
judges the member unhealthy if any did, and failed long enough if any did. -/
theorem verdict_stable (group : Group) (host : GroupHealth.Host) (rules : List Rule) (member : Member) (began last : ℤ)
    (es : List Evaluation) (h : Admissible (Steady group host rules) (next group host rules) { member, began, last } es) :
    (run (next group host rules) { member, began, last } es).unhealthy = true →
      ∃ health, (run (next group host rules) { member, began, last } es).judged = some health ∧ Health.Unhealthy health ∧
        ((run (next group host rules) { member, began, last } es).failed = true → health.failedLongEnough = true) := by
  intro hunhealthy
  have hstart : Kept group host rules { member, began, last } := ⟨nofun, nofun⟩
  have hkept := run_invariant_of_admissible kept_next es _ h hstart
  obtain ⟨m, hjudged⟩ := hkept.judged hunhealthy
  exact ⟨_, hjudged.health, hjudged.unhealthy, hjudged.failed.mp⟩

/-- A host that was heard of in the minute before the runs below. -/
def sampleHost : GroupHealth.Host := { fastState := some { confirmedOffline := false, lastSeenAt := 1699999990000 } }

def sampleGroup : Group := { groupMode := .failover, updatedAt := 1699990000 }

def probedRules : List Rule := [{ latestTcping := some { recordedAt := 1699999900 } }]

def twoEvaluations : List Evaluation := [⟨1700000300000, 1700000300010⟩, ⟨1700000301000, 1700000301010⟩]

/-- The Agent's last probe of the one rule has expired. -/
theorem verdict_stable_expired :
    ∃ health, (run (next sampleGroup sampleHost probedRules) { member := { updatedAt := 1699990000 }, began := 0, last := 0 }
        twoEvaluations).judged = some health ∧ Health.Unhealthy health := by
  have hrun : Admissible (Steady sampleGroup sampleHost probedRules) (next sampleGroup sampleHost probedRules)
        { member := { updatedAt := 1699990000 }, began := 0, last := 0 } twoEvaluations ∧
      (run (next sampleGroup sampleHost probedRules) { member := { updatedAt := 1699990000 }, began := 0, last := 0 }
        twoEvaluations).unhealthy = true := by decide +kernel
  obtain ⟨health, hjudged, hunhealthy, -⟩ := verdict_stable sampleGroup sampleHost probedRules { updatedAt := 1699990000 }
    0 0 twoEvaluations hrun.1 hrun.2
  exact ⟨health, hjudged, hunhealthy⟩

/-- A member with one running rule that has never been probed. -/
def unprobed : Course := { member := { lastCheckedAt := some 1699999000, updatedAt := 1699990000 }, began := 0, last := 0 }

/-- It is unhealthy, and has failed long enough, when the probe has been missing for five minutes, and
a second later it is waited for again. -/
theorem missing_waited_for_again :
    (run (next sampleGroup sampleHost [{}]) unprobed (twoEvaluations.take 1)).unhealthy = true ∧
      (run (next sampleGroup sampleHost [{}]) unprobed (twoEvaluations.take 1)).failed = true ∧
      (run (next sampleGroup sampleHost [{}]) unprobed twoEvaluations).judged =
        some ⟨false, true, none, none, false, false, some 1700000600000⟩ := by
  decide +kernel

end ForwardX.Panel.HealthVerdicts
