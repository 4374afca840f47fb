/-
The scheduler of desired Xray states: `xrayDesiredApplyScheduler` of `agent/xray_desired.go`.

Requests replace a pending one, wait for the one that is being processed, or are answered at once.
The invariant puts what was processed, is current and is pending in one line in order of generation,
and accounts for every channel.
-/
import ForwardX.Agent.XrayTypes
import ForwardX.Lib.Chain
import ForwardX.Lib.Run
import Mathlib.Algebra.Order.Group.Int
import Mathlib.Data.List.Range

namespace ForwardX.Agent.XrayScheduler

open XrayTypes List
open Chain (getElem?_concat_iff getElem?_modify_iff countP_modify)
open Run (run run_invariant)

/-! ## The scheduler -/

def validateXrayDesiredPayload (tools : XrayTools) (desired : XrayDesiredState) : Bool :=
  desired.Validate tools && desired.targetVersion == xrayManagedVersion &&
    tools.hashXrayBytes desired.configJSON == desired.configHash

structure XrayDesiredApplyJob where
  desired : XrayDesiredState
  waiters : List ℕ

/-- A goroutine of `run`: before it reads `current`, in `process`, or returned. -/
inductive Runner where
  | reads
  | processes (job : ℕ)
  | returned
  deriving DecidableEq

/-- `jobs` are all that were made. A channel in `rejecting` is closed after the rejection. `accepted`,
`processed` and `closed` are kept for the statements only, in order of time. -/
structure XrayDesiredApplyScheduler where
  jobs : List XrayDesiredApplyJob := []
  current : Option ℕ := none
  pending : Option ℕ := none
  hasHighest : Bool := false
  highestGeneration : ℤ := 0
  highestConfigHash : String := ""
  channels : ℕ := 0
  rejecting : List ℕ := []
  runners : List Runner := []
  accepted : List XrayDesiredState := []
  processed : List XrayDesiredState := []
  closed : List ℕ := []

def sameXrayDesiredIdentity (left right : XrayDesiredState) : Bool :=
  left.schemaVersion == right.schemaVersion && left.generation == right.generation &&
    left.configHash == right.configHash

namespace XrayDesiredApplyScheduler

def job? (s : XrayDesiredApplyScheduler) (pointer : Option ℕ) : Option XrayDesiredApplyJob :=
  pointer.bind fun i => s.jobs[i]?

/-- `pointer != nil && sameXrayDesiredIdentity(pointer.desired, desired)`. -/
def isSame (s : XrayDesiredApplyScheduler) (pointer : Option ℕ) (desired : XrayDesiredState) : Bool :=
  (s.job? pointer).any fun job => sameXrayDesiredIdentity job.desired desired

def waiters (s : XrayDesiredApplyScheduler) (pointer : Option ℕ) : List ℕ :=
  ((s.job? pointer).map fun job => job.waiters).getD []

/-- `make(chan struct{})`. The new channel is the one with the number of those before. -/
def makeChannel (s : XrayDesiredApplyScheduler) : XrayDesiredApplyScheduler :=
  { s with channels := s.channels + 1 }

def closeXrayDesiredWaiters (s : XrayDesiredApplyScheduler) (waiters : List ℕ) : XrayDesiredApplyScheduler :=
  { s with closed := s.closed ++ waiters }

/-- `append(pointer.waiters, done)`. -/
def join (s : XrayDesiredApplyScheduler) (pointer : Option ℕ) (done : ℕ) : XrayDesiredApplyScheduler :=
  match pointer with
  | none => s
  | some i => { s with jobs := s.jobs.modify i fun job => { job with waiters := job.waiters ++ [done] } }

/-- What a request is refused for: an older generation, or the highest one with another hash. -/
def conflicts (s : XrayDesiredApplyScheduler) (desired : XrayDesiredState) : Bool :=
  s.hasHighest && (desired.generation < s.highestGeneration ||
    (desired.generation == s.highestGeneration && desired.configHash != s.highestConfigHash))

def raiseHighest (s : XrayDesiredApplyScheduler) (desired : XrayDesiredState) : XrayDesiredApplyScheduler :=
  if !s.hasHighest || s.highestGeneration < desired.generation then
    { s with
      hasHighest := true
      highestGeneration := desired.generation
      highestConfigHash := desired.configHash }
  else s

def accept (s : XrayDesiredApplyScheduler) (desired : XrayDesiredState) : XrayDesiredApplyScheduler :=
  { s with accepted := s.accepted ++ [desired] }

def enqueue (s : XrayDesiredApplyScheduler) (desired : XrayDesiredState) (done : ℕ) : XrayDesiredApplyScheduler :=
  let s := (s.raiseHighest desired).accept desired
  let s' : XrayDesiredApplyScheduler := { s with jobs := s.jobs ++ [⟨desired, [done]⟩] }
  let job := s.jobs.length
  match s.current, s.job? s.pending with
  | none, _ => { s' with current := some job, runners := s.runners ++ [.reads] }
  | some _, none => { s' with pending := some job }
  | some _, some pending =>
    if pending.desired.generation < desired.generation then
      { s'.closeXrayDesiredWaiters pending.waiters with pending := some job }
    else s.closeXrayDesiredWaiters [done]

/-- `Schedule`, up to the call of a rejection if there is one. -/
def Schedule (tools : XrayTools) (s : XrayDesiredApplyScheduler) (desired : XrayDesiredState) :
    XrayDesiredApplyScheduler :=
  let done := s.channels
  let s := s.makeChannel
  if validateXrayDesiredPayload tools desired = false then { s with rejecting := s.rejecting ++ [done] }
  else if s.isSame s.current desired then
    (s.join s.current done).accept desired
  else if s.isSame s.pending desired then
    (s.join s.pending done).accept desired
  else if s.conflicts desired then { s with rejecting := s.rejecting ++ [done] }
  else s.enqueue desired done

/-- The rejection has returned, and the caller closes the channel. -/
def rejected (s : XrayDesiredApplyScheduler) (done : ℕ) : XrayDesiredApplyScheduler :=
  if done ∈ s.rejecting then
    { s.closeXrayDesiredWaiters [done] with rejecting := s.rejecting.erase done }
  else s

/-- A goroutine of `run` at the head of its loop. -/
def reads (s : XrayDesiredApplyScheduler) (r : ℕ) : XrayDesiredApplyScheduler :=
  match s.current, s.job? s.current with
  | some i, some job =>
    { s with
      runners := s.runners.modify r fun _ => .processes i
      processed := s.processed ++ [job.desired] }
  | _, _ => { s with runners := s.runners.modify r fun _ => .returned }

/-- `process` has returned. -/
def finishes (s : XrayDesiredApplyScheduler) (r job : ℕ) : XrayDesiredApplyScheduler :=
  let s := s.closeXrayDesiredWaiters (s.waiters (some job))
  match s.pending with
  | none => { s with current := none, runners := s.runners.modify r fun _ => .returned }
  | some _ => { s with current := s.pending, pending := none, runners := s.runners.modify r fun _ => .reads }

/-- The next step of a goroutine of `run`. -/
def runs (s : XrayDesiredApplyScheduler) (r : ℕ) : XrayDesiredApplyScheduler :=
  match s.runners[r]? with
  | some .reads => s.reads r
  | some (.processes job) => s.finishes r job
  | _ => s

end XrayDesiredApplyScheduler

inductive Event where
  | schedule (desired : XrayDesiredState)
  | rejected (done : ℕ)
  | runs (r : ℕ)

def XrayDesiredApplyScheduler.step (tools : XrayTools) (s : XrayDesiredApplyScheduler) :
    Event → XrayDesiredApplyScheduler
  | .schedule desired => s.Schedule tools desired
  | .rejected done => s.rejected done
  | .runs r => s.runs r

/-! ## The order of the states -/

/-- `b` may be processed after `a`. -/
def Before (a b : XrayDesiredState) : Prop :=
  a.generation ≤ b.generation ∧ (a.generation = b.generation → a.configHash = b.configHash)

theorem Before.refl (a : XrayDesiredState) : Before a a := ⟨le_refl _, fun _ => rfl⟩

theorem Before.trans {a b c : XrayDesiredState} (hab : Before a b) (hbc : Before b c) : Before a c := by
  refine ⟨hab.1.trans hbc.1, fun heq => ?_⟩
  have hle := hab.1
  have hle' := hbc.1
  exact (hab.2 (by omega)).trans (hbc.2 (by omega))

theorem before_getLast {line : List XrayDesiredState} (h : line.Pairwise Before) {d top : XrayDesiredState}
    (hd : d ∈ line) (htop : line.getLast? = some top) : Before d top := by
  obtain ⟨front, rfl⟩ := getLast?_eq_some_iff.mp htop
  obtain hfront | hlast := mem_append.mp hd
  · exact (pairwise_append.mp h).2.2 d hfront top (mem_singleton.mpr rfl)
  · rw [mem_singleton.mp hlast]
    exact .refl _

theorem pairwise_concat {line : List XrayDesiredState} (h : line.Pairwise Before) {desired : XrayDesiredState}
    (hafter : ∀ d ∈ line, Before d desired) : (line ++ [desired]).Pairwise Before :=
  pairwise_append.mpr ⟨h, pairwise_singleton _ _, fun d hd e he => by
    rw [mem_singleton.mp he]
    exact hafter d hd⟩

/-! ## Pointers -/

section

variable {jobs : List XrayDesiredApplyJob} {pointer : Option ℕ}

theorem bind_concat (job : XrayDesiredApplyJob) (h : ∀ i, pointer = some i → i < jobs.length) :
    (pointer.bind fun i => (jobs ++ [job])[i]?) = pointer.bind fun i => jobs[i]? := by
  cases pointer with
  | none => rfl
  | some i => exact getElem?_append_left (h i rfl)

theorem bind_concat_last (job : XrayDesiredApplyJob) :
    ((some jobs.length).bind fun i => (jobs ++ [job])[i]?) = some job :=
  getElem?_concat_iff.mpr (.inr ⟨rfl, rfl⟩)

theorem bind_modify_other {i : ℕ} (f : XrayDesiredApplyJob → XrayDesiredApplyJob) (h : pointer ≠ some i) :
    (pointer.bind fun j => (jobs.modify i f)[j]?) = pointer.bind fun j => jobs[j]? := by
  cases pointer with
  | none => rfl
  | some j =>
    have hne : i ≠ j := fun heq => h (congrArg some heq.symm)
    show (jobs.modify i f)[j]? = jobs[j]?
    rw [getElem?_modify]
    simp only [if_neg hne]
    exact id_map _

theorem bind_modify_self (i : ℕ) (f : XrayDesiredApplyJob → XrayDesiredApplyJob) :
    ((some i).bind fun j => (jobs.modify i f)[j]?) = ((some i).bind fun j => jobs[j]?).map f := by
  show (jobs.modify i f)[i]? = jobs[i]?.map f
  rw [getElem?_modify]
  simp only [if_true]
  rfl

end

namespace XrayDesiredApplyScheduler

def desired? (s : XrayDesiredApplyScheduler) (pointer : Option ℕ) : Option XrayDesiredState :=
  (s.job? pointer).map fun job => job.desired

def queue (s : XrayDesiredApplyScheduler) : List XrayDesiredState :=
  (s.desired? s.current).toList ++ (s.desired? s.pending).toList

/-- What was processed, and then the jobs that are left. -/
def line (s : XrayDesiredApplyScheduler) : List XrayDesiredState := s.processed ++ s.queue

def waiting (s : XrayDesiredApplyScheduler) : List ℕ :=
  s.rejecting ++ s.waiters s.current ++ s.waiters s.pending

end XrayDesiredApplyScheduler

def Runner.live (r : Runner) : Bool := r != .returned

/-- The last of the line is the highest that was accepted. -/
structure Kept (s : XrayDesiredApplyScheduler) : Prop where
  currentValid : ∀ i, s.current = some i → i < s.jobs.length
  pendingValid : ∀ i, s.pending = some i → i < s.jobs.length
  distinct : ∀ i, s.pending = some i → s.current ≠ none ∧ s.current ≠ some i
  live : s.runners.countP Runner.live = if s.current = none then 0 else 1
  processing : ∀ (r job : ℕ), s.runners[r]? = some (.processes job) →
    s.current = some job ∧ s.processed.getLast? = s.desired? s.current
  order : s.line.Pairwise Before
  line : ∀ d ∈ s.line, d ∈ s.accepted ∧ d.schemaVersion = 1
  accepted : ∀ a ∈ s.accepted, ∃ top, s.line.getLast? = some top ∧ Before a top
  highest : if s.hasHighest then
      ∃ top, s.line.getLast? = some top ∧ top.generation = s.highestGeneration ∧
        top.configHash = s.highestConfigHash
    else s.line = []
  channels : (s.waiting ++ s.closed).Perm (List.range s.channels)

theorem kept_init : Kept {} where
  currentValid := fun _ h => by cases h
  pendingValid := fun _ h => by cases h
  distinct := fun _ h => by cases h
  live := rfl
  processing := fun _ _ h => by cases h
  order := .nil
  line := fun _ h => by cases h
  accepted := fun _ h => by cases h
  highest := rfl
  channels := .refl _

open XrayDesiredApplyScheduler

/-! ## What a request finds -/

section

variable {tools : XrayTools} {s : XrayDesiredApplyScheduler} {desired : XrayDesiredState}

theorem schemaVersion_of_validate (h : validateXrayDesiredPayload tools desired = true) :
    desired.schemaVersion = 1 := by
  unfold validateXrayDesiredPayload XrayDesiredState.Validate at h
  simp only [Bool.and_eq_true, beq_iff_eq] at h
  tauto

theorem before_of_same {left : XrayDesiredState} (h : sameXrayDesiredIdentity left desired = true) :
    Before desired left ∧ left.schemaVersion = desired.schemaVersion := by
  unfold sameXrayDesiredIdentity at h
  simp only [Bool.and_eq_true, beq_iff_eq] at h
  obtain ⟨⟨hversion, hgeneration⟩, hhash⟩ := h
  exact ⟨⟨hgeneration.symm.le, fun _ => hhash.symm⟩, hversion⟩

theorem Kept.before_of_not_conflicts (h : Kept s) (hok : s.conflicts desired = false) :
    ∀ d ∈ s.line, Before d desired := by
  intro d hd
  have hhighest := h.highest
  unfold conflicts at hok
  by_cases hhas : s.hasHighest = true
  · rw [if_pos hhas] at hhighest
    obtain ⟨top, htop, hgeneration, hhash⟩ := hhighest
    refine (before_getLast h.order hd htop).trans ?_
    simp only [hhas, Bool.true_and, Bool.or_eq_false_iff, decide_eq_false_iff_not, Bool.and_eq_false_iff,
      beq_eq_false_iff_ne, bne_eq_false_iff_eq] at hok
    refine ⟨by omega, fun heq => ?_⟩
    obtain hne | hsame := hok.2
    · exact absurd (heq.symm.trans hgeneration) hne
    · rw [hhash, hsame]
  · rw [if_neg hhas] at hhighest
    rw [hhighest] at hd
    cases hd

end

/-! ## A request keeps all this -/

section

variable {tools : XrayTools} {s : XrayDesiredApplyScheduler} {desired : XrayDesiredState}

theorem Kept.reject (h : Kept s) : Kept { s.makeChannel with rejecting := s.rejecting ++ [s.channels] } where
  currentValid := h.currentValid
  pendingValid := h.pendingValid
  distinct := h.distinct
  live := h.live
  processing := h.processing
  order := h.order
  line := h.line
  accepted := h.accepted
  highest := h.highest
  channels := by
    refine perm_iff_count.mpr fun a => ?_
    have hcount := perm_iff_count.mp h.channels a
    show List.count a (s.rejecting ++ [s.channels] ++ s.waiters s.current ++ s.waiters s.pending ++ s.closed) =
      List.count a (List.range (s.channels + 1))
    simp only [waiting, count_append, range_succ] at hcount ⊢
    omega

theorem Kept.joined (h : Kept s) (desired : XrayDesiredState) (jobs : List XrayDesiredApplyJob) (closed : List ℕ)
    {s' : XrayDesiredApplyScheduler} (hs' : s' = { s with
      jobs := jobs, closed := closed, channels := s.channels + 1, accepted := s.accepted ++ [desired] })
    (hlength : jobs.length = s.jobs.length) (hcurrent : s'.desired? s.current = s.desired? s.current)
    (hpending : s'.desired? s.pending = s.desired? s.pending) (hbefore : ∃ d ∈ s.line, Before desired d)
    (hchannels : ∀ a, (s'.waiters s.current).count a + (s'.waiters s.pending).count a + closed.count a =
      (s.waiters s.current).count a + (s.waiters s.pending).count a + s.closed.count a + [s.channels].count a) :
    Kept s' := by
  subst hs'
  have hline : XrayDesiredApplyScheduler.line { s with
      jobs := jobs, closed := closed, channels := s.channels + 1, accepted := s.accepted ++ [desired] } = s.line := by
    unfold XrayDesiredApplyScheduler.line queue
    dsimp only
    rw [hcurrent, hpending]
  refine ⟨?_, ?_, h.distinct, h.live, ?_, ?_, ?_, ?_, ?_, ?_⟩
  · dsimp only
    rw [hlength]
    exact h.currentValid
  · dsimp only
    rw [hlength]
    exact h.pendingValid
  · intro r job hr
    obtain ⟨hjob, hlast⟩ := h.processing r job hr
    exact ⟨hjob, hlast.trans hcurrent.symm⟩
  · rw [hline]
    exact h.order
  · rw [hline]
    exact fun d hd => ⟨mem_append_left _ (h.line d hd).1, (h.line d hd).2⟩
  · rw [hline]
    intro a ha
    obtain hold | hnew := mem_append.mp ha
    · exact h.accepted a hold
    · obtain ⟨d, hd, hbefore⟩ := hbefore
      obtain ⟨top, htop, hdtop⟩ := h.accepted d (h.line d hd).1
      rw [mem_singleton.mp hnew]
      exact ⟨top, htop, hbefore.trans hdtop⟩
  · rw [hline]
    exact h.highest
  · refine perm_iff_count.mpr fun a => ?_
    have hcount := perm_iff_count.mp h.channels a
    have hnew := hchannels a
    simp only [waiting, count_append, range_succ] at hcount hnew ⊢
    omega

theorem join_self {i : ℕ} (s : XrayDesiredApplyScheduler) (hi : i < s.jobs.length) (done : ℕ) :
    (s.join (some i) done).desired? (some i) = s.desired? (some i) ∧
      (s.join (some i) done).waiters (some i) = s.waiters (some i) ++ [done] := by
  unfold desired? waiters job?
    join
  dsimp only
  rw [bind_modify_self]
  have hjob : ((some i).bind fun j => s.jobs[j]?) = some s.jobs[i] := getElem?_eq_getElem hi
  rw [hjob]
  exact ⟨rfl, rfl⟩

variable {pointer : Option ℕ}

theorem join_other {i : ℕ} (s : XrayDesiredApplyScheduler) (h : pointer ≠ some i) (done : ℕ) :
    (s.join (some i) done).desired? pointer = s.desired? pointer ∧
      (s.join (some i) done).waiters pointer = s.waiters pointer := by
  unfold desired? waiters job?
    join
  dsimp only
  rw [bind_modify_other _ h]
  exact ⟨rfl, rfl⟩

theorem before_of_isSame (hsame : s.isSame pointer desired = true)
    (hpointer : pointer = s.current ∨ pointer = s.pending) :
    (∃ i, pointer = some i) ∧ ∃ d ∈ s.line, Before desired d := by
  unfold isSame at hsame
  obtain ⟨job, hjob, hidentity⟩ := (Option.any_eq_true _ _).mp hsame
  constructor
  · cases pointer with
    | none => cases hjob
    | some i => exact ⟨i, rfl⟩
  · refine ⟨job.desired, ?_, (before_of_same hidentity).1⟩
    have hdesired : s.desired? pointer = some job.desired := by
      rw [desired?, hjob, Option.map_some]
    refine mem_append_right _ (mem_append.mpr ?_)
    obtain rfl | rfl := hpointer
    · exact .inl (Option.mem_toList.mpr hdesired)
    · exact .inr (Option.mem_toList.mpr hdesired)

theorem count_joined {a x : ℕ} {new old other other' closed : List ℕ} (hnew : new = old ++ [x]) (hother : other' = other) :
    new.count a + other'.count a + closed.count a = old.count a + other.count a + closed.count a + [x].count a := by
  rw [hnew, hother, count_append]
  omega

theorem Kept.joinCurrent (h : Kept s) (hsame : s.isSame s.current desired = true) :
    Kept ((s.makeChannel.join s.current s.channels).accept desired) := by
  obtain ⟨⟨i, hi⟩, hbefore⟩ := before_of_isSame hsame (.inl rfl)
  have hother : s.pending ≠ some i := fun hp => (h.distinct i hp).2 hi
  obtain ⟨hself, hwaiters⟩ := join_self s.makeChannel (h.currentValid i hi) s.channels
  obtain ⟨hpending, hpendingWaiters⟩ := join_other s.makeChannel hother s.channels
  rw [hi]
  refine h.joined _ _ _ rfl (length_modify _ _ _) ?_ hpending hbefore fun a => ?_
  · rw [hi]
    exact hself
  · rw [hi]
    exact count_joined hwaiters hpendingWaiters

theorem Kept.joinPending (h : Kept s) (hsame : s.isSame s.pending desired = true) :
    Kept ((s.makeChannel.join s.pending s.channels).accept desired) := by
  obtain ⟨⟨i, hi⟩, hbefore⟩ := before_of_isSame hsame (.inr rfl)
  have hother : s.current ≠ some i := (h.distinct i hi).2
  obtain ⟨hself, hwaiters⟩ := join_self s.makeChannel (h.pendingValid i hi) s.channels
  obtain ⟨hcurrent, hcurrentWaiters⟩ := join_other s.makeChannel hother s.channels
  rw [hi]
  refine h.joined _ _ _ rfl (length_modify _ _ _) hcurrent ?_ hbefore fun a => ?_
  · rw [hi]
    exact hself
  · rw [hi, Nat.add_comm (List.count a _), Nat.add_comm (List.count a (s.waiters s.current))]
    exact count_joined hwaiters hcurrentWaiters

theorem raiseHighest_eq (hok : s.conflicts desired = false) :
    s.raiseHighest desired = { s with
      hasHighest := true
      highestGeneration := desired.generation
      highestConfigHash := desired.configHash } := by
  unfold raiseHighest
  split
  · rfl
  · rename_i hhigh
    unfold conflicts at hok
    simp only [Bool.or_eq_true, Bool.not_eq_true', decide_eq_true_eq, not_or, Bool.not_eq_false, not_lt] at hhigh
    obtain ⟨hhas, hle⟩ := hhigh
    simp only [hhas, Bool.true_and, Bool.or_eq_false_iff, decide_eq_false_iff_not, Bool.and_eq_false_iff,
      beq_eq_false_iff_ne, bne_eq_false_iff_eq] at hok
    have hgeneration : desired.generation = s.highestGeneration := by omega
    obtain hne | hhash := hok.2
    · exact absurd hgeneration hne
    · rw [hgeneration, hhash, ← hhas]

theorem Kept.line_concat (h : Kept s) (hversion : desired.schemaVersion = 1) (hok : s.conflicts desired = false)
    {line : List XrayDesiredState} (hsub : line.Sublist (s.line ++ [desired])) (hlast : line.getLast? = some desired) :
    line.Pairwise Before ∧
      (∀ d ∈ line, d ∈ s.accepted ++ [desired] ∧ d.schemaVersion = 1) ∧
      (∀ a ∈ s.accepted ++ [desired], ∃ top, line.getLast? = some top ∧ Before a top) ∧
      ∃ top, line.getLast? = some top ∧ top.generation = desired.generation ∧
        top.configHash = desired.configHash := by
  have hbefore := h.before_of_not_conflicts hok
  refine ⟨(pairwise_concat h.order hbefore).sublist hsub, fun d hd => ?_, fun a ha => ?_, desired, hlast, rfl, rfl⟩
  · obtain hold | hnew := mem_append.mp (hsub.subset hd)
    · exact ⟨mem_append_left _ (h.line d hold).1, (h.line d hold).2⟩
    · rw [mem_singleton.mp hnew]
      exact ⟨mem_append_right _ (mem_singleton.mpr rfl), hversion⟩
  · refine ⟨desired, hlast, ?_⟩
    obtain hold | hnew := mem_append.mp ha
    · obtain ⟨top, htop, hatop⟩ := h.accepted a hold
      exact hatop.trans (hbefore top (mem_of_getLast? htop))
    · rw [mem_singleton.mp hnew]
      exact .refl _

/-- What is behind a pointer once the new job is in the list. -/
def desiredAfter (s : XrayDesiredApplyScheduler) (desired : XrayDesiredState) (pointer : Option ℕ) :
    Option XrayDesiredState :=
  if pointer = some s.jobs.length then some desired else s.desired? pointer

def waitersAfter (s : XrayDesiredApplyScheduler) (pointer : Option ℕ) : List ℕ :=
  if pointer = some s.jobs.length then [s.channels] else s.waiters pointer

theorem desired_concat {s' : XrayDesiredApplyScheduler}
    (hjobs : s'.jobs = s.jobs ++ [XrayDesiredApplyJob.mk desired [s.channels]])
    (hvalid : pointer = some s.jobs.length ∨ ∀ i, pointer = some i → i < s.jobs.length) :
    s'.desired? pointer = desiredAfter s desired pointer ∧ s'.waiters pointer = waitersAfter s pointer := by
  unfold desiredAfter waitersAfter desired? waiters
    job?
  rw [hjobs]
  by_cases hnew : pointer = some s.jobs.length
  · rw [if_pos hnew, if_pos hnew, hnew, bind_concat_last]
    exact ⟨rfl, rfl⟩
  · obtain hnew' | hold := hvalid
    · exact absurd hnew' hnew
    · rw [if_neg hnew, if_neg hnew, bind_concat _ hold]
      exact ⟨rfl, rfl⟩

theorem line_eq (s : XrayDesiredApplyScheduler) :
    s.line = s.processed ++ ((s.desired? s.current).toList ++ (s.desired? s.pending).toList) := rfl

theorem Kept.appended (h : Kept s) (hversion : desired.schemaVersion = 1) (hok : s.conflicts desired = false)
    (current pending : Option ℕ) (runners : List Runner) (closed : List ℕ)
    (hcurrent : current = some s.jobs.length ∨ current = s.current)
    (hpending : pending = some s.jobs.length ∨ pending = s.pending)
    (hdistinct : ∀ i, pending = some i → current ≠ none ∧ current ≠ some i)
    (hlive : runners.countP Runner.live = if current = none then 0 else 1)
    (hprocessing : ∀ (r job : ℕ), runners[r]? = some (.processes job) →
      current = some job ∧ s.processed.getLast? = desiredAfter s desired current)
    (hsub : (s.processed ++ ((desiredAfter s desired current).toList ++ (desiredAfter s desired pending).toList)).Sublist
      (s.line ++ [desired]))
    (hlast : (s.processed ++ ((desiredAfter s desired current).toList ++
      (desiredAfter s desired pending).toList)).getLast? = some desired)
    (hchannels : ∀ a, (waitersAfter s current).count a + (waitersAfter s pending).count a + closed.count a =
      (s.waiters s.current).count a + (s.waiters s.pending).count a + s.closed.count a + [s.channels].count a) :
    Kept { s with
      jobs := s.jobs ++ [XrayDesiredApplyJob.mk desired [s.channels]], current := current, pending := pending
      hasHighest := true, highestGeneration := desired.generation, highestConfigHash := desired.configHash
      channels := s.channels + 1, runners := runners, accepted := s.accepted ++ [desired], closed := closed } := by
  obtain ⟨horder, hline, haccepted, hhighest⟩ := h.line_concat hversion hok hsub hlast
  have hlength : (s.jobs ++ [XrayDesiredApplyJob.mk desired [s.channels]]).length = s.jobs.length + 1 := by
    rw [length_append, length_singleton]
  have hvalidCurrent : current = some s.jobs.length ∨ ∀ i, current = some i → i < s.jobs.length :=
    hcurrent.imp id fun hold i hi => h.currentValid i (hold.symm.trans hi)
  have hvalidPending : pending = some s.jobs.length ∨ ∀ i, pending = some i → i < s.jobs.length :=
    hpending.imp id fun hold i hi => h.pendingValid i (hold.symm.trans hi)
  have hvalid : ∀ pointer : Option ℕ, (pointer = some s.jobs.length ∨ ∀ i, pointer = some i → i < s.jobs.length) →
      ∀ i, pointer = some i → i < (s.jobs ++ [XrayDesiredApplyJob.mk desired [s.channels]]).length := by
    intro pointer hpointer i hi
    rw [hlength]
    obtain hnew | hold := hpointer
    · rw [Option.some.inj (hi.symm.trans hnew)]
      exact Nat.lt_succ_self _
    · exact Nat.lt_succ_of_lt (hold i hi)
  generalize hs' : ({ s with
      jobs := s.jobs ++ [XrayDesiredApplyJob.mk desired [s.channels]], current := current, pending := pending
      hasHighest := true, highestGeneration := desired.generation, highestConfigHash := desired.configHash
      channels := s.channels + 1, runners := runners, accepted := s.accepted ++ [desired],
      closed := closed } : XrayDesiredApplyScheduler) = s'
  have hjobs : s'.jobs = s.jobs ++ [XrayDesiredApplyJob.mk desired [s.channels]] := by
    rw [← hs']
  obtain ⟨hdesiredCurrent, hwaitersCurrent⟩ :=
    desired_concat hjobs hvalidCurrent
  obtain ⟨hdesiredPending, hwaitersPending⟩ :=
    desired_concat hjobs hvalidPending
  have hlineNew : s'.line = s.processed ++ ((desiredAfter s desired current).toList ++
      (desiredAfter s desired pending).toList) := by
    rw [← hdesiredCurrent, ← hdesiredPending, ← hs']
    rfl
  rw [← hlineNew] at horder hline haccepted hhighest
  rw [← hdesiredCurrent] at hprocessing
  subst hs'
  refine ⟨hvalid current hvalidCurrent, hvalid pending hvalidPending, hdistinct, hlive, hprocessing, horder, hline,
    haccepted, hhighest, perm_iff_count.mpr fun a => ?_⟩
  have hcount := perm_iff_count.mp h.channels a
  have hnew := hchannels a
  rw [← hwaitersCurrent, ← hwaitersPending] at hnew
  simp only [waiting, count_append, range_succ] at hcount hnew ⊢
  omega

theorem desiredAfter_old (desired : XrayDesiredState) (h : ∀ i, pointer = some i → i < s.jobs.length) :
    desiredAfter s desired pointer = s.desired? pointer ∧ waitersAfter s pointer = s.waiters pointer := by
  have hne : pointer ≠ some s.jobs.length := fun hnew => Nat.lt_irrefl _ (h _ hnew)
  exact ⟨if_neg hne, if_neg hne⟩

theorem desiredAfter_new (s : XrayDesiredApplyScheduler) (desired : XrayDesiredState) :
    desiredAfter s desired (some s.jobs.length) = some desired ∧
    waitersAfter s (some s.jobs.length) = [s.channels] :=
  ⟨if_pos rfl, if_pos rfl⟩

theorem job_of_valid {i : ℕ} (hi : pointer = some i) (hvalid : i < s.jobs.length) :
    ∃ job, s.job? pointer = some job ∧ s.desired? pointer = some job.desired ∧ s.waiters pointer = job.waiters := by
  have hjob : s.job? pointer = some s.jobs[i] := by
    rw [hi]
    exact getElem?_eq_getElem hvalid
  refine ⟨_, hjob, ?_, ?_⟩
  · rw [desired?, hjob, Option.map_some]
  · rw [waiters, hjob, Option.map_some, Option.getD_some]

theorem desired_none (s : XrayDesiredApplyScheduler) : s.desired? none = none ∧ s.waiters none = [] := ⟨rfl, rfl⟩

theorem Kept.enqueue (h : Kept s) (hversion : desired.schemaVersion = 1) (hok : s.conflicts desired = false) :
    Kept (s.makeChannel.enqueue desired s.channels) := by
  unfold XrayDesiredApplyScheduler.enqueue
  rw [raiseHighest_eq (s := s.makeChannel) hok]
  dsimp only [accept, makeChannel]
  obtain ⟨hnewDesired, hnewWaiters⟩ := desiredAfter_new s desired
  obtain ⟨hcurrentDesired, hcurrentWaiters⟩ := desiredAfter_old desired h.currentValid
  obtain ⟨hpendingDesired, hpendingWaiters⟩ := desiredAfter_old desired h.pendingValid
  cases hcurrent : s.current with
  | none =>
    have hpending : s.pending = none := by
      cases hp : s.pending with
      | none => rfl
      | some p => exact absurd hcurrent (h.distinct p hp).1
    have hline : s.line = s.processed := by
      rw [line_eq, hcurrent, hpending]
      exact append_nil _
    refine h.appended hversion hok (some s.jobs.length) s.pending
      (s.runners ++ [.reads]) s.closed (.inl rfl) (.inr rfl) ?_ ?_ ?_ ?_ ?_ ?_
    · rw [hpending]
      exact fun i hi => by cases hi
    · have hlive := h.live
      rw [if_pos hcurrent] at hlive
      rw [countP_append, hlive, if_neg (Option.some_ne_none _)]
      rfl
    · intro r job hr
      obtain hold | ⟨-, hnew⟩ := getElem?_concat_iff.mp hr
      · exact absurd ((h.processing r job hold).1.symm.trans hcurrent) (Option.some_ne_none _)
      · cases hnew
    · rw [hnewDesired, hpendingDesired, hpending, hline]
      exact List.Sublist.refl _
    · rw [hnewDesired, hpendingDesired, hpending]
      exact getLast?_concat
    · intro a
      rw [hnewWaiters, hpendingWaiters, hcurrent, hpending, (desired_none s).2]
      simp only [count_nil]
      omega
  | some i =>
    obtain ⟨job, -, hjobDesired, -⟩ := job_of_valid hcurrent (h.currentValid i hcurrent)
    have hlive := h.live
    have hsame : ∀ (r j : ℕ), s.runners[r]? = some (.processes j) →
        s.current = some j ∧ s.processed.getLast? = desiredAfter s desired s.current := by
      rw [hcurrentDesired]
      exact h.processing
    have hfresh : ∀ j, some s.jobs.length = some j → s.current ≠ none ∧ s.current ≠ some j := by
      intro j hj
      refine ⟨by rw [hcurrent]; exact Option.some_ne_none i, fun hc => ?_⟩
      have hlt := h.currentValid j hc
      have heq := Option.some.inj hj
      omega
    have hkeep := fun closed => h.appended hversion hok s.current (some s.jobs.length)
      s.runners closed (.inr rfl) (.inl rfl) hfresh hlive hsame
    rw [hcurrentDesired, hnewDesired, hcurrentWaiters, hnewWaiters, hjobDesired] at hkeep
    have hlast : (s.processed ++ ((some job.desired).toList ++ (some desired).toList)).getLast? = some desired := by
      rw [← append_assoc]
      exact getLast?_concat
    cases hpending : s.pending with
    | none =>
      have hkeep := hkeep s.closed ?_ hlast ?_
      · rw [hcurrent] at hkeep
        exact hkeep
      · rw [line_eq, hjobDesired, hpending, (desired_none s).1, append_assoc]
        exact List.Sublist.refl _
      · intro a
        rw [hpending, (desired_none s).2]
        simp only [count_nil]
        omega
    | some p =>
      obtain ⟨pending, hpendingJob, hpendingDesired, hpendingWaiters⟩ :=
        job_of_valid hpending (h.pendingValid p hpending)
      have hfound : s.jobs[p]? = some pending := by
        rw [hpending] at hpendingJob
        exact hpendingJob
      dsimp only [job?, Option.bind_some]
      rw [hfound]
      dsimp only
      by_cases hnewer : pending.desired.generation < desired.generation
      · rw [if_pos hnewer]
        have hkeep := hkeep (s.closed ++ pending.waiters) ?_ hlast ?_
        · rw [hcurrent] at hkeep
          exact hkeep
        · rw [line_eq, hjobDesired, hpendingDesired, append_assoc, append_assoc]
          refine (List.Sublist.refl _).append ((List.Sublist.refl _).append ?_)
          exact sublist_append_right _ _
        · intro a
          rw [hpendingWaiters, count_append]
          omega
      · rw [if_neg hnewer]
        have hpendingLast : s.line.getLast? = some pending.desired := by
          rw [line_eq, hpendingDesired, ← append_assoc]
          exact getLast?_concat
        have hbefore := h.before_of_not_conflicts hok pending.desired (mem_of_getLast? hpendingLast)
        have hafter : Before desired pending.desired :=
          ⟨not_lt.mp hnewer, fun heq => (hbefore.2 heq.symm).symm⟩
        obtain ⟨hhas, hgeneration, hhash⟩ : s.hasHighest = true ∧ s.highestGeneration = desired.generation ∧
            s.highestConfigHash = desired.configHash := by
          have hhighest := h.highest
          by_cases hhas : s.hasHighest = true
          · rw [if_pos hhas] at hhighest
            obtain ⟨top, htop, hgeneration, hhash⟩ := hhighest
            obtain rfl := Option.some.inj (htop.symm.trans hpendingLast)
            have heq : pending.desired.generation = desired.generation := le_antisymm hbefore.1 hafter.1
            exact ⟨hhas, hgeneration.symm.trans heq, hhash.symm.trans (hbefore.2 heq)⟩
          · rw [if_neg hhas] at hhighest
            rw [hhighest] at hpendingLast
            cases hpendingLast
        have hkeep := h.joined desired s.jobs (s.closed ++ [s.channels]) rfl rfl rfl
          rfl ⟨pending.desired, mem_of_getLast? hpendingLast, hafter⟩ fun a => by
            rw [count_append]
            exact (Nat.add_assoc _ _ _).symm
        rw [hhas, hgeneration, hhash, hcurrent, hpending] at hkeep
        exact hkeep

theorem Kept.Schedule (h : Kept s) (desired : XrayDesiredState) : Kept (s.Schedule tools desired) := by
  unfold XrayDesiredApplyScheduler.Schedule
  dsimp only
  split
  · exact h.reject
  · rename_i hvalid
    split
    · rename_i hcurrent
      exact h.joinCurrent hcurrent
    · split
      · rename_i hpending
        exact h.joinPending hpending
      · split
        · exact h.reject
        · rename_i hok
          exact h.enqueue (schemaVersion_of_validate (Bool.eq_true_of_not_eq_false hvalid)) (Bool.eq_false_iff.mpr hok)

end

/-! ## So do the steps of a goroutine -/

section

variable {s : XrayDesiredApplyScheduler}

theorem Kept.rejected (h : Kept s) (done : ℕ) : Kept (s.rejected done) := by
  unfold XrayDesiredApplyScheduler.rejected
  split
  · rename_i hmem
    refine ⟨h.currentValid, h.pendingValid, h.distinct, h.live, h.processing, h.order, h.line, h.accepted,
      h.highest, (perm_iff_count.mpr fun a => ?_).trans h.channels⟩
    have hcount := count_erase (a := a) (b := done) (l := s.rejecting)
    have hpos : a = done → 0 < s.rejecting.count a := fun heq => count_pos_iff.mpr (heq ▸ hmem)
    show List.count a (s.rejecting.erase done ++ s.waiters s.current ++ s.waiters s.pending ++
      (s.closed ++ [done])) = List.count a (s.rejecting ++ s.waiters s.current ++ s.waiters s.pending ++ s.closed)
    simp only [count_append, count_singleton]
    rw [hcount]
    by_cases heq : a = done
    · have hone := hpos heq
      simp only [heq, beq_self_eq_true, if_true] at hone ⊢
      omega
    · have hne : done ≠ a := fun hda => heq hda.symm
      simp only [beq_iff_eq, hne, if_false]
      omega
  · exact h

theorem Kept.only (h : Kept s) {r : ℕ} {a : Runner} (hr : s.runners[r]? = some a) (ha : a.live = true) :
    s.current ≠ none ∧ ((s.runners.modify r fun _ => .returned).countP Runner.live = 0) := by
  have hcount := countP_modify Runner.live (f := fun _ => .returned) hr
  have hlive := h.live
  rw [if_pos ha, show Runner.live .returned = false from rfl, if_neg Bool.false_ne_true] at hcount
  by_cases hcurrent : s.current = none
  · rw [if_pos hcurrent] at hlive
    omega
  · rw [if_neg hcurrent] at hlive
    exact ⟨hcurrent, by omega⟩

theorem not_live_of_countP {runners : List Runner} (h : runners.countP Runner.live = 0) {r job : ℕ} :
    runners[r]? ≠ some (.processes job) := fun hr =>
  absurd rfl (countP_eq_zero.mp h _ (mem_of_getElem? hr))

section

variable (h : Kept s) {r : ℕ} {a b : Runner} (hr : s.runners[r]? = some a) (ha : a.live = true)

include h hr ha

theorem Kept.alone {r' job : ℕ} (hr' : (s.runners.modify r fun _ => b)[r']? = some (.processes job)) :
    b = .processes job := by
  obtain ⟨old, hold, heq⟩ := getElem?_modify_iff.mp hr'
  by_cases hrr : r' = r
  · rw [if_pos hrr] at heq
    exact heq.symm
  · rw [if_neg hrr] at heq
    have hother : (s.runners.modify r fun _ => .returned)[r']? = some (.processes job) :=
      getElem?_modify_iff.mpr ⟨old, hold, by rw [if_neg hrr, heq]⟩
    exact absurd hother (not_live_of_countP (h.only hr ha).2)

theorem Kept.live_modify :
    (s.runners.modify r fun _ => b).countP Runner.live = if b = .returned then 0 else 1 := by
  have hcount := countP_modify Runner.live (f := fun _ => b) hr
  have hlive := h.live
  rw [if_neg (h.only hr ha).1] at hlive
  rw [if_pos ha, hlive] at hcount
  by_cases hb : b = .returned
  · rw [hb, if_pos rfl]
    rw [hb, show Runner.live .returned = false from rfl, if_neg Bool.false_ne_true] at hcount
    omega
  · have hlive' : b.live = true := bne_iff_ne.mpr hb
    rw [if_pos hlive'] at hcount
    rw [if_neg hb]
    omega

end

theorem Kept.line_facts (h : Kept s) {line : List XrayDesiredState} (hsub : line ⊆ s.line)
    (hlast : line.getLast? = s.line.getLast?) :
    (∀ d ∈ line, d ∈ s.accepted ∧ d.schemaVersion = 1) ∧
      (∀ a ∈ s.accepted, ∃ top, line.getLast? = some top ∧ Before a top) ∧
      if s.hasHighest then
        ∃ top, line.getLast? = some top ∧ top.generation = s.highestGeneration ∧
          top.configHash = s.highestConfigHash
      else line = [] := by
  rw [hlast]
  refine ⟨fun d hd => h.line d (hsub hd), h.accepted, ?_⟩
  have hhighest := h.highest
  by_cases hhas : s.hasHighest = true
  · rw [if_pos hhas] at hhighest ⊢
    exact hhighest
  · rw [if_neg hhas] at hhighest ⊢
    rw [hhighest] at hlast
    exact getLast?_eq_none_iff.mp hlast

theorem pairwise_again {before after : List XrayDesiredState} {d : XrayDesiredState}
    (h : (before ++ d :: after).Pairwise Before) : (before ++ [d] ++ d :: after).Pairwise Before := by
  rw [append_assoc]
  obtain ⟨hbefore, hafter, hcross⟩ := pairwise_append.mp h
  refine pairwise_append.mpr ⟨hbefore, ?_, fun a ha b hb => ?_⟩
  · refine pairwise_cons.mpr ⟨fun b hb => ?_, hafter⟩
    obtain rfl | hrest := mem_cons.mp hb
    · exact .refl _
    · exact rel_of_pairwise_cons hafter hrest
  · obtain rfl | hrest := mem_cons.mp hb
    · exact hcross a ha b mem_cons_self
    · exact hcross a ha b hrest

theorem Kept.reads (h : Kept s) {r : ℕ} (hr : s.runners[r]? = some .reads) : Kept (s.reads r) := by
  obtain ⟨i, hi⟩ := Option.ne_none_iff_exists'.mp (h.only hr rfl).1
  obtain ⟨job, hjob, hdesired, -⟩ := job_of_valid hi (h.currentValid i hi)
  have hstep : s.reads r = { s with
      runners := s.runners.modify r fun _ => .processes i
      processed := s.processed ++ [job.desired] } := by
    unfold XrayDesiredApplyScheduler.reads
    rw [hjob, hi]
  have hline : s.line = s.processed ++ (job.desired :: (s.desired? s.pending).toList) := by
    rw [line_eq, hdesired]
    rfl
  have hnew : (s.reads r).line = s.processed ++ [job.desired] ++ (job.desired :: (s.desired? s.pending).toList) := by
    rw [hstep]
    show s.processed ++ [job.desired] ++ ((s.desired? s.current).toList ++ (s.desired? s.pending).toList) = _
    rw [hdesired]
    rfl
  have hsub : (s.reads r).line ⊆ s.line := by
    rw [hline, hnew]
    intro d hd
    simp only [mem_append, mem_cons] at hd ⊢
    tauto
  have hlast : (s.reads r).line.getLast? = s.line.getLast? := by
    rw [hline, hnew, getLast?_append_cons, getLast?_append_cons]
  have horder : (s.reads r).line.Pairwise Before := by
    rw [hnew]
    exact pairwise_again (hline ▸ h.order)
  obtain ⟨hlineFacts, haccepted, hhighest⟩ := h.line_facts hsub hlast
  rw [hstep] at horder hlineFacts haccepted hhighest ⊢
  refine ⟨h.currentValid, h.pendingValid, h.distinct, ?_, ?_, horder, hlineFacts, haccepted, hhighest, h.channels⟩
  · show List.countP _ (s.runners.modify r fun _ => .processes i) = if s.current = none then 0 else 1
    rw [h.live_modify hr rfl, if_neg Runner.noConfusion, if_neg (h.only hr rfl).1]
  · intro r' job' hr'
    obtain rfl := Runner.processes.inj (h.alone hr rfl hr')
    refine ⟨hi, ?_⟩
    show (s.processed ++ [job.desired]).getLast? = s.desired? s.current
    rw [hdesired]
    exact getLast?_concat

theorem Kept.finishes (h : Kept s) {r i : ℕ} (hr : s.runners[r]? = some (.processes i)) :
    Kept (s.finishes r i) := by
  obtain ⟨hi, hprocessed⟩ := h.processing r i hr
  obtain ⟨job, hjob, hdesired, -⟩ := job_of_valid hi (h.currentValid i hi)
  rw [hdesired] at hprocessed
  cases hpending : s.pending with
  | none =>
    have hstep : s.finishes r i = { s with
        closed := s.closed ++ s.waiters s.current
        current := none
        runners := s.runners.modify r fun _ => .returned } := by
      unfold XrayDesiredApplyScheduler.finishes closeXrayDesiredWaiters
      dsimp only
      rw [hpending, hi]
    have hline : s.line = s.processed ++ [job.desired] := by
      rw [line_eq, hdesired, hpending]
      rfl
    have hnew : (s.finishes r i).line = s.processed := by
      rw [hstep, line_eq]
      show s.processed ++ ([] ++ (s.desired? s.pending).toList) = s.processed
      rw [hpending]
      exact append_nil _
    have hlast : (s.finishes r i).line.getLast? = s.line.getLast? := by
      rw [hnew, hline, hprocessed]
      exact getLast?_concat.symm
    have hsub : (s.finishes r i).line.Sublist s.line := by
      rw [hnew, hline]
      exact sublist_append_left _ _
    have horder := h.order.sublist hsub
    obtain ⟨hlineFacts, haccepted, hhighest⟩ := h.line_facts hsub.subset hlast
    rw [hstep] at horder hlineFacts haccepted hhighest ⊢
    refine ⟨fun _ hj => (by cases hj), h.pendingValid, fun j hj => ?_, h.live_modify hr rfl, fun r' job' hr' => ?_,
      horder, hlineFacts, haccepted, hhighest, (perm_iff_count.mpr fun a => ?_).trans h.channels⟩
    · cases hpending.symm.trans hj
    · cases h.alone hr rfl hr'
    · show List.count a (s.rejecting ++ [] ++ s.waiters s.pending ++ (s.closed ++ s.waiters s.current)) =
        List.count a (s.rejecting ++ s.waiters s.current ++ s.waiters s.pending ++ s.closed)
      simp only [count_append, count_nil]
      omega
  | some p =>
    obtain ⟨pending, -, hpendingDesired, -⟩ := job_of_valid hpending (h.pendingValid p hpending)
    have hstep : s.finishes r i = { s with
        closed := s.closed ++ s.waiters s.current
        current := s.pending
        pending := none
        runners := s.runners.modify r fun _ => .reads } := by
      unfold XrayDesiredApplyScheduler.finishes closeXrayDesiredWaiters
      dsimp only
      rw [hpending, hi]
    have hline : s.line = s.processed ++ [job.desired] ++ [pending.desired] := by
      rw [line_eq, hdesired, hpendingDesired, append_assoc]
      rfl
    have hnew : (s.finishes r i).line = s.processed ++ [pending.desired] := by
      rw [hstep, line_eq]
      show s.processed ++ ((s.desired? s.pending).toList ++ []) = _
      rw [hpendingDesired]
      rfl
    have hlast : (s.finishes r i).line.getLast? = s.line.getLast? := by
      rw [hnew, hline, getLast?_concat, getLast?_concat]
    have hsub : (s.finishes r i).line.Sublist s.line := by
      rw [hnew, hline]
      exact (sublist_append_left _ _).append (List.Sublist.refl _)
    have horder := h.order.sublist hsub
    obtain ⟨hlineFacts, haccepted, hhighest⟩ := h.line_facts hsub.subset hlast
    rw [hstep] at horder hlineFacts haccepted hhighest ⊢
    refine ⟨h.pendingValid, fun _ hj => (by cases hj), fun _ hj => (by cases hj), ?_, fun r' job' hr' => ?_, horder,
      hlineFacts, haccepted, hhighest, (perm_iff_count.mpr fun a => ?_).trans h.channels⟩
    · show List.countP _ (s.runners.modify r fun _ => .reads) = if s.pending = none then 0 else 1
      rw [h.live_modify hr rfl, hpending]
      rfl
    · cases h.alone hr rfl hr'
    · show List.count a (s.rejecting ++ s.waiters s.pending ++ [] ++ (s.closed ++ s.waiters s.current)) =
        List.count a (s.rejecting ++ s.waiters s.current ++ s.waiters s.pending ++ s.closed)
      simp only [count_append, count_nil]
      omega

theorem Kept.runs (h : Kept s) (r : ℕ) : Kept (s.runs r) := by
  unfold XrayDesiredApplyScheduler.runs
  split
  · rename_i hr
    exact h.reads hr
  · rename_i job hr
    exact h.finishes hr
  · exact h

theorem Kept.step (h : Kept s) (tools : XrayTools) (e : Event) : Kept (s.step tools e) := by
  cases e with
  | schedule desired => exact h.Schedule desired
  | rejected done => exact h.rejected done
  | runs r => exact h.runs r

end

/-! ## Every job gets done -/

section

variable {tools : XrayTools} {s : XrayDesiredApplyScheduler}

theorem Kept.runner (h : Kept s) (hcurrent : s.current ≠ none) :
    ∃ r : ℕ, s.runners[r]? = some .reads ∨ ∃ job, s.runners[r]? = some (.processes job) := by
  have hlive := h.live
  rw [if_neg hcurrent] at hlive
  obtain ⟨a, hmem, ha⟩ := countP_pos_iff.mp (by omega : 0 < s.runners.countP Runner.live)
  obtain ⟨r, hr⟩ := mem_iff_getElem?.mp hmem
  refine ⟨r, ?_⟩
  cases a with
  | reads => exact .inl hr
  | processes job => exact .inr ⟨job, hr⟩
  | returned => cases ha

def XrayDesiredApplyScheduler.left (s : XrayDesiredApplyScheduler) : ℕ :=
  (if s.current = none then 0 else 1) + if s.pending = none then 0 else 1

theorem left_finishes {r i : ℕ} (h : Kept s) (hr : s.runners[r]? = some (.processes i)) :
    (s.runs r).left < s.left ∧ (s.runs r).rejecting = s.rejecting := by
  have hcurrent := (h.processing r i hr).1
  unfold runs finishes
    closeXrayDesiredWaiters left
  rw [hr, hcurrent]
  dsimp only
  cases s.pending with
  | none => exact ⟨by simp, rfl⟩
  | some p => exact ⟨by simp, rfl⟩

theorem Kept.one_done (tools : XrayTools) (h : Kept s) (hcurrent : s.current ≠ none) :
    ∃ events, (run (XrayDesiredApplyScheduler.step tools) s events).left < s.left ∧
      (run (XrayDesiredApplyScheduler.step tools) s events).rejecting = s.rejecting := by
  obtain ⟨r, hreads | ⟨job, hprocesses⟩⟩ := h.runner hcurrent
  · obtain ⟨i, hi⟩ := Option.ne_none_iff_exists'.mp hcurrent
    obtain ⟨job, hjob, -, -⟩ := job_of_valid hi (h.currentValid i hi)
    have hstep : s.runs r = { s with
        runners := s.runners.modify r fun _ => .processes i
        processed := s.processed ++ [job.desired] } := by
      unfold XrayDesiredApplyScheduler.runs XrayDesiredApplyScheduler.reads
      rw [hreads, hjob, hi]
    have hr : (s.runs r).runners[r]? = some (.processes i) := by
      rw [hstep]
      exact getElem?_modify_iff.mpr ⟨_, hreads, (if_pos rfl).symm⟩
    have hleft : (s.runs r).left = s.left ∧ (s.runs r).rejecting = s.rejecting := by
      rw [hstep]
      exact ⟨rfl, rfl⟩
    refine ⟨[.runs r, .runs r], ?_⟩
    rw [← hleft.1, ← hleft.2]
    exact left_finishes (h.runs r) hr
  · exact ⟨[.runs r], left_finishes h hprocesses⟩

theorem Kept.all_done (tools : XrayTools) (n : ℕ) : ∀ {s : XrayDesiredApplyScheduler}, Kept s → s.left ≤ n →
    ∃ events, (run (XrayDesiredApplyScheduler.step tools) s events).current = none ∧
      (run (XrayDesiredApplyScheduler.step tools) s events).rejecting = s.rejecting := by
  induction n with
  | zero =>
    intro s h hleft
    refine ⟨[], ?_, rfl⟩
    show s.current = none
    by_contra hcurrent
    unfold left at hleft
    rw [if_neg hcurrent] at hleft
    omega
  | succ n ih =>
    intro s h hleft
    by_cases hcurrent : s.current = none
    · exact ⟨[], hcurrent, rfl⟩
    · obtain ⟨first, hless, hrejecting⟩ := h.one_done tools hcurrent
      have hkept : Kept (run (XrayDesiredApplyScheduler.step tools) s first) :=
        run_invariant (fun _ e hs => hs.step tools e) first s h
      obtain ⟨rest, hdone, hsame⟩ := ih hkept (by omega)
      refine ⟨first ++ rest, ?_⟩
      rw [ForwardX.Run.run_append]
      exact ⟨hdone, hsame.trans hrejecting⟩

theorem all_rejected (tools : XrayTools) (n : ℕ) : ∀ {s : XrayDesiredApplyScheduler}, s.rejecting.length ≤ n →
    ∃ events, (run (XrayDesiredApplyScheduler.step tools) s events).rejecting = [] ∧
      (run (XrayDesiredApplyScheduler.step tools) s events).current = s.current := by
  induction n with
  | zero =>
    intro s hlength
    exact ⟨[], length_eq_zero_iff.mp (Nat.le_zero.mp hlength), rfl⟩
  | succ n ih =>
    intro s hlength
    cases hrejecting : s.rejecting with
    | nil => exact ⟨[], hrejecting, rfl⟩
    | cons done rest =>
      have hstep : (s.rejected done).rejecting = rest ∧ (s.rejected done).current = s.current := by
        unfold rejected
        rw [hrejecting, if_pos mem_cons_self]
        exact ⟨erase_cons_head _ _, rfl⟩
      have hshort : (s.rejected done).rejecting.length ≤ n := by
        rw [hstep.1]
        rw [hrejecting, length_cons] at hlength
        omega
      obtain ⟨events, hnone, hcurrent⟩ := ih hshort
      exact ⟨.rejected done :: events, hnone, hcurrent.trans hstep.2⟩

end

/-! ## Every run -/

theorem kept_after (tools : XrayTools) (events : List Event) :
    Kept (run (XrayDesiredApplyScheduler.step tools) {} events) :=
  run_invariant (fun _ e h => h.step tools e) events _ kept_init

def Runner.processing (r : Runner) : Bool :=
  match r with
  | .processes _ => true
  | _ => false

/-- **Desired states are applied in order.** In whatever order requests come and the goroutine gets on,
at most one state is processed at a time, the processed generations do not fall and no generation is
processed with two hashes, and no channel is closed twice. -/
theorem desired_states_in_order (tools : XrayTools) (events : List Event) :
    let s := run (XrayDesiredApplyScheduler.step tools) {} events
    s.runners.countP Runner.processing ≤ 1 ∧ s.processed.Pairwise Before ∧ (∀ c, s.closed.count c ≤ 1) ∧
      (s.current = none → s.pending = none ∧ ∀ a ∈ s.accepted, ∃ last,
        s.processed.getLast? = some last ∧ last ∈ s.accepted ∧ Before a last) ∧
      (s.current = none → s.rejecting = [] → ∀ c < s.channels, s.closed.count c = 1) ∧
      ∃ rest, (run (XrayDesiredApplyScheduler.step tools) s rest).current = none ∧
        (run (XrayDesiredApplyScheduler.step tools) s rest).rejecting = [] := by
  intro s
  have h : Kept s := kept_after tools events
  have hcount : ∀ c, (s.waiting ++ s.closed).count c = if c < s.channels then 1 else 0 := by
    intro c
    rw [List.perm_iff_count.mp h.channels c]
    exact List.count_range
  have hidle : s.current = none → s.pending = none := by
    intro hcurrent
    by_contra hpending
    obtain ⟨p, hp⟩ := Option.ne_none_iff_exists'.mp hpending
    exact (h.distinct p hp).1 hcurrent
  have hline : s.current = none → s.line = s.processed := by
    intro hcurrent
    rw [line_eq, hcurrent, hidle hcurrent]
    exact List.append_nil _
  refine ⟨?_, ?_, ?_, ?_, ?_, ?_⟩
  · have hmono : s.runners.countP Runner.processing ≤ s.runners.countP Runner.live := by
      refine List.countP_mono_left fun r _ hr => ?_
      cases r with
      | processes job => rfl
      | reads | returned => cases hr
    have hlive := h.live
    split at hlive
    · omega
    · omega
  · exact h.order.sublist (List.sublist_append_left _ _)
  · intro c
    have hc := hcount c
    rw [List.count_append] at hc
    split at hc
    · omega
    · omega
  · intro hcurrent
    refine ⟨hidle hcurrent, fun a ha => ?_⟩
    obtain ⟨last, hlast, hbefore⟩ := h.accepted a ha
    have hmem := (h.line last (List.mem_of_getLast? hlast)).1
    rw [hline hcurrent] at hlast
    exact ⟨last, hlast, hmem, hbefore⟩
  · intro hcurrent hrejecting c hc
    have hone := hcount c
    rw [if_pos hc, List.count_append] at hone
    have hnone : s.waiting = [] := by
      unfold XrayDesiredApplyScheduler.waiting
      rw [hrejecting, hcurrent, hidle hcurrent]
      rfl
    rw [hnone, List.count_nil] at hone
    omega
  · obtain ⟨first, hdone, -⟩ := h.all_done tools s.left (le_refl _)
    obtain ⟨rest, hrejected, hsame⟩ := all_rejected tools
      (s := run (XrayDesiredApplyScheduler.step tools) s first) _ (le_refl _)
    refine ⟨first ++ rest, ?_⟩
    rw [ForwardX.Run.run_append]
    exact ⟨hsame.trans hdone, hrejected⟩

end ForwardX.Agent.XrayScheduler
