/-
The lock of a key: `server/keyedTaskLock.ts`.

A call waits for the gate of the call that was pending last for its key when it was made.
-/
import ForwardX.Lib.Chain
import ForwardX.Lib.JsMap
import Mathlib.Data.Option.Basic

namespace ForwardX.Panel.TaskLock

open Chain

/-! ## Calls -/

/-- How far a call is: its task has ended, one way or the other, when it is `settled`, and
the `finally` behind the task has run when it is `released`. -/
inductive Phase where
  | waiting
  | running
  | settled (failed : Bool)
  | released
  deriving DecidableEq

def Phase.rank : Phase → ℕ
  | .waiting => 0
  | .running => 1
  | .settled _ => 2
  | .released => 3

/-- An entry of the table; the gate of a call is named by the call's number. -/
structure PendingTask where
  tail : ℕ
  depth : ℕ

structure LockCall (κ α : Type) where
  key : κ
  previous : Option ℕ
  phase : Phase
  task : α

def LockCall.Holds {κ α : Type} (call : LockCall κ α) : Prop :=
  call.phase ≠ .waiting ∧ call.phase ≠ .released

theorem LockCall.holds_of_running {κ α : Type} {call : LockCall κ α} (h : call.phase = .running) :
    call.Holds := by
  rw [LockCall.Holds, h]
  exact ⟨nofun, nofun⟩

structure LockState (κ α : Type) where
  pendingTasks : JsMap κ PendingTask := ∅
  calls : List (LockCall κ α) := []

namespace LockState

variable {κ α : Type}

def phase (s : LockState κ α) (c : ℕ) : Option Phase := s.calls[c]?.map LockCall.phase

def toPhase (s : LockState κ α) (c : ℕ) (phase : Phase) : LockState κ α :=
  { s with calls := s.calls.modify c fun call => { call with phase } }

section

variable [DecidableEq κ]

/-- Up to the first `await`: a call that finds no task pending starts its own at once. -/
def request (s : LockState κ α) (key : κ) (task : α) : LockState κ α :=
  let previous := s.pendingTasks.get key
  let current : PendingTask := ⟨s.calls.length, previous.elim 0 PendingTask.depth + 1⟩
  { pendingTasks := s.pendingTasks.set key current
    calls := s.calls ++
      [⟨key, previous.map PendingTask.tail, if previous.isSome then .waiting else .running, task⟩] }

/-- The gate that the call waits for is open. -/
def Resumable (s : LockState κ α) (call : LockCall κ α) : Prop :=
  call.phase = .waiting ∧ ∀ p ∈ call.previous, s.phase p = some .released

instance Resumable.decidable (s : LockState κ α) (call : LockCall κ α) : Decidable (s.Resumable call) :=
  inferInstanceAs (Decidable (_ ∧ _))

def resume (s : LockState κ α) (c : ℕ) : LockState κ α :=
  match s.calls[c]? with
  | none => s
  | some call => if s.Resumable call then s.toPhase c .running else s

def settle (s : LockState κ α) (c : ℕ) (failed : Bool) : LockState κ α :=
  if s.phase c = some .running then s.toPhase c (.settled failed) else s

/-- The entry of the key, if it is still the call's own. -/
def deleteOwn (pendingTasks : JsMap κ PendingTask) (key : κ) (c : ℕ) : JsMap κ PendingTask :=
  if (pendingTasks.get key).map PendingTask.tail = some c then pendingTasks.delete key else pendingTasks

/-- The `finally` block: the gate opens, and the call's own entry is deleted. -/
def release (s : LockState κ α) (c : ℕ) : LockState κ α :=
  match s.calls[c]? with
  | none => s
  | some call =>
    match call.phase with
    | .settled _ => { s.toPhase c .released with pendingTasks := deleteOwn s.pendingTasks call.key c }
    | _ => s

def depth (s : LockState κ α) (key : κ) : ℕ := (s.pendingTasks.get key).elim 0 PendingTask.depth

end

/-! ## What the calls are -/

variable {s : LockState κ α} {phase : Phase} {call : LockCall κ α} {c : ℕ}

theorem phase_eq_some_iff :
    s.phase c = some phase ↔ ∃ call, s.calls[c]? = some call ∧ call.phase = phase := by
  rw [LockState.phase, Option.map_eq_some_iff]

variable {i : ℕ}

theorem calls_toPhase_iff :
    (s.toPhase c phase).calls[i]? = some call ↔ ∃ before, s.calls[i]? = some before ∧
      call = if i = c then { before with phase } else before :=
  getElem?_modify_iff

theorem phase_toPhase (s : LockState κ α) (c : ℕ) (phase : Phase) (i : ℕ) :
    (s.toPhase c phase).phase i = if i = c then s.calls[i]?.map fun _ => phase else s.phase i := by
  rw [LockState.phase, toPhase, List.getElem?_modify, LockState.phase]
  cases s.calls[i]? with
  | none => simp
  | some call =>
    by_cases hi : i = c
    · simp [hi]
    · simp [hi, Ne.symm hi]

/-- The key and the task of every call, which it keeps. -/
def labels (s : LockState κ α) : List (κ × α) := s.calls.map fun call => (call.key, call.task)

theorem labels_toPhase (s : LockState κ α) (c : ℕ) (phase : Phase) : (s.toPhase c phase).labels = s.labels := by
  refine List.ext_getElem? fun i => ?_
  rw [labels, toPhase, List.getElem?_map, List.getElem?_modify, labels, List.getElem?_map]
  cases s.calls[i]? with
  | none => rfl
  | some call =>
    rw [Option.map_some, Option.map_eq_map, Option.map_some, Option.map_some]
    split <;> rfl

theorem labels_resume (s : LockState κ α) (c : ℕ) : (s.resume c).labels = s.labels := by
  unfold resume
  split
  · rfl
  · split
    · exact labels_toPhase s c .running
    · rfl

theorem labels_settle (s : LockState κ α) (c : ℕ) (failed : Bool) : (s.settle c failed).labels = s.labels := by
  unfold settle
  split
  · exact labels_toPhase s c (.settled failed)
  · rfl

theorem phase_resume_of_ne (h : s.phase i = some phase)
    (hphase : phase ≠ .waiting) (c : ℕ) : (s.resume c).phase i = some phase := by
  unfold resume
  split
  · exact h
  · rename_i call hcall
    split
    · rename_i hready
      rw [phase_toPhase]
      split
      · rename_i hic
        subst hic
        obtain ⟨call', hcall', hphase'⟩ := phase_eq_some_iff.mp h
        obtain rfl := Option.some.inj (hcall.symm.trans hcall')
        exact absurd (hphase'.symm.trans hready.1) hphase
      · exact h
    · exact h

theorem phase_settle (s : LockState κ α) (c : ℕ) (failed : Bool) (i : ℕ) : (s.settle c failed).phase i =
    if i = c ∧ s.phase c = some .running then some (.settled failed) else s.phase i := by
  unfold settle
  split
  · rename_i hrunning
    rw [phase_toPhase]
    by_cases hic : i = c
    · subst hic
      obtain ⟨call, hcall, -⟩ := phase_eq_some_iff.mp hrunning
      simp [hcall, hrunning]
    · rw [if_neg hic, if_neg fun hboth => hic hboth.1]
  · rename_i hrunning
    rw [if_neg fun hboth => hrunning hboth.2]

variable [DecidableEq κ]

theorem calls_request_iff {key : κ} {task : α} :
    (s.request key task).calls[c]? = some call ↔
      s.calls[c]? = some call ∨ (c = s.calls.length ∧
        call = ⟨key, (s.pendingTasks.get key).map PendingTask.tail,
          if (s.pendingTasks.get key).isSome then .waiting else .running, task⟩) :=
  getElem?_concat_iff

theorem calls_request_old {key : κ} {task : α}
    (h : s.calls[c]? = some call) : (s.request key task).calls[c]? = some call :=
  calls_request_iff.mpr (.inl h)

theorem labels_request (s : LockState κ α) (key : κ) (task : α) :
    (s.request key task).labels = s.labels ++ [(key, task)] := by
  simp [labels, request]

theorem labels_release (s : LockState κ α) (c : ℕ) : (s.release c).labels = s.labels := by
  unfold release
  split
  · rfl
  · split
    · exact labels_toPhase s c .released
    · rfl

/-! ## What a step does to the phases -/

theorem phase_request_old (h : s.phase i = some phase)
    (key : κ) (task : α) : (s.request key task).phase i = some phase := by
  obtain ⟨call, hcall, hphase⟩ := phase_eq_some_iff.mp h
  exact phase_eq_some_iff.mpr ⟨call, calls_request_old hcall, hphase⟩

theorem phase_release (s : LockState κ α) (c i : ℕ) : (s.release c).phase i =
    if i = c ∧ ∃ failed, s.phase c = some (.settled failed) then some .released else s.phase i := by
  unfold release
  split
  · rename_i hnone
    rw [if_neg]
    rintro ⟨-, failed, hsettled⟩
    obtain ⟨call, hcall, -⟩ := phase_eq_some_iff.mp hsettled
    rw [hnone] at hcall
    cases hcall
  · rename_i call hcall
    have hphase : s.phase c = some call.phase := phase_eq_some_iff.mpr ⟨call, hcall, rfl⟩
    split
    · rename_i failed hsettled
      rw [hphase, hsettled]
      change (s.toPhase c .released).phase i = _
      rw [phase_toPhase]
      by_cases hic : i = c
      · subst hic
        simp [hcall]
      · simp [hic]
    · rename_i hnot
      rw [if_neg]
      rintro ⟨-, failed, hsettled⟩
      rw [hphase] at hsettled
      exact hnot failed (Option.some.inj hsettled)

omit [DecidableEq κ] in
theorem calls_settle_of_waiting
    (h : s.calls[i]? = some call) (hwaiting : call.phase = .waiting) (c : ℕ) (failed : Bool) :
    (s.settle c failed).calls[i]? = some call := by
  unfold settle
  split
  · rename_i hrunning
    refine calls_toPhase_iff.mpr ⟨call, h, (if_neg ?_).symm⟩
    rintro rfl
    obtain ⟨call', hcall', hphase⟩ := phase_eq_some_iff.mp hrunning
    obtain rfl := Option.some.inj (h.symm.trans hcall')
    rw [hphase] at hwaiting
    cases hwaiting
  · exact h

theorem calls_release_of_unsettled
    (h : s.calls[i]? = some call) (hphase : ∀ failed, call.phase ≠ .settled failed) (c : ℕ) :
    (s.release c).calls[i]? = some call := by
  unfold release
  split
  · exact h
  · rename_i call' hcall'
    split
    · rename_i failed hsettled
      refine calls_toPhase_iff.mpr ⟨call, h, (if_neg ?_).symm⟩
      rintro rfl
      obtain rfl := Option.some.inj (h.symm.trans hcall')
      exact hphase failed hsettled
    · exact h

/-! ## Phases only go forward -/

/-- Every call is as far as before, or further. -/
def Forward (s s' : LockState κ α) : Prop :=
  ∀ i phase, s.phase i = some phase → ∃ phase', s'.phase i = some phase' ∧ phase.rank ≤ phase'.rank

theorem forward_request (s : LockState κ α) (key : κ) (task : α) : Forward s (s.request key task) :=
  fun _ phase h => ⟨phase, phase_request_old h key task, le_rfl⟩

omit [DecidableEq κ] in
theorem forward_resume (s : LockState κ α) (c : ℕ) : Forward s (s.resume c) := by
  intro i phase h
  by_cases hwaiting : phase = .waiting
  · have hlabels := labels_resume s c
    obtain ⟨call, hcall, -⟩ := phase_eq_some_iff.mp h
    have hlt : i < (s.resume c).calls.length := by
      have hlength := congrArg List.length hlabels
      rw [labels, labels, List.length_map, List.length_map] at hlength
      exact hlength ▸ lt_length_of_getElem? hcall
    refine ⟨_, phase_eq_some_iff.mpr ⟨_, List.getElem?_eq_getElem hlt, rfl⟩, ?_⟩
    rw [hwaiting]
    exact Nat.zero_le _
  · exact ⟨phase, phase_resume_of_ne h hwaiting c, le_rfl⟩

omit [DecidableEq κ] in
theorem forward_settle (s : LockState κ α) (c : ℕ) (failed : Bool) : Forward s (s.settle c failed) := by
  intro i phase h
  rw [phase_settle]
  split
  · rename_i hrunning
    obtain ⟨rfl, hrunning⟩ := hrunning
    obtain rfl := Option.some.inj (h.symm.trans hrunning)
    exact ⟨_, rfl, Nat.le_succ 1⟩
  · exact ⟨phase, h, le_rfl⟩

theorem forward_release (s : LockState κ α) (c : ℕ) : Forward s (s.release c) := by
  intro i phase h
  rw [phase_release]
  split
  · rename_i hsettled
    obtain ⟨rfl, failed, hsettled⟩ := hsettled
    obtain rfl := Option.some.inj (h.symm.trans hsettled)
    exact ⟨_, rfl, Nat.le_succ 2⟩
  · exact ⟨phase, h, le_rfl⟩

/-! ## The chain -/

theorem get_deleteOwn (m : JsMap κ PendingTask) (key : κ) (c : ℕ) (k : κ) : (deleteOwn m key c).get k =
    if k = key ∧ (m.get k).map PendingTask.tail = some c then none else m.get k := by
  unfold deleteOwn
  by_cases hown : (m.get key).map PendingTask.tail = some c
  · rw [if_pos hown, JsMap.get_delete]
    by_cases hk : k = key
    · subst hk
      rw [if_pos rfl, if_pos ⟨rfl, hown⟩]
    · rw [if_neg hk, if_neg (not_and_of_not_left _ hk)]
  · rw [if_neg hown, if_neg]
    rintro ⟨rfl, hown'⟩
    exact hown hown'

def lockChain : View κ (LockCall κ α) where
  key := LockCall.key
  previous := LockCall.previous
  Waiting call := call.phase = .waiting
  Over call := call.phase = .released
  not_waiting_of_over := by
    intro call hover
    rw [hover]
    nofun

def lastCall (s : LockState κ α) (k : κ) : Option ℕ := (s.pendingTasks.get k).map PendingTask.tail

structure Kept (s : LockState κ α) : Prop where
  chained : Chained lockChain s.calls
  listed : Listed lockChain s.lastCall s.calls
  deep : ∀ k t, s.pendingTasks.get k = some t → 0 < t.depth

theorem Kept.empty : Kept ({} : LockState κ α) := ⟨chained_nil, listed_nil, nofun⟩

theorem Kept.request (h : Kept s) (key : κ) (task : α) : Kept (s.request key task) where
  chained := by
    refine h.chained.concat h.listed rfl fun hstart => ?_
    change (s.pendingTasks.get key).map PendingTask.tail = none
    by_contra hsome
    rw [← ne_eq, ne_eq, Option.map_eq_none_iff, ← ne_eq, ← Option.isSome_iff_ne_none] at hsome
    exact hstart (if_pos hsome)
  listed := by
    refine h.listed.concat ?_ fun k => ?_
    · change (if (s.pendingTasks.get key).isSome then Phase.waiting else .running) ≠ .released
      split <;> simp
    · change (((s.pendingTasks.set key _).get k).map PendingTask.tail) = if k = key then _ else s.lastCall k
      rw [JsMap.get_set]
      split <;> rfl
  deep := by
    intro k t hget
    change (s.pendingTasks.set key _).get k = some t at hget
    rw [JsMap.get_set] at hget
    split at hget
    · obtain rfl := Option.some.inj hget
      exact Nat.succ_pos _
    · exact h.deep k t hget

omit [DecidableEq κ] in
theorem moves_toPhase
    (hopen : call.phase ≠ .released) (hphase : phase ≠ .waiting)
    (hready : call.phase = .waiting → s.Resumable call) :
    Moves lockChain s.calls call { call with phase } where
  key := rfl
  previous := rfl
  not_over := hopen
  waiting hwaiting := absurd hwaiting hphase
  ready := by
    intro hwaiting _ p hp
    obtain ⟨before, hbefore, hover⟩ := phase_eq_some_iff.mp ((hready hwaiting).2 p hp)
    exact ⟨before, hbefore, hover⟩

theorem Kept.toPhase (h : Kept s)
    (hcall : s.calls[c]? = some call) (hopen : call.phase ≠ .released) (hphase : phase ≠ .waiting)
    (hlive : phase ≠ .released) (hready : call.phase = .waiting → s.Resumable call) :
    Kept (s.toPhase c phase) where
  chained := h.chained.modify hcall (moves_toPhase hopen hphase hready)
  listed := h.listed.modify hcall (moves_toPhase hopen hphase hready) hlive
  deep := h.deep

theorem Kept.resume (h : Kept s) (c : ℕ) : Kept (s.resume c) := by
  unfold LockState.resume
  split
  · exact h
  · rename_i call hcall
    split
    · rename_i hready
      refine h.toPhase hcall ?_ nofun nofun fun _ => hready
      rw [hready.1]
      nofun
    · exact h

theorem Kept.settle (h : Kept s) (c : ℕ) (failed : Bool) : Kept (s.settle c failed) := by
  unfold LockState.settle
  split
  · rename_i hrunning
    obtain ⟨call, hcall, hphase⟩ := phase_eq_some_iff.mp hrunning
    refine h.toPhase hcall ?_ nofun nofun fun hwaiting => ?_
    · rw [hphase]
      nofun
    · rw [hphase] at hwaiting
      cases hwaiting
  · exact h

theorem Kept.release (h : Kept s) (c : ℕ) : Kept (s.release c) := by
  unfold LockState.release
  split
  · exact h
  rename_i call hcall
  split
  · rename_i failed hphase
    have hopen : call.phase ≠ .released := by
      rw [hphase]
      nofun
    have hstarted : call.phase ≠ .waiting := by
      rw [hphase]
      nofun
    have hmove : Moves lockChain s.calls call { call with phase := .released } :=
      moves_toPhase hopen nofun fun hwaiting => absurd hwaiting hstarted
    refine ⟨h.chained.modify hcall hmove, ?_, ?_⟩
    · refine h.listed.finish h.chained hcall hmove hstarted rfl fun k => ?_
      change ((deleteOwn s.pendingTasks call.key c).get k).map PendingTask.tail = _
      rw [get_deleteOwn, LockState.lastCall]
      change _ = if k = call.key ∧ (s.pendingTasks.get k).map PendingTask.tail = some c then none else _
      split <;> rfl
    · intro k t hget
      change (deleteOwn s.pendingTasks call.key c).get k = some t at hget
      rw [get_deleteOwn] at hget
      split at hget
      · cases hget
      · exact h.deep k t hget
  · exact h

/-! ## What the callers rely on -/

theorem Kept.first_ready (h : Kept s)
    (hcall : s.calls[i]? = some call) (hopen : call.phase ≠ .released) :
    ∃ (c : ℕ) (first : LockCall κ α), s.calls[c]? = some first ∧ first.key = call.key ∧
      (first.Holds ∨ s.Resumable first) := by
  obtain ⟨c, first, hfirst, hkey, hlive, hready⟩ := h.chained.first_ready hcall hopen
  refine ⟨c, first, hfirst, hkey, ?_⟩
  by_cases hwaiting : first.phase = .waiting
  · refine .inr ⟨hwaiting, fun p hp => ?_⟩
    obtain ⟨before, hbefore, hover⟩ := hready hwaiting p hp
    exact phase_eq_some_iff.mpr ⟨before, hbefore, hover⟩
  · exact .inl ⟨hwaiting, hlive⟩

theorem Kept.get_eq_none_iff (h : Kept s) (k : κ) : s.pendingTasks.get k = none ↔
    ∀ (i : ℕ) (call : LockCall κ α), s.calls[i]? = some call → call.key = k → call.phase = .released :=
  Option.map_eq_none_iff.symm.trans (h.listed.eq_none_iff k)

theorem Kept.depth_eq_zero_iff (h : Kept s) (k : κ) : s.depth k = 0 ↔ s.pendingTasks.get k = none := by
  rw [LockState.depth]
  cases hget : s.pendingTasks.get k with
  | none => simp
  | some t =>
    have hdeep := h.deep k t hget
    simp only [Option.elim_some, reduceCtorEq, iff_false]
    omega

end LockState

end ForwardX.Panel.TaskLock
