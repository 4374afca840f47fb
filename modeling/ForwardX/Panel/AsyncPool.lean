/-
A pool of calls: `mapWithConcurrency` in `server/asyncPool.ts`.

The workers share an index and the first error. What they have started, finished and stored is a
function of the order of completion, and the contract is read off at the end.
-/
import ForwardX.Lib.Run
import ForwardX.Panel.JsValues
import Mathlib.Data.List.Nodup
import Mathlib.Data.List.Range
import Mathlib.Data.Rat.Floor

namespace ForwardX.Panel.AsyncPool

open Run List

variable {R E : Type}

/-! ## The pool -/

inductive Happened (R E : Type) where
  | started (index : ℕ)
  | finished (index : ℕ) (result : R)
  | failed (index : ℕ) (error : E)

/-- `log` is what has happened to the calls; the code does not keep it. -/
structure Pool (R E : Type) where
  nextIndex : ℕ := 0
  failed : Bool := false
  firstError : Option E := none
  results : List (Option R) := []
  inFlight : List ℕ := []
  log : List (Happened R E) := []

/-- `Math.max(1, Math.min(items.length, Math.floor(Number(concurrencyValue) || 1)))`. -/
def concurrency (n : ℕ) : JsNumber → ℕ
  | .nan => max 1 (min n 1)
  | .infinity negative => if negative then 1 else max 1 n
  | .finite q => (max 1 (min (n : ℤ) ⌊if q = 0 then 1 else q⌋)).toNat

def Pool.fail (s : Pool R E) (index : ℕ) (error : E) : Pool R E :=
  { s with failed := true, firstError := some error, log := s.log ++ [.failed index error] }

section

variable (n : ℕ) (throws : ℕ → Option E)

/-- A worker goes on until it waits for a call or returns. `throws` are the calls that fail
before there is anything to wait for. -/
def advance (s : Pool R E) : Pool R E :=
  if s.failed then s
  else
    let index := s.nextIndex
    let s := { s with nextIndex := index + 1 }
    if n ≤ index then s
    else
      let s := { s with log := s.log ++ [Happened.started index] }
      match throws index with
      | some error => s.fail index error
      | none => { s with inFlight := s.inFlight ++ [index] }

/-- `Array.from({ length: concurrency }, () => worker())`. -/
def launch (workers : ℕ) : Pool R E := (advance n throws)^[workers] { results := List.replicate n none }

inductive Settles (R E : Type) where
  | finish (index : ℕ) (result : R)
  | fail (index : ℕ) (error : E)

def step (s : Pool R E) : Settles R E → Pool R E
  | .finish index result =>
    if index ∈ s.inFlight then
      advance n throws { s with
        inFlight := s.inFlight.erase index
        results := s.results.set index (some result)
        log := s.log ++ [.finished index result] }
    else s
  | .fail index error =>
    if index ∈ s.inFlight then
      advance n throws ({ s with inFlight := s.inFlight.erase index }.fail index error)
    else s

/-- The pool for `n` items after some calls have settled. -/
def mapWithConcurrency (concurrencyValue : JsNumber) (events : List (Settles R E)) : Pool R E :=
  run (step n throws) (launch n throws (concurrency n concurrencyValue)) events

end

/-- What the caller gets, once all the workers have returned. -/
def outcome (s : Pool R E) : Option (Except (Option E) (List (Option R))) :=
  if s.inFlight = [] then some (if s.failed then .error s.firstError else .ok s.results) else none

/-! ## The contract -/

def startedOf (log : List (Happened R E)) : List ℕ :=
  log.filterMap fun
    | .started index => some index
    | _ => none

def finishedOf (log : List (Happened R E)) : List (ℕ × R) :=
  log.filterMap fun
    | .finished index result => some (index, result)
    | _ => none

def failuresOf (log : List (Happened R E)) : List (ℕ × E) :=
  log.filterMap fun
    | .failed index error => some (index, error)
    | _ => none

def Stopped (log : List (Happened R E)) : Prop :=
  log.Pairwise fun a b => ∀ i e, a = .failed i e → ∀ j, b ≠ .started j

/-- At most the number that is given; one, if that is less or no number. -/
def AtMost (calls : ℕ) : JsNumber → Prop
  | .nan => calls ≤ 1
  | .infinity negative => negative = true → calls ≤ 1
  | .finite q => (calls : ℚ) ≤ max 1 q

def SameError (log : List (Happened R E)) : Prop :=
  (failuresOf log).getLast?.map Prod.snd = (failuresOf log).head?.map Prod.snd

structure Contract (n : ℕ) (concurrencyValue : JsNumber) (s : Pool R E) : Prop where
  inFlight : AtMost s.inFlight.length concurrencyValue
  /-- Each index once at most, in order. -/
  started : ∃ k ≤ n, startedOf s.log = List.range k
  stopped : Stopped s.log
  /-- What is returned has the result of every call in its place. -/
  returned : ∀ results, outcome s = some (.ok results) → results.length = n ∧
    (∀ i < n, ∃ r, results[i]? = some (some r)) ∧
    ∀ i r, results[i]? = some (some r) ↔ (i, r) ∈ finishedOf s.log
  /-- What is thrown is the error of the call that failed first. -/
  thrown : ∀ error, outcome s = some (.error error) → error = (failuresOf s.log).head?.map Prod.snd

/-! ## What every run keeps -/

/-- The state of a pool with so many workers that have been started. -/
structure Working (n workers : ℕ) (s : Pool R E) : Prop where
  size : s.results.length = n
  started : startedOf s.log = List.range (min s.nextIndex n)
  nodup : s.inFlight.Nodup
  /-- A call that was started is awaited, or has settled. -/
  settled : ∀ i, i ∈ startedOf s.log ↔
    i ∈ s.inFlight ∨ i ∈ (finishedOf s.log).map Prod.fst ∨ i ∈ (failuresOf s.log).map Prod.fst
  awaited : ∀ i ∈ s.inFlight, i ∉ (finishedOf s.log).map Prod.fst
  results : ∀ i r, s.results[i]? = some (some r) ↔ (i, r) ∈ finishedOf s.log
  failed : s.failed = true ↔ failuresOf s.log ≠ []
  error : s.firstError = (failuresOf s.log).getLast?.map Prod.snd
  stopped : Stopped s.log
  bounded : s.inFlight.length ≤ workers
  busy : s.failed = false → n ≤ s.nextIndex ∨ s.inFlight.length = workers

@[simp] theorem startedOf_append (log log' : List (Happened R E)) :
    startedOf (log ++ log') = startedOf log ++ startedOf log' := List.filterMap_append

@[simp] theorem finishedOf_append (log log' : List (Happened R E)) :
    finishedOf (log ++ log') = finishedOf log ++ finishedOf log' := List.filterMap_append

@[simp] theorem failuresOf_append (log log' : List (Happened R E)) :
    failuresOf (log ++ log') = failuresOf log ++ failuresOf log' := List.filterMap_append

theorem mem_failuresOf {log : List (Happened R E)} {i : ℕ} {e : E} (h : Happened.failed i e ∈ log) :
    (i, e) ∈ failuresOf log := mem_filterMap.mpr ⟨_, h, rfl⟩

section

variable {n workers : ℕ} {throws : ℕ → Option E} {s : Pool R E}

theorem working_nil : Working n 0 ({ results := List.replicate n none } : Pool R E) where
  size := length_replicate
  started := by simp [startedOf]
  nodup := nodup_nil
  settled i := by simp [startedOf, finishedOf, failuresOf]
  awaited := forall_mem_nil _
  results i r := by
    refine iff_of_false (fun h => ?_) not_mem_nil
    exact absurd (eq_of_mem_replicate (mem_of_getElem? h)) nofun
  failed := iff_of_false nofun (by simp [failuresOf])
  error := rfl
  stopped := List.Pairwise.nil
  bounded := le_rfl
  busy _ := .inr rfl

theorem stopped_append_started {log : List (Happened R E)} (h : Stopped log) (hnone : failuresOf log = [])
    (j : ℕ) : Stopped (log ++ [.started j]) := by
  refine pairwise_append.mpr ⟨h, pairwise_singleton _ _, ?_⟩
  intro a ha b _ i e heq
  exact absurd hnone (ne_nil_of_mem (mem_failuresOf (heq ▸ ha)))

theorem stopped_append_settled {log : List (Happened R E)} (h : Stopped log) {b : Happened R E}
    (hb : ∀ j, b ≠ .started j) : Stopped (log ++ [b]) := by
  refine pairwise_append.mpr ⟨h, pairwise_singleton _ _, ?_⟩
  intro a _ b' hb' i e _ j
  rw [mem_singleton.mp hb']
  exact hb j

theorem Working.clear (h : Working n workers s) (hclear : s.failed = false) : failuresOf s.log = [] := by
  by_contra hne
  rw [h.failed.mpr hne] at hclear
  exact absurd hclear nofun

theorem advance_failed (h : s.failed = true) : AsyncPool.advance n throws s = s := if_pos h

theorem advance_last (h : s.failed = false) (hlast : n ≤ s.nextIndex) :
    AsyncPool.advance n throws s = { s with nextIndex := s.nextIndex + 1 } := by
  simp [AsyncPool.advance, h, hlast]

theorem advance_throws (h : s.failed = false) (hlast : ¬ n ≤ s.nextIndex) {error : E}
    (hthrows : throws s.nextIndex = some error) :
    AsyncPool.advance n throws s = { s with
      nextIndex := s.nextIndex + 1, failed := true, firstError := some error
      log := s.log ++ [.started s.nextIndex] ++ [.failed s.nextIndex error] } := by
  simp [AsyncPool.advance, h, hlast, hthrows, Pool.fail]

theorem advance_waits (h : s.failed = false) (hlast : ¬ n ≤ s.nextIndex) (hthrows : throws s.nextIndex = none) :
    AsyncPool.advance n throws s = { s with
      nextIndex := s.nextIndex + 1, inFlight := s.inFlight ++ [s.nextIndex]
      log := s.log ++ [.started s.nextIndex] } := by
  simp [AsyncPool.advance, h, hlast, hthrows]

theorem Working.next (h : Working n workers s) (hlast : ¬ n ≤ s.nextIndex) :
    s.nextIndex ∉ startedOf s.log ∧
      startedOf s.log ++ [s.nextIndex] = List.range (min (s.nextIndex + 1) n) := by
  rw [h.started, min_eq_left (by omega), min_eq_left (by omega), range_succ]
  exact ⟨fun hmem => absurd (mem_range.mp hmem) (lt_irrefl _), rfl⟩

theorem Working.advance (h : Working n workers s) : Working n (workers + 1) (AsyncPool.advance n throws s) := by
  cases hfailed : s.failed with
  | true =>
    rw [advance_failed hfailed]
    exact { h with
      bounded := h.bounded.trans (Nat.le_succ workers)
      busy := fun hclear => absurd (hfailed.symm.trans hclear) nofun }
  | false =>
    by_cases hlast : n ≤ s.nextIndex
    · rw [advance_last hfailed hlast]
      exact { h with
        started := by
          rw [h.started, min_eq_right hlast, min_eq_right (Nat.le_succ_of_le hlast)]
        bounded := h.bounded.trans (Nat.le_succ workers)
        busy := fun _ => .inl (Nat.le_succ_of_le hlast) }
    · obtain ⟨hnew, hstarted⟩ := h.next hlast
      have hlen : s.inFlight.length = workers := (h.busy hfailed).resolve_left hlast
      cases hthrows : throws s.nextIndex with
      | some error =>
        rw [advance_throws hfailed hlast hthrows]
        exact { h with
          started := by simpa [startedOf] using hstarted
          settled := fun i => by
            have hi := h.settled i
            simp only [startedOf_append, finishedOf_append, failuresOf_append, mem_append, hi]
            simp [startedOf, finishedOf, failuresOf, or_assoc]
          awaited := by simpa [finishedOf] using h.awaited
          results := by simpa [finishedOf] using h.results
          failed := iff_of_true rfl (by simp [failuresOf])
          error := by simp [failuresOf]
          stopped := stopped_append_settled
            (stopped_append_started h.stopped (h.clear hfailed) s.nextIndex) nofun
          bounded := h.bounded.trans (Nat.le_succ workers)
          busy := nofun }
      | none =>
        rw [advance_waits hfailed hlast hthrows]
        exact { h with
          started := by simpa [startedOf] using hstarted
          nodup := by
            rw [nodup_append]
            refine ⟨h.nodup, nodup_singleton _, fun a ha b hb heq => hnew ?_⟩
            rw [mem_singleton.mp hb] at heq
            exact (h.settled _).mpr (.inl (heq ▸ ha))
          settled := fun i => by
            have hi := h.settled i
            simp only [startedOf_append, finishedOf_append, failuresOf_append, mem_append, hi]
            simp [startedOf, finishedOf, failuresOf, or_assoc, or_comm]
          awaited := fun i hi => by
            have hfinished : finishedOf (s.log ++ [Happened.started s.nextIndex]) = finishedOf s.log := by
              simp [finishedOf]
            rw [hfinished]
            obtain hi | hi := mem_append.mp hi
            · exact h.awaited i hi
            · rw [mem_singleton.mp hi]
              exact fun hmem => hnew ((h.settled _).mpr (.inr (.inl hmem)))
          results := by simpa [finishedOf] using h.results
          failed := by simpa [failuresOf] using h.failed
          error := by simpa [failuresOf] using h.error
          stopped := stopped_append_started h.stopped (h.clear hfailed) s.nextIndex
          bounded := by simp [hlen]
          busy := fun _ => .inr (by simp [hlen]) }

theorem Working.lt_of_awaited (h : Working n workers s) {i : ℕ} (hi : i ∈ s.inFlight) : i < n := by
  have hmem := (h.settled i).mpr (.inl hi)
  rw [h.started] at hmem
  exact (mem_range.mp hmem).trans_le (min_le_right _ _)

section

variable (h : Working n (workers + 1) s) {i : ℕ} (hi : i ∈ s.inFlight)

include h hi

theorem Working.length_erase :
    (s.inFlight.erase i).length ≤ workers ∧
      (s.failed = false → n ≤ s.nextIndex ∨ (s.inFlight.erase i).length = workers) := by
  have hpos : 0 < s.inFlight.length := length_pos_of_mem hi
  rw [length_erase_of_mem hi]
  refine ⟨by have := h.bounded; omega, fun hclear => ?_⟩
  exact (h.busy hclear).imp_right fun hlen => by omega

theorem Working.finish (r : R) :
    Working n workers { s with
      inFlight := s.inFlight.erase i, results := s.results.set i (some r)
      log := s.log ++ [.finished i r] } where
  size := by rw [length_set, h.size]
  started := by simpa [startedOf] using h.started
  nodup := h.nodup.erase i
  settled j := by
    have hj := h.settled j
    have hstarted : startedOf (s.log ++ [Happened.finished i r]) = startedOf s.log := by simp [startedOf]
    have hfailures : failuresOf (s.log ++ [Happened.finished i r]) = failuresOf s.log := by simp [failuresOf]
    have hfinished : finishedOf (s.log ++ [Happened.finished i r]) = finishedOf s.log ++ [(i, r)] := by
      simp [finishedOf]
    rw [hstarted, hfailures, hfinished, h.nodup.mem_erase_iff, map_append, mem_append, hj]
    by_cases heq : j = i
    · simp [heq, hi]
    · simp [heq]
  awaited j hj := by
    have hfinished : finishedOf (s.log ++ [Happened.finished i r]) = finishedOf s.log ++ [(i, r)] := by
      simp [finishedOf]
    obtain ⟨hne, hmem⟩ := h.nodup.mem_erase_iff.mp hj
    have hbefore := h.awaited j hmem
    rw [hfinished, map_append, mem_append]
    simpa [hne] using hbefore
  results j r' := by
    have hfinished : finishedOf (s.log ++ [Happened.finished i r]) = finishedOf s.log ++ [(i, r)] := by
      simp [finishedOf]
    have hbound : i < s.results.length := by
      rw [h.size]
      exact h.lt_of_awaited hi
    rw [hfinished, mem_append, mem_singleton, getElem?_set]
    by_cases heq : i = j
    · subst heq
      have hnew : (i, r') ∉ finishedOf s.log := fun hmem =>
        h.awaited i hi (mem_map_of_mem hmem)
      simp [hbound, hnew, eq_comm]
    · rw [if_neg heq, h.results j r']
      simp [Ne.symm heq]
  failed := by simpa [failuresOf] using h.failed
  error := by simpa [failuresOf] using h.error
  stopped := stopped_append_settled h.stopped nofun
  bounded := (h.length_erase hi).1
  busy := (h.length_erase hi).2

theorem Working.fail (e : E) : Working n workers ({ s with inFlight := s.inFlight.erase i }.fail i e) where
  size := h.size
  started := by simpa [Pool.fail, startedOf] using h.started
  nodup := h.nodup.erase i
  settled j := by
    have hj := h.settled j
    have hstarted : startedOf (s.log ++ [Happened.failed i e]) = startedOf s.log := by simp [startedOf]
    have hfinished : finishedOf (s.log ++ [Happened.failed i e]) = finishedOf s.log := by simp [finishedOf]
    have hfailures : failuresOf (s.log ++ [Happened.failed i e]) = failuresOf s.log ++ [(i, e)] := by
      simp [failuresOf]
    simp only [Pool.fail]
    rw [hstarted, hfailures, hfinished, h.nodup.mem_erase_iff, map_append, mem_append, hj]
    by_cases heq : j = i
    · simp [heq, hi]
    · simp [heq]
  awaited j hj := by
    have hbefore := h.awaited j (mem_of_mem_erase hj)
    simpa [Pool.fail, finishedOf] using hbefore
  results j r := by simpa [Pool.fail, finishedOf] using h.results j r
  failed := iff_of_true rfl (by simp [Pool.fail, failuresOf])
  error := by simp [Pool.fail, failuresOf]
  stopped := stopped_append_settled h.stopped nofun
  bounded := (h.length_erase hi).1
  busy := nofun

end

theorem working_launch (workers : ℕ) : Working n workers (launch n throws workers : Pool R E) := by
  induction workers with
  | zero => exact working_nil
  | succ workers ih =>
    rw [launch, Function.iterate_succ_apply']
    exact ih.advance

theorem Working.step (h : Working n (workers + 1) s) (event : Settles R E) :
    Working n (workers + 1) (AsyncPool.step n throws s event) := by
  cases event with
  | finish i r =>
    by_cases hi : i ∈ s.inFlight
    · rw [AsyncPool.step, if_pos hi]
      exact (h.finish hi r).advance
    · rw [AsyncPool.step, if_neg hi]
      exact h
  | fail i e =>
    by_cases hi : i ∈ s.inFlight
    · rw [AsyncPool.step, if_pos hi]
      exact (h.fail hi e).advance
    · rw [AsyncPool.step, if_neg hi]
      exact h

/-! ## The bound on the calls -/

theorem concurrency_pos (n : ℕ) (value : JsNumber) : 0 < concurrency n value := by
  cases value with
  | nan => exact lt_max_of_lt_left Nat.one_pos
  | infinity negative =>
    rw [concurrency]
    split_ifs
    · exact Nat.one_pos
    · exact lt_max_of_lt_left Nat.one_pos
  | finite q => rw [concurrency]; omega

theorem atMost_concurrency (n : ℕ) (value : JsNumber) {calls : ℕ} (h : calls ≤ concurrency n value) :
    AtMost calls value := by
  cases value with
  | nan => exact h.trans (max_le le_rfl (min_le_right n 1))
  | infinity negative =>
    rintro rfl
    exact h
  | finite q =>
    rw [AtMost]
    obtain hle | hlt := le_or_gt calls 1
    · exact le_max_of_le_left (by exact_mod_cast hle)
    · -- more than one, so the number is at least two, and the floor is below it
      have hfloor : (calls : ℤ) ≤ ⌊if q = 0 then 1 else q⌋ := by
        rw [concurrency] at h
        omega
      have hle : (calls : ℚ) ≤ if q = 0 then 1 else q := by exact_mod_cast Int.le_floor.mp hfloor
      by_cases hq : q = 0
      · rw [if_pos hq] at hle
        exact le_max_of_le_left hle
      · rw [if_neg hq] at hle
        exact le_max_of_le_right hle

/-! ## The contract of every run -/

theorem Working.all_finished (h : Working n (workers + 1) s) (hdone : s.inFlight = [])
    (hclear : s.failed = false) {i : ℕ} (hi : i < n) : i ∈ (finishedOf s.log).map Prod.fst := by
  have hlast : n ≤ s.nextIndex := by
    refine (h.busy hclear).resolve_right fun hlen => ?_
    rw [hdone] at hlen
    exact absurd hlen nofun
  have hmem : i ∈ startedOf s.log := by
    rw [h.started, min_eq_right hlast]
    exact mem_range.mpr hi
  simpa [hdone, h.clear hclear] using (h.settled i).mp hmem

theorem outcome_ok {results : List (Option R)} (h : outcome s = some (.ok results)) :
    s.inFlight = [] ∧ s.failed = false ∧ results = s.results := by
  unfold outcome at h
  split_ifs at h with hdone hfailed
  · exact absurd h nofun
  · cases h
    exact ⟨hdone, eq_false_of_ne_true hfailed, rfl⟩

theorem outcome_error {error : Option E} (h : outcome s = some (.error error)) :
    s.inFlight = [] ∧ s.failed = true ∧ error = s.firstError := by
  unfold outcome at h
  split_ifs at h with hdone hfailed
  · cases h
    exact ⟨hdone, hfailed, rfl⟩
  · exact absurd h nofun

theorem Working.returned (h : Working n (workers + 1) s) {results : List (Option R)}
    (hout : outcome s = some (.ok results)) : results.length = n ∧
      (∀ i < n, ∃ r, results[i]? = some (some r)) ∧
      ∀ i r, results[i]? = some (some r) ↔ (i, r) ∈ finishedOf s.log := by
  obtain ⟨hdone, hclear, rfl⟩ := outcome_ok hout
  refine ⟨h.size, fun i hi => ?_, h.results⟩
  obtain ⟨⟨j, r⟩, hmem, rfl⟩ := mem_map.mp (h.all_finished hdone hclear hi)
  exact ⟨r, (h.results j r).mpr hmem⟩

theorem Working.thrown_iff (h : Working n workers s) :
    (∀ error, outcome s = some (.error error) → error = (failuresOf s.log).head?.map Prod.snd) ↔
      (s.inFlight = [] → SameError s.log) := by
  constructor
  · intro hthrown hdone
    cases hfailed : s.failed with
    | false => simp [SameError, h.clear hfailed]
    | true =>
      rw [SameError, ← h.error]
      exact hthrown _ (by rw [outcome, if_pos hdone, if_pos hfailed])
  · intro hsame error hout
    obtain ⟨hdone, -, rfl⟩ := outcome_error hout
    rw [h.error]
    exact hsame hdone

end

theorem working_mapWithConcurrency (n : ℕ) (throws : ℕ → Option E) (concurrencyValue : JsNumber)
    (events : List (Settles R E)) : Working n (concurrency n concurrencyValue)
      (mapWithConcurrency n throws concurrencyValue events) := by
  obtain ⟨workers, hworkers⟩ := Nat.exists_eq_succ_of_ne_zero (concurrency_pos n concurrencyValue).ne'
  rw [mapWithConcurrency, hworkers]
  exact run_invariant (fun _ event h => h.step event) events _ (working_launch _)

/-- **The contract of `mapWithConcurrency`** is kept in a run if and only if, when all the workers have
returned, the last failure was with the error of the first. -/
theorem contract_iff (n : ℕ) (throws : ℕ → Option E) (concurrencyValue : JsNumber)
    (events : List (Settles R E)) :
    let s := mapWithConcurrency n throws concurrencyValue events
    Contract n concurrencyValue s ↔ (s.inFlight = [] → SameError s.log) := by
  intro s
  have h : Working n (concurrency n concurrencyValue) s :=
    working_mapWithConcurrency n throws concurrencyValue events
  refine ⟨fun hc => h.thrown_iff.mp hc.thrown, fun hsame => ?_⟩
  refine ⟨atMost_concurrency n _ h.bounded, ⟨_, min_le_right _ _, h.started⟩, h.stopped, ?_,
    h.thrown_iff.mpr hsame⟩
  intro results hout
  obtain ⟨workers, hworkers⟩ := Nat.exists_eq_succ_of_ne_zero (concurrency_pos n concurrencyValue).ne'
  exact (hworkers ▸ h).returned hout

theorem later_failure_is_thrown : ¬ ∀ (n : ℕ) (throws : ℕ → Option ℕ) (concurrencyValue : JsNumber)
    (events : List (Settles Unit ℕ)),
    Contract n concurrencyValue (mapWithConcurrency n throws concurrencyValue events) := by
  intro h
  have hthrown := (h 2 (fun _ => none) (.finite 2) [.fail 0 1, .fail 1 2]).thrown (some 2) (by decide)
  exact absurd hthrown (by decide)

end ForwardX.Panel.AsyncPool
