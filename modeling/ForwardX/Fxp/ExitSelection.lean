/-
The choice of an exit: `exitEndpointSelector` and `dialSelectedSecureTCP` of `forwardx-fxp/main.go`.

A pick goes by failures, cool-downs and the strategy, under a lock; dials go on without it. The
proofs are about one pick from any state, and then about dials that interleave: each one excludes
what it has tried, so it ends.
-/
import ForwardX.Fxp.EntryLanes

namespace ForwardX.Fxp

open Run List
open GoText.Runes (itoa trimSpace)

/-! ## The selector -/

inductive ExitStrategy where
  | fallback
  | random
  | ipHash
  | roundRobin
  deriving DecidableEq

/-- `normalizeExitStrategy`, over `strings.ToLower`. -/
def normalizeExitStrategy (toLower : GoString → GoString) (value : GoString) : ExitStrategy :=
  let value := toLower (trimSpace value)
  if value = ['f', 'a', 'l', 'l', 'b', 'a', 'c', 'k'] then .fallback
  else if value = ['r', 'a', 'n', 'd', 'o', 'm'] then .random
  else if value = ['i', 'p', '_', 'h', 'a', 's', 'h'] then .ipHash
  else .roundRobin

/-- The selector of a list of endpoints, which is not assigned after the constructor. Times are in
nanoseconds from the zero time. -/
structure ExitEndpointSelector (endpoints : List ExitEndpoint) where
  healthy : Fin endpoints.length → Bool
  retryAfter : Fin endpoints.length → ℤ
  strategy : ExitStrategy
  next : ℕ

def fxpFallbackRetry : ℤ := 5 * 1000000000

/-- `hash/fnv`'s `New64a` and `Sum64`. -/
def fnv64a (bytes : List UInt8) : UInt64 :=
  bytes.foldl (fun h b => (h ^^^ b.toUInt64) * 1099511628211) 14695981039346656037

/-- `excluded != nil && excluded[i]`. -/
def isExcluded (excluded : Option (GoMap ℤ Bool)) (i : ℤ) : Bool :=
  match excluded with
  | none => false
  | some m => (m.lookup i).getD false

namespace ExitEndpointSelector

variable {endpoints : List ExitEndpoint}

def eligible (s : ExitEndpointSelector endpoints) (now : ℤ) (i : Fin endpoints.length) : Bool :=
  s.healthy i || s.retryAfter i = 0 || !(now < s.retryAfter i)

def allowed (excluded : Option (GoMap ℤ Bool)) : List (Fin endpoints.length) :=
  (List.finRange endpoints.length).filter fun i => !isExcluded excluded (i : ℕ)

/-- `candidates`: those that are eligible, or else all that are not excluded. -/
def candidates (s : ExitEndpointSelector endpoints) (excluded : Option (GoMap ℤ Bool)) (now : ℤ) :
    List (Fin endpoints.length) :=
  let eligible := (allowed excluded).filter (s.eligible now)
  if eligible.isEmpty then allowed excluded else eligible

/-- The round robin choice, which alone moves the cursor. -/
def pickNext (s : ExitEndpointSelector endpoints) (candidates : List (Fin endpoints.length)) :
    Option (Fin endpoints.length) × ExitEndpointSelector endpoints :=
  (candidates[s.next % candidates.length]?, { s with next := (s.next + 1) % 1000000 })

/-- `pick`, with the clock and what `randomUint64` returns; the endpoint it answers with is the one
at the index. -/
def pick (s : ExitEndpointSelector endpoints) (now : ℤ) (random : Option UInt64)
    (excluded : Option (GoMap ℤ Bool)) (selectionKeys : List GoString) :
    Option (Fin endpoints.length) × ExitEndpointSelector endpoints :=
  if s.strategy = .fallback then
    (((allowed excluded).find? (s.eligible now)).or (allowed excluded).head?, s)
  else
    let candidates := s.candidates excluded now
    if candidates.isEmpty then (none, s)
    else match s.strategy, random with
      | .random, some value => (candidates[value.toNat % candidates.length]?, s)
      | .ipHash, _ =>
        let selectionKey := trimSpace (selectionKeys.headD [])
        if selectionKey = [] then s.pickNext candidates
        else
          let sum := fnv64a (String.ofList selectionKey).toUTF8.data.toList
          (candidates[sum.toNat % candidates.length]?, s)
      | _, _ => s.pickNext candidates

def markFailure (s : ExitEndpointSelector endpoints) (now : ℤ) (index : Fin endpoints.length) :
    ExitEndpointSelector endpoints :=
  { s with
    healthy := Function.update s.healthy index false
    retryAfter := Function.update s.retryAfter index (now + fxpFallbackRetry) }

def markHealthy (s : ExitEndpointSelector endpoints) (index : Fin endpoints.length) :
    ExitEndpointSelector endpoints :=
  { s with
    healthy := Function.update s.healthy index true
    retryAfter := Function.update s.retryAfter index 0 }

end ExitEndpointSelector

/-! ## The constructor -/

def ExitEndpoint.completed (fallback endpoint : ExitEndpoint) : ExitEndpoint where
  Host := trimSpace endpoint.Host
  Port := endpoint.Port
  UDPPort := if endpoint.UDPPort ≤ 0 then endpoint.Port else endpoint.UDPPort
  Key := if endpoint.Key = [] then fallback.Key else endpoint.Key

def ExitEndpoint.usable (endpoint : ExitEndpoint) : Bool :=
  endpoint.Host ≠ [] && 0 < endpoint.Port && endpoint.Port ≤ 65535 && 0 < endpoint.UDPPort &&
    endpoint.UDPPort ≤ 65535

def ExitEndpoint.key (endpoint : ExitEndpoint) : GoString :=
  endpoint.Host ++ ':' :: itoa endpoint.Port ++ ':' :: itoa endpoint.UDPPort ++ ':' :: endpoint.Key

/-- `add`; the keys in `seen` are those of the endpoints listed so far. -/
def addEndpoint (fallback : ExitEndpoint) (endpoints : List ExitEndpoint) (endpoint : ExitEndpoint) :
    List ExitEndpoint :=
  let endpoint := fallback.completed endpoint
  if !endpoint.usable then endpoints
  else if endpoint.key ∈ endpoints.map ExitEndpoint.key then endpoints
  else endpoints ++ [endpoint]

def selectorEndpoints (exits : List ExitEndpoint) (fallback : ExitEndpoint) : List ExitEndpoint :=
  (fallback :: exits).foldl (addEndpoint fallback) []

def newExitEndpointSelector (toLower : GoString → GoString) (exits : List ExitEndpoint)
    (fallback : ExitEndpoint) (strategy : GoString) :
    ExitEndpointSelector (selectorEndpoints exits fallback) :=
  ⟨fun _ => true, fun _ => 0, normalizeExitStrategy toLower strategy, 0⟩

theorem nodup_selectorEndpoints (exits : List ExitEndpoint) (fallback : ExitEndpoint) :
    (selectorEndpoints exits fallback).Nodup := by
  suffices h : ((selectorEndpoints exits fallback).map ExitEndpoint.key).Nodup from h.of_map
  refine List.foldlRecOn (motive := fun endpoints => (endpoints.map ExitEndpoint.key).Nodup)
    (fallback :: exits) (addEndpoint fallback) ?_ ?_
  · exact nodup_nil
  intro endpoints hnodup endpoint _
  unfold addEndpoint
  dsimp only
  split
  · exact hnodup
  split
  · exact hnodup
  · next hnew =>
    rw [map_append, map_singleton]
    exact nodup_append.mpr ⟨hnodup, nodup_singleton _,
      fun a ha b hb heq => hnew (mem_singleton.mp hb ▸ heq ▸ ha)⟩

namespace ExitEndpointSelector

variable {endpoints : List ExitEndpoint}

/-! ## What a pick answers -/

variable {s : ExitEndpointSelector endpoints} {now : ℤ} {excluded : Option (GoMap ℤ Bool)}
  {random : Option UInt64} {selectionKeys : List GoString}

variable {i : Fin endpoints.length}

theorem mem_allowed :
    i ∈ allowed excluded ↔ isExcluded excluded (i : ℕ) = false := by
  rw [allowed, mem_filter]
  simp only [mem_finRange, true_and, Bool.not_eq_true']

theorem candidates_of_eligible
    (h : ∃ j : Fin endpoints.length, isExcluded excluded (j : ℕ) = false ∧ s.eligible now j) :
    s.candidates excluded now = (allowed excluded).filter (s.eligible now) := by
  obtain ⟨j, hj, helig⟩ := h
  have hmem : j ∈ (allowed excluded).filter (s.eligible now) :=
    mem_filter.mpr ⟨mem_allowed.mpr hj, helig⟩
  refine if_neg fun hempty => ?_
  rw [isEmpty_iff.mp hempty] at hmem
  cases hmem

theorem of_mem_candidates (h : i ∈ s.candidates excluded now) :
    isExcluded excluded (i : ℕ) = false ∧
      ((∃ j : Fin endpoints.length, isExcluded excluded (j : ℕ) = false ∧ s.eligible now j) →
        s.eligible now i) := by
  constructor
  · unfold candidates at h
    dsimp only at h
    split at h
    · exact mem_allowed.mp h
    · exact mem_allowed.mp (mem_filter.mp h).1
  · intro hany
    rw [candidates_of_eligible hany] at h
    exact (mem_filter.mp h).2

theorem candidates_eq_nil_iff : s.candidates excluded now = [] ↔
    ∀ i : Fin endpoints.length, isExcluded excluded (i : ℕ) = true := by
  constructor
  · intro h i
    by_contra hi
    have hmem : i ∈ allowed excluded := mem_allowed.mpr (Bool.eq_false_iff.mpr hi)
    unfold candidates at h
    dsimp only at h
    split at h
    · rw [h] at hmem
      cases hmem
    · next hne => exact hne (isEmpty_iff.mpr h)
  · intro h
    refine eq_nil_iff_forall_not_mem.mpr fun i hi => ?_
    have hopen := (of_mem_candidates hi).1
    rw [h i] at hopen
    cases hopen

theorem head?_candidates : ((allowed excluded).find? (s.eligible now)).or (allowed excluded).head?
    = (s.candidates excluded now).head? := by
  unfold candidates
  dsimp only
  rw [← head?_filter]
  cases hfilter : (allowed excluded).filter (s.eligible now) with
  | nil => rfl
  | cons i rest => rfl

theorem exists_getElem?_mod {α : Type*} {l : List α} (hl : l ≠ []) (k : ℕ) :
    ∃ x ∈ l, l[k % l.length]? = some x := by
  have hlt : k % l.length < l.length := Nat.mod_lt _ (length_pos_iff.mpr hl)
  exact ⟨l[k % l.length], getElem_mem hlt, getElem?_eq_getElem hlt⟩

theorem exists_pick (random : Option UInt64) (selectionKeys : List GoString)
    (h : s.candidates excluded now ≠ []) :
    ∃ i ∈ s.candidates excluded now,
      (s.pick now random excluded selectionKeys).1 = some i := by
  unfold pick
  by_cases hfallback : s.strategy = .fallback
  · rw [if_pos hfallback]
    dsimp only
    rw [head?_candidates]
    exact ⟨_, head_mem h, head?_eq_some_head h⟩
  rw [if_neg hfallback]
  dsimp only
  rw [if_neg fun hempty => h (isEmpty_iff.mp hempty)]
  split
  · exact exists_getElem?_mod h _
  · split
    · exact exists_getElem?_mod h _
    · exact exists_getElem?_mod h _
  · exact exists_getElem?_mod h _

theorem pick_of_candidates_nil (h : s.candidates excluded now = []) :
    (s.pick now random excluded selectionKeys).1 = none := by
  unfold pick
  by_cases hfallback : s.strategy = .fallback
  · rw [if_pos hfallback]
    dsimp only
    rw [head?_candidates, h]
    rfl
  rw [if_neg hfallback]
  dsimp only
  rw [if_pos (isEmpty_iff.mpr h)]

theorem pick_none_iff : (s.pick now random excluded selectionKeys).1 = none ↔
    ∀ i : Fin endpoints.length, isExcluded excluded (i : ℕ) = true := by
  have hnil : s.candidates excluded now = [] ↔ _ := candidates_eq_nil_iff
  rw [← hnil]
  refine ⟨fun hnone => ?_, pick_of_candidates_nil⟩
  by_contra hne
  obtain ⟨i, -, hi⟩ := exists_pick random selectionKeys hne
  rw [hnone] at hi
  cases hi

theorem of_pick_some (h : (s.pick now random excluded selectionKeys).1 = some i) :
    isExcluded excluded (i : ℕ) = false ∧
      ((∃ j : Fin endpoints.length, isExcluded excluded (j : ℕ) = false ∧ s.eligible now j) →
        s.eligible now i) := by
  by_cases hnil : s.candidates excluded now = []
  · rw [pick_of_candidates_nil hnil] at h
    cases h
  · obtain ⟨j, hj, hpick⟩ := exists_pick random selectionKeys hnil
    rw [h] at hpick
    cases hpick
    exact of_mem_candidates hj

/-! ## Picks in a row -/

/-- What the picks answer in the order they get the lock, each with its clock, its random number, its
exclusions and its keys. -/
def answers (s : ExitEndpointSelector endpoints) :
    List (ℤ × Option UInt64 × Option (GoMap ℤ Bool) × List GoString) → List (Option (Fin endpoints.length))
  | [] => []
  | (now, random, excluded, selectionKeys) :: calls =>
    let (answer, s) := s.pick now random excluded selectionKeys
    answer :: s.answers calls

variable {cs : List (Fin endpoints.length)}

theorem answers_eq (hne : cs ≠ []) (calls) : ∀ {s : ExitEndpointSelector
    endpoints}, s.strategy = .roundRobin → (∀ c ∈ calls, s.candidates c.2.2.1 c.1 = cs) →
    s.next + calls.length ≤ 1000000 →
    s.answers calls = (List.range' s.next calls.length).map fun k => cs[k % cs.length]? := by
  induction calls with
  | nil => exact fun _ _ _ => rfl
  | cons c calls ih =>
    intro s hstrategy hcands hwrap
    obtain ⟨now, random, excluded, selectionKeys⟩ := c
    have hpick : s.pick now random excluded selectionKeys = s.pickNext cs := by
      simp [pick, hstrategy, hcands _ mem_cons_self, hne]
    rw [length_cons] at hwrap
    rw [answers, hpick, length_cons, range'_succ, map_cons]
    refine congrArg (List.cons _) ?_
    cases calls with
    | nil => rfl
    | cons c' calls =>
      rw [length_cons] at hwrap
      -- there is a pick to come, so the cursor has not wrapped yet
      have hnext : (s.pickNext cs).2.next = s.next + 1 := Nat.mod_eq_of_lt (by omega)
      have htail := ih (s := (s.pickNext cs).2) hstrategy
        (fun c hc => hcands c (mem_cons_of_mem _ hc)) (by rw [hnext, length_cons]; omega)
      rwa [hnext] at htail

/-- **Round robin is fair.** Whoever picks and whenever, as long as the candidates stay the same and the
cursor does not wrap, as many picks as there are candidates answer each of them once. -/
theorem round_robin_fair {s : ExitEndpointSelector endpoints} (hstrategy : s.strategy = .roundRobin)
    (calls) (hcands : ∀ c ∈ calls, s.candidates c.2.2.1 c.1 = cs)
    (hlength : calls.length = cs.length) (hwrap : s.next + cs.length ≤ 1000000) :
    (s.answers calls).Perm (cs.map some) := by
  by_cases hne : cs = []
  · rw [hne, List.length_nil, List.length_eq_zero_iff] at hlength
    rw [hlength, hne]
    rfl
  rw [answers_eq hne calls hstrategy hcands (by omega), hlength]
  have hturn : ((List.range' s.next cs.length).map (· % cs.length)).Perm (List.range cs.length) := by
    have hmod := Nat.multiset_Ico_map_mod s.next cs.length
    rw [show Multiset.Ico s.next (s.next + cs.length)
      = ↑(List.range' s.next (s.next + cs.length - s.next)) from rfl, add_tsub_cancel_left] at hmod
    exact Multiset.coe_eq_coe.mp hmod
  have hall : (List.range cs.length).map (cs[·]?) = cs.map some := by
    refine List.ext_getElem? fun k => ?_
    by_cases hk : k < cs.length <;> simp [hk]
  rw [← hall]
  simpa [Function.comp_def] using hturn.map (cs[·]?)

theorem round_robin_fair_of_two :
    (@answers [⟨['a'], 1, 1, []⟩, ⟨['b'], 1, 1, []⟩] ⟨fun _ => true, fun _ => 0, .roundRobin, 3⟩
      [(0, none, none, []), (5, none, none, [])]).Perm [some 0, some 1] :=
  @round_robin_fair _ [0, 1] _ rfl _ (by decide) rfl (by decide)

end ExitEndpointSelector

/-! ## Callers -/

inductive DialError (E : Type) where
  | noExitEndpoints
  | noneAvailable
  | dial (err : E)

/-- The error a call ends with: the last one, if there was any. -/
def DialError.final {E : Type} : Option E → DialError E
  | none => .noneAvailable
  | some err => .dial err

/-- Where a call of `dialSelectedSecureTCP` stands. -/
inductive DialCaller (endpoints : List ExitEndpoint) (E : Type) where
  | entered
  /-- Before the condition of the loop. -/
  | looping (attempted : GoMap ℤ Bool) (lastErr : Option E)
  | picking (attempted : GoMap ℤ Bool) (lastErr : Option E)
  /-- An endpoint is picked and noted; `dialSecureTCP` runs. -/
  | dialing (attempted : GoMap ℤ Bool) (index : Fin endpoints.length)
  /-- The dial is over, with an error or none, and is to be marked. -/
  | dialed (attempted : GoMap ℤ Bool) (index : Fin endpoints.length) (err : Option E)
  | returned (result : Except (DialError E) (Fin endpoints.length))

/-- What a section of a call may read: the clock, a random number, how a dial ends. -/
structure DialMoment (E : Type) where
  now : ℤ
  random : Option UInt64
  err : Option E

variable {endpoints : List ExitEndpoint} {E : Type}

/-- One section of a call: where it stands after it, the selector, and the endpoint it dials. -/
def DialCaller.step (selectionKey : GoString) (moment : DialMoment E)
    (s : ExitEndpointSelector endpoints) : DialCaller endpoints E →
    DialCaller endpoints E × ExitEndpointSelector endpoints × List (Fin endpoints.length)
  | .entered =>
    if endpoints.length = 0 then (.returned (.error .noExitEndpoints), s, [])
    else (.looping ∅ none, s, [])
  | .looping attempted lastErr =>
    if attempted.keys.length < endpoints.length then (.picking attempted lastErr, s, [])
    else (.returned (.error (DialError.final lastErr)), s, [])
  | .picking attempted lastErr =>
    match s.pick moment.now moment.random (some attempted) [selectionKey] with
    | (none, s) => (.returned (.error (DialError.final lastErr)), s, [])
    | (some index, s) => (.dialing (attempted.insert (index : ℕ) true) index, s, [])
  | .dialing attempted index => (.dialed attempted index moment.err, s, [index])
  | .dialed _ index none => (.returned (.ok index), s.markHealthy index, [])
  | .dialed attempted index (some err) =>
    (.looping attempted (some err), s.markFailure moment.now index, [])
  | .returned result => (.returned result, s, [])

/-- A selector and the calls that share it, each with the endpoints it has dialed. -/
structure DialState (ι : Type) (endpoints : List ExitEndpoint) (E : Type) where
  selector : ExitEndpointSelector endpoints
  callers : ι → DialCaller endpoints E
  dials : ι → List (Fin endpoints.length)

inductive DialEvent (ι : Type) (endpoints : List ExitEndpoint) (E : Type) where
  | call (c : ι) (moment : DialMoment E)
  /-- The datagram paths pick and mark on the same selector. -/
  | pick (now : ℤ) (random : Option UInt64) (excluded : Option (GoMap ℤ Bool))
      (selectionKeys : List GoString)
  | markFailure (now : ℤ) (index : Fin endpoints.length)
  | markHealthy (index : Fin endpoints.length)

section

variable {ι : Type} [DecidableEq ι]

def DialState.start (selector : ExitEndpointSelector endpoints) : DialState ι endpoints E :=
  ⟨selector, fun _ => .entered, fun _ => []⟩

def DialState.step (selectionKeys : ι → GoString) (w : DialState ι endpoints E) :
    DialEvent ι endpoints E → DialState ι endpoints E
  | .call c moment =>
    let (caller, selector, dialed) := (w.callers c).step (selectionKeys c) moment w.selector
    { selector
      callers := Function.update w.callers c caller
      dials := Function.update w.dials c (w.dials c ++ dialed) }
  | .pick now random excluded keys =>
    { w with selector := (w.selector.pick now random excluded keys).2 }
  | .markFailure now index => { w with selector := w.selector.markFailure now index }
  | .markHealthy index => { w with selector := w.selector.markHealthy index }

def DialEvent.isCall (c : ι) : DialEvent ι endpoints E → Bool
  | .call c' _ => c' = c
  | _ => false

/-! ## What a call has done -/

/-- `attempted` is the map of the dials of a call. -/
structure Attempts (attempted : GoMap ℤ Bool) (dials : List (Fin endpoints.length)) : Prop where
  nodup : dials.Nodup
  keys : attempted.keys.length = dials.length
  lookup : ∀ i : Fin endpoints.length,
    attempted.lookup ((i : ℕ) : ℤ) = if i ∈ dials then some true else none

variable {dials : List (Fin endpoints.length)} {caller : DialCaller endpoints E} {attempted : GoMap ℤ Bool}

theorem Attempts.excluded_iff
    (h : Attempts attempted dials) {i : Fin endpoints.length} :
    isExcluded (some attempted) (i : ℕ) = true ↔ i ∈ dials := by
  unfold isExcluded
  dsimp only
  rw [h.lookup]
  split
  · next hmem => exact iff_of_true rfl hmem
  · next hmem => exact iff_of_false Bool.false_ne_true hmem

theorem attempts_empty : Attempts ∅ ([] : List (Fin endpoints.length)) :=
  ⟨nodup_nil, rfl, fun _ => rfl⟩

theorem Attempts.insert
    (h : Attempts attempted dials) {i : Fin endpoints.length} (hi : i ∉ dials) :
    Attempts (attempted.insert (i : ℕ) true) (dials ++ [i]) where
  nodup := nodup_append.mpr ⟨h.nodup, nodup_singleton _,
    fun a ha b hb heq => hi (mem_singleton.mp hb ▸ heq ▸ ha)⟩
  keys := by
    have hnew : ((i : ℕ) : ℤ) ∉ attempted := by
      rw [← AList.lookup_eq_none, h.lookup, if_neg hi]
    rw [AList.keys_insert, erase_of_not_mem hnew, length_cons, h.keys,
      length_append, length_singleton]
  lookup := by
    intro j
    by_cases hij : j = i
    · rw [hij, AList.lookup_insert, if_pos (by simp)]
    · have hne : ((j : ℕ) : ℤ) ≠ ((i : ℕ) : ℤ) := fun heq =>
        hij (Fin.ext (Int.ofNat.inj heq))
      rw [AList.lookup_insert_ne hne, h.lookup]
      refine if_congr ?_ rfl rfl
      rw [mem_append, mem_singleton, or_iff_left hij]

theorem mem_of_nodup_of_le {n : ℕ} {l : List (Fin n)} (hnodup : l.Nodup) (hlength : n ≤ l.length)
    (i : Fin n) : i ∈ l := by
  have hcard : l.toFinset.card = Fintype.card (Fin n) := by
    rw [toFinset_card_of_nodup hnodup, Fintype.card_fin]
    exact le_antisymm (by simpa using hnodup.length_le_card) hlength
  rw [← mem_toFinset, Finset.card_eq_iff_eq_univ _ |>.mp hcard]
  exact Finset.mem_univ i

theorem exists_notMem_of_length_lt {n : ℕ} {l : List (Fin n)} (hlength : l.length < n) : ∃ i, i ∉ l := by
  by_contra hall
  push Not at hall
  have huniv : l.toFinset = Finset.univ :=
    Finset.eq_univ_iff_forall.mpr fun i => mem_toFinset.mpr (hall i)
  have hcard := l.toFinset_card_le
  rw [huniv, Finset.card_univ, Fintype.card_fin] at hcard
  omega

def DialCaller.Sound (dials : List (Fin endpoints.length)) : DialCaller endpoints E → Prop
  | .entered => dials = []
  | .looping attempted _ => Attempts attempted dials
  | .picking attempted _ => Attempts attempted dials ∧ dials.length < endpoints.length
  | .dialing attempted index => index ∉ dials ∧ Attempts attempted (dials ++ [index])
  | .dialed attempted index _ => index ∈ dials ∧ Attempts attempted dials
  | .returned (.ok index) => dials.Nodup ∧ index ∈ dials
  | .returned (.error _) => dials.Nodup ∧ ∀ i, i ∈ dials

def DialCaller.remaining (dials : List (Fin endpoints.length)) : DialCaller endpoints E → ℕ
  | .entered => 4 * endpoints.length + 2
  | .looping _ _ => 4 * (endpoints.length - dials.length) + 1
  | .picking _ _ => 4 * (endpoints.length - dials.length)
  | .dialing _ _ => 4 * (endpoints.length - dials.length) - 1
  | .dialed _ _ _ => 4 * (endpoints.length - dials.length) + 2
  | .returned _ => 0

theorem DialCaller.Sound.step (h : caller.Sound dials) (selectionKey : GoString)
    (moment : DialMoment E) (s : ExitEndpointSelector endpoints) :
    (caller.step selectionKey moment s).1.Sound
        (dials ++ (caller.step selectionKey moment s).2.2) ∧
      ((∃ r, caller = .returned r ∧ (caller.step selectionKey moment s).1 = .returned r) ∨
        (caller.step selectionKey moment s).1.remaining
          (dials ++ (caller.step selectionKey moment s).2.2) < caller.remaining dials) := by
  cases caller with
  | entered =>
    rw [DialCaller.Sound] at h
    unfold DialCaller.step
    dsimp only
    by_cases hnone : endpoints.length = 0
    · rw [if_pos hnone, h]
      exact ⟨⟨nodup_nil, fun i => absurd i.isLt (by omega)⟩,
        .inr (by simp [DialCaller.remaining])⟩
    · rw [if_neg hnone, h]
      exact ⟨attempts_empty, .inr (by simp [DialCaller.remaining])⟩
  | looping attempted lastErr =>
    have hatt : Attempts attempted dials := h
    unfold DialCaller.step
    dsimp only
    rw [hatt.keys]
    by_cases hmore : dials.length < endpoints.length
    · rw [if_pos hmore, append_nil]
      exact ⟨⟨hatt, hmore⟩, .inr (Nat.lt_succ_self _)⟩
    · rw [if_neg hmore, append_nil]
      exact ⟨⟨hatt.nodup, mem_of_nodup_of_le hatt.nodup (Nat.le_of_not_lt hmore)⟩,
        .inr (Nat.succ_pos _)⟩
  | picking attempted lastErr =>
    obtain ⟨hatt, hmore⟩ : Attempts attempted dials ∧ dials.length < endpoints.length := h
    unfold DialCaller.step
    dsimp only
    split
    · next s' hpick =>
      -- some endpoint is not dialed yet, so a pick cannot fail
      obtain ⟨i, hi⟩ := exists_notMem_of_length_lt hmore
      have hall := ExitEndpointSelector.pick_none_iff.mp (congrArg Prod.fst hpick)
      exact absurd (hatt.excluded_iff.mp (hall i)) hi
    · next index s' hpick =>
      have hopen := (ExitEndpointSelector.of_pick_some (congrArg Prod.fst hpick)).1
      have hnew : index ∉ dials := fun hmem => by
        rw [hatt.excluded_iff.mpr hmem] at hopen
        cases hopen
      rw [append_nil]
      exact ⟨⟨hnew, hatt.insert hnew⟩, .inr (by simp only [DialCaller.remaining]; omega)⟩
  | dialing attempted index =>
    obtain ⟨hnew, hatt⟩ : index ∉ dials ∧ Attempts attempted (dials ++ [index]) := h
    have hlength := hatt.nodup.length_le_card
    rw [Fintype.card_fin, length_append, length_singleton] at hlength
    refine ⟨⟨mem_append_right _ mem_cons_self, hatt⟩, .inr ?_⟩
    simp only [DialCaller.step, DialCaller.remaining, length_append, length_singleton]
    omega
  | dialed attempted index err =>
    obtain ⟨hmem, hatt⟩ : index ∈ dials ∧ Attempts attempted dials := h
    cases err with
    | none =>
      simp only [DialCaller.step, append_nil]
      exact ⟨⟨hatt.nodup, hmem⟩, .inr (Nat.succ_pos _)⟩
    | some err =>
      simp only [DialCaller.step, append_nil]
      exact ⟨hatt, .inr (Nat.lt_succ_self _)⟩
  | returned result =>
    simp only [DialCaller.step, append_nil]
    exact ⟨h, .inl ⟨result, rfl, rfl⟩⟩

theorem DialCaller.Sound.returned
    (h : caller.Sound dials) (hzero : caller.remaining dials = 0) : ∃ r, caller = .returned r := by
  cases caller with
  | entered => exact absurd hzero (Nat.succ_ne_zero _)
  | looping attempted lastErr => exact absurd hzero (Nat.succ_ne_zero _)
  | picking attempted lastErr =>
    have hmore := h.2
    simp only [DialCaller.remaining] at hzero
    omega
  | dialing attempted index =>
    have hlength := h.2.nodup.length_le_card
    rw [Fintype.card_fin, length_append, length_singleton] at hlength
    simp only [DialCaller.remaining] at hzero
    omega
  | dialed attempted index err => exact absurd hzero (Nat.succ_ne_zero _)
  | returned result => exact ⟨result, rfl⟩

variable (selectionKeys : ι → GoString)

theorem step_callers (w : DialState ι endpoints E) (e : DialEvent ι endpoints E) (c : ι) :
    ((w.step selectionKeys e).callers c = w.callers c ∧ (w.step selectionKeys e).dials c = w.dials c
        ∧ e.isCall c = false) ∨
      (∃ moment, e.isCall c = true ∧
        (w.step selectionKeys e).callers c
          = ((w.callers c).step (selectionKeys c) moment w.selector).1 ∧
        (w.step selectionKeys e).dials c
          = w.dials c ++ ((w.callers c).step (selectionKeys c) moment w.selector).2.2) := by
  cases e with
  | call c' moment =>
    by_cases hc : c' = c
    · subst hc
      exact .inr ⟨moment, by simp [DialEvent.isCall], by simp [DialState.step],
        by simp [DialState.step]⟩
    · refine .inl ⟨?_, ?_, by simpa [DialEvent.isCall] using hc⟩
      · simp [DialState.step, Function.update_of_ne (Ne.symm hc)]
      · simp [DialState.step, Function.update_of_ne (Ne.symm hc)]
  | pick now random excluded keys => exact .inl ⟨rfl, rfl, rfl⟩
  | markFailure now index => exact .inl ⟨rfl, rfl, rfl⟩
  | markHealthy index => exact .inl ⟨rfl, rfl, rfl⟩

theorem run_callers (es : List (DialEvent ι endpoints E)) (c : ι) (w : DialState ι endpoints E)
    (h : (w.callers c).Sound (w.dials c)) :
    let after := run (DialState.step selectionKeys) w es
    (after.callers c).Sound (after.dials c) ∧
      ((∃ r, after.callers c = .returned r) ∨
        (after.callers c).remaining (after.dials c) + es.countP (DialEvent.isCall c)
          ≤ (w.callers c).remaining (w.dials c)) := by
  induction es generalizing w with
  | nil => exact ⟨h, .inr (le_refl _)⟩
  | cons e es ih =>
    dsimp only
    rw [run_cons, countP_cons]
    obtain ⟨hcaller, hdials, hother⟩ | ⟨moment, hcall, hcaller, hdials⟩ :=
      step_callers selectionKeys w e c
    · have hrest := ih (w.step selectionKeys e) (by rw [hcaller, hdials]; exact h)
      rw [hcaller, hdials] at hrest
      simpa only [hother, Bool.false_eq_true, if_false, Nat.add_zero] using hrest
    · obtain ⟨hsound, hless⟩ := h.step (selectionKeys c) moment w.selector
      rw [← hcaller, ← hdials] at hsound hless
      obtain ⟨hafter, hdone⟩ := ih (w.step selectionKeys e) hsound
      refine ⟨hafter, hdone.elim .inl fun hleft => ?_⟩
      obtain ⟨r, hr, hr'⟩ | hlt := hless
      · -- a call that has returned has nothing left to do
        rw [hr', DialCaller.remaining] at hleft
        exact .inl (hafter.returned (by omega))
      · exact .inr (by rw [if_pos hcall]; omega)

theorem DialCaller.Sound.nodup (h : caller.Sound dials) : dials.Nodup := by
  cases caller with
  | entered =>
    rw [DialCaller.Sound] at h
    exact h ▸ nodup_nil
  | looping attempted lastErr => exact Attempts.nodup h
  | picking attempted lastErr => exact h.1.nodup
  | dialing attempted index => exact h.2.nodup.of_append_left
  | dialed attempted index err => exact h.2.nodup
  | returned result =>
    cases result with
    | error err => exact h.1
    | ok index => exact h.1

end

end ForwardX.Fxp
