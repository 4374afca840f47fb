/-
Port policies: `server/portPolicy.ts`.

A policy is a set of ports given by ranges and single ports. Its operations are those of
`Lib/Intervals`, so membership is proved once for a sorted list and the laws follow.
-/
import ForwardX.Lib.Intervals
import ForwardX.Lib.JsMap
import ForwardX.Panel.JsValues
import Mathlib.Data.Finset.Basic
import Mathlib.Data.Rat.Floor

namespace ForwardX.Panel

open Intervals List

/-! ## Policies -/

abbrev PortInterval := Intervals.Interval ℤ

/-- A number of a source, as a row or a request gives it. -/
inductive PortValue where
  | missing
  | text (s : JsString)
  | number (n : JsNumber)

structure PortRangeSource where
  start : PortValue
  stop : PortValue

/-- A list or a text that is `null` is empty here. -/
structure PortPolicySource where
  portRangeStart : PortValue := .missing
  portRangeEnd : PortValue := .missing
  portAllowlist : JsString := []
  portRanges : List PortRangeSource := []

/-- `normalized` is membership in `normalizedPolicies`. -/
structure PortPolicy where
  rangeStart : Option ℤ := none
  rangeEnd : Option ℤ := none
  allowlist : List ℤ := []
  ranges : Option (List PortInterval) := none
  denyAll : Bool := false
  normalized : Bool := false

/-- `rangeStart !== null && rangeEnd !== null`. -/
def PortPolicy.primaryRange (policy : PortPolicy) : Option PortInterval :=
  match policy.rangeStart, policy.rangeEnd with
  | some start, some stop => some ⟨start, stop⟩
  | _, _ => none

def PortPolicy.otherRanges (policy : PortPolicy) : List PortInterval := policy.ranges.getD []

def IsPort (port : ℤ) : Prop := 1 ≤ port ∧ port ≤ 65535

instance (port : ℤ) : Decidable (IsPort port) := inferInstanceAs (Decidable (_ ∧ _))

/-- `Number.isInteger(port) && port >= 1 && port <= 65535`, with the integer. -/
def portOf : JsNumber → Option ℤ
  | .finite q => if q.den = 1 ∧ IsPort q.num then some q.num else none
  | _ => none

def singlePort (port : ℤ) : PortInterval := ⟨port, port⟩

/-! ## Intervals -/

/-- `Math.max(1, …)` and `Math.min(65535, …)`, where something is left. -/
def clampInterval (range : PortInterval) : Option PortInterval :=
  let start := max 1 range.start
  let stop := min 65535 range.stop
  if start ≤ stop then some ⟨start, stop⟩ else none

/-- `a.start - b.start || a.end - b.end`. -/
def intervalBefore (a b : PortInterval) : Prop := a.start < b.start ∨ a.start = b.start ∧ a.stop ≤ b.stop

instance : DecidableRel intervalBefore := fun _ _ => inferInstanceAs (Decidable (_ ∨ _))

def normalizeIntervals (intervals : List PortInterval) : List PortInterval :=
  mergeTouching ((intervals.filterMap clampInterval).insertionSort intervalBefore)

def policyIntervals (policy : PortPolicy) : List PortInterval :=
  if policy.denyAll then []
  else normalizeIntervals
    (policy.primaryRange.toList ++ policy.otherRanges ++ policy.allowlist.map singlePort)

def intersectIntervals (left right : List PortInterval) : List PortInterval := intersect left right

def sortedNumbersInclude (values : List ℤ) (target : ℤ) : Bool :=
  bisect (fun value => compare value target) values 0 (values.length - 1)

/-- Where an interval lies, seen from a number. -/
def intervalSide (target : ℤ) (range : PortInterval) : Ordering :=
  if target < range.start then .gt else if range.stop < target then .lt else .eq

def sortedIntervalsInclude (intervals : List PortInterval) (target : ℤ) : Bool :=
  bisect (intervalSide target) intervals 0 (intervals.length - 1)

/-! ## Building a policy

`number` is what `Number` makes of a text. -/

section

variable (number : JsString → JsNumber)

def parsePortAllowlist (value : JsString) : List ℤ :=
  let text := trim value
  if text = [] then []
  else
    let ports := (text.splitOn 0x2C).filterMap fun item => portOf (number (trim item))
    (JsSet.ofList ports).insertionSort (· ≤ ·)

def optionalPort : PortValue → Option ℤ
  | .missing => none
  | .text s => if s = [] then none else portOf (number s)
  | .number n => portOf n

/-- The two ends, if both are ports and in order. -/
def optionalRange (start stop : PortValue) : Option PortInterval :=
  match optionalPort number start, optionalPort number stop with
  | some start, some stop => if start ≤ stop then some ⟨start, stop⟩ else none
  | _, _ => none

/-- The key of the map, the text `start:end`, is the interval again. -/
def portPolicyFrom (source : Option PortPolicySource) : PortPolicy :=
  let source := source.getD {}
  let range := optionalRange number source.portRangeStart source.portRangeEnd
  let given := source.portRanges.filterMap fun range => optionalRange number range.start range.stop
  let ranges := normalizeIntervals ((JsMap.index id given).entries.map Prod.snd)
  { rangeStart := range.map Intervals.Interval.start
    rangeEnd := range.map Intervals.Interval.stop
    allowlist := parsePortAllowlist number source.portAllowlist
    ranges := if ranges = [] then none else some ranges
    normalized := true }

def portPolicyHasRestriction (policy : PortPolicy) : Bool :=
  policy.denyAll || policy.primaryRange.isSome || policy.otherRanges ≠ [] || policy.allowlist ≠ []

def isPortAllowedByPolicy (port : JsNumber) (policy : PortPolicy) : Bool :=
  match portOf port with
  | none => false
  | some port =>
    if policy.denyAll then false
    else if !portPolicyHasRestriction policy then true
    else if policy.primaryRange.any fun range => range.Has port then true
    else if policy.normalized then
      sortedIntervalsInclude policy.otherRanges port || sortedNumbersInclude policy.allowlist port
    else (policy.otherRanges.any fun range => range.Has port) || policy.allowlist.contains port

/-- The loop ends early when nothing is left. -/
def intersectAll (allowed : List PortInterval) : List PortPolicy → List PortInterval
  | [] => allowed
  | policy :: rest =>
    if allowed = [] then allowed
    else intersectAll (intersectIntervals allowed (policyIntervals policy)) rest

def bestIndex (allowed : List PortInterval) : ℕ :=
  let length (index : ℕ) := (allowed[index]?).elim 0 fun range => range.stop - range.start
  (List.range' 1 (allowed.length - 1)).foldl
    (fun best index => if length best < length index then index else best) 0

/-- A policy with a primary range, or none, and intervals beside it. -/
def policyOfParts (primary : Option PortInterval) (remaining : List PortInterval) : PortPolicy :=
  let ranges := remaining.filter fun range => range.start ≠ range.stop
  { rangeStart := primary.map Intervals.Interval.start
    rangeEnd := primary.map Intervals.Interval.stop
    allowlist := (remaining.filter fun range => range.start = range.stop).map Intervals.Interval.start
    ranges := if ranges = [] then none else some ranges
    normalized := true }

/-- The policy of what is allowed, with the longest interval as its primary range unless
that is a single port. -/
def policyOfIntervals (allowed : List PortInterval) : PortPolicy :=
  match allowed[bestIndex allowed]? with
  | none => { denyAll := true, normalized := true }
  | some best =>
    if best.start < best.stop then policyOfParts (some best) (allowed.eraseIdx (bestIndex allowed))
    else policyOfParts none allowed

def combinePortPolicies (policies : List PortPolicy) : PortPolicy :=
  match policies.filter portPolicyHasRestriction with
  | [] => portPolicyFrom number none
  | first :: rest => policyOfIntervals (intersectAll (policyIntervals first) rest)

inductive BuiltPolicy : PortPolicy → Prop
  | source (source : Option PortPolicySource) : BuiltPolicy (portPolicyFrom number source)
  | combined (policies : List PortPolicy) (h : ∀ policy ∈ policies, BuiltPolicy policy) :
    BuiltPolicy (combinePortPolicies number policies)

end

/-! ## Taking a port -/

/-- `for (let port = start; port <= end; port++)`. -/
def portsFrom (range : PortInterval) : List ℤ :=
  (List.range (range.stop + 1 - range.start).toNat).map fun i : ℕ => range.start + i

def addCandidate (usedPorts : Finset ℤ) (candidates : List ℤ) (port : ℤ) : List ℤ :=
  if port ∈ usedPorts ∨ port ∈ candidates then candidates else candidates ++ [port]

def defaultRange (defaults : PortInterval) : PortInterval :=
  let start := max 1 (min 65535 defaults.start)
  ⟨start, max start (min 65535 defaults.stop)⟩

/-- `candidates[Math.floor(Math.random() * candidates.length)]`. -/
def chooseCandidate (random : ℚ) (candidates : List ℤ) : Option ℤ :=
  if candidates.length = 0 then none else candidates[⌊random * candidates.length⌋.toNat]?

def pickAvailablePort (random : ℚ) (policy : PortPolicy) (usedPorts : Finset ℤ)
    (defaults : PortInterval) : Option ℤ :=
  if portPolicyHasRestriction policy then
    let ports := (policy.primaryRange.toList ++ policy.otherRanges).flatMap portsFrom ++ policy.allowlist
    chooseCandidate random (ports.foldl (addCandidate usedPorts) [])
  else
    let allowed := defaultRange defaults
    let range := allowed.stop - allowed.start + 1
    if range ≤ 10000 then
      chooseCandidate random ((portsFrom allowed).foldl (addCandidate usedPorts) [])
    else
      let offset := ⌊random * range⌋
      ((List.range range.toNat).map fun i : ℕ => allowed.start + (offset + i) % range).find?
        fun port => port ∉ usedPorts

/-! ## What a policy stands for -/

def PortPolicy.Lists (policy : PortPolicy) (port : ℤ) : Prop :=
  Covers (policy.primaryRange.toList ++ policy.otherRanges) port ∨ port ∈ policy.allowlist

def PortPolicy.allowed (policy : PortPolicy) : Set ℤ :=
  {port | IsPort port ∧ policy.denyAll = false ∧
    (portPolicyHasRestriction policy = true → policy.Lists port)}

/-- What the policies that are built have in common: the parts are in order and of ports. -/
structure PortPolicy.WellFormed (policy : PortPolicy) : Prop where
  ranges : Separate policy.otherRanges
  allowlist : policy.allowlist.Pairwise (· < ·)
  ports : ∀ port, policy.Lists port → IsPort port
  denied : policy.denyAll = true → ∀ port, ¬ policy.Lists port

variable {port : ℤ}

theorem isPort_of_portOf {n : JsNumber} (h : portOf n = some port) : IsPort port := by
  cases n with
  | nan => exact absurd h nofun
  | infinity negative => exact absurd h nofun
  | finite q =>
    rw [portOf, Option.ite_none_right_eq_some] at h
    obtain ⟨⟨-, hport⟩, heq⟩ := h
    rwa [← Option.some.inj heq]

theorem portOf_intCast (h : IsPort port) : portOf (.finite port) = some port := by
  rw [portOf, if_pos ⟨Rat.den_intCast port, by rwa [Rat.num_intCast]⟩, Rat.num_intCast]

theorem eq_of_portOf_intCast {port port' : ℤ} (h : port' ∈ portOf (.finite port)) : port' = port := by
  rw [Option.mem_def, portOf, Option.ite_none_right_eq_some, Rat.num_intCast] at h
  exact (Option.some.inj h.2).symm

/-! ### Intervals -/

theorem has_singlePort {port x : ℤ} : (singlePort port).Has x ↔ x = port := by
  simp only [singlePort, Intervals.Interval.Has]
  omega

theorem covers_map_singlePort {ports : List ℤ} {x : ℤ} : Covers (ports.map singlePort) x ↔ x ∈ ports := by
  simp [Covers, has_singlePort]

theorem covers_filterMap_clampInterval {l : List PortInterval} {x : ℤ} :
    Covers (l.filterMap clampInterval) x ↔ IsPort x ∧ Covers l x := by
  have hclamp (range : PortInterval) :
      (∃ i ∈ clampInterval range, i.Has x) ↔ IsPort x ∧ range.Has x := by
    rw [clampInterval]
    split_ifs with hproper
    · simp only [Option.mem_def, Option.some.injEq, exists_eq_left', Intervals.Interval.Has, IsPort]
      omega
    · refine iff_of_false (by simp) fun h => hproper ?_
      simp only [Intervals.Interval.Has, IsPort] at h
      omega
  simp only [Covers, mem_filterMap]
  constructor
  · rintro ⟨i, ⟨range, hrange, hi⟩, hx⟩
    obtain ⟨hport, hhas⟩ := (hclamp range).mp ⟨i, hi, hx⟩
    exact ⟨hport, range, hrange, hhas⟩
  · rintro ⟨hport, range, hrange, hhas⟩
    obtain ⟨i, hi, hx⟩ := (hclamp range).mpr ⟨hport, hhas⟩
    exact ⟨i, ⟨range, hrange, hi⟩, hx⟩

variable (l : List PortInterval)

theorem ordered_sorted :
    Ordered ((l.filterMap clampInterval).insertionSort intervalBefore) where
  proper i hi := by
    rw [mem_insertionSort, mem_filterMap] at hi
    obtain ⟨range, -, hi⟩ := hi
    rw [clampInterval, Option.ite_none_right_eq_some] at hi
    exact Option.some.inj hi.2 ▸ hi.1
  starts := by
    have : Std.Total intervalBefore := ⟨fun a b => by simp only [intervalBefore]; omega⟩
    have : IsTrans PortInterval intervalBefore := ⟨fun a b c => by simp only [intervalBefore]; omega⟩
    refine (pairwise_insertionSort intervalBefore _).imp fun h => ?_
    simp only [intervalBefore] at h
    omega

theorem covers_normalizeIntervals (x : ℤ) :
    Covers (normalizeIntervals l) x ↔ IsPort x ∧ Covers l x := by
  rw [normalizeIntervals, covers_mergeTouching (ordered_sorted l), ← covers_filterMap_clampInterval]
  exact covers_iff_of_mem_iff (fun i => mem_insertionSort _) x

theorem separate_normalizeIntervals : Separate (normalizeIntervals l) :=
  separate_mergeTouching (ordered_sorted l)

theorem covers_policyIntervals (policy : PortPolicy) (x : ℤ) :
    Covers (policyIntervals policy) x ↔ IsPort x ∧ policy.denyAll = false ∧ policy.Lists x := by
  rw [policyIntervals]
  split_ifs with hdeny
  · simp [hdeny]
  · rw [covers_normalizeIntervals, covers_append, covers_map_singlePort, PortPolicy.Lists]
    simp [hdeny]

theorem separate_policyIntervals (policy : PortPolicy) : Separate (policyIntervals policy) := by
  rw [policyIntervals]
  split_ifs
  · exact Separate.nil
  · exact separate_normalizeIntervals _

/-! ### Membership -/

theorem sortedNumbersInclude_iff {values : List ℤ} (h : values.Pairwise (· < ·)) (target : ℤ) :
    sortedNumbersInclude values target = true ↔ target ∈ values := by
  have hord : InOrder (fun value => compare value target) values := by
    refine h.imp fun {v w} hvw => ?_
    simp only [Int.compare_eq_lt, Int.compare_eq_gt]
    omega
  rw [sortedNumbersInclude, bisect_iff hord]
  simp only [Int.compare_eq_eq, exists_eq_right]

theorem intervalSide_eq_eq {target : ℤ} {range : PortInterval} :
    intervalSide target range = .eq ↔ range.Has target := by
  rw [intervalSide, Intervals.Interval.Has]
  split_ifs <;> simp <;> omega

theorem sortedIntervalsInclude_iff {intervals : List PortInterval} (h : Separate intervals) (target : ℤ) :
    sortedIntervalsInclude intervals target = true ↔ Covers intervals target := by
  have hord : InOrder (intervalSide target) intervals := by
    refine h.before.imp_of_mem fun {v w} hv hw hvw => ?_
    have hproper := h.proper v hv
    have hproper' := h.proper w hw
    simp only [intervalSide]
    split_ifs <;> simp <;> omega
  rw [sortedIntervalsInclude, bisect_iff hord]
  simp only [intervalSide_eq_eq, Covers]

variable {policy : PortPolicy}

theorem lists_iff :
    policy.Lists port ↔ (∃ range ∈ policy.primaryRange, range.Has port) ∨
      Covers policy.otherRanges port ∨ port ∈ policy.allowlist := by
  rw [PortPolicy.Lists, covers_append, or_assoc]
  simp [Covers]

theorem restricted_of_lists (h : policy.Lists port) :
    portPolicyHasRestriction policy = true := by
  rw [portPolicyHasRestriction]
  obtain ⟨range, hrange, -⟩ | ⟨range, hrange, -⟩ | hport := lists_iff.mp h
  · simp [Option.mem_def.mp hrange]
  · simp [ne_nil_of_mem hrange]
  · simp [ne_nil_of_mem hport]

theorem isPortAllowedByPolicy_iff (h : policy.WellFormed) (n : JsNumber) :
    isPortAllowedByPolicy n policy = true ↔ ∃ port ∈ portOf n, port ∈ policy.allowed := by
  rw [isPortAllowedByPolicy]
  cases hn : portOf n with
  | none => simp
  | some port =>
    have hport := isPort_of_portOf hn
    simp only [Option.mem_def, Option.some.injEq, exists_eq_left', PortPolicy.allowed,
      Set.mem_ofPred_eq, hport, true_and]
    cases hdeny : policy.denyAll with
    | true => simp
    | false =>
      cases hrestricted : portPolicyHasRestriction policy with
      | false => simp
      | true =>
        rw [lists_iff]
        by_cases hin : ∃ range ∈ policy.primaryRange, range.Has port
        · obtain ⟨range, hrange, hhas⟩ := hin
          simp [Option.mem_def.mp hrange, hhas]
        · have hany : (policy.primaryRange.any fun range => range.Has port) = false := by
            rw [Bool.eq_false_iff, ne_eq, Option.any_eq_true]
            simpa using hin
          rw [hany, or_iff_right hin]
          cases policy.normalized with
          | true =>
            simp [sortedIntervalsInclude_iff h.ranges, sortedNumbersInclude_iff h.allowlist]
          | false => simp [Covers]

/-! ### Combining -/

theorem intersectAll_spec (policies : List PortPolicy) : ∀ {allowed : List PortInterval},
    Separate allowed → Separate (intersectAll allowed policies) ∧
      ∀ x, Covers (intersectAll allowed policies) x ↔
        Covers allowed x ∧ ∀ policy ∈ policies, Covers (policyIntervals policy) x := by
  induction policies with
  | nil => exact fun h => ⟨h, fun x => by simp [intersectAll]⟩
  | cons policy rest ih =>
    intro allowed h
    rw [intersectAll]
    split_ifs with hnil
    · subst hnil
      exact ⟨h, fun x => by simp⟩
    · have hpolicy := separate_policyIntervals policy
      obtain ⟨hsep, hcovers⟩ := ih (separate_intersect h hpolicy)
      refine ⟨hsep, fun x => ?_⟩
      refine (hcovers x).trans ?_
      rw [covers_intersect h hpolicy, forall_mem_cons, and_assoc]

variable {allowed : List PortInterval}

theorem bestIndex_lt (h : allowed ≠ []) : bestIndex allowed < allowed.length := by
  have hloop : ∀ (indices : List ℕ) (f : ℕ → ℤ) (best : ℕ), best < allowed.length →
      (∀ i ∈ indices, i < allowed.length) →
      indices.foldl (fun best index => if f best < f index then index else best) best < allowed.length := by
    intro indices f
    induction indices with
    | nil => exact fun best hbest _ => hbest
    | cons index rest ih =>
      intro best hbest hall
      obtain ⟨hindex, hrest⟩ := forall_mem_cons.mp hall
      rw [foldl_cons]
      split_ifs
      · exact ih index hindex hrest
      · exact ih best hbest hrest
  refine hloop _ _ 0 (length_pos_of_ne_nil h) fun i hi => ?_
  rw [mem_range'_1] at hi
  omega

theorem covers_eraseIdx {i : ℕ} {best : PortInterval}
    (h : allowed[i]? = some best) (x : ℤ) :
    Covers allowed x ↔ best.Has x ∨ Covers (allowed.eraseIdx i) x := by
  obtain ⟨hi, rfl⟩ := List.getElem?_eq_some_iff.mp h
  rw [← covers_cons]
  refine covers_iff_of_mem_iff (fun j => ?_) x
  exact (getElem_cons_eraseIdx_perm hi).mem_iff.symm

theorem covers_filter_ne_or {l : List PortInterval} (hproper : ∀ i ∈ l, i.start ≤ i.stop) (x : ℤ) :
    Covers l x ↔ Covers (l.filter fun range => range.start ≠ range.stop) x ∨
      x ∈ (l.filter fun range => range.start = range.stop).map Intervals.Interval.start := by
  simp only [Covers, mem_filter, mem_map, decide_eq_true_eq]
  constructor
  · rintro ⟨i, hi, hx⟩
    by_cases heq : i.start = i.stop
    · refine .inr ⟨i, ⟨hi, heq⟩, ?_⟩
      simp only [Intervals.Interval.Has] at hx
      omega
    · exact .inl ⟨i, ⟨hi, heq⟩, hx⟩
  · rintro (⟨i, ⟨hi, -⟩, hx⟩ | ⟨i, ⟨hi, heq⟩, rfl⟩)
    · exact ⟨i, hi, hx⟩
    · exact ⟨i, hi, le_rfl, hproper i hi⟩

theorem otherRanges_ite (p : PortPolicy) :
    ({ p with ranges := if l = [] then none else some l } : PortPolicy).otherRanges = l := by
  rw [PortPolicy.otherRanges]
  split_ifs with h
  · exact h.symm
  · rfl

theorem primaryRange_map (range : Option PortInterval) (p : PortPolicy) :
    ({ p with rangeStart := range.map Intervals.Interval.start, rangeEnd := range.map Intervals.Interval.stop } :
      PortPolicy).primaryRange = range := by
  cases range <;> rfl

section

variable {primary : Option PortInterval} {remaining allowed : List PortInterval}

theorem otherRanges_policyOfParts :
    (policyOfParts primary remaining).otherRanges = remaining.filter fun range => range.start ≠ range.stop :=
  otherRanges_ite _ (policyOfParts primary remaining)

theorem primaryRange_policyOfParts : (policyOfParts primary remaining).primaryRange = primary :=
  primaryRange_map primary (policyOfParts primary remaining)

theorem lists_policyOfParts (hproper : ∀ i ∈ remaining, i.start ≤ i.stop) (x : ℤ) :
    (policyOfParts primary remaining).Lists x ↔ (∃ range ∈ primary, range.Has x) ∨ Covers remaining x := by
  rw [lists_iff, primaryRange_policyOfParts, otherRanges_policyOfParts, covers_filter_ne_or hproper]
  rfl

theorem separate_policyOfParts (h : Separate remaining) :
    Separate (policyOfParts primary remaining).otherRanges := by
  rw [otherRanges_policyOfParts]
  exact h.sublist filter_sublist

theorem allowlist_policyOfParts (h : Separate remaining) :
    (policyOfParts primary remaining).allowlist.Pairwise (· < ·) := by
  refine pairwise_map.mpr ((h.sublist filter_sublist).before.imp_of_mem ?_)
  intro i j hi _ hij
  rw [mem_filter, decide_eq_true_eq] at hi
  omega

theorem nil_of_bestIndex (h : allowed[bestIndex allowed]? = none) : allowed = [] := by
  by_contra hne
  exact absurd (bestIndex_lt hne) (getElem?_eq_none_iff.mp h).not_gt

section

variable (h : Separate allowed)

include h

theorem policyOfIntervals_cases :
    (allowed = [] ∧ policyOfIntervals allowed = { denyAll := true, normalized := true }) ∨
      ∃ primary remaining, policyOfIntervals allowed = policyOfParts primary remaining ∧
        Separate remaining ∧ allowed ≠ [] ∧
        ∀ x, Covers allowed x ↔ (∃ range ∈ primary, range.Has x) ∨ Covers remaining x := by
  rw [policyOfIntervals]
  cases hbest : allowed[bestIndex allowed]? with
  | none => exact .inl ⟨nil_of_bestIndex hbest, rfl⟩
  | some best =>
    have hne : allowed ≠ [] := ne_nil_of_mem (mem_of_getElem? hbest)
    refine .inr ?_
    dsimp only
    split_ifs
    · refine ⟨some best, _, rfl, h.sublist (eraseIdx_sublist _ _), hne, fun x => ?_⟩
      simpa using covers_eraseIdx hbest x
    · exact ⟨none, allowed, rfl, h, hne, fun x => by simp⟩

theorem lists_policyOfIntervals (x : ℤ) : (policyOfIntervals allowed).Lists x ↔ Covers allowed x := by
  obtain ⟨rfl, heq⟩ | ⟨primary, remaining, heq, hsep, -, hcovers⟩ := policyOfIntervals_cases h
  · rw [heq]
    simp [PortPolicy.Lists, PortPolicy.primaryRange, PortPolicy.otherRanges]
  · rw [heq, lists_policyOfParts hsep.proper, hcovers]

theorem denyAll_policyOfIntervals : (policyOfIntervals allowed).denyAll = true ↔ allowed = [] := by
  obtain ⟨rfl, heq⟩ | ⟨primary, remaining, heq, -, hne, -⟩ := policyOfIntervals_cases h
  · rw [heq]
    exact iff_of_true rfl rfl
  · rw [heq]
    exact iff_of_false nofun hne

theorem wellFormed_policyOfIntervals (hports : ∀ x, Covers allowed x → IsPort x) :
    (policyOfIntervals allowed).WellFormed where
  ports x hx := hports x ((lists_policyOfIntervals h x).mp hx)
  denied hdeny x hx := by
    rw [lists_policyOfIntervals h, (denyAll_policyOfIntervals h).mp hdeny] at hx
    exact covers_nil x hx
  ranges := by
    obtain ⟨-, heq⟩ | ⟨primary, remaining, heq, hsep, -⟩ := policyOfIntervals_cases h
    · rw [heq]
      exact Separate.nil
    · rw [heq]
      exact separate_policyOfParts hsep
  allowlist := by
    obtain ⟨-, heq⟩ | ⟨primary, remaining, heq, hsep, -⟩ := policyOfIntervals_cases h
    · rw [heq]
      exact List.Pairwise.nil
    · rw [heq]
      exact allowlist_policyOfParts hsep

theorem allowed_policyOfIntervals (hports : ∀ x, Covers allowed x → IsPort x) (x : ℤ) :
    x ∈ (policyOfIntervals allowed).allowed ↔ Covers allowed x := by
  rw [← lists_policyOfIntervals h]
  refine ⟨fun hx => ?_, fun hx => ⟨?_, ?_, fun _ => hx⟩⟩
  · obtain ⟨-, hdeny, hrestricted⟩ := hx
    have hne : allowed ≠ [] := by
      rw [ne_eq, ← denyAll_policyOfIntervals h, hdeny]
      exact Bool.false_ne_true
    obtain ⟨i, hi⟩ := exists_mem_of_ne_nil allowed hne
    have hstart : Covers allowed i.start := ⟨i, hi, le_rfl, h.proper i hi⟩
    exact hrestricted (restricted_of_lists ((lists_policyOfIntervals h i.start).mpr hstart))
  · exact hports x ((lists_policyOfIntervals h x).mp hx)
  · rw [Bool.eq_false_iff, ne_eq, denyAll_policyOfIntervals h]
    rintro rfl
    exact covers_nil x ((lists_policyOfIntervals h x).mp hx)

end

end

theorem mem_allowed_of_restricted {policy : PortPolicy} (h : portPolicyHasRestriction policy = true) (x : ℤ) :
    x ∈ policy.allowed ↔ Covers (policyIntervals policy) x := by
  rw [covers_policyIntervals]
  simp [PortPolicy.allowed, h]

theorem allowed_of_unrestricted {policy : PortPolicy} (h : portPolicyHasRestriction policy = false) :
    policy.allowed = {x | IsPort x} := by
  have hdeny : policy.denyAll = false := by
    rw [portPolicyHasRestriction, Bool.or_eq_false_iff, Bool.or_eq_false_iff, Bool.or_eq_false_iff] at h
    exact h.1.1.1
  ext x
  simp [PortPolicy.allowed, h, hdeny]

section

variable {number : JsString → JsNumber}

theorem portPolicyFrom_none : portPolicyFrom number none = { normalized := true } := rfl

theorem primaryRange_portPolicyFrom (source : Option PortPolicySource) :
    (portPolicyFrom number source).primaryRange =
      optionalRange number (source.getD {}).portRangeStart (source.getD {}).portRangeEnd :=
  primaryRange_map _ (portPolicyFrom number source)

theorem otherRanges_portPolicyFrom (number : JsString → JsNumber) (source : Option PortPolicySource) :
    ∃ given, (portPolicyFrom number source).otherRanges = normalizeIntervals given :=
  ⟨_, otherRanges_ite _ (portPolicyFrom number source)⟩

theorem mem_allowed_combinePortPolicies (policies : List PortPolicy) (x : ℤ) :
    x ∈ (combinePortPolicies number policies).allowed ↔
      IsPort x ∧ ∀ policy ∈ policies, x ∈ policy.allowed := by
  have hrestricted : (∀ policy ∈ policies.filter portPolicyHasRestriction, Covers (policyIntervals policy) x) ∧
      IsPort x ↔ IsPort x ∧ ∀ policy ∈ policies, x ∈ policy.allowed := by
    rw [and_comm]
    refine and_congr_right fun hport => ⟨fun h policy hpolicy => ?_, fun h policy hpolicy => ?_⟩
    · cases hr : portPolicyHasRestriction policy with
      | true => exact (mem_allowed_of_restricted hr x).mpr (h policy (mem_filter.mpr ⟨hpolicy, hr⟩))
      | false => exact (allowed_of_unrestricted hr).symm ▸ hport
    · obtain ⟨hmem, hr⟩ := mem_filter.mp hpolicy
      exact (mem_allowed_of_restricted hr x).mp (h policy hmem)
  rw [← hrestricted, combinePortPolicies]
  cases policies.filter portPolicyHasRestriction with
  | nil =>
    rw [portPolicyFrom_none, allowed_of_unrestricted rfl]
    simp
  | cons first rest =>
    obtain ⟨hsep, hcovers⟩ := intersectAll_spec rest (separate_policyIntervals first)
    have hports : ∀ x, Covers (intersectAll (policyIntervals first) rest) x → IsPort x := fun x hx =>
      ((covers_policyIntervals first x).mp ((hcovers x).mp hx).1).1
    rw [allowed_policyOfIntervals hsep hports, hcovers, forall_mem_cons]
    refine ⟨fun hx => ⟨hx, hports x ((hcovers x).mpr hx)⟩, And.left⟩

theorem wellFormed_combinePortPolicies (number : JsString → JsNumber) (policies : List PortPolicy) :
    (combinePortPolicies number policies).WellFormed := by
  rw [combinePortPolicies]
  cases policies.filter portPolicyHasRestriction with
  | nil =>
    rw [portPolicyFrom_none]
    have hlists (x : ℤ) : ¬ ({ normalized := true } : PortPolicy).Lists x := by
      simp [PortPolicy.Lists, PortPolicy.primaryRange, PortPolicy.otherRanges]
    exact ⟨Separate.nil, List.Pairwise.nil, fun x hx => absurd hx (hlists x), fun _ => hlists⟩
  | cons first rest =>
    obtain ⟨hsep, hcovers⟩ := intersectAll_spec rest (separate_policyIntervals first)
    exact wellFormed_policyOfIntervals hsep fun x hx =>
      ((covers_policyIntervals first x).mp ((hcovers x).mp hx).1).1

theorem isPort_of_optionalPort {value : PortValue} {port : ℤ} (h : optionalPort number value = some port) :
    IsPort port := by
  cases value with
  | missing => exact absurd h nofun
  | text s =>
    rw [optionalPort, Option.ite_none_left_eq_some] at h
    exact isPort_of_portOf h.2
  | number n => exact isPort_of_portOf h

theorem ports_of_optionalRange {start stop : PortValue} {range : PortInterval}
    (h : optionalRange number start stop = some range) {x : ℤ} (hx : range.Has x) : IsPort x := by
  rw [optionalRange] at h
  cases hstart : optionalPort number start with
  | none => simp [hstart] at h
  | some first =>
    cases hstop : optionalPort number stop with
    | none => simp [hstart, hstop] at h
    | some last =>
      simp only [hstart, hstop, Option.ite_none_right_eq_some, Option.some.injEq] at h
      obtain ⟨-, rfl⟩ := h
      have := isPort_of_optionalPort hstart
      have := isPort_of_optionalPort hstop
      simp only [IsPort, Intervals.Interval.Has] at *
      omega

theorem parsePortAllowlist_spec (value : JsString) :
    (parsePortAllowlist number value).Pairwise (· < ·) ∧
      ∀ port ∈ parsePortAllowlist number value, IsPort port := by
  rw [parsePortAllowlist]
  split_ifs
  · exact ⟨List.Pairwise.nil, forall_mem_nil _⟩
  · have hnodup := ((perm_insertionSort (· ≤ ·) (JsSet.ofList (((trim value).splitOn 0x2C).filterMap
      fun item => portOf (number (trim item))))).nodup_iff).mpr (JsSet.nodup_ofList _)
    refine ⟨((pairwise_insertionSort (· ≤ ·) _).and hnodup).imp fun h => lt_of_le_of_ne h.1 h.2,
      fun port hport => ?_⟩
    rw [mem_insertionSort, JsSet.mem_ofList, mem_filterMap] at hport
    obtain ⟨item, -, hitem⟩ := hport
    exact isPort_of_portOf hitem

theorem wellFormed_portPolicyFrom (source : Option PortPolicySource) :
    (portPolicyFrom number source).WellFormed where
  ranges := by
    obtain ⟨given, heq⟩ := otherRanges_portPolicyFrom number source
    rw [heq]
    exact separate_normalizeIntervals given
  allowlist := (parsePortAllowlist_spec _).1
  denied := nofun
  ports x hx := by
    obtain ⟨range, hrange, hx⟩ | hx | hx := lists_iff.mp hx
    · rw [primaryRange_portPolicyFrom] at hrange
      exact ports_of_optionalRange hrange hx
    · obtain ⟨given, heq⟩ := otherRanges_portPolicyFrom number source
      rw [heq, covers_normalizeIntervals] at hx
      exact hx.1
    · exact (parsePortAllowlist_spec _).2 x hx

theorem BuiltPolicy.wellFormed {policy : PortPolicy} (h : BuiltPolicy number policy) : policy.WellFormed := by
  cases h with
  | source source => exact wellFormed_portPolicyFrom source
  | combined policies h => exact wellFormed_combinePortPolicies number policies

end

/-! ### Taking a port -/

section

variable {usedPorts : Finset ℤ} {random : ℚ}

theorem mem_portsFrom {range : PortInterval} {port : ℤ} : port ∈ portsFrom range ↔ range.Has port := by
  simp only [portsFrom, mem_map, mem_range, Intervals.Interval.Has]
  constructor
  · rintro ⟨i, hi, rfl⟩
    omega
  · exact fun h => ⟨(port - range.start).toNat, by omega, by omega⟩

variable {ports : List ℤ}

theorem mem_candidates {port : ℤ} : ∀ candidates : List ℤ,
    port ∈ ports.foldl (addCandidate usedPorts) candidates ↔
      port ∈ candidates ∨ port ∈ ports ∧ port ∉ usedPorts := by
  induction ports with
  | nil => simp
  | cons first rest ih =>
    intro candidates
    rw [foldl_cons, ih, addCandidate]
    split_ifs with hskip
    · constructor
      · rintro (h | ⟨h, hfree⟩)
        · exact .inl h
        · exact .inr ⟨mem_cons_of_mem _ h, hfree⟩
      · rintro (h | ⟨h, hfree⟩)
        · exact .inl h
        · obtain rfl | h := mem_cons.mp h
          · exact .inl (hskip.resolve_left hfree)
          · exact .inr ⟨h, hfree⟩
    · obtain ⟨hfree, -⟩ := not_or.mp hskip
      rw [mem_append, mem_singleton, mem_cons, or_assoc]
      refine or_congr_right ⟨?_, ?_⟩
      · rintro (rfl | ⟨h, hfree'⟩)
        · exact ⟨.inl rfl, hfree⟩
        · exact ⟨.inr h, hfree'⟩
      · rintro ⟨rfl | h, hfree'⟩
        · exact .inl rfl
        · exact .inr ⟨h, hfree'⟩

theorem floor_random_lt (h0 : 0 ≤ random) (h1 : random < 1) {n : ℕ} (hn : 0 < n) : ⌊random * n⌋.toNat < n := by
  have hpos : (0 : ℚ) < n := Nat.cast_pos.mpr hn
  have hlt : random * n < (n : ℤ) := by
    calc random * n < 1 * n := mul_lt_mul_of_pos_right h1 hpos
      _ = (n : ℤ) := by rw [one_mul, Int.cast_natCast]
  have hfloor := Int.floor_lt.mpr hlt
  have hnonneg : 0 ≤ ⌊random * n⌋ := Int.floor_nonneg.mpr (mul_nonneg h0 hpos.le)
  omega

/-- What is picked out of the free ports of a list: one of them, while there is one. -/
def Picks (usedPorts : Finset ℤ) (allowed : Set ℤ) (picked : Option ℤ) : Prop :=
  (∀ port ∈ picked, port ∈ allowed ∧ port ∉ usedPorts) ∧
    (picked = none ↔ ∀ port ∈ allowed, port ∈ usedPorts)

theorem picks_chooseCandidate (h0 : 0 ≤ random) (h1 : random < 1) {allowed : Set ℤ}
    (hports : ∀ port, port ∈ ports ↔ port ∈ allowed) :
    Picks usedPorts allowed (chooseCandidate random (ports.foldl (addCandidate usedPorts) [])) := by
  have hmem (port : ℤ) : port ∈ ports.foldl (addCandidate usedPorts) [] ↔
      port ∈ allowed ∧ port ∉ usedPorts := by
    rw [mem_candidates, hports]
    simp
  generalize ports.foldl (addCandidate usedPorts) [] = candidates at hmem
  rw [chooseCandidate]
  split_ifs with hlen
  · rw [length_eq_zero_iff] at hlen
    subst hlen
    refine ⟨nofun, iff_of_true rfl fun port hport => ?_⟩
    by_contra hfree
    exact absurd ((hmem port).mpr ⟨hport, hfree⟩) not_mem_nil
  · have hlt := floor_random_lt h0 h1 (Nat.pos_of_ne_zero hlen)
    have hget := getElem_mem hlt
    rw [getElem?_eq_getElem hlt]
    obtain ⟨hallowed, hfree⟩ := (hmem _).mp hget
    refine ⟨fun port hport => (hmem port).mp (Option.mem_some_iff.mp hport ▸ hget), ?_⟩
    exact iff_of_false nofun fun h => hfree (h _ hallowed)

theorem mem_scan {range : PortInterval} {offset port : ℤ} (hproper : range.start ≤ range.stop) :
    port ∈ (List.range (range.stop - range.start + 1).toNat).map
        (fun i : ℕ => range.start + (offset + i) % (range.stop - range.start + 1)) ↔ range.Has port := by
  obtain ⟨n, hn⟩ : ∃ n, n = range.stop - range.start + 1 := ⟨_, rfl⟩
  have hpos : 0 < n := by omega
  rw [← hn]
  simp only [mem_map, mem_range, Intervals.Interval.Has]
  constructor
  · rintro ⟨i, -, rfl⟩
    have := Int.emod_nonneg (offset + i) hpos.ne'
    have := Int.emod_lt_of_pos (offset + i) hpos
    omega
  · intro h
    have hnonneg := Int.emod_nonneg (port - range.start - offset) hpos.ne'
    have hlt := Int.emod_lt_of_pos (port - range.start - offset) hpos
    refine ⟨((port - range.start - offset) % n).toNat, by omega, ?_⟩
    rw [Int.toNat_of_nonneg hnonneg, Int.add_emod_emod, add_sub_cancel,
      Int.emod_eq_of_lt (by omega) (by omega)]
    omega

theorem picks_find? {allowed : Set ℤ} (hports : ∀ port, port ∈ ports ↔ port ∈ allowed) :
    Picks usedPorts allowed (ports.find? fun port => port ∉ usedPorts) := by
  refine ⟨fun port hport => ?_, ?_⟩
  · exact ⟨(hports port).mp (mem_of_find?_eq_some hport), by simpa using find?_some hport⟩
  · rw [find?_eq_none]
    simp [hports]

/-- Where ports are taken from: the policy, or the default range without one. -/
def pickable (policy : PortPolicy) (defaults : PortInterval) : Set ℤ :=
  if portPolicyHasRestriction policy then {port | isPortAllowedByPolicy (.finite port) policy = true}
  else {port | (defaultRange defaults).Has port}

theorem defaultRange_proper (defaults : PortInterval) :
    (defaultRange defaults).start ≤ (defaultRange defaults).stop := le_max_left _ _

theorem picks_pickAvailablePort {policy : PortPolicy} (hwf : policy.WellFormed) (h0 : 0 ≤ random)
    (h1 : random < 1) (defaults : PortInterval) :
    Picks usedPorts (pickable policy defaults) (pickAvailablePort random policy usedPorts defaults) := by
  rw [pickable, pickAvailablePort]
  split_ifs with hrestricted
  · refine picks_chooseCandidate h0 h1 fun port => ?_
    have hlists : port ∈ (policy.primaryRange.toList ++ policy.otherRanges).flatMap portsFrom ++
        policy.allowlist ↔ policy.Lists port := by
      simp only [mem_append, mem_flatMap, mem_portsFrom, PortPolicy.Lists, Covers]
    rw [hlists, Set.mem_ofPred_eq, isPortAllowedByPolicy_iff hwf]
    constructor
    · intro hport
      refine ⟨port, portOf_intCast (hwf.ports port hport), hwf.ports port hport, ?_, fun _ => hport⟩
      rw [Bool.eq_false_iff]
      exact fun hdeny => hwf.denied hdeny port hport
    · rintro ⟨port', hport', hallowed⟩
      rw [eq_of_portOf_intCast hport'] at hallowed
      exact hallowed.2.2 hrestricted
  · dsimp only
    split_ifs
    · exact picks_chooseCandidate h0 h1 fun port => mem_portsFrom
    · exact picks_find? fun port => mem_scan (defaultRange_proper defaults)

end

/-! ## The algebra -/

/-- Two policies allow the same numbers. -/
def SameMembers (p q : PortPolicy) : Prop := ∀ n, isPortAllowedByPolicy n p = isPortAllowedByPolicy n q

variable {number : JsString → JsNumber}

theorem isPortAllowedByPolicy_combine {policies : List PortPolicy}
    (h : ∀ policy ∈ policies, policy.WellFormed) (n : JsNumber) :
    isPortAllowedByPolicy n (combinePortPolicies number policies) = true ↔
      (portOf n).isSome ∧ ∀ policy ∈ policies, isPortAllowedByPolicy n policy = true := by
  rw [isPortAllowedByPolicy_iff (wellFormed_combinePortPolicies number policies)]
  cases hn : portOf n with
  | none => simp
  | some port =>
    have hport := isPort_of_portOf hn
    simp only [Option.mem_def, Option.some.injEq, exists_eq_left', mem_allowed_combinePortPolicies, hport,
      true_and, Option.isSome_some]
    refine forall₂_congr fun policy hpolicy => ?_
    rw [isPortAllowedByPolicy_iff (h policy hpolicy), hn]
    simp

theorem isSome_of_allowed {n : JsNumber} {policy : PortPolicy} (h : isPortAllowedByPolicy n policy = true) :
    (portOf n).isSome := by
  rw [isPortAllowedByPolicy] at h
  cases hn : portOf n with
  | none => simp [hn] at h
  | some port => rfl

theorem isPortAllowedByPolicy_combine_pair {p q : PortPolicy}
    (hp : p.WellFormed) (hq : q.WellFormed) (n : JsNumber) :
    isPortAllowedByPolicy n (combinePortPolicies number [p, q]) =
      (isPortAllowedByPolicy n p && isPortAllowedByPolicy n q) := by
  have hpq : ∀ policy ∈ [p, q], policy.WellFormed := by
    simp [hp, hq]
  rw [Bool.eq_iff_iff, isPortAllowedByPolicy_combine hpq, Bool.and_eq_true]
  simp only [forall_mem_cons, not_mem_nil, false_imp_iff, implies_true, and_true]
  exact and_iff_right_of_imp fun h => isSome_of_allowed h.1

theorem PortPolicy.WellFormed.search {policy : PortPolicy} (h : policy.WellFormed) (normalized : Bool) :
    ({ policy with normalized } : PortPolicy).WellFormed :=
  ⟨h.ranges, h.allowlist, h.ports, h.denied⟩

/-- **The port policy algebra**: membership, the laws of combining, the two searches, and
picking. -/
theorem port_policy_algebra (number : JsString → JsNumber) :
    (∀ policies, (∀ policy ∈ policies, BuiltPolicy number policy) → ∀ n,
      isPortAllowedByPolicy n (combinePortPolicies number policies) = true ↔
        (portOf n).isSome ∧ ∀ policy ∈ policies, isPortAllowedByPolicy n policy = true) ∧
    (∀ p q r, BuiltPolicy number p → BuiltPolicy number q → BuiltPolicy number r →
      SameMembers (combinePortPolicies number [combinePortPolicies number [p, q], r])
        (combinePortPolicies number [p, combinePortPolicies number [q, r]]) ∧
      SameMembers (combinePortPolicies number [p, q]) (combinePortPolicies number [q, p]) ∧
      SameMembers (combinePortPolicies number [p, p]) p) ∧
    (∀ p, BuiltPolicy number p → SameMembers { p with normalized := true } { p with normalized := false }) ∧
    ∀ p, BuiltPolicy number p → ∀ (random : ℚ), 0 ≤ random → random < 1 → ∀ (usedPorts : Finset ℤ) defaults,
      Picks usedPorts (pickable p defaults) (pickAvailablePort random p usedPorts defaults) := by
  have combined := wellFormed_combinePortPolicies number
  refine ⟨fun policies h n => ?_, fun p q r hp hq hr => ⟨fun n => ?_, fun n => ?_, fun n => ?_⟩,
    fun p hp n => ?_, fun p hp random h0 h1 usedPorts defaults => ?_⟩
  · exact isPortAllowedByPolicy_combine (fun policy hpolicy => (h policy hpolicy).wellFormed) n
  · rw [isPortAllowedByPolicy_combine_pair (combined _) hr.wellFormed,
      isPortAllowedByPolicy_combine_pair hp.wellFormed hq.wellFormed,
      isPortAllowedByPolicy_combine_pair hp.wellFormed (combined _),
      isPortAllowedByPolicy_combine_pair hq.wellFormed hr.wellFormed, Bool.and_assoc]
  · rw [isPortAllowedByPolicy_combine_pair hp.wellFormed hq.wellFormed,
      isPortAllowedByPolicy_combine_pair hq.wellFormed hp.wellFormed, Bool.and_comm]
  · rw [isPortAllowedByPolicy_combine_pair hp.wellFormed hp.wellFormed, Bool.and_self]
  · rw [Bool.eq_iff_iff, isPortAllowedByPolicy_iff (hp.wellFormed.search true),
      isPortAllowedByPolicy_iff (hp.wellFormed.search false)]
    rfl
  · exact picks_pickAvailablePort hp.wellFormed h0 h1 defaults

theorem port_policy_algebra_ranges :
    let number : JsString → JsNumber := fun _ => .nan
    let range (start stop : ℚ) : PortPolicy := portPolicyFrom number
      (some { portRangeStart := .number (.finite start), portRangeEnd := .number (.finite stop) })
    let policies := [range 20000 30000, range 25000 40000]
    (isPortAllowedByPolicy (.finite 26000) (combinePortPolicies number policies) = true ↔
      (portOf (.finite 26000)).isSome ∧
        ∀ policy ∈ policies, isPortAllowedByPolicy (.finite 26000) policy = true) ∧
      Picks {25000} (pickable (combinePortPolicies number policies) ⟨1, 65535⟩)
        (pickAvailablePort (1 / 2) (combinePortPolicies number policies) {25000} ⟨1, 65535⟩) := by
  intro number range policies
  have hbuilt : ∀ policy ∈ policies, BuiltPolicy number policy := by
    intro policy hpolicy
    simp only [policies, List.mem_cons, List.not_mem_nil, or_false] at hpolicy
    obtain rfl | rfl := hpolicy
    · exact .source _
    · exact .source _
  have halgebra := port_policy_algebra number
  exact ⟨halgebra.1 policies hbuilt (.finite 26000),
    halgebra.2.2.2 _ (.combined policies hbuilt) (1 / 2) (by norm_num) (by norm_num) {25000} ⟨1, 65535⟩⟩

end ForwardX.Panel
