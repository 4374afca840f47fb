/-
The dates of traffic resets, `server/repositories/billingRepository.ts`.

Both loops step from month to month. They end since months grow, and what they find is least since
months do not skip a boundary.
-/
import ForwardX.Panel.Subscriptions

namespace ForwardX.Panel

open Calendar

/-! ## Loops -/

/-- `while (next(k) <= limit) k += 1`, with what `next` is at its end. -/
inductive StepsTo (next : ℤ → ℤ) (limit : ℤ) : ℤ → ℤ → Prop
  | done {k : ℤ} (h : limit < next k) : StepsTo next limit k (next k)
  | step {k result : ℤ} (h : next k ≤ limit) (hrest : StepsTo next limit (k + 1) result) :
    StepsTo next limit k result

section

variable {next : ℤ → ℤ} {limit : ℤ}

theorem stepsTo_firstAfter {fuel : ℕ} {k : ℤ} (h : limit < next (k + fuel)) :
    StepsTo next limit k (firstAfter next limit fuel k) := by
  induction fuel generalizing k with
  | zero =>
    rw [Nat.cast_zero, add_zero] at h
    exact .done h
  | succ fuel ih =>
    rw [firstAfter]
    split_ifs with hle
    · refine .step hle (ih ?_)
      rw [add_assoc, add_comm 1]
      exact_mod_cast h
    · exact .done (not_le.mp hle)

theorem StepsTo.isLeast {k result : ℤ} (h : StepsTo next limit k result) (hmono : StrictMono next) :
    IsLeast {b | limit < b ∧ ∃ i, k ≤ i ∧ b = next i} result := by
  induction h with
  | @done k hlt =>
    refine ⟨⟨hlt, k, le_rfl, rfl⟩, ?_⟩
    rintro b ⟨-, i, hi, rfl⟩
    exact hmono.monotone hi
  | @step k result hle _ ih =>
    obtain ⟨⟨hlt, i, hi, heq⟩, hleast⟩ := ih
    refine ⟨⟨hlt, i, by omega, heq⟩, ?_⟩
    rintro b ⟨hb, j, hj, rfl⟩
    refine hleast ⟨hb, j, ?_, rfl⟩
    by_contra hk
    obtain rfl : j = k := by omega
    exact absurd hle (not_le.mpr hb)

end

/-! ## Anchored boundaries -/

/-- The boundary `months` months after the month an instant is in, on the day of the month
of that instant, or on the last day of a shorter month. -/
def anchoredBoundary (anchor months : ℤ) : ℤ :=
  billingStartOfDay (clampedDate (billingMonth anchor + months) (billingCalendarParts anchor).date.day)

theorem billingStartOfCalendarDay_billingAddMonthsClamped (anchor months : ℤ) :
    billingStartOfCalendarDay (billingAddMonthsClamped anchor months) = anchoredBoundary anchor months := by
  rw [billingStartOfCalendarDay_eq, billingDay_billingAddMonthsClamped, anchoredBoundary,
    billingStartOfDay_eq, billingCalendarParts_date]

theorem anchoredBoundary_mem (anchor months : ℤ) :
    boundaryAt 1 (billingMonth anchor + months) ≤ anchoredBoundary anchor months ∧
      anchoredBoundary anchor months < boundaryAt 1 (billingMonth anchor + months + 1) := by
  have hlen := monthLength_ge (billingMonth anchor + months)
  have hsucc := monthStart_succ (billingMonth anchor + months)
  rw [anchoredBoundary, billingStartOfDay_eq, clampedDate_toDay]
  unfold boundaryAt dayMs
  omega

theorem anchoredBoundary_strictMono (anchor : ℤ) : StrictMono (anchoredBoundary anchor) := by
  intro i j hij
  calc anchoredBoundary anchor i < boundaryAt 1 (billingMonth anchor + i + 1) :=
        (anchoredBoundary_mem anchor i).2
    _ ≤ boundaryAt 1 (billingMonth anchor + j) := (boundaryAt_strictMono 1).monotone (by omega)
    _ ≤ anchoredBoundary anchor j := (anchoredBoundary_mem anchor j).1

theorem anchoredBoundary_le {anchor months reference : ℤ}
    (h : billingMonth anchor + months < billingMonth reference) :
    anchoredBoundary anchor months ≤ reference := by
  calc anchoredBoundary anchor months ≤ boundaryAt 1 (billingMonth anchor + months + 1) :=
        (anchoredBoundary_mem anchor months).2.le
    _ ≤ boundaryAt 1 (billingMonth reference) := (boundaryAt_strictMono 1).monotone (by omega)
    _ ≤ reference := (boundaryAt_one_le reference).1

theorem lt_anchoredBoundary {anchor months reference : ℤ}
    (h : billingMonth reference < billingMonth anchor + months) :
    reference < anchoredBoundary anchor months := by
  calc reference < boundaryAt 1 (billingMonth reference + 1) := (boundaryAt_one_le reference).2
    _ ≤ boundaryAt 1 (billingMonth anchor + months) := (boundaryAt_strictMono 1).monotone (by omega)
    _ ≤ anchoredBoundary anchor months := (anchoredBoundary_mem anchor months).1

/-- `validDate(startedAt) || reference`. -/
def resetAnchor (startedAt : Option ℤ) (reference : ℤ) : ℤ := startedAt.getD reference

def monthDelta (anchor reference : ℤ) : ℤ := max 1 (billingMonth reference - billingMonth anchor)

theorem isLeast_from_one {anchor reference result : ℤ}
    (h : IsLeast {b | reference < b ∧ ∃ i, monthDelta anchor reference ≤ i ∧ b = anchoredBoundary anchor i}
      result) :
    IsLeast {b | reference < b ∧ ∃ i, 1 ≤ i ∧ b = anchoredBoundary anchor i} result := by
  obtain ⟨⟨hlt, i, hi, heq⟩, hleast⟩ := h
  have hdelta : monthDelta anchor reference = max 1 (billingMonth reference - billingMonth anchor) := rfl
  refine ⟨⟨hlt, i, by omega, heq⟩, ?_⟩
  rintro b ⟨hb, j, hj, rfl⟩
  refine hleast ⟨hb, j, ?_, rfl⟩
  by_contra hearly
  exact absurd (anchoredBoundary_le (by omega)) (not_le.mpr hb)

theorem anchored_loop (anchor reference : ℤ) :
    ∃ next, StepsTo (fun months => billingStartOfCalendarDay (billingAddMonthsClamped anchor months)) reference
        (monthDelta anchor reference) next ∧
      IsLeast {b | reference < b ∧ ∃ i, 1 ≤ i ∧ b = anchoredBoundary anchor i} next ∧
      ∀ expiresAt, nextAnchoredSubscriptionTrafficReset anchor reference expiresAt =
        boundTrafficResetAt (some next) expiresAt := by
  have hdelta : monthDelta anchor reference = max 1 (billingMonth reference - billingMonth anchor) := rfl
  simp only [nextAnchoredSubscriptionTrafficReset, ← hdelta,
    billingStartOfCalendarDay_billingAddMonthsClamped]
  have hends : StepsTo (fun months => anchoredBoundary anchor months) reference (monthDelta anchor reference)
      (firstAfter (fun months => anchoredBoundary anchor months) reference 2 (monthDelta anchor reference)) :=
    stepsTo_firstAfter (lt_anchoredBoundary (by push_cast; omega))
  exact ⟨_, hends, isLeast_from_one (hends.isLeast (anchoredBoundary_strictMono anchor)), fun _ => rfl⟩

/-! ## Boundaries of the reset day -/

theorem clampResetDay_range (day : ℤ) : 1 ≤ clampResetDay day ∧ clampResetDay day ≤ 28 := by
  unfold clampResetDay
  omega

/-- The boundary of the reset day in the month of the reference, or so many months later. -/
def configuredBoundary (trafficResetDay reference monthOffset : ℤ) : ℤ :=
  billingStartOfDay (clampedDate (billingMonth reference + monthOffset) (clampResetDay trafficResetDay))

theorem billingMonthlyBoundary_clampResetDay (trafficResetDay reference monthOffset : ℤ) :
    billingMonthlyBoundary reference (clampResetDay trafficResetDay) monthOffset =
      configuredBoundary trafficResetDay reference monthOffset := by
  rw [billingMonthlyBoundary_eq (clampResetDay_range trafficResetDay), configuredBoundary,
    billingStartOfDay_clampedDate (clampResetDay_range trafficResetDay)]

theorem configuredBoundary_strictMono (trafficResetDay reference : ℤ) :
    StrictMono (configuredBoundary trafficResetDay reference) := by
  intro i j hij
  simp only [configuredBoundary, billingStartOfDay_clampedDate (clampResetDay_range trafficResetDay)]
  exact boundaryAt_strictMono _ (by omega)

def AfterHandled (startedAt lastTrafficResetAt : Option ℤ) (b : ℤ) : Prop :=
  (∀ s ∈ startedAt, s < b) ∧ ∀ l ∈ lastTrafficResetAt, l < b

theorem afterHandled_iff {startedAt lastTrafficResetAt : Option ℤ} {b : ℤ} :
    AfterHandled startedAt lastTrafficResetAt b ↔ ∀ handled ∈ handledThrough startedAt lastTrafficResetAt,
      handled < b := by
  cases startedAt <;> cases lastTrafficResetAt <;> simp [AfterHandled, handledThrough]

/-- The loop against `Math.max` of the two times; without them it does not begin. -/
def ConfiguredSteps (trafficResetDay : ℤ) (startedAt lastTrafficResetAt : Option ℤ)
    (reference next : ℤ) : Prop :=
  let boundary := fun monthOffset : ℤ =>
    billingMonthlyBoundary reference (clampResetDay trafficResetDay) monthOffset
  match handledThrough startedAt lastTrafficResetAt with
  | none => next = boundary 0
  | some handled => StepsTo boundary handled 0 next

theorem configured_loop (trafficResetDay : ℤ) (startedAt lastTrafficResetAt : Option ℤ) (reference : ℤ) :
    ∃ next, ConfiguredSteps trafficResetDay startedAt lastTrafficResetAt reference next ∧
      IsLeast {b | AfterHandled startedAt lastTrafficResetAt b ∧
        ∃ i, 0 ≤ i ∧ b = configuredBoundary trafficResetDay reference i} next ∧
      ∀ expiresAt, nextConfiguredSubscriptionTrafficReset trafficResetDay startedAt lastTrafficResetAt reference
        expiresAt = boundTrafficResetAt (some next) expiresAt := by
  have hmono := configuredBoundary_strictMono trafficResetDay reference
  simp only [nextConfiguredSubscriptionTrafficReset, ConfiguredSteps, afterHandled_iff,
    billingMonthlyBoundary_clampResetDay]
  cases handledThrough startedAt lastTrafficResetAt with
  | none =>
    refine ⟨_, rfl, ⟨⟨(by simp), 0, le_rfl, rfl⟩, ?_⟩, fun _ => rfl⟩
    rintro b ⟨-, i, hi, rfl⟩
    exact hmono.monotone hi
  | some handled =>
    simp only [Option.mem_def, Option.some.injEq, forall_eq']
    have hpast : handled < configuredBoundary trafficResetDay reference
        (0 + (billingMonth handled + 2 - billingMonth reference).toNat) := by
      rw [configuredBoundary, billingStartOfDay_clampedDate (clampResetDay_range trafficResetDay)]
      calc handled < boundaryAt (clampResetDay trafficResetDay) (billingMonth handled + 1) :=
            boundaryAt_next (clampResetDay_range trafficResetDay).1 handled
        _ ≤ _ := (boundaryAt_strictMono _).monotone (by omega)
    have hends : StepsTo (fun i => configuredBoundary trafficResetDay reference i) handled 0 _ :=
      stepsTo_firstAfter hpast
    exact ⟨_, hends, hends.isLeast hmono, fun _ => rfl⟩

theorem boundTrafficResetAt_some (next : ℤ) (expiresAt : Option ℤ) :
    boundTrafficResetAt (some next) expiresAt = if ∀ e ∈ expiresAt, next < e then some next else none := by
  cases expiresAt <;> simp [boundTrafficResetAt, Option.filter]

/-- **The dates of traffic resets**: both loops end, whatever the dates, with the least
boundary that they are to find, which is the result if it is before the expiry. -/
theorem traffic_reset_dates :
    (∀ (startedAt : Option ℤ) (reference : ℤ), ∃ next,
      StepsTo (fun months => billingStartOfCalendarDay
          (billingAddMonthsClamped (resetAnchor startedAt reference) months)) reference
        (monthDelta (resetAnchor startedAt reference) reference) next ∧
      IsLeast {b | reference < b ∧ ∃ i, 1 ≤ i ∧ b = anchoredBoundary (resetAnchor startedAt reference) i} next ∧
      ∀ expiresAt, nextAnchoredSubscriptionTrafficReset (resetAnchor startedAt reference) reference expiresAt =
        if ∀ e ∈ expiresAt, next < e then some next else none) ∧
    ∀ (trafficResetDay : ℤ) (startedAt lastTrafficResetAt : Option ℤ) (reference : ℤ), ∃ next,
      ConfiguredSteps trafficResetDay startedAt lastTrafficResetAt reference next ∧
      IsLeast {b | AfterHandled startedAt lastTrafficResetAt b ∧
        ∃ i, 0 ≤ i ∧ b = configuredBoundary trafficResetDay reference i} next ∧
      ∀ expiresAt, nextConfiguredSubscriptionTrafficReset trafficResetDay startedAt lastTrafficResetAt reference
        expiresAt = if ∀ e ∈ expiresAt, next < e then some next else none := by
  constructor
  · intro startedAt reference
    obtain ⟨next, hends, hleast, heq⟩ := anchored_loop (resetAnchor startedAt reference) reference
    exact ⟨next, hends, hleast, fun expiresAt =>
      (heq expiresAt).trans (boundTrafficResetAt_some next expiresAt)⟩
  · intro trafficResetDay startedAt lastTrafficResetAt reference
    obtain ⟨next, hends, hleast, heq⟩ :=
      configured_loop trafficResetDay startedAt lastTrafficResetAt reference
    exact ⟨next, hends, hleast, fun expiresAt =>
      (heq expiresAt).trans (boundTrafficResetAt_some next expiresAt)⟩

/-- A subscription of January 31st is reset on February 28th, and on March 31st again. -/
example : (anchoredBoundary 1738252800000 1, anchoredBoundary 1738252800000 2) =
    (1740672000000, 1743350400000) := by
  decide +kernel

end ForwardX.Panel
