/-
The billing calendar (`shared/billingTime.ts`): month boundaries in Asia/Shanghai.
-/
import ForwardX.Lib.Calendar

namespace ForwardX.Panel

open Calendar

/-! ## The functions -/

structure BillingCalendarParts where
  date : Date
  hour : ℤ
  minute : ℤ
  second : ℤ

def billingCalendarParts (value : ℤ) : BillingCalendarParts :=
  let wall := value / 1000 + 8 * 3600
  { date := ofDay (wall / 86400)
    hour := wall % 86400 / 3600
    minute := wall % 3600 / 60
    second := wall % 60 }

def dateUTC (date : Date) (hour minute second millisecond : ℤ) : ℤ :=
  (((date.toDay * 24 + hour) * 60 + minute) * 60 + second) * 1000 + millisecond

/-- The search of `billingDateTime` for the instant that shows a wall clock. -/
def settleWallClock (targetWallClockMs millisecond : ℤ) : ℕ → ℤ → ℤ
  | 0, candidateMs => candidateMs
  | attempt + 1, candidateMs =>
    let rendered := billingCalendarParts candidateMs
    let renderedWallClockMs :=
      dateUTC rendered.date rendered.hour rendered.minute rendered.second millisecond
    let adjustmentMs := targetWallClockMs - renderedWallClockMs
    if adjustmentMs = 0 then candidateMs
    else settleWallClock targetWallClockMs millisecond attempt (candidateMs + adjustmentMs)

def billingDateTime (date : Date) (hour minute second millisecond : ℤ) : ℤ :=
  let targetWallClockMs := dateUTC date hour minute second millisecond
  settleWallClock targetWallClockMs millisecond 4 targetWallClockMs

def billingStartOfDay (date : Date) : ℤ := billingDateTime date 0 0 0 0

def billingStartOfCalendarDay (value : ℤ) : ℤ := billingStartOfDay (billingCalendarParts value).date

/-- The day `day` of the month with index `monthIndex`, or the month's last day. -/
def clampedDate (monthIndex day : ℤ) : Date :=
  .ofMonthIndex monthIndex (max 1 (min day (monthLength monthIndex)))
    (by have hlen := monthLength_ge monthIndex; omega)

def billingAddMonthsClamped (value months : ℤ) : ℤ :=
  let current := billingCalendarParts value
  billingDateTime (clampedDate (current.date.monthIndex + months) current.date.day)
    current.hour current.minute current.second (value % 1000)

def billingMonthStart (reference : ℤ) : ℤ :=
  billingStartOfDay (clampedDate (billingCalendarParts reference).date.monthIndex 1)

def billingMonthlyBoundary (reference resetDay : ℤ) (monthOffset : ℤ := 0)
    (maximumResetDay : ℤ := 28) : ℤ :=
  let maximum := max 1 maximumResetDay
  let requested := max 1 resetDay
  billingStartOfDay (clampedDate ((billingCalendarParts reference).date.monthIndex + monthOffset)
    (min requested maximum))

/-! ## What they compute -/

def zoneMs : ℤ := 8 * 3600 * 1000

def dayMs : ℤ := 86400 * 1000

def billingDay (value : ℤ) : ℤ := (value + zoneMs) / dayMs

def billingMonth (value : ℤ) : ℤ := (ofDay (billingDay value)).monthIndex

theorem billingCalendarParts_date (value : ℤ) :
    (billingCalendarParts value).date = ofDay (billingDay value) := by
  have hday : (value / 1000 + 8 * 3600) / 86400 = billingDay value := by
    unfold billingDay zoneMs dayMs
    omega
  simp only [billingCalendarParts, hday]

theorem dateUTC_billingCalendarParts (value millisecond : ℤ) :
    dateUTC (billingCalendarParts value).date (billingCalendarParts value).hour
      (billingCalendarParts value).minute (billingCalendarParts value).second millisecond =
      value - value % 1000 + millisecond + zoneMs := by
  simp only [dateUTC, billingCalendarParts, toDay_ofDay, zoneMs]
  omega

theorem settleWallClock_eq {target millisecond : ℤ} (hms : target % 1000 = millisecond) (n : ℕ) :
    settleWallClock target millisecond (n + 2) target = target - zoneMs := by
  have hfirst : target - (target - target % 1000 + millisecond + zoneMs) = -zoneMs := by omega
  have hsecond : target - (target + -zoneMs - (target + -zoneMs) % 1000 + millisecond + zoneMs) = 0 := by
    unfold zoneMs
    omega
  have hne : ¬ (-zoneMs : ℤ) = 0 := by decide
  simp only [settleWallClock, dateUTC_billingCalendarParts, hfirst, hsecond, hne, if_false, if_true]
  omega

theorem billingDateTime_eq (date : Date) (hour minute second : ℤ) {millisecond : ℤ}
    (hms : 0 ≤ millisecond ∧ millisecond < 1000) :
    billingDateTime date hour minute second millisecond =
      dateUTC date hour minute second millisecond - zoneMs := by
  apply settleWallClock_eq
  unfold dateUTC
  omega

theorem billingStartOfDay_eq (date : Date) : billingStartOfDay date = date.toDay * dayMs - zoneMs := by
  rw [billingStartOfDay, billingDateTime_eq date 0 0 0 (by omega)]
  unfold dateUTC dayMs
  omega

/-- The instant at which day `day` of the month with index `i` begins. -/
def boundaryAt (day i : ℤ) : ℤ := (monthStart i + (day - 1)) * dayMs - zoneMs

section

variable {day : ℤ}

theorem billingStartOfDay_clampedDate (hday : 1 ≤ day ∧ day ≤ 28) (i : ℤ) :
    billingStartOfDay (clampedDate i day) = boundaryAt day i := by
  have hlen := monthLength_ge i
  have hclamp : max 1 (min day (monthLength i)) = day := by omega
  rw [billingStartOfDay_eq, clampedDate, Date.toDay_ofMonthIndex, hclamp, boundaryAt]

theorem billingMonthlyBoundary_eq (hday : 1 ≤ day ∧ day ≤ 28) (reference off : ℤ) :
    billingMonthlyBoundary reference day off = boundaryAt day (billingMonth reference + off) := by
  have hclamp : min (max 1 day) (max 1 28) = day := by omega
  rw [billingMonthlyBoundary, billingCalendarParts_date, hclamp,
    billingStartOfDay_clampedDate hday, billingMonth]

theorem boundaryAt_strictMono (day : ℤ) : StrictMono (boundaryAt day) := by
  intro i j hij
  have hlt := monthStart_strictMono hij
  unfold boundaryAt dayMs
  omega

theorem boundaryAt_mod (day i : ℤ) : boundaryAt day i % 1000 = 0 := by
  unfold boundaryAt dayMs zoneMs
  omega

theorem boundaryAt_one_le (value : ℤ) :
    boundaryAt 1 (billingMonth value) ≤ value ∧ value < boundaryAt 1 (billingMonth value + 1) := by
  have hmonth := monthStart_le (billingDay value)
  have hday : billingDay value * dayMs ≤ value + zoneMs ∧
      value + zoneMs < (billingDay value + 1) * dayMs := by
    unfold billingDay dayMs zoneMs
    omega
  unfold boundaryAt billingMonth
  simp only [dayMs, zoneMs] at hday ⊢
  omega

theorem boundaryAt_le_iff (value : ℤ) :
    boundaryAt day (billingMonth value) ≤ value ↔ day ≤ (billingCalendarParts value).date.day := by
  rw [billingCalendarParts_date, day_ofDay]
  unfold boundaryAt billingMonth billingDay
  simp only [dayMs, zoneMs]
  omega

theorem boundaryAt_next (hday : 1 ≤ day) (value : ℤ) : value < boundaryAt day (billingMonth value + 1) := by
  have hnext := (boundaryAt_one_le value).2
  unfold boundaryAt dayMs at *
  omega

theorem boundaryAt_prev (hday : day ≤ 28) (value : ℤ) : boundaryAt day (billingMonth value - 1) ≤ value := by
  have hstart := (boundaryAt_one_le value).1
  have hlen := monthLength_ge (billingMonth value - 1)
  have hsucc := monthStart_succ (billingMonth value - 1)
  rw [sub_add_cancel] at hsucc
  unfold boundaryAt dayMs at *
  omega

def nextMonthlyBoundary (day value : ℤ) : ℤ :=
  billingMonthlyBoundary value day (if day ≤ (billingCalendarParts value).date.day then 1 else 0)

theorem nextMonthlyBoundary_le (hday : 1 ≤ day ∧ day ≤ 28) {value i : ℤ}
    (h : value < boundaryAt day i) : nextMonthlyBoundary day value ≤ boundaryAt day i := by
  rw [nextMonthlyBoundary, billingMonthlyBoundary_eq hday]
  apply (boundaryAt_strictMono day).monotone
  split
  · rename_i hcome
    rw [← boundaryAt_le_iff] at hcome
    have hlt := (boundaryAt_strictMono day).lt_iff_lt.mp (lt_of_le_of_lt hcome h)
    omega
  · have hprev := boundaryAt_prev hday.2 value
    have hlt := (boundaryAt_strictMono day).lt_iff_lt.mp (lt_of_le_of_lt hprev h)
    omega

theorem billingStartOfCalendarDay_eq (value : ℤ) :
    billingStartOfCalendarDay value = billingDay value * dayMs - zoneMs := by
  rw [billingStartOfCalendarDay, billingCalendarParts_date, billingStartOfDay_eq, toDay_ofDay]

theorem clampedDate_toDay (i day : ℤ) :
    (clampedDate i day).toDay = monthStart i + (max 1 (min day (monthLength i)) - 1) :=
  Date.toDay_ofMonthIndex _

theorem billingDay_billingAddMonthsClamped (value months : ℤ) :
    billingDay (billingAddMonthsClamped value months) =
      (clampedDate (billingMonth value + months) (ofDay (billingDay value)).day).toDay := by
  have hms : 0 ≤ value % 1000 ∧ value % 1000 < 1000 := by omega
  rw [billingAddMonthsClamped, billingDateTime_eq _ _ _ _ hms, billingCalendarParts_date, billingMonth]
  unfold billingDay dateUTC billingCalendarParts zoneMs dayMs
  simp only
  omega

theorem boundaryAt_le_addMonth (hday : 1 ≤ day ∧ day ≤ 28) (value : ℤ) :
    ∃ i, value < boundaryAt day i ∧
      boundaryAt day i ≤ billingStartOfCalendarDay (billingAddMonthsClamped value 1) := by
  have hlen := monthLength_ge (billingMonth value + 1)
  have hsucc := monthStart_succ (billingMonth value)
  have hmonth := monthLength_ge (billingMonth value)
  have hpos := (ofDay (billingDay value)).day_range.1
  rw [billingStartOfCalendarDay_eq, billingDay_billingAddMonthsClamped, clampedDate_toDay]
  by_cases hcome : day ≤ (billingCalendarParts value).date.day
  · refine ⟨billingMonth value + 1, boundaryAt_next hday.1 value, ?_⟩
    rw [billingCalendarParts_date] at hcome
    unfold boundaryAt dayMs
    omega
  · refine ⟨billingMonth value, ?_, ?_⟩
    · rw [← boundaryAt_le_iff] at hcome
      omega
    · unfold boundaryAt dayMs
      omega

end

end ForwardX.Panel
