/-
The panel's clocks: `server/panelClock.ts`.

`performance.now()` never goes back. `Date.now()` is the system's and may be set to anything.
-/
import ForwardX.Panel.JsValues
import Mathlib.Data.List.Sort
import Mathlib.Data.Rat.Floor

namespace ForwardX.Panel

/-! ## Agreement of samples -/

structure PanelClockSample where
  source : JsString
  offsetMs : JsNumber
  roundTripMs : JsNumber
  remoteTimeMs : ℚ
  monotonicMidpointMs : ℚ

def consensusToleranceMs : ℚ := 5000

def maxClockOffsetMs : ℚ := 24 * 60 * 60 * 1000

def median (values : List ℚ) : ℚ :=
  let sorted := values.insertionSort (· ≤ ·)
  let middle := sorted.length / 2
  if sorted.length % 2 = 0 then (sorted.getD (middle - 1) 0 + sorted.getD middle 0) / 2
  else sorted.getD middle 0

structure PanelClockConsensus where
  offsetMs : ℚ
  samples : List PanelClockSample
  degraded : Bool

def usableSample (sample : PanelClockSample) : Option (ℚ × PanelClockSample) :=
  match sample.offsetMs, sample.roundTripMs with
  | .finite offset, .finite roundTrip =>
    if 0 ≤ roundTrip ∧ |offset| ≤ maxClockOffsetMs then some (offset, sample) else none
  | _, _ => none

/-- The body of the loop over the starts, with `best` and `ambiguous`: the candidate is
the longest run from the start whose offsets are within the tolerance of it. -/
def consensusStep (toleranceMs : ℚ) (acc : List (ℚ × PanelClockSample) × Bool) :
    List (ℚ × PanelClockSample) → List (ℚ × PanelClockSample) × Bool
  | [] => acc
  | first :: rest =>
    let (best, ambiguous) := acc
    let candidate := first :: rest.takeWhile fun s => s.1 - first.1 ≤ toleranceMs
    if best.length < candidate.length then (candidate, false)
    else if candidate.length = best.length ∧ 0 < best.length then
      (best, ambiguous ||
        decide (toleranceMs < |median (best.map Prod.fst) - median (candidate.map Prod.fst)|))
    else (best, ambiguous)

def selectPanelClockConsensus (samples : List PanelClockSample) (toleranceMs : ℚ)
    (allowSingleSource : Bool) : Option PanelClockConsensus :=
  match (samples.filterMap usableSample).insertionSort (fun l r => l.1 ≤ r.1) with
  | [] => none
  | [s] => if allowSingleSource then some ⟨s.1, [s.2], true⟩ else none
  | valid =>
    let (best, ambiguous) := valid.tails.foldl (consensusStep toleranceMs) ([], false)
    if best.length < 2 ∨ ambiguous then none
    else some ⟨median (best.map Prod.fst), best.map Prod.snd, false⟩

/-! ## The protocol clock -/

structure ClockCalibration where
  trustedAtMs : ℚ
  monotonicAtMs : ℚ

/-- What `performance.now()` and `Date.now()` read, and the calibration in force. -/
structure Clocks where
  mono : ℚ := 0
  wall : ℤ := 0
  calibration : Option ClockCalibration := none

def jsRound (q : ℚ) : ℤ := ⌊q + 1 / 2⌋

def panelCryptoNowMs (c : Clocks) : ℤ :=
  match c.calibration with
  | none => c.wall
  | some k => jsRound (k.trustedAtMs + (c.mono - k.monotonicAtMs))

/-- `performPanelClockRefresh`, once the sources have answered. Without a consensus the
old calibration stays. -/
def performPanelClockRefresh (c : Clocks) (samples : List PanelClockSample)
    (allowSingleSource : Bool) : Clocks :=
  match selectPanelClockConsensus samples consensusToleranceMs allowSingleSource with
  | none => c
  | some consensus =>
    let trustedAtMs := median (consensus.samples.map fun sample =>
      sample.remoteTimeMs + (c.mono - sample.monotonicMidpointMs))
    { c with calibration := some ⟨trustedAtMs, c.mono⟩ }

/-- Time passes, and the system's clock may be set meanwhile. -/
def Clocks.elapse (c : Clocks) (ms : ℚ≥0) (wall : ℤ) : Clocks := { c with mono := c.mono + ms, wall := wall }

theorem Clocks.mono_le_elapse (c : Clocks) (ms : ℚ≥0) (wall : ℤ) : c.mono ≤ (c.elapse ms wall).mono :=
  le_add_of_nonneg_right ms.2

theorem mono_performPanelClockRefresh (c : Clocks) (samples : List PanelClockSample)
    (allowSingleSource : Bool) :
    (performPanelClockRefresh c samples allowSingleSource).mono = c.mono := by
  unfold performPanelClockRefresh
  split <;> rfl

end ForwardX.Panel
