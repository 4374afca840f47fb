/-
`udpReplayWindow` of `forwardx-fxp/udp_direct.go`: the 64-bit sliding bitmap that admits each
datagram sequence of a session once.
-/
import Mathlib.Data.Nat.Bitwise
import Mathlib.Data.List.Induction
import Mathlib.Data.Set.Insert

namespace ForwardX.Fxp

/-! ## The window -/

def fxpUDPReplayBits : UInt64 := 64

structure UdpReplayWindow where
  initialized : Bool
  highest : UInt64
  seen : UInt64

/-- The zero value a session starts with. -/
def UdpReplayWindow.new : UdpReplayWindow := ⟨false, 0, 0⟩

/-- `udpReplayWindow.accept`: the window after the call and its answer. -/
def UdpReplayWindow.accept (w : UdpReplayWindow) (sequence : UInt64) : UdpReplayWindow × Bool :=
  if sequence = 0 then (w, false)
  else if w.initialized = false then (⟨true, sequence, 1⟩, true)
  else if sequence > w.highest then
    let shift := sequence - w.highest
    let seen := if shift ≥ fxpUDPReplayBits then 1 else (w.seen <<< shift) ||| 1
    (⟨w.initialized, sequence, seen⟩, true)
  else
    let distance := w.highest - sequence
    if distance ≥ fxpUDPReplayBits then (w, false)
    else
      let bit := (1 : UInt64) <<< distance
      if w.seen &&& bit ≠ 0 then (w, false)
      else (⟨w.initialized, w.highest, w.seen ||| bit⟩, true)

variable {w : UdpReplayWindow} {sequence : UInt64}

theorem UdpReplayWindow.accept_refused (h : (w.accept sequence).2 = false) : (w.accept sequence).1 = w := by
  unfold UdpReplayWindow.accept at h ⊢
  dsimp only at h ⊢
  split_ifs at h ⊢ <;> rfl

/-! ## Bits of the three updates -/

private theorem testBit_one (i : ℕ) : (1 : UInt64).toNat.testBit i = decide (i = 0) := by
  rw [show (1 : UInt64).toNat = 2 ^ 0 from rfl, Nat.testBit_two_pow]
  exact decide_eq_decide.mpr eq_comm

private theorem toNat_one_shiftLeft {d : UInt64} (hd : d.toNat < 64) :
    ((1 : UInt64) <<< d).toNat = 2 ^ d.toNat := by
  rw [UInt64.toNat_shiftLeft, Nat.mod_eq_of_lt hd, show (1 : UInt64).toNat = 1 from rfl,
    Nat.one_shiftLeft, Nat.mod_eq_of_lt (Nat.pow_lt_pow_right Nat.one_lt_two hd)]

private theorem and_bit_ne_zero {seen d : UInt64} (hd : d.toNat < 64) :
    seen &&& ((1 : UInt64) <<< d) ≠ 0 ↔ seen.toNat.testBit d.toNat = true := by
  have hval : (seen &&& ((1 : UInt64) <<< d)).toNat
      = (seen.toNat.testBit d.toNat).toNat * 2 ^ d.toNat := by
    rw [UInt64.toNat_and, toNat_one_shiftLeft hd, Nat.and_two_pow]
  rw [ne_eq, ← UInt64.toNat_inj, hval]
  cases seen.toNat.testBit d.toNat with
  | false | true => simp

private theorem testBit_or_bit {seen d : UInt64} (hd : d.toNat < 64) (i : ℕ) :
    (seen ||| ((1 : UInt64) <<< d)).toNat.testBit i
      = (seen.toNat.testBit i || decide (d.toNat = i)) := by
  rw [UInt64.toNat_or, toNat_one_shiftLeft hd, Nat.testBit_or, Nat.testBit_two_pow]

private theorem testBit_shift_or_one {seen d : UInt64} (hd : d.toNat < 64) {i : ℕ} (hi : i < 64) :
    ((seen <<< d) ||| 1).toNat.testBit i
      = ((decide (d.toNat ≤ i) && seen.toNat.testBit (i - d.toNat)) || decide (i = 0)) := by
  rw [UInt64.toNat_or, Nat.testBit_or, testBit_one, UInt64.toNat_shiftLeft, Nat.mod_eq_of_lt hd,
    Nat.testBit_mod_two_pow, Nat.testBit_shiftLeft]
  simp only [hi, decide_true, Bool.true_and, ge_iff_le]

/-! ## What a window means -/

/-- `w` represents the set `acc` of sequences admitted so far. -/
structure UdpReplayWindow.Rep (w : UdpReplayWindow) (acc : Set ℕ) : Prop where
  empty : w.initialized = false → acc = ∅
  top_mem : w.initialized = true → w.highest.toNat ∈ acc
  le_top : ∀ s ∈ acc, s ≤ w.highest.toNat
  bits : w.initialized = true → ∀ d, d < 64 → d ≤ w.highest.toNat →
    (w.seen.toNat.testBit d = true ↔ w.highest.toNat - d ∈ acc)
  zero_notMem : 0 ∉ acc

/-- A sequence a window over `acc` may still admit: nonzero, new, and within 64
of the highest one. -/
def UdpReplayWindow.Admits (w : UdpReplayWindow) (acc : Set ℕ) (sequence : UInt64) : Prop :=
  sequence ≠ 0 ∧ sequence.toNat ∉ acc ∧
    (w.initialized = false ∨ w.highest.toNat < sequence.toNat + 64)

theorem UdpReplayWindow.rep_new : UdpReplayWindow.new.Rep ∅ where
  empty _ := rfl
  top_mem h := by simp [UdpReplayWindow.new] at h
  le_top s hs := absurd hs (Set.notMem_empty s)
  bits h := by simp [UdpReplayWindow.new] at h
  zero_notMem := Set.notMem_empty 0

private theorem rep_first (hzero : sequence ≠ 0) :
    UdpReplayWindow.Rep ⟨true, sequence, 1⟩ (insert sequence.toNat ∅) := by
  refine ⟨(nomatch ·), fun _ => Set.mem_insert _ _, ?_, ?_, ?_⟩
  · rintro s (rfl | hs)
    · exact le_refl _
    · exact absurd hs (Set.notMem_empty s)
  · intro _ d _ hle
    dsimp only at hle ⊢
    rw [testBit_one, decide_eq_true_eq, Set.mem_insert_iff, or_iff_left (Set.notMem_empty _)]
    have hpos : sequence.toNat ≠ 0 := fun h0 => hzero (UInt64.toNat_inj.mp h0)
    omega
  · rintro (h0 | h0)
    · exact hzero (UInt64.toNat_inj.mp h0.symm)
    · exact Set.notMem_empty 0 h0

private theorem rep_advance {acc : Set ℕ} (h : w.Rep acc)
    (hinit : w.initialized = true) (hgt : w.highest < sequence) :
    UdpReplayWindow.Rep ⟨w.initialized, sequence,
      if sequence - w.highest ≥ fxpUDPReplayBits then 1
        else (w.seen <<< (sequence - w.highest)) ||| 1⟩ (insert sequence.toNat acc) := by
  have hgt' : w.highest.toNat < sequence.toNat := UInt64.lt_iff_toNat_lt.mp hgt
  have hshift : (sequence - w.highest).toNat = sequence.toNat - w.highest.toNat :=
    UInt64.toNat_sub_of_le _ _ (UInt64.le_of_lt hgt)
  have hnew : ∀ d, 0 < d → d ≤ sequence.toNat →
      (sequence.toNat - d ∈ insert sequence.toNat acc ↔ sequence.toNat - d ∈ acc) := by
    intro d hd hle
    rw [Set.mem_insert_iff, or_iff_right (by omega)]
  refine ⟨fun hbad => ?_, fun _ => Set.mem_insert _ _, ?_, ?_, ?_⟩
  · rw [hinit] at hbad; exact absurd hbad (by decide)
  · intro s hs
    rcases Set.mem_insert_iff.mp hs with rfl | hs
    · exact le_refl _
    · exact le_trans (h.le_top s hs) hgt'.le
  · intro _ d hd hle
    dsimp only at hle ⊢
    rcases Nat.eq_zero_or_pos d with rfl | hpos
    -- bit zero is always set, and answers for `sequence` itself
    · rw [Nat.sub_zero]
      refine ⟨fun _ => Set.mem_insert _ _, fun _ => ?_⟩
      split_ifs with hfar
      · exact testBit_one 0
      · rw [testBit_shift_or_one (by rw [← UInt64.not_le] at *; simpa [fxpUDPReplayBits,
          UInt64.le_iff_toNat_le] using hfar) hd]
        simp
    · rw [hnew d hpos hle]
      split_ifs with hfar
      -- nothing of the old bitmap survives a jump of 64 or more
      · have hfar' : 64 ≤ sequence.toNat - w.highest.toNat := by
          rw [← hshift]; exact UInt64.le_iff_toNat_le.mp hfar
        rw [testBit_one, decide_eq_true_eq]
        refine ⟨fun h0 => by omega, fun hmem => ?_⟩
        have := h.le_top _ hmem
        omega
      · have hnear : (sequence - w.highest).toNat < 64 := by
          simpa [fxpUDPReplayBits, UInt64.le_iff_toNat_le] using hfar
        rw [testBit_shift_or_one hnear hd, hshift]
        rw [hshift] at hnear
        by_cases hreach : sequence.toNat - w.highest.toNat ≤ d
        · have hidx : w.highest.toNat - (d - (sequence.toNat - w.highest.toNat))
              = sequence.toNat - d := by omega
          have hbit := h.bits hinit (d - (sequence.toNat - w.highest.toNat))
            (by omega) (by omega)
          rw [hidx] at hbit
          rw [← hbit]
          simp only [hreach, decide_true, Bool.true_and, Nat.ne_of_gt hpos, decide_false,
            Bool.or_false]
        -- the positions between the old and the new maximum were never admitted
        · simp only [hreach, decide_false, Bool.false_and, Nat.ne_of_gt hpos, Bool.or_false,
            Bool.false_eq_true, false_iff]
          intro hmem
          have := h.le_top _ hmem
          omega
  · rintro (h0 | h0)
    · omega
    · exact h.zero_notMem h0

private theorem rep_mark {acc : Set ℕ} (h : w.Rep acc) (hinit : w.initialized = true) (hpos : sequence ≠ 0)
    (hle : sequence ≤ w.highest) (hnear : (w.highest - sequence).toNat < 64) :
    UdpReplayWindow.Rep ⟨w.initialized, w.highest,
      w.seen ||| ((1 : UInt64) <<< (w.highest - sequence))⟩ (insert sequence.toNat acc) := by
  have hle' : sequence.toNat ≤ w.highest.toNat := UInt64.le_iff_toNat_le.mp hle
  have hdist : (w.highest - sequence).toNat = w.highest.toNat - sequence.toNat :=
    UInt64.toNat_sub_of_le _ _ hle
  refine ⟨fun hbad => ?_, fun hi => Set.mem_insert_of_mem _ (h.top_mem hi), ?_, ?_, ?_⟩
  · rw [hinit] at hbad; exact absurd hbad (by decide)
  · intro s hs
    rcases Set.mem_insert_iff.mp hs with rfl | hs
    · exact hle'
    · exact h.le_top s hs
  · intro hi d hd hdle
    dsimp only at hdle ⊢
    rw [testBit_or_bit hnear, Bool.or_eq_true, decide_eq_true_eq, h.bits hi d hd hdle, hdist,
      Set.mem_insert_iff, or_comm]
    refine or_congr_left ?_
    omega
  · rintro (h0 | h0)
    · exact hpos (UInt64.toNat_inj.mp h0.symm)
    · exact h.zero_notMem h0

/-- **One `accept` call.** It answers `true` exactly on what the window admits,
and the new window represents the set with that sequence added. -/
theorem UdpReplayWindow.accept_spec {acc : Set ℕ} (h : w.Rep acc) (sequence : UInt64) :
    ((w.accept sequence).2 = true ↔ w.Admits acc sequence) ∧
      (w.accept sequence).1.Rep
        (if (w.accept sequence).2 then insert sequence.toNat acc else acc) := by
  unfold UdpReplayWindow.accept UdpReplayWindow.Admits
  by_cases hzero : sequence = 0
  · rw [if_pos hzero]
    simp [hzero, h]
  rw [if_neg hzero]
  by_cases hinit : w.initialized = false
  · rw [if_pos hinit]
    have hacc := h.empty hinit
    refine ⟨by simp [hzero, hacc, hinit], ?_⟩
    dsimp only
    rw [if_pos rfl, hacc]
    exact rep_first hzero
  rw [if_neg hinit]
  have hinit' : w.initialized = true := by simpa using hinit
  by_cases hgt : sequence > w.highest
  · rw [if_pos hgt]
    have hgt' : w.highest.toNat < sequence.toNat := UInt64.lt_iff_toNat_lt.mp hgt
    have hfresh : sequence.toNat ∉ acc := fun hmem => by
      have := h.le_top _ hmem
      omega
    dsimp only
    refine ⟨by simp only [true_iff]; exact ⟨hzero, hfresh, .inr (by omega)⟩, ?_⟩
    rw [if_pos rfl]
    exact rep_advance h hinit' hgt
  rw [if_neg hgt]
  have hle : sequence ≤ w.highest := UInt64.not_lt.mp hgt
  have hle' : sequence.toNat ≤ w.highest.toNat := UInt64.le_iff_toNat_le.mp hle
  have hdist : (w.highest - sequence).toNat = w.highest.toNat - sequence.toNat :=
    UInt64.toNat_sub_of_le _ _ hle
  dsimp only
  by_cases hfar : w.highest - sequence ≥ fxpUDPReplayBits
  · rw [if_pos hfar]
    have hfar' : 64 ≤ w.highest.toNat - sequence.toNat := by
      rw [← hdist]; exact UInt64.le_iff_toNat_le.mp hfar
    refine ⟨?_, by simpa using h⟩
    simp only [Bool.false_eq_true, false_iff, not_and, not_or]
    exact fun _ _ => ⟨hinit, by omega⟩
  rw [if_neg hfar]
  have hnear : (w.highest - sequence).toNat < 64 := by
    simpa [fxpUDPReplayBits, UInt64.le_iff_toNat_le] using hfar
  -- the bit of a sequence inside the window says whether it was admitted
  have hbit := h.bits hinit' (w.highest - sequence).toNat hnear (by omega)
  rw [show w.highest.toNat - (w.highest - sequence).toNat = sequence.toNat by omega] at hbit
  by_cases hseen : w.seen &&& ((1 : UInt64) <<< (w.highest - sequence)) ≠ 0
  · rw [if_pos hseen]
    have hmem : sequence.toNat ∈ acc := hbit.mp ((and_bit_ne_zero hnear).mp hseen)
    refine ⟨?_, by simpa using h⟩
    simp only [Bool.false_eq_true, false_iff, not_and]
    exact fun _ hnew => absurd hmem hnew
  · rw [if_neg hseen]
    have hfresh : sequence.toNat ∉ acc :=
      fun hmem => hseen ((and_bit_ne_zero hnear).mpr (hbit.mpr hmem))
    refine ⟨by simp only [true_iff]; exact ⟨hzero, hfresh, .inr (by omega)⟩, ?_⟩
    rw [if_pos rfl]
    exact rep_mark h hinit' hzero hle hnear

/-! ## Sequences of calls -/

/-- The window after some calls, and the sequences that it has admitted. -/
def UdpReplayWindow.acceptAll (calls : List UInt64) : UdpReplayWindow × List UInt64 :=
  calls.foldl (fun state sequence =>
    let answer := state.1.accept sequence
    (answer.1, if answer.2 then state.2 ++ [sequence] else state.2)) (.new, [])

theorem UdpReplayWindow.rep_acceptAll (calls : List UInt64) :
    (acceptAll calls).1.Rep {n | ∃ s ∈ (acceptAll calls).2, s.toNat = n} := by
  induction calls using List.reverseRecOn with
  | nil =>
    have hnil : {n | ∃ s ∈ (acceptAll []).2, s.toNat = n} = (∅ : Set ℕ) := by
      ext n
      simp [acceptAll]
    rw [hnil]
    exact rep_new
  | append_singleton calls last ih =>
    have hlast : acceptAll (calls ++ [last]) = (((acceptAll calls).1.accept last).1,
        if ((acceptAll calls).1.accept last).2 then (acceptAll calls).2 ++ [last] else (acceptAll calls).2) := by
      rw [acceptAll, List.foldl_append]
      rfl
    have hrep := (accept_spec ih last).2
    rw [hlast]
    by_cases hanswer : ((acceptAll calls).1.accept last).2 = true
    · rw [if_pos hanswer] at hrep ⊢
      convert hrep using 1
      ext n
      simp [or_comm, eq_comm]
    · rw [if_neg hanswer] at hrep ⊢
      exact hrep

/-- **The window admits exactly the fresh sequences**: after any calls, a sequence is
admitted if it is not zero, was not admitted before, and is less than 64 below the
highest that was, if there is one. -/
theorem UdpReplayWindow.accept_iff_fresh (calls : List UInt64) (sequence : UInt64) :
    ((acceptAll calls).1.accept sequence).2 = true ↔
      sequence ≠ 0 ∧ sequence ∉ (acceptAll calls).2 ∧
        ((acceptAll calls).2 = [] ∨ ∃ highest ∈ (acceptAll calls).2,
          (∀ s ∈ (acceptAll calls).2, s ≤ highest) ∧ highest.toNat < sequence.toNat + 64) := by
  have hrep := rep_acceptAll calls
  rw [(accept_spec hrep sequence).1, Admits]
  have hnew : sequence.toNat ∈ {n | ∃ s ∈ (acceptAll calls).2, s.toNat = n} ↔ sequence ∈ (acceptAll calls).2 := by
    constructor
    · rintro ⟨s, hs, heq⟩
      exact UInt64.toNat_inj.mp heq ▸ hs
    · exact fun hs => ⟨sequence, hs, rfl⟩
  rw [hnew]
  refine and_congr_right fun _ => and_congr_right fun _ => ?_
  cases hinit : (acceptAll calls).1.initialized with
  | false =>
    -- nothing was admitted
    have hnone : (acceptAll calls).2 = [] := by
      rw [List.eq_nil_iff_forall_not_mem]
      intro s hs
      have hmem : s.toNat ∈ {n | ∃ s ∈ (acceptAll calls).2, s.toNat = n} := ⟨s, hs, rfl⟩
      rw [hrep.empty hinit] at hmem
      exact hmem
    simp [hnone]
  | true =>
    obtain ⟨top, htop, htopEq⟩ := hrep.top_mem hinit
    have hle : ∀ s ∈ (acceptAll calls).2, s ≤ top := fun s hs =>
      UInt64.le_iff_toNat_le.mpr (htopEq ▸ hrep.le_top s.toNat ⟨s, hs, rfl⟩)
    constructor
    · rintro (hbad | hnear)
      · cases hbad
      · exact .inr ⟨top, htop, hle, htopEq ▸ hnear⟩
    · rintro (hnil | ⟨highest, hmem, hmax, hnear⟩)
      · exact absurd (hnil ▸ htop) List.not_mem_nil
      · rw [UInt64.le_antisymm (hle highest hmem) (hmax top htop), htopEq] at hnear
        exact .inr hnear

end ForwardX.Fxp
