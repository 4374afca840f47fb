/-
How often a challenge of `server/agentAuthChallenge.ts` can be used.

A challenge carries its time, and a used one is remembered. It is used once as long as the memory
outlasts the time for which the challenge is accepted.
-/
import ForwardX.Lib.Run
import ForwardX.Panel.AgentChallenges

namespace ForwardX.Panel

open BigEndian Run List

/-! ## What is issued -/

section

variable {d : Digests} {challengeSecret : List UInt8} {random : List UInt8}

def issuedAtMs (nowMs : ℚ) : ℕ := (max 0 ⌊nowMs⌋).toNat

theorem issuedAtMs_le {nowMs : ℚ} (h : 0 ≤ nowMs) : (issuedAtMs nowMs : ℚ) ≤ nowMs := by
  have hfloor : 0 ≤ ⌊nowMs⌋ := Int.floor_nonneg.mpr h
  have hcast : ((issuedAtMs nowMs : ℤ) : ℚ) = (⌊nowMs⌋ : ℚ) := by
    rw [issuedAtMs, max_eq_right hfloor, Int.toNat_of_nonneg hfloor]
  rw [← Int.cast_natCast, hcast]
  exact Int.floor_le nowMs

theorem issuedAtMs_mono {ms ms' : ℚ} (h : ms ≤ ms') : issuedAtMs ms ≤ issuedAtMs ms' :=
  Int.toNat_le_toNat (max_le_max le_rfl (Int.floor_le_floor h))

theorem decodeChallenge_eq_some {value : JsString} {decoded : List UInt8}
    (h : decodeChallenge value = some decoded) : base64url decoded = value := by
  simp only [decodeChallenge] at h
  split at h
  · split at h
    · cases h
    · rename_i hcanonical
      obtain rfl := Option.some.inj h
      exact not_not.mp (not_or.mp hcanonical).2
  · cases h

theorem age_of_validate {issuedAt nowMs : ℚ} (hfits : issuedAtMs issuedAt < 2 ^ 64)
    (hrandom : random.length = 24) (h : validateAgentAuthChallenge d challengeSecret
      (issueAgentAuthChallenge d challengeSecret random issuedAt) nowMs) :
    nowMs ≤ issuedAtMs issuedAt + challengeValidityMs := by
  unfold validateAgentAuthChallenge at h
  split at h
  · cases h
  · rename_i decoded hdecoded
    -- the bytes are those that were printed at the issue
    have hprinted := decodeChallenge_eq_some hdecoded
    have hbytes := congrArg (fun s => fromBase64url (s.map base64urlAlphabet.idxOf)) hprinted
    simp only [issueAgentAuthChallenge, fromBase64url_base64url] at hbytes
    subst hbytes
    dsimp only at h
    split at h
    · cases h
    · simp only [Bool.and_eq_true, decide_eq_true_eq] at h
      obtain ⟨-, hage⟩ := h
      have hpayload : (beBytes 8 (max 0 ⌊issuedAt⌋).toNat ++ random).length = challengePayloadBytes := by
        rw [length_append, beBytes_length, hrandom]
        rfl
      have hread : beNat ((((beBytes 8 (max 0 ⌊issuedAt⌋).toNat ++ random) ++ challengeMac d challengeSecret
          (beBytes 8 (max 0 ⌊issuedAt⌋).toNat ++ random)).take challengePayloadBytes).take 8)
            = issuedAtMs issuedAt := by
        rw [← hpayload, take_left', ← beBytes_length 8 (max 0 ⌊issuedAt⌋).toNat, take_left']
        · exact beNat_beBytes_of_lt (lt_of_lt_of_eq hfits (by norm_num))
        · rfl
        · rfl
      rw [hread] at hage
      linarith

end

/-! ## The panel over time -/

/-- What the panel remembers, and beside it what was issued and when, and when a challenge
that had been issued was used. -/
structure ChallengeWorld where
  now : ℚ
  consumed : Memory := {}
  issued : List (JsString × ℚ) := []
  used : List (JsString × ℚ) := []

/-- Time passes, a challenge is issued with the bytes that are drawn for it, or anybody
presents any text. -/
inductive ChallengeEvent where
  | elapse (ms : ℚ≥0)
  | issue (random : { bytes : List UInt8 // bytes.length = 24 })
  | consume (challenge : JsString)

section

variable (d : Digests) (challengeSecret : List UInt8)

/-- `writeBigUInt64BE` throws when the time does not fit. -/
def stepChallenges (w : ChallengeWorld) : ChallengeEvent → ChallengeWorld
  | .elapse ms => { w with now := w.now + ms }
  | .issue random =>
    if issuedAtMs w.now < 2 ^ 64 then
      { w with issued := w.issued ++
        [(issueAgentAuthChallenge d challengeSecret random.1 w.now, w.now)] }
    else w
  | .consume challenge =>
    let (accepted, consumed) := consumeAgentAuthChallenge d challengeSecret w.consumed challenge w.now
    { w with
      consumed := consumed
      used := if accepted ∧ challenge ∈ w.issued.map Prod.fst then w.used ++ [(challenge, w.now)]
        else w.used }

/-- Used when it was exactly of the age 0, and now exactly of the age that is the last. -/
def AtBothEnds (w : ChallengeWorld) (challenge : JsString) : Prop :=
  ∃ u ∈ w.used, u.1 = challenge ∧ ∃ i ∈ w.issued, i.1 = challenge ∧ u.2 = issuedAtMs i.2 ∧
    w.now = u.2 + challengeValidityMs

instance AtBothEnds.decidable (w : ChallengeWorld) (challenge : JsString) :
    Decidable (AtBothEnds w challenge) :=
  inferInstanceAs (Decidable (∃ u ∈ w.used, u.1 = challenge ∧ ∃ i ∈ w.issued, i.1 = challenge ∧
    u.2 = issuedAtMs i.2 ∧ w.now = u.2 + challengeValidityMs))

def AwayFromBothEnds (w : ChallengeWorld) (e : ChallengeEvent) : Prop :=
  ∀ challenge, e = .consume challenge → ¬ AtBothEnds w challenge

/-- Every use is of a challenge that was issued, within its time, and no challenge is used
twice. -/
structure UsedOnce (w : ChallengeWorld) : Prop where
  once : (w.used.map Prod.fst).Nodup
  issuedBefore : ∀ u ∈ w.used, ∃ i ∈ w.issued, i.1 = u.1 ∧ i.2 ≤ u.2
  valid : ∀ u ∈ w.used, ∀ i ∈ w.issued, i.1 = u.1 → u.2 ≤ issuedAtMs i.2 + challengeValidityMs

structure UseKept (w : ChallengeWorld) : Prop extends UsedOnce w where
  clock : 0 ≤ w.now
  made : ∀ i ∈ w.issued, 0 ≤ i.2 ∧ i.2 ≤ w.now ∧ issuedAtMs i.2 < 2 ^ 64 ∧ ∃ random : List UInt8,
    random.length = 24 ∧ i.1 = issueAgentAuthChallenge d challengeSecret random i.2
  past : ∀ u ∈ w.used, u.2 ≤ w.now
  remembered : ∀ u ∈ w.used, w.now < u.2 + challengeValidityMs →
    w.consumed.Holds u.1 (u.2 + challengeValidityMs)

theorem useKept_new {now : ℚ} (hclock : 0 ≤ now) : UseKept d challengeSecret { now := now } where
  once := nodup_nil
  issuedBefore := forall_mem_nil _
  valid := forall_mem_nil _
  clock := hclock
  made := forall_mem_nil _
  past := forall_mem_nil _
  remembered := forall_mem_nil _

variable {d challengeSecret} {w : ChallengeWorld}

theorem UseKept.elapse (h : UseKept d challengeSecret w) (ms : ℚ≥0) :
    UseKept d challengeSecret { w with now := w.now + ms } := by
  have hlater : w.now ≤ w.now + ms := le_add_of_nonneg_right ms.2
  refine ⟨⟨h.once, h.issuedBefore, h.valid⟩, h.clock.trans hlater, ?_, ?_, ?_⟩
  · intro i hi
    obtain ⟨hpos, hpast, hmade⟩ := h.made i hi
    exact ⟨hpos, hpast.trans hlater, hmade⟩
  · exact fun u hu => (h.past u hu).trans hlater
  · exact fun u hu hearly => h.remembered u hu (hlater.trans_lt hearly)

theorem valid_of_issued {challenge : JsString} {i : JsString × ℚ} {now : ℚ}
    (hi : issuedAtMs i.2 < 2 ^ 64 ∧ ∃ random : List UInt8,
      random.length = 24 ∧ i.1 = issueAgentAuthChallenge d challengeSecret random i.2)
    (hsame : i.1 = challenge) (h : validateAgentAuthChallenge d challengeSecret challenge now) :
    now ≤ issuedAtMs i.2 + challengeValidityMs := by
  obtain ⟨hfits, random, hrandom, hmade⟩ := hi
  subst hsame
  rw [hmade] at h
  exact age_of_validate hfits hrandom h

theorem consume_cases (consumed : Memory) (challenge : JsString) (now : ℚ) :
    ((consumeAgentAuthChallenge d challengeSecret consumed challenge now).1 = false ∧
      ((consumeAgentAuthChallenge d challengeSecret consumed challenge now).2 = consumed ∨
        (consumeAgentAuthChallenge d challengeSecret consumed challenge now).2
          = consumed.sweep consumedCacheCleanupIntervalMs now)) ∨
    ((consumeAgentAuthChallenge d challengeSecret consumed challenge now).1 = true ∧
      validateAgentAuthChallenge d challengeSecret challenge now ∧
      (∀ deadline, now < deadline → ¬ consumed.Holds challenge deadline) ∧
      (consumeAgentAuthChallenge d challengeSecret consumed challenge now).2
        = { consumed.sweep consumedCacheCleanupIntervalMs now with
            seen := (consumed.sweep consumedCacheCleanupIntervalMs now).seen.set challenge
              (now + challengeValidityMs) }) := by
  unfold consumeAgentAuthChallenge
  split
  · exact .inl ⟨rfl, .inl rfl⟩
  · rename_i hvalid
    dsimp only
    split
    · exact .inl ⟨rfl, .inr rfl⟩
    · rename_i hout
      refine .inr ⟨rfl, by simpa using hvalid, ?_, rfl⟩
      intro deadline hlate hholds
      obtain ⟨expiresAt, hread, hlong⟩ := Memory.holds_sweep consumedCacheCleanupIntervalMs hholds hlate
      rw [Option.mem_def] at hread
      rw [hread, Option.getD_some] at hout
      exact hout (hlate.trans_le hlong)

theorem UseKept.consume (h : UseKept d challengeSecret w) {challenge : JsString}
    (haway : ¬ AtBothEnds w challenge) :
    UseKept d challengeSecret (stepChallenges d challengeSecret w (.consume challenge)) := by
  have hcases := @consume_cases d challengeSecret w.consumed challenge w.now
  rcases hcases with
    ⟨hrefused, hmemory⟩ | ⟨haccepted, hvalid, hout, hmemory⟩
  · have hstep : stepChallenges d challengeSecret w (.consume challenge) = { w with
        consumed := (consumeAgentAuthChallenge d challengeSecret w.consumed challenge w.now).2 } := by
      simp [stepChallenges, hrefused]
    rw [hstep]
    refine ⟨⟨h.once, h.issuedBefore, h.valid⟩, h.clock, h.made, h.past, ?_⟩
    intro u hu hearly
    rcases hmemory with hsame | hswept
    · rw [hsame]
      exact h.remembered u hu hearly
    · rw [hswept]
      exact Memory.holds_sweep _ (h.remembered u hu hearly) hearly
  · -- the memory keeps what it must, and the new entry
    have hremembered : ∀ u : JsString × ℚ, (u ∈ w.used ∨ u = (challenge, w.now)) →
        w.now < u.2 + challengeValidityMs →
        (consumeAgentAuthChallenge d challengeSecret w.consumed challenge w.now).2.Holds u.1
          (u.2 + challengeValidityMs) := by
      intro u hu hearly
      rw [hmemory]
      rcases hu with hu | rfl
      · have hswept := Memory.holds_sweep consumedCacheCleanupIntervalMs (h.remembered u hu hearly) hearly
        refine Memory.holds_set hswept fun _ => ?_
        have hpast := h.past u hu
        linarith
      · exact ⟨w.now + challengeValidityMs, by rw [Option.mem_def, JsMap.get_set, if_pos rfl], le_rfl⟩
    by_cases hissued : challenge ∈ w.issued.map Prod.fst
    · have hstep : stepChallenges d challengeSecret w (.consume challenge) = { w with
          consumed := (consumeAgentAuthChallenge d challengeSecret w.consumed challenge w.now).2
          used := w.used ++ [(challenge, w.now)] } := by
        simp only [stepChallenges, haccepted, true_and, if_pos hissued]
      rw [hstep]
      refine ⟨⟨?_, ?_, ?_⟩, h.clock, h.made, ?_, ?_⟩
      · rw [map_append, map_singleton, nodup_append]
        refine ⟨h.once, nodup_singleton _, ?_⟩
        rintro _ ha b hb rfl
        obtain rfl := mem_singleton.mp hb
        obtain ⟨u, hu, hsame⟩ := mem_map.mp ha
        -- the earlier use has been forgotten, so its ten minutes are over
        have hover : u.2 + challengeValidityMs ≤ w.now := by
          by_contra hearly
          exact hout _ (not_le.mp hearly) (hsame ▸ h.remembered u hu (not_le.mp hearly))
        obtain ⟨i, hi, hisame, hbefore⟩ := h.issuedBefore u hu
        obtain ⟨hpos, -, hmade⟩ := h.made i hi
        have hlast := valid_of_issued hmade (hisame.trans hsame) hvalid
        have hfloor := issuedAtMs_le hpos
        refine haway ⟨u, hu, hsame, i, hi, hisame.trans hsame, ?_, ?_⟩
        · linarith
        · linarith
      · intro u hu
        rcases mem_append.mp hu with hu | hu
        · exact h.issuedBefore u hu
        · obtain rfl := mem_singleton.mp hu
          obtain ⟨i, hi, hsame⟩ := mem_map.mp hissued
          exact ⟨i, hi, hsame, (h.made i hi).2.1⟩
      · intro u hu i hi hsame
        rcases mem_append.mp hu with hu | hu
        · exact h.valid u hu i hi hsame
        · obtain rfl := mem_singleton.mp hu
          exact valid_of_issued (h.made i hi).2.2 hsame hvalid
      · intro u hu
        rcases mem_append.mp hu with hu | hu
        · exact h.past u hu
        · rw [mem_singleton.mp hu]
      · intro u hu hearly
        exact hremembered u ((mem_append.mp hu).imp_right mem_singleton.mp) hearly
    · have hstep : stepChallenges d challengeSecret w (.consume challenge) = { w with
          consumed := (consumeAgentAuthChallenge d challengeSecret w.consumed challenge w.now).2 } := by
        simp only [stepChallenges, haccepted, true_and, if_neg hissued]
      rw [hstep]
      exact ⟨⟨h.once, h.issuedBefore, h.valid⟩, h.clock, h.made, h.past,
        fun u hu hearly => hremembered u (.inl hu) hearly⟩

theorem UseKept.step (h : UseKept d challengeSecret w) (e : ChallengeEvent) (hok : AwayFromBothEnds w e) :
    UseKept d challengeSecret (stepChallenges d challengeSecret w e) := by
  cases e with
  | elapse ms => exact h.elapse ms
  | consume challenge => exact h.consume (hok challenge rfl)
  | issue random =>
    simp only [stepChallenges]
    split
    · rename_i hfits
      refine ⟨⟨h.once, ?_, ?_⟩, h.clock, ?_, h.past, h.remembered⟩
      · intro u hu
        obtain ⟨i, hi, hsame, hbefore⟩ := h.issuedBefore u hu
        exact ⟨i, mem_append_left _ hi, hsame, hbefore⟩
      · intro u hu i hi hsame
        rcases mem_append.mp hi with hi | hi
        · exact h.valid u hu i hi hsame
        · obtain rfl := mem_singleton.mp hi
          -- the text had been issued before, at an earlier time
          obtain ⟨i, hi, hisame, -⟩ := h.issuedBefore u hu
          have hvalid := h.valid u hu i hi hisame
          have hmono : (issuedAtMs i.2 : ℚ) ≤ issuedAtMs w.now :=
            Nat.cast_le.mpr (issuedAtMs_mono (h.made i hi).2.1)
          linarith
      · intro i hi
        rcases mem_append.mp hi with hi | hi
        · exact h.made i hi
        · obtain rfl := mem_singleton.mp hi
          exact ⟨h.clock, le_rfl, hfits, random.1, random.2, rfl⟩
    · exact h

/-- **Challenges are used once**, within their ten minutes, in every run in which none that was
used at its very beginning is presented at its very end. -/
theorem challenges_used_once (d : Digests) (challengeSecret : List UInt8) (start : ℚ≥0)
    (es : List ChallengeEvent)
    (hrun : Admissible AwayFromBothEnds (stepChallenges d challengeSecret) { now := start } es) :
    UsedOnce (run (stepChallenges d challengeSecret) { now := start } es) :=
  (run_invariant_of_admissible (fun _ e hok h => UseKept.step h e hok) es _ hrun
    (useKept_new d challengeSecret start.2)).toUsedOnce

end

/-! ### Two runs -/

def zeroSecret : List UInt8 := List.replicate 32 0

def zeroSecretDigests : Digests where
  sha256 _ := []
  hmacText _ _ := []
  hmac key text :=
    if key = zeroSecret ∧ text = (js "forwardx-agent-challenge-v2\n").map UInt16.toUInt8 ++
        (beBytes 8 20000 ++ List.replicate 24 0) then
      [0xe9, 0xea, 0xae, 0x35, 0x5d, 0xb9, 0x4f, 0xc1, 0x5b, 0x79, 0xfb, 0x18, 0x9a, 0xcf, 0xc1, 0x7c,
        0x9d, 0x97, 0x6f, 0x72, 0x23, 0x4e, 0x7b, 0x80, 0x59, 0x1b, 0x52, 0x5c, 0xa6, 0x6c, 0xfb, 0xe1]
    else []

def drawnZeros : { bytes : List UInt8 // bytes.length = 24 } :=
  ⟨List.replicate 24 0, List.length_replicate⟩

def zeroChallenge : JsString := issueAgentAuthChallenge zeroSecretDigests zeroSecret drawnZeros.1 20000

theorem challenge_used_once : UsedOnce (run (stepChallenges zeroSecretDigests zeroSecret) { now := 20000 }
      [.issue drawnZeros, .elapse 1, .consume zeroChallenge, .consume zeroChallenge]) ∧
    (run (stepChallenges zeroSecretDigests zeroSecret) { now := 20000 }
      [.issue drawnZeros, .elapse 1, .consume zeroChallenge, .consume zeroChallenge]).used.length = 1 := by
  refine ⟨challenges_used_once zeroSecretDigests zeroSecret 20000 _ ⟨nofun, nofun, ?_, ?_, trivial⟩,
    by decide +kernel⟩
  · rintro challenge ⟨⟩
    decide +kernel
  · rintro challenge ⟨⟩
    decide +kernel

theorem challenge_used_twice : ¬ UsedOnce (run (stepChallenges zeroSecretDigests zeroSecret) { now := 20000 }
      [.issue drawnZeros, .consume zeroChallenge, .elapse 600000, .consume zeroChallenge]) :=
  fun h => absurd h.once (by decide +kernel)

end ForwardX.Panel
