/-
Proofs of authorization: `verifyAgentAuthProofDetails` of `server/agentCrypto.ts`.

A proof is accepted in a window around the panel's clock and remembered until it has left the
window. The invariant compares the two: whatever could still be accepted is remembered, unless the
clock is calibrated anew.
-/
import ForwardX.Lib.Run
import ForwardX.Panel.AgentChallenges

namespace ForwardX.Panel

open Run List

/-! ## `rememberOnce` -/

def replayWindowMs : ℚ := 5 * 60 * 1000

def replayCacheCleanupIntervalMs : ℚ := 10 * 1000

def replayCacheTtlMs : ℚ := 2 * replayWindowMs + replayCacheCleanupIntervalMs

/-- The memory with the key in it; `none` when the key is refused. -/
def rememberOnce (cache : Memory) (key : JsString) (now : ℚ) : Option Memory :=
  let existingExpiry := (cache.seen.get key).getD 0
  if now < existingExpiry then none
  else
    let cache := if 0 < existingExpiry then { cache with seen := cache.seen.delete key } else cache
    let cache := cache.sweep replayCacheCleanupIntervalMs now
    some { cache with seen := cache.seen.set key (now + replayCacheTtlMs) }

section

variable {cache cache' : Memory} {key key' : JsString} {now deadline : ℚ}

theorem rememberOnce_refused (h : cache.Holds key deadline) (hnow : now < deadline) :
    rememberOnce cache key now = none := by
  obtain ⟨expiresAt, hread, hlong⟩ := h
  rw [Option.mem_def] at hread
  have hlater : now < expiresAt := lt_of_lt_of_le hnow hlong
  simp [rememberOnce, hread, hlater]

theorem rememberOnce_holds (h : rememberOnce cache key now = some cache') :
    cache'.Holds key (now + replayCacheTtlMs) := by
  unfold rememberOnce at h
  simp only at h
  split at h
  · cases h
  · obtain rfl := Option.some.inj h
    refine ⟨now + replayCacheTtlMs, ?_, le_refl _⟩
    rw [Option.mem_def, JsMap.get_set, if_pos rfl]

theorem rememberOnce_keeps (h : rememberOnce cache key now = some cache')
    (hold : cache.Holds key' deadline) (hnow : now < deadline) : cache'.Holds key' deadline := by
  have hne : key' ≠ key := by
    rintro rfl
    rw [rememberOnce_refused hold hnow] at h
    cases h
  unfold rememberOnce at h
  simp only at h
  split at h
  · cases h
  · obtain rfl := Option.some.inj h
    refine Memory.holds_set (Memory.holds_sweep _ ?_ hnow) (fun heq => absurd heq hne)
    split
    · obtain ⟨expiresAt, hread, hlong⟩ := hold
      refine ⟨expiresAt, ?_, hlong⟩
      rw [Option.mem_def, JsMap.get_delete, if_neg hne]
      exact hread
    · exact hold

end

/-! ## Signatures -/

section

variable (d : Digests)

def deriveAuthKey (token : JsString) : List UInt8 := d.sha256 (token ++ js "|forwardx-agent-auth")

def agentTokenFingerprint (token : JsString) : JsString :=
  (hex (d.sha256 (token ++ js "|forwardx-agent-auth-id"))).take 32

/-- The lines that are signed: `stamp` is the timestamp, or the challenge. -/
def signedLines (version method path bodyText stamp nonce : JsString) : JsString :=
  [0x0A].intercalate [version, toUpperCase method, path, stamp, nonce, hex (d.sha256 bodyText)]

def authInput (method path bodyText : JsString) (ts : ℕ) (nonce : JsString) : JsString :=
  signedLines d (js "v1") method path bodyText (decimalText ts) nonce

def challengeAuthInput (method path bodyText challenge nonce : JsString) : JsString :=
  signedLines d (js "v2") method path bodyText challenge nonce

def signAgentAuthProof (token method path bodyText : JsString) (ts : ℕ) (nonce : JsString) : JsString :=
  hex (d.hmacText (deriveAuthKey d token) (authInput d method path bodyText ts nonce))

def signAgentChallengeAuthProof (token method path bodyText challenge nonce : JsString) : JsString :=
  hex (d.hmacText (deriveAuthKey d token) (challengeAuthInput d method path bodyText challenge nonce))

end

def timingSafeEqualHex (a b : JsString) : Bool := fromHex a = fromHex b

/-! ## Proofs -/

/-- `ts` is `none` when the digits are those of a number beyond all doubles. -/
inductive AgentAuthProof where
  | v1 (fingerprint : JsString) (ts : Option ℕ) (nonce sig : JsString)
  | v2 (fingerprint challenge nonce sig : JsString)

/-- `[a-f0-9]`, and with the flag `i`. -/
def isLowerHex (u : UInt16) : Bool := u ∈ hexDigits

def isHex (u : UInt16) : Bool := isLowerHex (toLowerUnit u)

def matchesText (p : UInt16 → Bool) (least most : ℕ) (s : JsString) : Bool :=
  s.all p && decide (least ≤ s.length) && decide (s.length ≤ most)

/-- The groups of the two expressions have no dot in them. -/
def parseAgentAuthProof (raw : JsString) : Option AgentAuthProof :=
  match (trim raw).splitOn 0x2E with
  | [version, fingerprint, stamp, nonce, sig] =>
    if toLowerCase version = js "v1" ∧ matchesText isHex 32 32 fingerprint ∧
        (stamp.all isDigit ∧ 10 ≤ stamp.length) ∧ matchesText isHex 16 64 nonce ∧
        matchesText isHex 64 64 sig then
      some (.v1 (toLowerCase fingerprint) (roundToDouble (decimalValue stamp)) (toLowerCase nonce)
        (toLowerCase sig))
    else if version = js "v2" ∧ matchesText isLowerHex 32 32 fingerprint ∧
        matchesText isBase64url 80 100 stamp ∧ matchesText isLowerHex 16 64 nonce ∧
        matchesText isLowerHex 64 64 sig then
      some (.v2 fingerprint stamp nonce sig)
    else none
  | _ => none

/-! ## Verification -/

structure VerifyInput where
  raw : JsString
  candidateTokens : List JsString
  method : JsString
  path : JsString
  bodyText : Option JsString
  nowMs : Option JsNumber

inductive AuthVersion where
  | v1
  | v2
  deriving DecidableEq

structure AuthCaches where
  seenAuthProofs : Memory := {}
  consumedChallenges : Memory := {}

/-- `Math.abs(nowMs - ts) > REPLAY_WINDOW_MS`. -/
def outOfWindow (nowMs : JsNumber) (ts : ℕ) : Bool :=
  match nowMs with
  | .nan => false
  | .infinity _ => true
  | .finite now => replayWindowMs < |now - ts|

/-- `candidateTokens.find(…)`; the empty token is none. -/
def candidateFor (d : Digests) (tokens : List JsString) (fingerprint : JsString) : Option JsString :=
  (tokens.find? fun item => agentTokenFingerprint d item = fingerprint).filter (· ≠ [])

/-- `${proof.fingerprint}:${proof.ts}:${proof.nonce}:${proof.sig}`. -/
def proofKey (fingerprint : JsString) (ts : ℕ) (nonce sig : JsString) : JsString :=
  [0x3A].intercalate [fingerprint, decimalText ts, nonce, sig]

def signedV1 (d : Digests) (token : JsString) (input : VerifyInput) (ts : ℕ) (nonce sig : JsString) : Bool :=
  timingSafeEqualHex (signAgentAuthProof d token input.method input.path (input.bodyText.getD []) ts nonce)
    sig

section

variable (d : Digests) (challengeSecret : List UInt8)

/-- `verifyAgentAuthProofDetails`. It reads the protocol clock, then checks, and
`elapsed` milliseconds after it began it looks into the memories. -/
def verifyAgentAuthProofDetails (caches : AuthCaches) (clocks : Clocks) (elapsed : ℚ≥0)
    (input : VerifyInput) : Except String (Option (JsString × AuthVersion)) × AuthCaches :=
  let nowMs := input.nowMs.getD (.finite (panelCryptoNowMs clocks))
  match parseAgentAuthProof input.raw with
  | none => (.ok none, caches)
  | some (.v1 _ none _ _) => (.ok none, caches)
  | some (.v1 fingerprint (some ts) nonce sig) =>
    if outOfWindow nowMs ts then (.ok none, caches)
    else
      match candidateFor d input.candidateTokens fingerprint with
      | none => (.ok none, caches)
      | some token =>
        if !signedV1 d token input ts nonce sig then (.ok none, caches)
        else
          match rememberOnce caches.seenAuthProofs (proofKey fingerprint ts nonce sig)
              (clocks.mono + elapsed) with
          | none => (.error "Agent auth replay detected", caches)
          | some seen => (.ok (some (token, .v1)), { caches with seenAuthProofs := seen })
  | some (.v2 fingerprint challenge nonce sig) =>
    if !validateAgentAuthChallenge d challengeSecret challenge clocks.mono then (.ok none, caches)
    else
      match candidateFor d input.candidateTokens fingerprint with
      | none => (.ok none, caches)
      | some token =>
        if !timingSafeEqualHex (signAgentChallengeAuthProof d token input.method input.path
            (input.bodyText.getD []) challenge nonce) sig then (.ok none, caches)
        else
          match consumeAgentAuthChallenge d challengeSecret caches.consumedChallenges challenge
              (clocks.mono + elapsed) with
          | (false, consumed) => (.ok none, { caches with consumedChallenges := consumed })
          | (true, consumed) => (.ok (some (token, .v2)), { caches with consumedChallenges := consumed })

end

/-! ## Calls in a row -/

/-- A call: its arguments, when it looked into the memories, and the time it judged the
timestamp by. -/
structure AuthCall where
  input : VerifyInput
  mono : ℚ
  nowMs : JsNumber

structure AcceptedProof where
  token : JsString
  ts : ℕ
  nonce : JsString
  call : AuthCall

def AcceptedProof.identity (a : AcceptedProof) : JsString × ℕ × JsString := (a.token, a.ts, a.nonce)

/-- Clocks and memories, with all calls so far and the proofs that were accepted. -/
structure AuthWorld where
  clocks : Clocks := {}
  caches : AuthCaches := {}
  calls : List AuthCall := []
  accepted : List AcceptedProof := []

inductive AuthEvent where
  | elapse (ms : ℚ≥0) (wall : ℤ)
  | refreshPanelClock (samples : List PanelClockSample) (allowSingleSource : Bool)
  | verify (elapsed : ℚ≥0) (input : VerifyInput)

def AuthWorld.callOf (s : AuthWorld) (elapsed : ℚ≥0) (input : VerifyInput) : AuthCall :=
  ⟨input, s.clocks.mono + elapsed, input.nowMs.getD (.finite (panelCryptoNowMs s.clocks))⟩

def acceptedBy (call : AuthCall) (result : Except String (Option (JsString × AuthVersion))) :
    List AcceptedProof :=
  match result, parseAgentAuthProof call.input.raw with
  | .ok (some (token, .v1)), some (.v1 _ (some ts) nonce _) => [⟨token, ts, nonce, call⟩]
  | _, _ => []

def stepAuth (d : Digests) (challengeSecret : List UInt8) (s : AuthWorld) : AuthEvent → AuthWorld
  | .elapse ms wall => { s with clocks := s.clocks.elapse ms wall }
  | .refreshPanelClock samples allowSingleSource =>
    { s with clocks := performPanelClockRefresh s.clocks samples allowSingleSource }
  | .verify elapsed input =>
    let (result, caches) := verifyAgentAuthProofDetails d challengeSecret s.caches s.clocks elapsed input
    let call := s.callOf elapsed input
    { clocks := s.clocks.elapse elapsed s.clocks.wall
      caches := caches
      calls := s.calls ++ [call]
      accepted := s.accepted ++ acceptedBy call result }

/-! ### The condition -/

/-- Both calls come with a timestamped proof, of one fingerprint, timestamp and nonce. -/
def AuthCall.presentsAs (c c' : AuthCall) : Bool :=
  match parseAgentAuthProof c.input.raw, parseAgentAuthProof c'.input.raw with
  | some (.v1 fingerprint ts nonce _), some (.v1 fingerprint' ts' nonce' _) =>
    fingerprint = fingerprint' ∧ ts = ts' ∧ nonce = nonce'
  | _, _ => false

def AuthCall.signed (d : Digests) (c : AuthCall) : Bool :=
  match parseAgentAuthProof c.input.raw with
  | some (.v1 fingerprint (some ts) nonce sig) =>
    match candidateFor d c.input.candidateTokens fingerprint with
    | some token => signedV1 d token c.input ts nonce sig
    | none => false
  | _ => false

def AuthCall.request (c : AuthCall) : JsString × JsString × JsString :=
  (toUpperCase c.input.method, c.input.path, c.input.bodyText.getD [])

/-- From one call to the other, the protocol clock has lost less than ten seconds on the
monotonic clock. -/
def AuthCall.clockKept (earlier later : AuthCall) : Bool :=
  match earlier.nowMs, later.nowMs with
  | .finite now, .finite now' =>
    later.mono - earlier.mono - replayCacheCleanupIntervalMs < now' - now
  | _, _ => false

/-- A call with a proof that was seen before: the clock has not been put back since, and
the signatures are not of two different requests. -/
def PresentedOnceMore (d : Digests) (s : AuthWorld) : AuthEvent → Prop
  | .verify elapsed input => ∀ c ∈ s.calls, c.presentsAs (s.callOf elapsed input) = true →
      c.clockKept (s.callOf elapsed input) = true ∧
      (c.signed d = true → (s.callOf elapsed input).signed d = true →
        c.request = (s.callOf elapsed input).request)
  | _ => True

instance PresentedOnceMore.decidable (d : Digests) (s : AuthWorld) (e : AuthEvent) :
    Decidable (PresentedOnceMore d s e) := by
  cases e <;> unfold PresentedOnceMore <;> infer_instance

/-! ## What is accepted -/

structure AcceptedProof.Sound (d : Digests) (a : AcceptedProof) (sig : JsString) : Prop where
  parsed : parseAgentAuthProof a.call.input.raw
    = some (.v1 (agentTokenFingerprint d a.token) (some a.ts) a.nonce sig)
  found : candidateFor d a.call.input.candidateTokens (agentTokenFingerprint d a.token) = some a.token
  inWindow : outOfWindow a.call.nowMs a.ts = false
  signed : signedV1 d a.token a.call.input a.ts a.nonce sig = true

theorem fingerprint_of_candidateFor {d : Digests} {tokens : List JsString} {fingerprint token : JsString}
    (h : candidateFor d tokens fingerprint = some token) : agentTokenFingerprint d token = fingerprint := by
  rw [candidateFor, Option.filter_eq_some_iff] at h
  simpa using find?_some h.1

section

variable {d : Digests} {challengeSecret : List UInt8} {s : AuthWorld}

variable (d challengeSecret s) in
theorem verify_cases (elapsed : ℚ≥0) (input : VerifyInput) :
    ((verifyAgentAuthProofDetails d challengeSecret s.caches s.clocks elapsed input).2.seenAuthProofs
        = s.caches.seenAuthProofs ∧
      acceptedBy (s.callOf elapsed input)
        (verifyAgentAuthProofDetails d challengeSecret s.caches s.clocks elapsed input).1 = []) ∨
    ∃ a sig, a.Sound d sig ∧ a.call = s.callOf elapsed input ∧
      acceptedBy (s.callOf elapsed input)
        (verifyAgentAuthProofDetails d challengeSecret s.caches s.clocks elapsed input).1 = [a] ∧
      rememberOnce s.caches.seenAuthProofs (proofKey (agentTokenFingerprint d a.token) a.ts a.nonce sig)
          (s.clocks.mono + elapsed)
        = some (verifyAgentAuthProofDetails d challengeSecret s.caches s.clocks elapsed input).2.seenAuthProofs := by
  have hraw : (s.callOf elapsed input).input.raw = input.raw := rfl
  unfold verifyAgentAuthProofDetails
  simp only [acceptedBy, hraw]
  split
  · exact .inl ⟨rfl, rfl⟩
  · exact .inl ⟨rfl, rfl⟩
  · rename_i fingerprint ts nonce sig hparse
    split
    · exact .inl ⟨rfl, rfl⟩
    · rename_i hwindow
      split
      · exact .inl ⟨rfl, rfl⟩
      · rename_i token hfound
        have hprint := fingerprint_of_candidateFor hfound
        split
        · exact .inl ⟨rfl, rfl⟩
        · rename_i hsigned
          split
          · exact .inl ⟨rfl, rfl⟩
          · rename_i seen hseen
            subst hprint
            refine .inr ⟨⟨token, ts, nonce, s.callOf elapsed input⟩, sig, ?_, rfl, ?_, hseen⟩
            · rw [Bool.not_eq_true] at hwindow
              rw [Bool.not_eq_true, Bool.not_eq_false'] at hsigned
              exact ⟨hparse, hfound, hwindow, hsigned⟩
            · simp only [hparse]
  · rename_i hparse
    -- a challenge: neither the memory of proofs nor the list changes
    split
    · exact .inl ⟨rfl, rfl⟩
    · split
      · exact .inl ⟨rfl, rfl⟩
      · split
        · exact .inl ⟨rfl, rfl⟩
        · split
          · exact .inl ⟨rfl, rfl⟩
          · exact .inl ⟨rfl, rfl⟩

theorem lowerHex_of_parse {raw fingerprint nonce sig : JsString} {ts : Option ℕ}
    (h : parseAgentAuthProof raw = some (.v1 fingerprint ts nonce sig)) : LowerHex sig := by
  unfold parseAgentAuthProof at h
  split at h
  · split at h
    · rename_i sig' hsplit hmatch
      obtain ⟨-, -, -, -, hsig⟩ := hmatch
      simp only [Option.some.injEq, AgentAuthProof.v1.injEq] at h
      obtain ⟨-, -, -, rfl⟩ := h
      simp only [matchesText, Bool.and_eq_true, all_eq_true, decide_eq_true_eq] at hsig
      have hlen : sig'.length = 64 := by omega
      refine ⟨by simp [toLowerCase, hlen], ?_⟩
      intro u hu
      obtain ⟨v, hv, rfl⟩ := mem_map.mp hu
      simpa [isHex, isLowerHex] using hsig.1.1 v hv
    · split at h <;> cases h
  · cases h

section

variable {a a' : AcceptedProof} {sig sig' : JsString} (h : a.Sound d sig) (h' : a'.Sound d sig')

include h h'

theorem AcceptedProof.Sound.sig_eq (hid : a.identity = a'.identity) (hreq : a.call.request = a'.call.request) :
    sig = sig' := by
  simp only [AcceptedProof.identity, Prod.mk.injEq] at hid
  simp only [AuthCall.request, Prod.mk.injEq] at hreq
  obtain ⟨htoken, hts, hnonce⟩ := hid
  obtain ⟨hmethod, hpath, hbody⟩ := hreq
  have hsigned := h.signed
  have hsigned' := h'.signed
  simp only [signedV1, timingSafeEqualHex, decide_eq_true_eq] at hsigned hsigned'
  apply fromHex_inj (lowerHex_of_parse h.parsed) (lowerHex_of_parse h'.parsed)
  rw [← hsigned, ← hsigned']
  simp only [signAgentAuthProof, authInput, signedLines, hmethod, hpath, hbody, htoken, hts, hnonce]

theorem AcceptedProof.Sound.within (hts : a.ts = a'.ts) (hclock : a.call.clockKept a'.call = true) :
    a'.call.mono < a.call.mono + replayCacheTtlMs := by
  have hwindow := h.inWindow
  have hwindow' := h'.inWindow
  unfold AuthCall.clockKept at hclock
  split at hclock
  · rename_i now now' hnow hnow'
    rw [hnow] at hwindow
    rw [hnow'] at hwindow'
    simp only [outOfWindow, decide_eq_false_iff_not, not_lt, abs_le] at hwindow hwindow'
    rw [decide_eq_true_eq] at hclock
    rw [← hts] at hwindow'
    unfold replayCacheTtlMs
    linarith [hwindow.1, hwindow'.2]
  · cases hclock

end

/-! ## The invariant -/

/-- What was accepted is remembered until its time is over. -/
structure AuthKept (d : Digests) (s : AuthWorld) : Prop where
  once : (s.accepted.map AcceptedProof.identity).Nodup
  called : ∀ a ∈ s.accepted, a.call ∈ s.calls
  remembered : ∀ a ∈ s.accepted, ∃ sig, a.Sound d sig ∧
    (s.clocks.mono < a.call.mono + replayCacheTtlMs →
      s.caches.seenAuthProofs.Holds (proofKey (agentTokenFingerprint d a.token) a.ts a.nonce sig)
        (a.call.mono + replayCacheTtlMs))

theorem AuthKept.later (h : AuthKept d s) {clocks : Clocks} (hlater : s.clocks.mono ≤ clocks.mono) :
    AuthKept d { s with clocks := clocks } where
  once := h.once
  called := h.called
  remembered := by
    intro a ha
    obtain ⟨sig, hsound, hheld⟩ := h.remembered a ha
    exact ⟨sig, hsound, fun hlt => hheld (lt_of_le_of_lt hlater hlt)⟩

theorem AuthKept.new (h : AuthKept d s) {a : AcceptedProof} {sig : JsString} {cache' : Memory}
    (hsound : a.Sound d sig) (hlater : s.clocks.mono ≤ a.call.mono)
    (hremember : rememberOnce s.caches.seenAuthProofs
      (proofKey (agentTokenFingerprint d a.token) a.ts a.nonce sig) a.call.mono = some cache')
    (hok : ∀ c ∈ s.calls, c.presentsAs a.call = true → c.clockKept a.call = true ∧
      (c.signed d = true → a.call.signed d = true → c.request = a.call.request)) :
    ∀ a' ∈ s.accepted, a'.identity ≠ a.identity := by
  intro a' ha' hid
  obtain ⟨sig', hsound', hheld⟩ := h.remembered a' ha'
  have hsame := hid
  simp only [AcceptedProof.identity, Prod.mk.injEq] at hsame
  obtain ⟨htoken, hts, hnonce⟩ := hsame
  have hpresents : a'.call.presentsAs a.call = true := by
    simp [AuthCall.presentsAs, hsound.parsed, hsound'.parsed, htoken, hts, hnonce]
  have hsigned : ∀ {x : AcceptedProof} {sigx : JsString}, x.Sound d sigx → x.call.signed d = true := by
    intro x sigx hx
    simp only [AuthCall.signed, hx.parsed, hx.found, hx.signed]
  obtain ⟨hclock, hrequest⟩ := hok a'.call (h.called a' ha') hpresents
  have hsig : sig' = sig := hsound'.sig_eq hsound hid (hrequest (hsigned hsound') (hsigned hsound))
  have hwithin := hsound'.within hsound hts hclock
  have hholds := hheld (lt_of_le_of_lt hlater hwithin)
  rw [hsig, htoken, hts, hnonce] at hholds
  rw [rememberOnce_refused hholds hwithin] at hremember
  cases hremember

theorem AuthKept.step (h : AuthKept d s) (e : AuthEvent) (hok : PresentedOnceMore d s e) :
    AuthKept d (stepAuth d challengeSecret s e) := by
  cases e with
  | elapse ms wall => exact h.later (s.clocks.mono_le_elapse ms wall)
  | refreshPanelClock samples allowSingleSource =>
    exact h.later (mono_performPanelClockRefresh _ _ _).ge
  | verify elapsed input =>
    have htime : s.clocks.mono ≤ s.clocks.mono + elapsed := le_add_of_nonneg_right elapsed.2
    obtain ⟨hsame, hnone⟩ | ⟨a, sig, hsound, hcall, hnew, hremember⟩ :=
      verify_cases d challengeSecret s elapsed input
    · simp only [stepAuth, hnone, append_nil]
      refine ⟨h.once, fun a ha => mem_append_left _ (h.called a ha), ?_⟩
      intro a ha
      obtain ⟨sig, hsound, hheld⟩ := h.remembered a ha
      refine ⟨sig, hsound, fun hlt => ?_⟩
      rw [hsame]
      exact hheld (lt_of_le_of_lt htime hlt)
    · have hmono : a.call.mono = s.clocks.mono + elapsed := by rw [hcall]; rfl
      have hlater : s.clocks.mono ≤ a.call.mono := by rw [hmono]; exact htime
      rw [← hmono] at hremember
      have hfresh := h.new hsound hlater hremember (by rw [hcall]; exact hok)
      simp only [stepAuth, hnew]
      constructor
      · rw [map_append, nodup_append]
        refine ⟨h.once, by simp, ?_⟩
        intro id hid id' hid'
        obtain ⟨a', ha', rfl⟩ := mem_map.mp hid
        rw [map_singleton, mem_singleton] at hid'
        rw [hid']
        exact hfresh a' ha'
      · intro a' ha'
        rcases mem_append.mp ha' with ha' | ha'
        · exact mem_append_left _ (h.called a' ha')
        · rw [mem_singleton] at ha'
          rw [ha', hcall]
          exact mem_append_right _ (mem_singleton_self _)
      · intro a' ha'
        rcases mem_append.mp ha' with ha' | ha'
        · obtain ⟨sig', hsound', hheld⟩ := h.remembered a' ha'
          refine ⟨sig', hsound', fun hlt => ?_⟩
          have hlt' : a.call.mono < a'.call.mono + replayCacheTtlMs := by rw [hmono]; exact hlt
          exact rememberOnce_keeps hremember (hheld (lt_of_le_of_lt hlater hlt')) hlt'
        · rw [mem_singleton] at ha'
          rw [ha']
          exact ⟨sig, hsound, fun _ => rememberOnce_holds hremember⟩

end

/-! ## The theorem -/

/-- **A timestamped proof is accepted at most once**, in every run in which the protocol
clock is not put back by ten seconds between two calls with the proof, and no token signs
two requests with one timestamp and nonce. -/
theorem proofs_accepted_once (d : Digests) (challengeSecret : List UInt8) (clocks : Clocks)
    (es : List AuthEvent)
    (hok : Admissible (PresentedOnceMore d) (stepAuth d challengeSecret) { clocks := clocks } es) :
    ((run (stepAuth d challengeSecret) { clocks := clocks } es).accepted.map
      AcceptedProof.identity).Nodup := by
  have hstart : AuthKept d { clocks := clocks } := by
    refine ⟨List.nodup_nil, ?_, ?_⟩
    · intro a ha
      cases ha
    · intro a ha
      cases ha
  have hkept := run_invariant_of_admissible (I := AuthKept d)
    (fun s e hok hs => hs.step e hok) es _ hok hstart
  exact hkept.once

/-! ### A request and its proof

The token is that of `server/agentCrypto.test.ts`; the request has no body. -/

def vectorToken : JsString := js "forwardx-test-token"

def vectorNonce : JsString :=
  hex [0x00, 0x11, 0x22, 0x33, 0x44, 0x55, 0x66, 0x77, 0x88, 0x99, 0xaa, 0xbb, 0xcc, 0xdd, 0xee, 0xff]

def vectorFingerprint : List UInt8 :=
  [0x69, 0x1c, 0xd7, 0x14, 0x0d, 0x18, 0xac, 0x69, 0x42, 0xce, 0x40, 0x7d, 0xc8, 0xac, 0x14, 0x66,
   0x5a, 0x52, 0x78, 0xa6, 0x8e, 0x4a, 0x40, 0x92, 0x8d, 0x9c, 0xb1, 0x0b, 0x85, 0xd3, 0xe3, 0x86]

def vectorKey : List UInt8 :=
  [0xad, 0xed, 0x77, 0x77, 0x03, 0x01, 0x57, 0x90, 0xac, 0xd3, 0xbf, 0xe9, 0x8e, 0x11, 0xb0, 0x10,
   0xd0, 0x5b, 0x4d, 0x34, 0x6d, 0xdb, 0x8e, 0x0c, 0x3d, 0x4c, 0xcb, 0xe3, 0x2d, 0x08, 0x7e, 0xec]

def emptyDigest : List UInt8 :=
  [0xe3, 0xb0, 0xc4, 0x42, 0x98, 0xfc, 0x1c, 0x14, 0x9a, 0xfb, 0xf4, 0xc8, 0x99, 0x6f, 0xb9, 0x24,
   0x27, 0xae, 0x41, 0xe4, 0x64, 0x9b, 0x93, 0x4c, 0xa4, 0x95, 0x99, 0x1b, 0x78, 0x52, 0xb8, 0x55]

def vectorSignature : List UInt8 :=
  [0xda, 0x32, 0x05, 0x86, 0x81, 0x7e, 0xe8, 0x62, 0x05, 0x16, 0x2b, 0x3e, 0x3f, 0xd8, 0x5c, 0x39,
   0x77, 0x74, 0x33, 0xdf, 0xb0, 0xb3, 0xab, 0x35, 0xd9, 0x29, 0x8e, 0x69, 0x43, 0x14, 0x46, 0x4c]

def vectorDigests : Digests where
  sha256 text :=
    if text = vectorToken ++ js "|forwardx-agent-auth-id" then vectorFingerprint
    else if text = vectorToken ++ js "|forwardx-agent-auth" then vectorKey
    else if text = [] then emptyDigest
    else []
  hmacText key text :=
    if key = vectorKey ∧ text = js "v1\nPOST\n/api/sync\n1784700000123\n" ++ vectorNonce ++ js "\n" ++
        hex emptyDigest then vectorSignature
    else []
  hmac _ _ := []

def vectorInput : VerifyInput where
  raw := [0x2E].intercalate [js "v1", (hex vectorFingerprint).take 32, js "1784700000123", vectorNonce,
    hex vectorSignature]
  candidateTokens := [vectorToken]
  method := js "POST"
  path := js "/api/sync"
  bodyText := none
  nowMs := none

def vectorClocks : Clocks := { wall := 1784700000123 }

/-- The proof comes again after ten minutes, and once more a second later. -/
def vectorReplay : List AuthEvent :=
  [.verify 0 vectorInput, .elapse 600000 1784700600123, .verify 0 vectorInput,
    .elapse 1000 1784700601123, .verify 0 vectorInput]

theorem vector_accepted_once :
    Admissible (PresentedOnceMore vectorDigests) (stepAuth vectorDigests []) { clocks := vectorClocks }
      vectorReplay ∧
    (run (stepAuth vectorDigests []) { clocks := vectorClocks } vectorReplay).accepted.length = 1 ∧
    ((run (stepAuth vectorDigests []) { clocks := vectorClocks } vectorReplay).accepted.map
      AcceptedProof.identity).Nodup :=
  ⟨by decide +kernel, by decide +kernel,
    proofs_accepted_once vectorDigests [] vectorClocks vectorReplay (by decide +kernel)⟩

/-- Two servers that agree on a time, `offsetMs` away from the panel's. -/
def vectorSamples (offsetMs remoteTimeMs monotonicMidpointMs : ℚ) : List PanelClockSample :=
  [⟨js "a", .finite offsetMs, .finite 40, remoteTimeMs, monotonicMidpointMs⟩,
    ⟨js "b", .finite offsetMs, .finite 40, remoteTimeMs, monotonicMidpointMs⟩]

/-- The panel's clock turns out to be a little more than five minutes fast. -/
theorem proof_accepted_twice : ¬ ((run (stepAuth vectorDigests []) { clocks := vectorClocks }
      [.verify 0 vectorInput, .elapse 610000 1784700610123,
        .refreshPanelClock (vectorSamples (-310123) 1784700300000 610000) false,
        .verify 0 vectorInput]).accepted.map AcceptedProof.identity).Nodup := by
  decide +kernel

end ForwardX.Panel
