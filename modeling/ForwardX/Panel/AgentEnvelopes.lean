/-
Sealed requests of agents: `decryptPayload` of `server/agentCrypto.ts` and
`server/agentEncryptionMiddleware.ts`.
-/
import ForwardX.Panel.AgentAuth

namespace ForwardX.Panel

open BigEndian Run List

/-! ## Envelopes -/

structure EncryptedEnvelope where
  iv : JsString
  ct : JsString
  mac : JsString
  ts : JsNumber

/-- `aes-256-ctr` with a key and an iv, `JSON.parse`, and what the middleware looks at in
a parsed value: `String(v?.path || "")` and `v?.payload ?? {}`. -/
structure PayloadCodec (V : Type) where
  decipher : List UInt8 → List UInt8 → List UInt8 → List UInt8
  parse : List UInt8 → Option V
  path : V → JsString
  payload : V → V

def deriveMacKey (d : Digests) (token : JsString) : List UInt8 := d.sha256 (token ++ js "|forwardx-agent-mac")

def deriveEncKey (d : Digests) (token : JsString) : List UInt8 := d.sha256 (token ++ js "|forwardx-agent-v1")

/-- `BigInt(ts)` written in eight bytes; `none` when one of the two throws. -/
def timestampBytes : JsNumber → Option (List UInt8)
  | .finite q => if q.den = 1 ∧ 0 ≤ q.num ∧ q.num < 2 ^ 64 then some (beBytes 8 q.num.toNat) else none
  | _ => none

def macInput (iv ct : List UInt8) (ts : JsNumber) : Option (List UInt8) :=
  (timestampBytes ts).map fun tsBuf => [0x76, 0x31] ++ iv ++ ct ++ tsBuf

/-- `Math.abs(nowMs - ts) > REPLAY_WINDOW_MS` for two numbers. -/
def apart (nowMs : ℤ) : JsNumber → Bool
  | .nan => false
  | .infinity _ => true
  | .finite ts => replayWindowMs < |(nowMs : ℚ) - ts|

section

variable {V : Type} (d : Digests) (codec : PayloadCodec V)

structure DecryptOptions where
  rememberReplay : Bool := true
  validateTimestamp : Bool := true
  nowMs : ℤ

/-- `decryptPayload`, with the memory of macs and the time it is looked into. -/
def decryptPayload (seen : Memory) (mono : ℚ) (envelope : EncryptedEnvelope) (token : JsString)
    (options : DecryptOptions) : Except String V × Memory :=
  let iv := fromHex envelope.iv
  let ct := fromHex envelope.ct
  if iv.length ≠ 16 then (.error "Invalid IV length", seen)
  else if options.validateTimestamp ∧ apart options.nowMs envelope.ts then
    (.error "Request timestamp out of window (replay protection)", seen)
  else
    match macInput iv ct envelope.ts with
    | none => (.error "The number cannot be converted to a BigInt", seen)
    | some input =>
      if d.hmac (deriveMacKey d token) input ≠ fromHex envelope.mac then
        (.error "MAC verification failed", seen)
      else
        match (if options.rememberReplay then rememberOnce seen envelope.mac mono else some seen) with
        | none => (.error "Encrypted request replay detected", seen)
        | some seen =>
          match codec.parse (codec.decipher (deriveEncKey d token) iv ct) with
          | none => (.error "Unexpected token in JSON", seen)
          | some payload => (.ok payload, seen)

/-- The loop of `decryptPayloadWithCandidates`, with the last error. -/
def decryptPayloadWithCandidates (envelope : EncryptedEnvelope) (options : DecryptOptions) :
    List JsString → String → Except String (JsString × V)
  | [], lastError => .error lastError
  | token :: tokens, _ =>
    match (decryptPayload d codec {} 0 envelope token { options with rememberReplay := false }).1 with
    | .ok payload => .ok (token, payload)
    | .error message => decryptPayloadWithCandidates envelope options tokens message

end

/-! ## The middleware -/

/-- A request as it arrives. `bodyText` is `JSON.stringify` of its body. -/
structure AgentRequest where
  method : JsString
  baseUrl : JsString
  path : JsString
  authorization : Option JsString
  body : Option EncryptedEnvelope
  bodyText : JsString

def getAgentAuthRequestPath (req : AgentRequest) : JsString :=
  let baseUrl := req.baseUrl.rdropWhile (· = 0x2F)
  if baseUrl = [] then (if req.path = [] then js "/" else req.path)
  else if req.path = [] then baseUrl
  else baseUrl ++ (if req.path.head? = some 0x2F then req.path else 0x2F :: req.path)

def tokenCandidateForProof (d : Digests) (raw : JsString) (tokens : List JsString) : Option JsString :=
  match parseAgentAuthProof raw with
  | none => none
  | some (.v1 fingerprint _ _ _) | some (.v2 fingerprint _ _ _) => candidateFor d tokens.reverse fingerprint

/-- What the database answers when it is asked for tokens, and asked again, and the time
that passes before each step. -/
structure Surroundings where
  tokens : List JsString
  forced : List JsString
  untilFirst : ℚ≥0 := 0
  untilSecond : ℚ≥0 := 0
  untilDecrypt : ℚ≥0 := 0

def Surroundings.duration (env : Surroundings) : ℚ≥0 := env.untilFirst + env.untilSecond + env.untilDecrypt

/-- What `resolveAgentTokenFromAuthorization` returns and notes in the request. -/
structure Resolved where
  token : Option JsString := none
  signedAttempt : Bool := false
  version : Option AuthVersion := none

section

variable {V : Type} (d : Digests) (challengeSecret : List UInt8) (codec : PayloadCodec V)

def verifyCredential (caches : AuthCaches) (clocks : Clocks) (req : AgentRequest)
    (credential : JsString) (nowMs : ℤ) (tokens : List JsString) :
    Except String (Option (JsString × AuthVersion)) × AuthCaches :=
  match tokenCandidateForProof d credential tokens with
  | none => (.ok none, caches)
  | some candidate =>
    verifyAgentAuthProofDetails d challengeSecret caches clocks 0
      { raw := credential
        candidateTokens := [candidate]
        method := req.method
        path := getAgentAuthRequestPath req
        bodyText := some req.bodyText
        nowMs := some (.finite nowMs) }

def resolveAgentTokenFromAuthorization (caches : AuthCaches) (clocks : Clocks) (req : AgentRequest)
    (nowMs : ℤ) (env : Surroundings) : Except String Resolved × AuthCaches :=
  match req.authorization with
  | none => (.ok {}, caches)
  | some authHeader =>
    let credential := trim (authHeader.drop 7)
    if authHeader.take 7 ≠ js "Bearer " ∨ credential = [] then (.ok {}, caches)
    else if credential.take 3 ≠ js "v1." ∧ credential.take 3 ≠ js "v2." then
      (.ok { token := some credential }, caches)
    else
      let first := clocks.elapse env.untilFirst clocks.wall
      let second := first.elapse env.untilSecond clocks.wall
      match verifyCredential d challengeSecret caches first req credential nowMs env.tokens with
      | (.error message, caches) => (.error message, caches)
      | (.ok (some (token, version)), caches) => (.ok ⟨some token, true, some version⟩, caches)
      | (.ok none, caches) =>
        match verifyCredential d challengeSecret caches second req credential nowMs env.forced with
        | (.error message, caches) => (.error message, caches)
        | (.ok (some (token, version)), caches) => (.ok ⟨some token, true, some version⟩, caches)
        | (.ok none, caches) => (.ok { signedAttempt := true }, caches)

structure PanelMemories where
  auth : AuthCaches := {}
  seenEnvelopeMacs : Memory := {}

structure Handed (V : Type) where
  token : JsString
  body : V
  tunneledPath : JsString

/-- The answer of the middleware itself, or `next()`. -/
inductive MiddlewareResult (V : Type) where
  | refused (status : ℕ) (error : String)
  | next (handed : Handed V)

def agentTunnelPaths : List JsString :=
  [js "/api/agent/register", js "/api/agent/heartbeat", js "/api/agent/presence",
    js "/api/agent/selftest-pull", js "/api/agent/selftest-result", js "/api/agent/looking-glass-result",
    js "/api/agent/looking-glass-progress", js "/api/agent/iperf3-result",
    js "/api/agent/plugin-action-result", js "/api/agent/support-bundle-result",
    js "/api/agent/migration-rollback", js "/api/agent/traffic", js "/api/agent/tcping",
    js "/api/agent/protocol-block", js "/api/agent/rule-status", js "/api/agent/rule-status-batch"]

def normalizeTunnelPath (value : JsString) : JsString :=
  let path := trim value
  if path ∈ agentTunnelPaths then path else []

/-- The part that finds token and payload: everything inside the first `try`. -/
def openEnvelope (m : PanelMemories) (clocks : Clocks) (req : AgentRequest) (envelope : EncryptedEnvelope)
    (env : Surroundings) : Except String (JsString × V) × PanelMemories :=
  let protocolNowMs := panelCryptoNowMs clocks
  let mono := clocks.mono + env.duration
  match resolveAgentTokenFromAuthorization d challengeSecret m.auth clocks req protocolNowMs env with
  | (.error message, auth) => (.error message, { m with auth := auth })
  | (.ok resolved, auth) =>
    match resolved.token with
    | some token =>
      match decryptPayload d codec m.seenEnvelopeMacs mono envelope token
          { validateTimestamp := resolved.version ≠ some .v2, nowMs := protocolNowMs } with
      | (.error message, seen) => (.error message, ⟨auth, seen⟩)
      | (.ok payload, seen) => (.ok (token, payload), ⟨auth, seen⟩)
    | none =>
      if resolved.signedAttempt then (.error "Invalid Agent auth proof", { m with auth := auth })
      else
        let candidates := decryptPayloadWithCandidates d codec envelope { nowMs := protocolNowMs }
        let opened : Except String (JsString × V) := match candidates env.tokens "No token candidates available" with
          | .ok found => .ok found
          | .error _ => candidates env.forced "No token candidates available"
        match opened with
        | .error message => (.error message, { m with auth := auth })
        | .ok found =>
          match rememberOnce m.seenEnvelopeMacs envelope.mac mono with
          | none => (.error "Encrypted request replay detected", { m with auth := auth })
          | some seen => (.ok found, ⟨auth, seen⟩)

/-- `agentEncryptionMiddleware` on a request that it has not seen yet. -/
def agentEncryptionMiddleware (m : PanelMemories) (clocks : Clocks) (req : AgentRequest)
    (env : Surroundings) : MiddlewareResult V × PanelMemories :=
  match req.body with
  | none => (.refused 401 "Encrypted communication required", m)
  | some envelope =>
    match openEnvelope d challengeSecret codec m clocks req envelope env with
    | (.error _, m) => (.refused 401 "Unauthorized", m)
    | (.ok (token, payload), m) =>
      if token = [] then (.refused 401 "Unauthorized", m)
      else if req.path = js "/api/sync" then
        let tunneledPath := normalizeTunnelPath (codec.path payload)
        if tunneledPath = [] then (.refused 400 "Invalid encrypted request", m)
        else (.next ⟨token, codec.payload payload, tunneledPath⟩, m)
      else (.next ⟨token, payload, []⟩, m)

end

/-! ## What is opened -/

section

variable {V : Type} {d : Digests} {challengeSecret : List UInt8} {codec : PayloadCodec V}

def EncryptedEnvelope.SealedBy (d : Digests) (envelope : EncryptedEnvelope) (token : JsString) : Prop :=
  ∃ input, macInput (fromHex envelope.iv) (fromHex envelope.ct) envelope.ts = some input ∧
    d.hmac (deriveMacKey d token) input = fromHex envelope.mac

variable {envelope : EncryptedEnvelope}

theorem decryptPayload_cases {seen seen' : Memory} {mono : ℚ}
    {token : JsString} {options : DecryptOptions} {result : Except String V}
    (h : decryptPayload d codec seen mono envelope token options = (result, seen')) :
    (seen' = seen ∨ rememberOnce seen envelope.mac mono = some seen') ∧
    ∀ payload, result = .ok payload → envelope.SealedBy d token ∧
      (options.rememberReplay = true → rememberOnce seen envelope.mac mono = some seen') := by
  have hfails : ∀ message : String, (Except.error message, seen) = (result, seen') →
      (seen' = seen ∨ rememberOnce seen envelope.mac mono = some seen') ∧
      ∀ payload, result = .ok payload → envelope.SealedBy d token ∧
        (options.rememberReplay = true → rememberOnce seen envelope.mac mono = some seen') := by
    rintro message ⟨⟩
    exact ⟨.inl rfl, fun payload hok => nomatch hok⟩
  unfold decryptPayload at h
  simp only at h
  split at h
  · exact hfails _ h
  · split at h
    · exact hfails _ h
    · split at h
      · exact hfails _ h
      · rename_i input hinput
        split at h
        · exact hfails _ h
        · rename_i hmac
          have hsealed : envelope.SealedBy d token := ⟨input, hinput, not_not.mp hmac⟩
          split at h
          · exact hfails _ h
          · rename_i seen'' hseen
            -- whatever becomes of the payload, the memory is this one from here on
            have hmemory : (seen'' = seen ∨ rememberOnce seen envelope.mac mono = some seen'') ∧
                (options.rememberReplay = true → rememberOnce seen envelope.mac mono = some seen'') := by
              by_cases hremember : options.rememberReplay = true
              · rw [if_pos hremember] at hseen
                exact ⟨.inr hseen, fun _ => hseen⟩
              · rw [if_neg hremember] at hseen
                exact ⟨.inl (Option.some.inj hseen).symm, fun hon => absurd hon hremember⟩
            split at h
            · obtain ⟨rfl, rfl⟩ := Prod.mk.inj h
              exact ⟨hmemory.1, fun payload hok => nomatch hok⟩
            · obtain ⟨rfl, rfl⟩ := Prod.mk.inj h
              exact ⟨hmemory.1, fun payload _ => ⟨hsealed, hmemory.2⟩⟩

theorem sealedBy_of_candidates {options : DecryptOptions}
    {tokens : List JsString} {lastError : String} {found : JsString × V}
    (h : decryptPayloadWithCandidates d codec envelope options tokens lastError = .ok found) :
    envelope.SealedBy d found.1 := by
  induction tokens generalizing lastError with
  | nil => cases h
  | cons token tokens ih =>
    unfold decryptPayloadWithCandidates at h
    split at h
    · rename_i payload hopened
      obtain rfl := Except.ok.inj h
      exact ((decryptPayload_cases (Prod.ext hopened rfl)).2 payload rfl).1
    · exact ih h

variable (m : PanelMemories) (clocks : Clocks) (req : AgentRequest) (env : Surroundings)

variable (d challengeSecret codec) in
theorem openEnvelope_cases (envelope : EncryptedEnvelope) :
    ((openEnvelope d challengeSecret codec m clocks req envelope env).2.seenEnvelopeMacs
        = m.seenEnvelopeMacs ∨
      rememberOnce m.seenEnvelopeMacs envelope.mac (clocks.mono + env.duration)
        = some (openEnvelope d challengeSecret codec m clocks req envelope env).2.seenEnvelopeMacs) ∧
    ∀ found, (openEnvelope d challengeSecret codec m clocks req envelope env).1 = .ok found →
      envelope.SealedBy d found.1 ∧
      rememberOnce m.seenEnvelopeMacs envelope.mac (clocks.mono + env.duration)
        = some (openEnvelope d challengeSecret codec m clocks req envelope env).2.seenEnvelopeMacs := by
  unfold openEnvelope
  simp only
  split
  · exact ⟨.inl rfl, fun found h => nomatch h⟩
  · split
    · rename_i token _
      split
      · rename_i hdecrypt
        exact ⟨(decryptPayload_cases hdecrypt).1, fun found h => nomatch h⟩
      · rename_i payload seen hdecrypt
        obtain ⟨hmemory, hopened⟩ := decryptPayload_cases hdecrypt
        obtain ⟨hsealed, hremember⟩ := hopened payload rfl
        refine ⟨hmemory, ?_⟩
        rintro found ⟨⟩
        exact ⟨hsealed, hremember rfl⟩
    · split
      · exact ⟨.inl rfl, fun found h => nomatch h⟩
      · split
        · exact ⟨.inl rfl, fun found h => nomatch h⟩
        · rename_i found hfound
          have hsealed : envelope.SealedBy d found.1 := by
            split at hfound
            · rename_i found' hfirst
              obtain rfl := Except.ok.inj hfound
              exact sealedBy_of_candidates hfirst
            · exact sealedBy_of_candidates hfound
          split
          · exact ⟨.inl rfl, fun found h => nomatch h⟩
          · rename_i seen hseen
            refine ⟨.inr hseen, ?_⟩
            rintro found' ⟨⟩
            exact ⟨hsealed, hseen⟩

variable (d challengeSecret codec) in
theorem middleware_cases (hbody : req.body = some envelope) :
    ((agentEncryptionMiddleware d challengeSecret codec m clocks req env).2.seenEnvelopeMacs
        = m.seenEnvelopeMacs ∨
      rememberOnce m.seenEnvelopeMacs envelope.mac (clocks.mono + env.duration)
        = some (agentEncryptionMiddleware d challengeSecret codec m clocks req env).2.seenEnvelopeMacs) ∧
    ∀ handed, (agentEncryptionMiddleware d challengeSecret codec m clocks req env).1 = .next handed →
      envelope.SealedBy d handed.token ∧
      rememberOnce m.seenEnvelopeMacs envelope.mac (clocks.mono + env.duration)
        = some (agentEncryptionMiddleware d challengeSecret codec m clocks req env).2.seenEnvelopeMacs := by
  have hcases := openEnvelope_cases d challengeSecret codec m clocks req env envelope
  unfold agentEncryptionMiddleware
  simp only [hbody]
  split
  · rename_i hopen
    rw [hopen] at hcases
    exact ⟨hcases.1, fun handed h => nomatch h⟩
  · rename_i token payload m' hopen
    rw [hopen] at hcases
    have hgood := hcases.2 _ rfl
    split
    · exact ⟨hcases.1, fun handed h => nomatch h⟩
    · split
      · split
        · exact ⟨hcases.1, fun handed h => nomatch h⟩
        · refine ⟨hcases.1, ?_⟩
          rintro handed ⟨⟩
          exact hgood
      · refine ⟨hcases.1, ?_⟩
        rintro handed ⟨⟩
        exact hgood

end

/-! ## Requests in a row -/

structure Arrival where
  envelope : EncryptedEnvelope
  mono : ℚ

def EncryptedEnvelope.content (envelope : EncryptedEnvelope) : List UInt8 × List UInt8 × JsNumber :=
  (fromHex envelope.iv, fromHex envelope.ct, envelope.ts)

/-- An envelope whose content went to the application, and the token it was opened with. -/
structure OpenedEnvelope extends Arrival where
  token : JsString

def OpenedEnvelope.identity (o : OpenedEnvelope) : JsString × List UInt8 × List UInt8 × JsNumber :=
  (o.token, o.envelope.content)

/-- Clocks and memories, with the envelopes that have come and those that were opened. -/
structure EnvelopeWorld where
  clocks : Clocks := {}
  memories : PanelMemories := {}
  arrivals : List Arrival := []
  opened : List OpenedEnvelope := []

inductive EnvelopeEvent where
  | elapse (ms : ℚ≥0) (wall : ℤ)
  | refreshPanelClock (samples : List PanelClockSample) (allowSingleSource : Bool)
  | request (req : AgentRequest) (env : Surroundings)

def openedBy {V : Type} (arrival : Arrival) : MiddlewareResult V → List OpenedEnvelope
  | .next handed => [{ arrival with token := handed.token }]
  | .refused .. => []

def stepEnvelopes {V : Type} (d : Digests) (challengeSecret : List UInt8) (codec : PayloadCodec V)
    (s : EnvelopeWorld) : EnvelopeEvent → EnvelopeWorld
  | .elapse ms wall => { s with clocks := s.clocks.elapse ms wall }
  | .refreshPanelClock samples allowSingleSource =>
    { s with clocks := performPanelClockRefresh s.clocks samples allowSingleSource }
  | .request req env =>
    let (result, memories) := agentEncryptionMiddleware d challengeSecret codec s.memories s.clocks req env
    let clocks := s.clocks.elapse env.duration s.clocks.wall
    match req.body with
    | none => { s with clocks := clocks, memories := memories }
    | some envelope =>
      let arrival : Arrival := ⟨envelope, s.clocks.mono + env.duration⟩
      { clocks := clocks
        memories := memories
        arrivals := s.arrivals ++ [arrival]
        opened := s.opened ++ openedBy arrival result }

/-- A content that comes again comes while its envelope is remembered. -/
def Timely (s : EnvelopeWorld) : EnvelopeEvent → Prop
  | .request req env => ∀ envelope ∈ req.body, ∀ earlier ∈ s.arrivals,
      earlier.envelope.content = envelope.content →
        s.clocks.mono + env.duration < earlier.mono + replayCacheTtlMs
  | _ => True

def PlainMac : EnvelopeEvent → Prop
  | .request req _ => ∀ envelope ∈ req.body, LowerHex envelope.mac
  | _ => True

instance Timely.decidable (s : EnvelopeWorld) (e : EnvelopeEvent) : Decidable (Timely s e) := by
  cases e <;> unfold Timely <;> infer_instance

instance PlainMac.decidable (e : EnvelopeEvent) : Decidable (PlainMac e) := by
  cases e <;> unfold PlainMac <;> infer_instance

/-! ## The invariant -/

/-- What was opened is remembered until its time is over. -/
structure EnvelopesKept (d : Digests) (s : EnvelopeWorld) : Prop where
  once : (s.opened.map OpenedEnvelope.identity).Nodup
  arrived : ∀ o ∈ s.opened, o.toArrival ∈ s.arrivals
  remembered : ∀ o ∈ s.opened, o.envelope.SealedBy d o.token ∧ LowerHex o.envelope.mac ∧
    (s.clocks.mono < o.mono + replayCacheTtlMs →
      s.memories.seenEnvelopeMacs.Holds o.envelope.mac (o.mono + replayCacheTtlMs))

section

variable {V : Type} {d : Digests} {challengeSecret : List UInt8} {codec : PayloadCodec V}
  {s : EnvelopeWorld}

theorem EnvelopesKept.later (h : EnvelopesKept d s) {clocks : Clocks}
    (hlater : s.clocks.mono ≤ clocks.mono) : EnvelopesKept d { s with clocks := clocks } where
  once := h.once
  arrived := h.arrived
  remembered := by
    intro o ho
    obtain ⟨hsealed, hplain, hheld⟩ := h.remembered o ho
    exact ⟨hsealed, hplain, fun hlt => hheld (lt_of_le_of_lt hlater hlt)⟩

theorem mac_eq {o o' : OpenedEnvelope} (hsealed : o.envelope.SealedBy d o.token)
    (hsealed' : o'.envelope.SealedBy d o'.token) (hplain : LowerHex o.envelope.mac)
    (hplain' : LowerHex o'.envelope.mac) (hid : o.identity = o'.identity) :
    o.envelope.mac = o'.envelope.mac := by
  obtain ⟨input, hinput, hmac⟩ := hsealed
  obtain ⟨input', hinput', hmac'⟩ := hsealed'
  simp only [OpenedEnvelope.identity, EncryptedEnvelope.content, Prod.mk.injEq] at hid
  obtain ⟨htoken, hiv, hct, hts⟩ := hid
  apply fromHex_inj hplain hplain'
  rw [hiv, hct, hts, hinput'] at hinput
  rw [← hmac, ← hmac', htoken, Option.some.inj hinput]

theorem EnvelopesKept.new (h : EnvelopesKept d s) {o : OpenedEnvelope} {seen' : Memory}
    (hsealed : o.envelope.SealedBy d o.token) (hplain : LowerHex o.envelope.mac)
    (hlater : s.clocks.mono ≤ o.mono)
    (hremember : rememberOnce s.memories.seenEnvelopeMacs o.envelope.mac o.mono = some seen')
    (htimely : ∀ earlier ∈ s.arrivals, earlier.envelope.content = o.envelope.content →
      o.mono < earlier.mono + replayCacheTtlMs) :
    ∀ o' ∈ s.opened, o'.identity ≠ o.identity := by
  intro o' ho' hid
  obtain ⟨hsealed', hplain', hheld⟩ := h.remembered o' ho'
  have hcontent : o'.envelope.content = o.envelope.content := (Prod.mk.inj hid).2
  have hwithin := htimely o'.toArrival (h.arrived o' ho') hcontent
  have hholds := hheld (lt_of_le_of_lt hlater hwithin)
  rw [mac_eq hsealed' hsealed hplain' hplain hid] at hholds
  rw [rememberOnce_refused hholds hwithin] at hremember
  cases hremember

theorem EnvelopesKept.request (h : EnvelopesKept d s) {req : AgentRequest} {env : Surroundings}
    (htimely : Timely s (.request req env)) (hplain : PlainMac (.request req env)) :
    EnvelopesKept d (stepEnvelopes d challengeSecret codec s (.request req env)) := by
  have htime : s.clocks.mono ≤ s.clocks.mono + env.duration := le_add_of_nonneg_right env.duration.2
  cases hbody : req.body with
  | none =>
    have hnothing : stepEnvelopes d challengeSecret codec s (.request req env)
        = { s with clocks := s.clocks.elapse env.duration s.clocks.wall } := by
      simp only [stepEnvelopes, agentEncryptionMiddleware, hbody]
    rw [hnothing]
    exact h.later htime
  | some envelope =>
    obtain ⟨hmemory, hopened⟩ :=
      middleware_cases d challengeSecret codec s.memories s.clocks req env hbody
    have hmac := hplain envelope hbody
    simp only [stepEnvelopes, hbody]
    generalize agentEncryptionMiddleware d challengeSecret codec s.memories s.clocks req env = out
      at hmemory hopened
    obtain ⟨result, memories⟩ := out
    -- an older envelope whose time is not over stays in the memory
    have hstays : ∀ o ∈ s.opened, s.clocks.mono + env.duration < o.mono + replayCacheTtlMs →
        memories.seenEnvelopeMacs.Holds o.envelope.mac (o.mono + replayCacheTtlMs) := by
      intro o ho hlt
      have hheld := (h.remembered o ho).2.2 (lt_of_le_of_lt htime hlt)
      rcases hmemory with hsame | hremember
      · rw [hsame]
        exact hheld
      · exact rememberOnce_keeps hremember hheld hlt
    cases result with
    | refused status error =>
      simp only [openedBy, append_nil]
      refine ⟨h.once, fun o ho => mem_append_left _ (h.arrived o ho), ?_⟩
      intro o ho
      obtain ⟨hsealed, hplain', -⟩ := h.remembered o ho
      exact ⟨hsealed, hplain', hstays o ho⟩
    | next handed =>
      obtain ⟨hsealed, hremember⟩ := hopened handed rfl
      simp only [openedBy]
      generalize hnew : (OpenedEnvelope.mk ⟨envelope, s.clocks.mono + env.duration⟩ handed.token) = o
      have henvelope : envelope = o.envelope := by rw [← hnew]
      have hmono : s.clocks.mono + env.duration = o.mono := by rw [← hnew]
      have htoken : handed.token = o.token := by rw [← hnew]
      have hearlier := htimely envelope hbody
      rw [henvelope, htoken] at hsealed
      rw [henvelope] at hmac
      rw [henvelope, hmono] at hremember hearlier
      rw [hmono] at htime
      have hfresh := h.new hsealed hmac htime hremember hearlier
      constructor
      · rw [map_append, nodup_append]
        refine ⟨h.once, by simp, ?_⟩
        intro id hid id' hid'
        obtain ⟨o', ho', rfl⟩ := mem_map.mp hid
        rw [map_singleton, mem_singleton] at hid'
        rw [hid']
        exact hfresh o' ho'
      · intro o' ho'
        rcases mem_append.mp ho' with ho' | ho'
        · exact mem_append_left _ (h.arrived o' ho')
        · rw [mem_singleton] at ho'
          rw [ho', ← hnew]
          exact mem_append_right _ (mem_singleton_self _)
      · intro o' ho'
        rcases mem_append.mp ho' with ho' | ho'
        · obtain ⟨hsealed', hplain', -⟩ := h.remembered o' ho'
          exact ⟨hsealed', hplain', hstays o' ho'⟩
        · rw [mem_singleton] at ho'
          rw [ho']
          exact ⟨hsealed, hmac, fun _ => rememberOnce_holds hremember⟩

theorem EnvelopesKept.step (h : EnvelopesKept d s) (e : EnvelopeEvent) (htimely : Timely s e)
    (hplain : PlainMac e) : EnvelopesKept d (stepEnvelopes d challengeSecret codec s e) := by
  cases e with
  | elapse ms wall => exact h.later (s.clocks.mono_le_elapse ms wall)
  | refreshPanelClock samples allowSingleSource =>
    exact h.later (mono_performPanelClockRefresh _ _ _).ge
  | request req env => exact h.request htimely hplain

end

/-! ## The theorem -/

/-- **A sealed content is handed on at most once**, in every run whose requests spell the
mac in small digits. -/
theorem envelopes_opened_once {V : Type} (d : Digests) (challengeSecret : List UInt8)
    (codec : PayloadCodec V) (clocks : Clocks) (es : List EnvelopeEvent)
    (htimely : Admissible Timely (stepEnvelopes d challengeSecret codec) { clocks := clocks } es)
    (hplain : ∀ e ∈ es, PlainMac e) :
    ((run (stepEnvelopes d challengeSecret codec) { clocks := clocks } es).opened.map
      OpenedEnvelope.identity).Nodup := by
  have hstart : EnvelopesKept d { clocks := clocks } := by
    refine ⟨List.nodup_nil, ?_, ?_⟩
    · intro o ho
      cases ho
    · intro o ho
      cases ho
  have hkept := run_invariant_of_admissible (I := EnvelopesKept d) (fun s e hok hs => hs.step e hok.1 hok.2)
    es _ (htimely.and_forall hplain) hstart
  exact hkept.once

/-! ### An envelope, sent again -/

def sealedMac : List UInt8 :=
  [0xf2, 0x63, 0xc9, 0x56, 0x2e, 0x52, 0xd1, 0xf4, 0xec, 0x64, 0xcb, 0x33, 0x0c, 0xa9, 0x0e, 0xfc,
   0x99, 0x71, 0xdb, 0xc9, 0x8c, 0xab, 0xe9, 0xce, 0xa2, 0x7d, 0xad, 0xcb, 0xd6, 0x1e, 0x28, 0xf5]

def sealedMacKey : List UInt8 :=
  [0x00, 0x33, 0x33, 0x6a, 0x61, 0x30, 0x93, 0x83, 0x6c, 0x52, 0x28, 0x93, 0x7d, 0x6a, 0xff, 0xc9,
   0x97, 0x94, 0x57, 0x77, 0xa7, 0x1f, 0xb6, 0xe0, 0x17, 0xf0, 0xd2, 0x57, 0xc6, 0x9e, 0x2c, 0x2e]

def sealedEncKey : List UInt8 :=
  [0xd1, 0x87, 0xb4, 0x99, 0xcb, 0xa0, 0xdf, 0xd5, 0x34, 0x4a, 0x5e, 0xc4, 0xb9, 0xeb, 0x97, 0x82,
   0xfe, 0x5f, 0x52, 0xfb, 0xb5, 0xe5, 0x7c, 0x98, 0x4a, 0xea, 0x60, 0x78, 0x86, 0x96, 0xc3, 0xc1]

def sealedIv : List UInt8 := (List.range 16).map UInt8.ofNat

def sealedCt : List UInt8 := [0xf6, 0x56]

def sealedDigests : Digests where
  sha256 text :=
    if text = vectorToken ++ js "|forwardx-agent-mac" then sealedMacKey
    else if text = vectorToken ++ js "|forwardx-agent-v1" then sealedEncKey
    else []
  hmacText _ _ := []
  hmac key input :=
    if key = sealedMacKey ∧ input = [0x76, 0x31] ++ sealedIv ++ sealedCt ++ beBytes 8 1784700000123 then
      sealedMac
    else []

def sealedCodec : PayloadCodec Unit where
  decipher key iv ct := if key = sealedEncKey ∧ iv = sealedIv ∧ ct = sealedCt then [0x7B, 0x7D] else []
  parse text := if text = [0x7B, 0x7D] then some () else none
  path _ := []
  payload _ := ()

/-- The envelope with a mac of one's own spelling, without a header. -/
def sealedRequest (mac : JsString) : AgentRequest where
  method := js "POST"
  baseUrl := []
  path := js "/api/agent/heartbeat"
  authorization := none
  body := some ⟨hex sealedIv, hex sealedCt, mac, .finite 1784700000123⟩
  bodyText := []

def sealedSurroundings : Surroundings := { tokens := [vectorToken], forced := [vectorToken] }

theorem envelope_opened_first_time :
    Admissible Timely (stepEnvelopes sealedDigests [] sealedCodec) { clocks := vectorClocks }
      [.request (sealedRequest (hex sealedMac)) sealedSurroundings,
        .request (sealedRequest (hex sealedMac)) sealedSurroundings] ∧
    (run (stepEnvelopes sealedDigests [] sealedCodec) { clocks := vectorClocks }
      [.request (sealedRequest (hex sealedMac)) sealedSurroundings,
        .request (sealedRequest (hex sealedMac)) sealedSurroundings]).opened.length = 1 ∧
    ((run (stepEnvelopes sealedDigests [] sealedCodec) { clocks := vectorClocks }
      [.request (sealedRequest (hex sealedMac)) sealedSurroundings,
        .request (sealedRequest (hex sealedMac)) sealedSurroundings]).opened.map
          OpenedEnvelope.identity).Nodup :=
  ⟨by decide +kernel, by decide +kernel,
    envelopes_opened_once sealedDigests [] sealedCodec vectorClocks _ (by decide +kernel)
      (by decide +kernel)⟩

theorem envelope_opened_twice :
    Admissible Timely (stepEnvelopes sealedDigests [] sealedCodec) { clocks := vectorClocks }
      [.request (sealedRequest (hex sealedMac)) sealedSurroundings,
        .request (sealedRequest (toUpperCase (hex sealedMac))) sealedSurroundings] ∧
    ¬ ((run (stepEnvelopes sealedDigests [] sealedCodec) { clocks := vectorClocks }
      [.request (sealedRequest (hex sealedMac)) sealedSurroundings,
        .request (sealedRequest (toUpperCase (hex sealedMac))) sealedSurroundings]).opened.map
          OpenedEnvelope.identity).Nodup := by
  decide +kernel

end ForwardX.Panel
