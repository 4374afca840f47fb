/-
The server side of the FXP handshake, `newServerSecureConnWithWires` of `forwardx-fxp/main.go`, and
what its replay cache is good for.

A copy is refused as long as its salt is in the cache. So the theorem counts what must happen for it
to leave: five minutes, or as many other salts as the cache holds.
-/
import ForwardX.Lib.Run
import ForwardX.Fxp.SecureConn
import ForwardX.Fxp.ReplayCache

namespace ForwardX.Fxp

open Run BigEndian

/-! ## Wire contexts -/

structure FxpWireContext where
  name : String
  sessionInfo : List UInt8
  lengthAD : List UInt8
  payloadAD : List UInt8
  masterContext : String
  compat : Bool

def fxpWireCurrent : FxpWireContext where
  name := "current"
  sessionInfo := "forwardx-fxp-v2 session".toUTF8.toList
  lengthAD := "forwardx-fxp-v2 length".toUTF8.toList
  payloadAD := "forwardx-fxp-v2 payload".toUTF8.toList
  masterContext := "forwardx-fxp-v2 master"
  compat := false

def fxpWireCompat2390 : FxpWireContext where
  name := "2.3.90-compat"
  sessionInfo := "forwardx-fxp session".toUTF8.toList
  lengthAD := "forwardx-fxp length".toUTF8.toList
  payloadAD := "forwardx-fxp payload".toUTF8.toList
  masterContext := "forwardx-fxp master"
  compat := true

def fxpWireContexts : List FxpWireContext := [fxpWireCurrent, fxpWireCompat2390]

/-! ## The handshake -/

structure FxpHandshake where
  V : ℤ
  TS : ℤ
  TunnelID : ℤ

structure HandshakeConfig where
  TunnelID : ℤ
  RuleID : ℤ
  ListenPort : ℤ
  Key : List UInt8

def fxpHandshakeVersion : ℤ := 2

def fxpSaltSize : ℕ := 32

def fxpHandshakeWindow : ℤ := 5 * 60 * 1000000000

structure HandshakeCrypto where
  aead : Aead
  sha256 : List UInt8 → List UInt8
  /-- `blake3.DeriveKey` into 32 bytes. -/
  deriveKey : (masterContext : String) → (context : List UInt8) → List UInt8
  /-- The first bytes of a keyed blake3 output. -/
  xof : (keyMaterial material : List UInt8) → ℕ → List UInt8
  /-- `json.Marshal` and `json.Unmarshal` at `fxpHandshake`. -/
  marshal : FxpHandshake → List UInt8
  unmarshal : List UInt8 → Option FxpHandshake

def HandshakeCrypto.blake3Derive (K : HandshakeCrypto) (secret salt context : List UInt8)
    (masterContext : String) (length : ℕ) : List UInt8 :=
  K.xof (K.deriveKey masterContext context) (secret ++ salt) length

/-- `newSessionSecureConnWithWire`. The four keys are 32 bytes each, which
`newAEAD` never refuses. -/
def newSessionSecureConnWithWire (K : HandshakeCrypto) (key salt : List UInt8) (client : Bool)
    (wire : FxpWireContext) : SecureConn :=
  let material := K.blake3Derive (K.sha256 key) salt wire.sessionInfo wire.masterContext 128
  let c2sLen := material.take 32
  let c2sData := (material.drop 32).take 32
  let s2cLen := (material.drop 64).take 32
  let s2cData := (material.drop 96).take 32
  if client then
    { lenWriteAEAD := c2sLen, dataWriteAEAD := c2sData
      lenReadAEAD := s2cLen, dataReadAEAD := s2cData
      lengthAD := wire.lengthAD, payloadAD := wire.payloadAD
      writeDir := fxpEntryToExit, readDir := fxpExitToEntry
      writeCounter := 0, readCounter := 0 }
  else
    { lenWriteAEAD := s2cLen, dataWriteAEAD := s2cData
      lenReadAEAD := c2sLen, dataReadAEAD := c2sData
      lengthAD := wire.lengthAD, payloadAD := wire.payloadAD
      writeDir := fxpExitToEntry, readDir := fxpEntryToExit
      writeCounter := 0, readCounter := 0 }

/-- One connection as the server meets it: what the client sends before the
deadline, what the clock says, and how the transport answers. -/
structure ClientHandshake where
  cfg : HandshakeConfig
  deadlineSet : Bool
  raw : List UInt8
  /-- `time.Now` in `replayCache.Add`, in nanoseconds. -/
  now : ℤ
  /-- `time.Now().Unix()` for the reply. -/
  replyTS : ℤ
  answers : List (ℕ × Bool)
  /-- `clearFXPConnDeadline` gave no error but that of a closed connection. -/
  deadlineCleared : Bool

/-- `io.ReadFull`: the bytes read and those left, `none` when there are too few. -/
def readFull (n : ℕ) (raw : List UInt8) : Option (List UInt8 × List UInt8) :=
  if n ≤ raw.length then some (raw.take n, raw.drop n) else none

/-- A first frame that authenticated: the connection, the plaintext and the wire
context it authenticated under. -/
structure FirstFrame where
  sec : SecureConn
  ack : List UInt8
  wire : FxpWireContext

/-- The loop of `newServerSecureConnWithWires` up to the replay check. A length
record that does not open sends it to the next context; from then on every error
ends the handshake, so no later context sees the stream moved. -/
def openFirstFrame (K : HandshakeCrypto) (cfg : HandshakeConfig) (salt lenCipher rest : List UInt8) :
    List FxpWireContext → Option String → Except String FirstFrame
  | [], lastErr => .error (lastErr.getD "fxp handshake rejected")
  | wire :: wires, _ =>
    let sec := newSessionSecureConnWithWire K cfg.Key salt false wire
    match sec.decryptFrameLength K.aead 0 lenCipher with
    | .error err => openFirstFrame K cfg salt lenCipher rest wires (some err)
    | .ok n =>
      match readFull (n + aeadOverhead) rest with
      | none => .error "unexpected EOF"
      | some (dataCipher, _) =>
        match sec.decryptFrameData K.aead 0 dataCipher with
        | .error err => .error err
        | .ok ack => .ok ⟨sec, ack, wire⟩

/-- `replayKey`. The source prints these into one string, `%d:%d:%d:` and the salt
in hexadecimal, from which the four can be read back. -/
def replayKey (cfg : HandshakeConfig) (salt : List UInt8) : ReplayKey :=
  ⟨cfg.TunnelID, cfg.RuleID, cfg.ListenPort, salt⟩

/-- `finishServerHandshake`. The clock skew and the compatibility context are only
logged. -/
def finishServerHandshake (K : HandshakeCrypto) (e : ClientHandshake) (sec : SecureConn)
    (ack : List UInt8) : Except String SecureConn :=
  match K.unmarshal ack with
  | none => .error "fxp handshake rejected"
  | some hs =>
    if hs.V ≠ fxpHandshakeVersion ∨ hs.TunnelID ≠ e.cfg.TunnelID then
      .error "fxp handshake rejected"
    else if hs.TS ≤ 0 then .error "fxp handshake rejected"
    else
      let reply := K.marshal ⟨fxpHandshakeVersion, e.replyTS, e.cfg.TunnelID⟩
      let res := sec.writeEncryptedFrame K.aead ⟨reply, e.answers⟩
      match res.err with
      | some err => .error err
      | none => .ok res.conn

/-! ## The server -/

variable {P : ExpiryHeap}

/-- The process: `fxpReplaySeen`, and every key that was ever added to it, with
the time. -/
structure FxpServer (P : ExpiryHeap) where
  fxpReplaySeen : ReplayCache P
  added : List (ReplayKey × ℤ)

def newFxpServer (P : ExpiryHeap) : FxpServer P := ⟨newReplayCache P fxpHandshakeWindow 100000, []⟩

def readFirstFrame (K : HandshakeCrypto) (e : ClientHandshake) : Except String (List UInt8 × FirstFrame) :=
  if e.deadlineSet then
    match readFull fxpSaltSize e.raw with
    | none => .error "unexpected EOF"
    | some (salt, rest) =>
      -- a length of four bytes and its tag
      match readFull (4 + 16) rest with
      | none => .error "unexpected EOF"
      | some (lenCipher, rest) =>
        (openFirstFrame K e.cfg salt lenCipher rest fxpWireContexts none).map fun f => (salt, f)
  else .error "set fxp connection deadline"

/-- `newServerSecureConn`: the server after the handshake and the session or the
error. -/
def FxpServer.newServerSecureConn (K : HandshakeCrypto) (s : FxpServer P) (e : ClientHandshake) :
    FxpServer P × Except String SecureConn :=
  match readFirstFrame K e with
  | .error err => (s, .error err)
  | .ok (salt, f) =>
    let key := replayKey e.cfg salt
    let (cache, fresh) := s.fxpReplaySeen.addAt key e.now
    let s' : FxpServer P := ⟨cache, noteAdded s.added key e.now fresh⟩
    if fresh = false then (s', .error "fxp replay detected")
    else
      match finishServerHandshake K e { f.sec with readCounter := 1 } f.ack with
      | .error err => (s', .error err)
      | .ok sec =>
        if e.deadlineCleared then (s', .ok sec)
        else (s', .error "clear fxp connection deadline")

def FxpServer.step (K : HandshakeCrypto) (s : FxpServer P) (e : ClientHandshake) : FxpServer P :=
  (s.newServerSecureConn K e).1

def FxpServer.accepts (K : HandshakeCrypto) (s : FxpServer P) (e : ClientHandshake) : Bool :=
  match (s.newServerSecureConn K e).2 with
  | .ok _ => true
  | .error _ => false

/-! ## What a handshake does to the cache -/

/-- The key a connection is remembered by, if its first frame authenticates. -/
def ClientHandshake.key (e : ClientHandshake) : ReplayKey :=
  replayKey e.cfg (e.raw.take fxpSaltSize)

theorem readFirstFrame_salt {K : HandshakeCrypto} {e : ClientHandshake} {salt : List UInt8}
    {f : FirstFrame} (h : readFirstFrame K e = .ok (salt, f)) : replayKey e.cfg salt = e.key := by
  unfold readFirstFrame readFull at h
  by_cases hset : e.deadlineSet = true
  · rw [if_pos hset] at h
    by_cases hsalt : fxpSaltSize ≤ e.raw.length
    · rw [if_pos hsalt] at h
      dsimp only at h
      split at h
      · cases h
      · rcases hopen : openFirstFrame K e.cfg (e.raw.take fxpSaltSize) _ _ fxpWireContexts none
          with err | f'
        · rw [hopen] at h; cases h
        · rw [hopen] at h; cases h; rfl
    · rw [if_neg hsalt] at h; cases h
  · rw [if_neg hset] at h; cases h

theorem newServerSecureConn_cases (K : HandshakeCrypto) (s : FxpServer P) (e : ClientHandshake) :
    (s.step K e = s ∧ s.accepts K e = false) ∨
    (∃ salt f, readFirstFrame K e = .ok (salt, f) ∧
      s.step K e = ⟨(s.fxpReplaySeen.addAt e.key e.now).1,
        noteAdded s.added e.key e.now (s.fxpReplaySeen.addAt e.key e.now).2⟩ ∧
      (s.accepts K e = true → (s.fxpReplaySeen.addAt e.key e.now).2 = true)) := by
  unfold FxpServer.step FxpServer.accepts FxpServer.newServerSecureConn
  rcases hread : readFirstFrame K e with err | ⟨salt, f⟩
  · exact .inl ⟨rfl, rfl⟩
  · refine .inr ⟨salt, f, rfl, ?_⟩
    dsimp only
    rw [readFirstFrame_salt hread]
    rcases hadd : s.fxpReplaySeen.addAt e.key e.now with ⟨cache, fresh⟩
    cases fresh with
    | false => exact ⟨rfl, fun h => nomatch h⟩
    | true =>
      rw [if_neg (Bool.noConfusion : ¬ true = false)]
      -- the salt stays in the cache whatever becomes of the rest of the handshake
      refine ⟨?_, fun _ => rfl⟩
      rcases finishServerHandshake K e { f.sec with readCounter := 1 } f.ack with err | sec
      · rfl
      · cases hclear : e.deadlineCleared <;> rfl

/-! ## Runs of the server -/

/-- The cache is the one the process started with, and knows where its entries
come from. -/
structure FxpServer.Ok (s : FxpServer P) : Prop where
  ttl : s.fxpReplaySeen.ttl = fxpHandshakeWindow
  max : s.fxpReplaySeen.max = 100000
  inv : s.fxpReplaySeen.Inv s.added

theorem newFxpServer_ok : (newFxpServer P).Ok := ⟨rfl, rfl, inv_newReplayCache _ _⟩

theorem step_ok (K : HandshakeCrypto) {s : FxpServer P} (e : ClientHandshake) (h : s.Ok) : (s.step K e).Ok := by
  rcases newServerSecureConn_cases K s e with ⟨hstep, -⟩ | ⟨_, _, -, hstep, -⟩
  · rw [hstep]; exact h
  · obtain ⟨httl, hmax, hinv, -, -⟩ := addAt_spec h.inv e.key e.now
    rw [hstep]
    exact ⟨httl.trans h.ttl, hmax.trans h.max, hinv⟩

/-- The key of an accepted handshake is in the cache, or crowded out of it. -/
def FxpServer.Remembers (s : FxpServer P) (k : ReplayKey) (t : ℤ) : Prop :=
  s.Ok ∧ s.fxpReplaySeen.Held s.added k t

section

variable (K : HandshakeCrypto) {s : FxpServer P}

include K

theorem step_remembers {k : ReplayKey} {t : ℤ}
    (e : ClientHandshake) (hnow : e.now < t + fxpHandshakeWindow) (h : s.Remembers k t) :
    (s.step K e).Remembers k t := by
  refine ⟨step_ok K e h.1, ?_⟩
  rcases newServerSecureConn_cases K s e with ⟨hstep, -⟩ | ⟨_, _, -, hstep, -⟩
  · rw [hstep]; exact h.2
  · obtain ⟨-, -, -, -, hkeep⟩ := addAt_spec h.1.inv e.key e.now
    rw [hstep]
    exact hkeep k t h.2 (by rw [h.1.ttl]; exact hnow)

theorem accepts_remembers {e : ClientHandshake} (h : s.Ok)
    (hacc : s.accepts K e = true) : (s.step K e).Remembers e.key e.now := by
  refine ⟨step_ok K e h, ?_⟩
  rcases newServerSecureConn_cases K s e with ⟨-, hno⟩ | ⟨_, _, -, hstep, hfresh⟩
  · rw [hacc] at hno; cases hno
  · obtain ⟨-, -, -, hheld, -⟩ := addAt_spec h.inv e.key e.now
    rw [hstep, hfresh hacc]
    exact hheld (hfresh hacc)

theorem remembers_refuses {e : ClientHandshake} {t : ℤ}
    (h : s.Remembers e.key t) (hnow : e.now < t + fxpHandshakeWindow)
    (hroom : s.added.countP (fun x => decide (x.1 ≠ e.key ∧ t ≤ x.2)) < 100000) :
    s.accepts K e = false := by
  rcases newServerSecureConn_cases K s e with ⟨-, hno⟩ | ⟨_, _, -, -, hfresh⟩
  · exact hno
  · have hrefused : (s.fxpReplaySeen.addAt e.key e.now).2 = false :=
      addAt_refuses h.1.inv h.2 (by rw [h.1.ttl]; exact hnow) (by rw [h.1.max]; exact hroom)
    by_contra hacc
    rw [hfresh (by simpa using hacc)] at hrefused
    cases hrefused

end

/-- **A copy of an accepted handshake is refused for five minutes**, at non-decreasing
times and while fewer than `100000` other salts have been added to the cache since. -/
theorem handshake_copy_refused (K : HandshakeCrypto) (pre mid : List ClientHandshake) (e₁ e₂ : ClientHandshake)
    (htimes : (pre ++ e₁ :: mid ++ [e₂]).Pairwise fun a b => a.now ≤ b.now)
    (hacc : (run (FxpServer.step K) (newFxpServer P) pre).accepts K e₁ = true)
    (hcfg : e₂.cfg = e₁.cfg) (hraw : e₂.raw = e₁.raw) (hnow : e₂.now < e₁.now + fxpHandshakeWindow)
    (hroom : (run (FxpServer.step K) (newFxpServer P) (pre ++ e₁ :: mid)).added.countP
      (fun x => decide (x.1 ≠ e₁.key ∧ e₁.now ≤ x.2)) < 100000) :
    (run (FxpServer.step K) (newFxpServer P) (pre ++ e₁ :: mid)).accepts K e₂ = false := by
  have hkey : e₂.key = e₁.key := by
    unfold ClientHandshake.key
    rw [hcfg, hraw]
  have hpre : (run (FxpServer.step K) (newFxpServer P) pre).Ok :=
    run_invariant (fun s e hs => step_ok K e hs) pre _ newFxpServer_ok
  -- time does not run back, so all between the two is within the window too
  have hmid : ∀ e ∈ mid, e.now < e₁.now + fxpHandshakeWindow := by
    intro e he
    have hle : e.now ≤ e₂.now :=
      (List.pairwise_append.mp htimes).2.2 e (by simp [he]) e₂ List.mem_cons_self
    omega
  have hheld : (run (FxpServer.step K) (newFxpServer P) (pre ++ e₁ :: mid)).Remembers
      e₁.key e₁.now := by
    rw [run_append, run_cons]
    have hstep : ∀ (s : FxpServer P) (e : ClientHandshake), e.now < e₁.now + fxpHandshakeWindow →
        s.Remembers e₁.key e₁.now → (s.step K e).Remembers e₁.key e₁.now :=
      fun s e hlate hs => step_remembers K e hlate hs
    exact run_invariant_of_forall hstep mid hmid _ (accepts_remembers K hpre hacc)
  exact remembers_refuses K (hkey ▸ hheld) hnow (hkey ▸ hroom)

/-! ### A recorded handshake -/

/-- The plaintext of a client's first frame,
version 2, `ts` 1700000000 and `tunnelId` 7 in JSON. -/
def recordedHello : List UInt8 :=
  [123, 34, 118, 34, 58, 50, 44, 34, 116, 115, 34, 58, 49, 55, 48, 48, 48, 48, 48, 48, 48, 48, 44,
    34, 116, 117, 110, 110, 101, 108, 73, 100, 34, 58, 55, 125]

def recordedCrypto : HandshakeCrypto where
  aead := tagAead
  sha256 key := key
  deriveKey _ _ := List.replicate 32 0
  xof keyMaterial material n := ((keyMaterial ++ material) ++ List.replicate n 0).take n
  marshal _ := recordedHello
  unmarshal bytes := if bytes = recordedHello then some ⟨2, 1700000000, 7⟩ else none

/-- A client's salt and first frame, at time `now`. -/
def recordedHandshake (now : ℤ) : ClientHandshake :=
  let cfg : HandshakeConfig := ⟨7, 0, 12345, [1, 2, 3]⟩
  let salt := List.replicate fxpSaltSize 9
  let client := newSessionSecureConnWithWire recordedCrypto cfg.Key salt true fxpWireCurrent
  { cfg := cfg
    deadlineSet := true
    raw := salt ++ (client.writeEncryptedFrame tagAead ⟨recordedHello, [(72, false)]⟩).wire
    now := now
    replyTS := 1700000000
    answers := [(72, false)]
    deadlineCleared := true }

abbrev sortedExpiries : ExpiryHeap := sortedQueue ReplayExpiry ReplayExpiry.expiresAt

theorem copy_refused_within_window :
    (run (FxpServer.step recordedCrypto) (newFxpServer sortedExpiries)
      ([] ++ recordedHandshake 0 :: [])).accepts recordedCrypto
        (recordedHandshake (fxpHandshakeWindow - 1)) = false :=
  handshake_copy_refused recordedCrypto [] [] (recordedHandshake 0)
    (recordedHandshake (fxpHandshakeWindow - 1)) (by simp [recordedHandshake, fxpHandshakeWindow])
    (by decide +kernel) rfl rfl (by decide) (by decide +kernel)

theorem copy_accepted_after_window :
    ¬ ∀ (pre mid : List ClientHandshake) (e₁ e₂ : ClientHandshake),
      (pre ++ e₁ :: mid ++ [e₂]).Pairwise (fun a b => a.now ≤ b.now) →
      (run (FxpServer.step recordedCrypto) (newFxpServer sortedExpiries) pre).accepts
        recordedCrypto e₁ = true →
      e₂.cfg = e₁.cfg → e₂.raw = e₁.raw →
      (run (FxpServer.step recordedCrypto) (newFxpServer sortedExpiries) (pre ++ e₁ :: mid)).accepts
        recordedCrypto e₂ = false := by
  intro h
  have hrefused := h [] [] (recordedHandshake 0) (recordedHandshake fxpHandshakeWindow)
    (by simp [recordedHandshake, fxpHandshakeWindow]) (by decide +kernel) rfl rfl
  have haccepted : (run (FxpServer.step recordedCrypto) (newFxpServer sortedExpiries)
      [recordedHandshake 0]).accepts recordedCrypto (recordedHandshake fxpHandshakeWindow) = true := by
    decide +kernel
  rw [show ([] ++ recordedHandshake 0 :: [] : List ClientHandshake) = [recordedHandshake 0] from rfl,
    haccepted] at hrefused
  cases hrefused

end ForwardX.Fxp
