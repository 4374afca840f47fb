/-
`secureConn` of `forwardx-fxp/main.go`: the framed, encrypted stream between two FXP nodes, and the
nonces its write side consumes.

The counter of a direction is the nonce, and it moves only when a whole frame has gone out. So the
nonce of a call is the number of frames sent before it, and two calls share one exactly when no
frame was sent from the one to the other, up to a wrap of the counter.
-/
import ForwardX.Lib.BigEndian
import ForwardX.Fxp.Aead
import Mathlib.Data.Nat.ModEq

namespace ForwardX.Fxp

open BigEndian

/-! ## The connection -/

def fxpMaxFrame : ℕ := 16 * 1024 * 1024

def fxpEntryToExit : UInt32 := 1
def fxpExitToEntry : UInt32 := 2

structure SecureConn where
  lenWriteAEAD : List UInt8
  dataWriteAEAD : List UInt8
  lenReadAEAD : List UInt8
  dataReadAEAD : List UInt8
  lengthAD : List UInt8
  payloadAD : List UInt8
  writeDir : UInt32
  readDir : UInt32
  writeCounter : UInt64
  readCounter : UInt64

/-- `fillFXPNonce`: direction and counter big-endian, the record kind folded
into the last byte of the direction. -/
def fillFXPNonce (direction : UInt32) (counter : UInt64) (kind : UInt8) : List UInt8 :=
  (beBytes 4 direction.toNat ++ beBytes 8 counter.toNat).modify 3 (· ^^^ kind)

/-- `binary.BigEndian.PutUint32` of a frame length. -/
def lenPlain (plain : List UInt8) : List UInt8 := beBytes 4 plain.length

/-! ## Writing a frame -/

/-- `writeFull` on `size` bytes: `answers` are what the successive `Write` calls
of the transport returned, a count and whether an error came with it. The
result is the number of bytes written and whether it ended in an error. -/
def writeFull (size : ℕ) : List (ℕ × Bool) → ℕ → ℕ × Bool
  | answers, written =>
    if written < size then
      match answers with
      | [] => (written, true)
      | (n, failed) :: rest =>
        if failed then (written + n, true)
        else if n = 0 then (written + n, true)
        else writeFull size rest (written + n)
    else (written, false)

/-- One call of `writeFrame`: the plaintext and the transport's answers to it. -/
structure FrameWrite where
  plain : List UInt8
  answers : List (ℕ × Bool)

def wireSize (plain : List UInt8) : ℕ := 4 + aeadOverhead + plain.length + aeadOverhead

/-- The frame passes the size check, so the call gets as far as sealing. -/
def FrameWrite.sealsFrame (w : FrameWrite) : Bool := decide (w.plain.length ≤ fxpMaxFrame)

/-- The transport took the whole frame: `writeFull` reported no error and the
full length. -/
def FrameWrite.sent (w : FrameWrite) : Bool :=
  w.sealsFrame &&
    decide (writeFull (wireSize w.plain) w.answers 0 = (wireSize w.plain, false))

structure SealRecord where
  key : List UInt8
  nonce : List UInt8
  plain : List UInt8

structure FrameResult where
  conn : SecureConn
  seals : List SealRecord
  wire : List UInt8
  err : Option String

/-- `writeEncryptedFrame`. The two `Seal` calls come before the transport write,
`writeCounter` moves only after it. -/
def SecureConn.writeEncryptedFrame (A : Aead) (c : SecureConn) (w : FrameWrite) : FrameResult :=
  if w.plain.length > fxpMaxFrame then
    { conn := c, seals := [], wire := [], err := some "frame too large" }
  else
    let counter := c.writeCounter
    let lenNonce := fillFXPNonce c.writeDir counter 0
    let dataNonce := fillFXPNonce c.writeDir counter 1
    let wire := A.Seal c.lenWriteAEAD lenNonce (lenPlain w.plain) c.lengthAD
      ++ A.Seal c.dataWriteAEAD dataNonce w.plain c.payloadAD
    let seals := [⟨c.lenWriteAEAD, lenNonce, lenPlain w.plain⟩,
      ⟨c.dataWriteAEAD, dataNonce, w.plain⟩]
    let (written, failed) := writeFull wire.length w.answers 0
    -- `writeCounter` moves only when the whole frame went out
    if failed then
      { conn := c, seals := seals, wire := wire.take written, err := some "transport write" }
    else if written ≠ wire.length then
      { conn := c, seals := seals, wire := wire.take written, err := some "short write" }
    else
      { conn := { c with writeCounter := counter + 1 }, seals := seals, wire := wire, err := none }

/-- The `Seal` calls of each of a sequence of `writeFrame` calls on one
connection. -/
def SecureConn.writeFrames (A : Aead) : SecureConn → List FrameWrite → List (List SealRecord)
  | _, [] => []
  | c, w :: ws =>
    (c.writeEncryptedFrame A w).seals :: (c.writeEncryptedFrame A w).conn.writeFrames A ws

/-! ## Reading a frame

The read side is what the handshake of the server uses; it consumes its counter
before the transport is touched. -/

def SecureConn.decryptFrameLength (A : Aead) (c : SecureConn) (counter : UInt64)
    (lenCipher : List UInt8) : Except String ℕ :=
  match A.Open c.lenReadAEAD (fillFXPNonce c.readDir counter 0) lenCipher c.lengthAD with
  | none => .error "message authentication failed"
  | some plain =>
    if plain.length ≠ 4 then .error "invalid frame length"
    else if beNat plain > fxpMaxFrame then .error "invalid frame size"
    else .ok (beNat plain)

def SecureConn.decryptFrameData (A : Aead) (c : SecureConn) (counter : UInt64)
    (dataCipher : List UInt8) : Except String (List UInt8) :=
  match A.Open c.dataReadAEAD (fillFXPNonce c.readDir counter 1) dataCipher c.payloadAD with
  | none => .error "message authentication failed"
  | some plain => .ok plain

/-! ## What a call does to the counter -/

theorem seal_wire_length (A : Aead) (c : SecureConn) (w : FrameWrite) (n m : List UInt8) :
    (A.Seal c.lenWriteAEAD n (lenPlain w.plain) c.lengthAD
      ++ A.Seal c.dataWriteAEAD m w.plain c.payloadAD).length = wireSize w.plain := by
  simp only [List.length_append, A.seal_length, lenPlain, beBytes_length, wireSize]
  omega

/-- The two records a sealed call makes at counter `counter`. -/
def SecureConn.sealsAt (c : SecureConn) (counter : UInt64) (w : FrameWrite) : List SealRecord :=
  if w.sealsFrame then
    [⟨c.lenWriteAEAD, fillFXPNonce c.writeDir counter 0, lenPlain w.plain⟩,
      ⟨c.dataWriteAEAD, fillFXPNonce c.writeDir counter 1, w.plain⟩]
  else []

theorem writeEncryptedFrame_seals (A : Aead) (c : SecureConn) (w : FrameWrite) :
    (c.writeEncryptedFrame A w).seals = c.sealsAt c.writeCounter w := by
  unfold SecureConn.writeEncryptedFrame SecureConn.sealsAt FrameWrite.sealsFrame
  by_cases hbig : w.plain.length > fxpMaxFrame
  · rw [if_pos hbig, if_neg (by simpa using hbig)]
  · rw [if_neg hbig, if_pos (by simpa using hbig)]
    dsimp only
    split_ifs <;> rfl

theorem writeEncryptedFrame_conn (A : Aead) (c : SecureConn) (w : FrameWrite) :
    (c.writeEncryptedFrame A w).conn
      = { c with writeCounter := if w.sent then c.writeCounter + 1 else c.writeCounter } := by
  unfold SecureConn.writeEncryptedFrame FrameWrite.sent FrameWrite.sealsFrame
  by_cases hbig : w.plain.length > fxpMaxFrame
  · rw [if_pos hbig, if_neg (by simp only [Bool.and_eq_true, decide_eq_true_eq]; omega)]
  · rw [if_neg hbig]
    have hfits : decide (w.plain.length ≤ fxpMaxFrame) = true := by simpa using hbig
    dsimp only
    rw [seal_wire_length, hfits, Bool.true_and]
    rcases hres : writeFull (wireSize w.plain) w.answers 0 with ⟨written, failed⟩
    cases failed with
    | true => simp
    | false =>
      by_cases hall : written = wireSize w.plain
      · simp [hall]
      · simp [hall]

/-! ## The frame counter along a sequence of calls

The counter is the initial one plus the number of frames sent so far, so the
seals of a whole sequence are the seals of its calls at their stamps. -/

/-- Each call with the number of frames that were sent before it. -/
def stampSent : ℕ → List FrameWrite → List (ℕ × FrameWrite)
  | _, [] => []
  | n, w :: ws => (n, w) :: stampSent (if w.sent then n + 1 else n) ws

@[simp] theorem sealsAt_writeCounter (c : SecureConn) (k counter : UInt64) (w : FrameWrite) :
    SecureConn.sealsAt { c with writeCounter := k } counter w = c.sealsAt counter w := rfl

theorem writeFrames_eq_stamped (A : Aead) (c : SecureConn) (c0 : UInt64) (ws : List FrameWrite) :
    ∀ n, SecureConn.writeFrames A { c with writeCounter := c0 + UInt64.ofNat n } ws
      = (stampSent n ws).map fun x => c.sealsAt (c0 + UInt64.ofNat x.1) x.2 := by
  -- `n` is the number of frames sent so far, and the only thing the counter depends on
  induction ws with
  | nil => intro n; rfl
  | cons w ws ih =>
    intro n
    rw [SecureConn.writeFrames, writeEncryptedFrame_seals, writeEncryptedFrame_conn, stampSent,
      List.map_cons, sealsAt_writeCounter]
    by_cases hsent : w.sent = true
    · have hnext : c0 + UInt64.ofNat n + 1 = c0 + UInt64.ofNat (n + 1) := by
        rw [UInt64.ofNat_add, UInt64.add_assoc]; rfl
      rw [if_pos hsent, if_pos hsent, hnext]
      exact congrArg _ (ih (n + 1))
    · rw [if_neg hsent, if_neg hsent]
      exact congrArg _ (ih n)

theorem writeFrames_eq (A : Aead) (c : SecureConn) (ws : List FrameWrite) :
    c.writeFrames A ws
      = (stampSent 0 ws).map fun x => c.sealsAt (c.writeCounter + UInt64.ofNat x.1) x.2 := by
  have h := writeFrames_eq_stamped A c c.writeCounter ws 0
  rwa [show c.writeCounter + UInt64.ofNat 0 = c.writeCounter from UInt64.add_zero _] at h

/-! ## Nonces -/

theorem fillFXPNonce_inj {d : UInt32} {c c' : UInt64} {k k' : UInt8} :
    fillFXPNonce d c k = fillFXPNonce d c' k' ↔ c = c' ∧ k = k' := by
  constructor
  · intro h
    obtain ⟨b0, b1, b2, b3, hd⟩ :
        ∃ b0 b1 b2 b3, beBytes 4 d.toNat = [b0, b1, b2, b3] := by
      simp only [beBytes, List.nil_append, List.cons_append, List.cons.injEq, and_true]
      exact ⟨_, _, _, _, rfl, rfl, rfl, rfl⟩
    simp only [fillFXPNonce, hd, List.cons_append, List.nil_append, List.modify_succ_cons,
      List.modify_zero_cons, List.cons.injEq, true_and] at h
    obtain ⟨hk, hc⟩ := h
    exact ⟨beBytes_uint64_inj.mp hc, (UInt8.xor_right_inj _).mp hk⟩
  · rintro ⟨rfl, rfl⟩; rfl

theorem counter_eq_iff (c0 : UInt64) (n m : ℕ) :
    c0 + UInt64.ofNat n = c0 + UInt64.ofNat m ↔ n ≡ m [MOD 2 ^ 64] := by
  rw [UInt64.add_right_inj, ← UInt64.toNat_inj, UInt64.toNat_ofNat', UInt64.toNat_ofNat']
  rfl

/-! ## Nonce uniqueness of the write side -/

/-- No two calls seal different plaintexts under one key and nonce. -/
def NoncesUnique (calls : List (List SealRecord)) : Prop :=
  calls.Pairwise fun first second => ∀ r ∈ first, ∀ s ∈ second,
    r.key = s.key → r.nonce = s.nonce → r.plain = s.plain

instance (calls : List (List SealRecord)) : Decidable (NoncesUnique calls) := by
  unfold NoncesUnique; infer_instance

/-- Any two sealed frames with equally many frames sent before them, modulo `2 ^ 64`, carry the same
plaintext. -/
def RetriesSamePlain (ws : List FrameWrite) : Prop :=
  (stampSent 0 ws).Pairwise fun x y => x.2.sealsFrame = true → y.2.sealsFrame = true →
    x.1 ≡ y.1 [MOD 2 ^ 64] → x.2.plain = y.2.plain

theorem sealsAt_clash_iff (c : SecureConn) (n m : ℕ) (v w : FrameWrite) :
    (∀ r ∈ c.sealsAt (c.writeCounter + UInt64.ofNat n) v,
      ∀ s ∈ c.sealsAt (c.writeCounter + UInt64.ofNat m) w,
        r.key = s.key → r.nonce = s.nonce → r.plain = s.plain)
    ↔ (v.sealsFrame = true → w.sealsFrame = true → n ≡ m [MOD 2 ^ 64] → v.plain = w.plain) := by
  unfold SecureConn.sealsAt
  by_cases hv : v.sealsFrame = true
  · by_cases hw : w.sealsFrame = true
    · rw [if_pos hv, if_pos hw]
      simp only [List.mem_cons, List.not_mem_nil, or_false, forall_eq_or_imp, forall_eq,
        fillFXPNonce_inj, counter_eq_iff, and_true, hv, hw, forall_const]
      constructor
      · rintro ⟨-, -, hdata⟩ hnm
        exact hdata hnm
      · intro h
        -- the length and the data record of two frames never share a nonce: the kinds differ
        refine ⟨⟨fun hnm => ?_, fun _ hbad => ?_⟩, fun _ hbad => ?_, h⟩
        · rw [h hnm]
        · exact absurd hbad.2 (by decide)
        · exact absurd hbad.2 (by decide)
    · simp [hw]
  · simp [hv]

/-- **Exactly when the nonces of a connection are unique.** For every connection
state, every sequence of `writeFrame` calls and every pattern of transport
answers. -/
theorem writeFrame_nonces_unique_iff (A : Aead) (c : SecureConn) (ws : List FrameWrite) :
    NoncesUnique (c.writeFrames A ws) ↔ RetriesSamePlain ws := by
  rw [NoncesUnique, RetriesSamePlain, writeFrames_eq, List.pairwise_map]
  constructor
  · intro h
    exact h.imp fun hxy => (sealsAt_clash_iff c _ _ _ _).mp hxy
  · intro h
    exact h.imp fun hxy => (sealsAt_clash_iff c _ _ _ _).mpr hxy

/-- The first frame of a connection fails in the transport and a different one
follows: both are sealed at counter zero. -/
def failedThenOther : List FrameWrite :=
  [⟨[1], [(0, true)]⟩, ⟨[2], [(37, false)]⟩]

/-- The connection of the failing run: distinct keys, entry to exit, counter zero. -/
def freshEntryConn : SecureConn where
  lenWriteAEAD := [1]
  dataWriteAEAD := [2]
  lenReadAEAD := [3]
  dataReadAEAD := [4]
  lengthAD := []
  payloadAD := []
  writeDir := fxpEntryToExit
  readDir := fxpExitToEntry
  writeCounter := 0
  readCounter := 0

theorem writeFrame_reuses_nonce_after_failure :
    ¬ NoncesUnique (freshEntryConn.writeFrames tagAead failedThenOther) := by
  decide

end ForwardX.Fxp
