/-
The wire format of direct UDP, `forwardx-fxp/udp_direct.go`.
-/
import ForwardX.Lib.BigEndian
import ForwardX.Fxp.Aead

namespace ForwardX.Fxp

open BigEndian List

/-! ## Packets -/

def fxpUDPMagic : List UInt8 := [70, 88, 80, 85]
def fxpUDPVersion : UInt8 := 3
def fxpUDPTypeData : UInt8 := 1
def fxpUDPTypeReturn : UInt8 := 2
def fxpUDPHeaderSize : ℕ := 32
def fxpUDPAuthTagSize : ℕ := 16
def fxpUDPMaxDatagramPayload : ℕ := 65507
def fxpUDPMaxSinglePayload : ℕ := 65507 - fxpUDPHeaderSize - fxpUDPAuthTagSize
def fxpUDPMaxWirePacketSize : ℕ := 1200
def fxpUDPFragmentPayloadSize : ℕ :=
  fxpUDPMaxWirePacketSize - fxpUDPHeaderSize - fxpUDPAuthTagSize
def fxpUDPMaxFragments : ℕ :=
  (fxpUDPMaxDatagramPayload + fxpUDPFragmentPayloadSize - 1) / fxpUDPFragmentPayloadSize

structure FxpUDPPacket where
  packetType : UInt8
  tunnelID : ℤ
  ruleID : ℤ
  sessionID : UInt64
  sequence : UInt64
  fragment : UInt8
  fragments : UInt8
  payload : List UInt8
  deriving DecidableEq

def validFXPUDPFragmentMetadata (fragment fragments : UInt8) : Bool :=
  if fragments = 0 then fragment = 0
  else fragments ≥ 2 && decide (fragments.toNat ≤ fxpUDPMaxFragments) && fragment < fragments

variable (packet : FxpUDPPacket)

def validateFXPUDPContext : Except String Unit :=
  if packet.packetType ≠ fxpUDPTypeData ∧ packet.packetType ≠ fxpUDPTypeReturn then
    .error "invalid udp packet type"
  else if packet.tunnelID < 0 ∨ packet.ruleID < 0 ∨ packet.sessionID = 0 then
    .error "invalid udp packet fields"
  else .ok ()

def validateFXPUDPPacket : Except String Unit :=
  match validateFXPUDPContext packet with
  | .error e => .error e
  | .ok () =>
    if packet.sequence = 0 then .error "invalid udp packet fields"
    else if validFXPUDPFragmentMetadata packet.fragment packet.fragments = false then
      .error "invalid udp fragment metadata"
    else .ok ()

/-! ## Header -/

/-- `binary.BigEndian.PutUint32` of `uint32(n)`. -/
def putUint32 (n : ℤ) : List UInt8 := beBytes 4 (n % 2 ^ 32).toNat

/-- The 32 bytes `writeFXPUDPHeader` writes for a packet it accepts. -/
def headerBytes : List UInt8 :=
  fxpUDPMagic ++ [fxpUDPVersion, packet.packetType, packet.fragment, packet.fragments] ++
    putUint32 packet.tunnelID ++ putUint32 packet.ruleID ++
    beBytes 8 packet.sessionID.toNat ++ beBytes 8 packet.sequence.toNat

def writeFXPUDPHeader : Except String (List UInt8) :=
  match validateFXPUDPPacket packet with
  | .error e => .error e
  | .ok () => .ok (headerBytes packet)

/-- The bytes `raw[i:j]`. -/
def slice (raw : List UInt8) (i j : ℕ) : List UInt8 := (raw.drop i).take (j - i)

def fxpUDPHasMagic (raw : List UInt8) : Bool :=
  decide (raw.length ≥ fxpUDPHeaderSize) && decide (slice raw 0 4 = fxpUDPMagic)

def parseFXPUDPHeader (raw : List UInt8) : Except String FxpUDPPacket :=
  if raw.length < fxpUDPHeaderSize + fxpUDPAuthTagSize then .error "udp packet too small"
  else if fxpUDPHasMagic raw = false ∨ raw.getD 4 0 ≠ fxpUDPVersion then
    .error "invalid udp packet header"
  else
    let packet : FxpUDPPacket :=
      { packetType := raw.getD 5 0
        fragment := raw.getD 6 0
        fragments := raw.getD 7 0
        -- `int(binary.BigEndian.Uint32(..))`: never negative, whatever was sealed
        tunnelID := beNat (slice raw 8 12)
        ruleID := beNat (slice raw 12 16)
        sessionID := UInt64.ofNat (beNat (slice raw 16 24))
        sequence := UInt64.ofNat (beNat (slice raw 24 32))
        payload := [] }
    match validateFXPUDPPacket packet with
    | .error e => .error e
    | .ok () => .ok packet

/-! ## Codec -/

/-- What key derivation runs on: the tunnel key and the context bytes. `hmac` is
HMAC-SHA256 of a key and a message. -/
def fxpUDPContext : List UInt8 :=
  [packet.packetType] ++ putUint32 packet.tunnelID ++ putUint32 packet.ruleID ++
    beBytes 8 packet.sessionID.toNat

/-- The bytes of "forwardx-fxp-udp-v3/aead/". -/
def fxpUDPKeyLabel : List UInt8 :=
  [102, 111, 114, 119, 97, 114, 100, 120, 45, 102, 120, 112, 45, 117, 100, 112, 45, 118, 51, 47,
    97, 101, 97, 100, 47]

variable (hmac : List UInt8 → List UInt8 → List UInt8)

/-- `fxpUDPAEAD`, giving the key of the cipher. -/
def fxpUDPAEAD (key : List UInt8)
    (packet : FxpUDPPacket) : Except String (List UInt8) :=
  if key = [] then .error "empty udp key"
  else .ok (hmac key (fxpUDPKeyLabel ++ fxpUDPContext packet))

structure FxpUDPCodec where
  packetType : UInt8
  tunnelID : ℤ
  ruleID : ℤ
  sessionID : UInt64
  aead : List UInt8

def newFXPUDPCodec (key : List UInt8)
    (packet : FxpUDPPacket) : Except String FxpUDPCodec :=
  match validateFXPUDPContext packet with
  | .error e => .error e
  | .ok () =>
    match fxpUDPAEAD hmac key packet with
    | .error e => .error e
    | .ok aead =>
      .ok ⟨packet.packetType, packet.tunnelID, packet.ruleID, packet.sessionID, aead⟩

def FxpUDPCodec.isFor (c : FxpUDPCodec) (packet : FxpUDPPacket) : Bool :=
  packet.packetType == c.packetType && packet.tunnelID == c.tunnelID &&
    packet.ruleID == c.ruleID && packet.sessionID == c.sessionID

/-- `fxpUDPNonce`: three zero bytes, the fragment index and the sequence. -/
def fxpUDPNonce (sequence : UInt64) (fragment : UInt8) : List UInt8 :=
  [0, 0, 0, fragment] ++ beBytes 8 sequence.toNat

def FxpUDPCodec.sealPacket (A : Aead) (c : FxpUDPCodec) (packet : FxpUDPPacket) : Except String (List UInt8) :=
  if c.isFor packet = false then .error "udp packet does not match cached encryption context"
  else if packet.payload.length > fxpUDPMaxSinglePayload then .error "udp payload too large"
  else
    match writeFXPUDPHeader packet with
    | .error e => .error e
    | .ok header =>
      .ok (header ++ A.Seal c.aead (fxpUDPNonce packet.sequence packet.fragment)
        packet.payload header)

def FxpUDPCodec.openParsedPacket (A : Aead) (c : FxpUDPCodec) (raw : List UInt8)
    (packet : FxpUDPPacket) : Except String FxpUDPPacket :=
  if c.isFor packet = false then .error "udp packet does not match cached decryption context"
  else
    match A.Open c.aead (fxpUDPNonce packet.sequence packet.fragment) (raw.drop fxpUDPHeaderSize)
        (raw.take fxpUDPHeaderSize) with
    | none => .error "invalid udp packet authentication"
    | some payload => .ok { packet with payload := payload }

def FxpUDPCodec.openPacket (A : Aead) (c : FxpUDPCodec) (raw : List UInt8) : Except String FxpUDPPacket :=
  match parseFXPUDPHeader raw with
  | .error e => .error e
  | .ok packet => c.openParsedPacket A raw packet

/-- `openFXPUDPPacket`: the codec is built from the packet's own header. -/
def openFXPUDPPacket (A : Aead) (hmac : List UInt8 → List UInt8 → List UInt8)
    (raw key : List UInt8) : Except String FxpUDPPacket :=
  match parseFXPUDPHeader raw with
  | .error e => .error e
  | .ok packet =>
    match newFXPUDPCodec hmac key packet with
    | .error e => .error e
    | .ok codec => codec.openParsedPacket A raw packet

/-! ## Nonces -/

theorem fxpUDPNonce_inj {s s' : UInt64} {f f' : UInt8} :
    fxpUDPNonce s f = fxpUDPNonce s' f' ↔ s = s' ∧ f = f' := by
  simp only [fxpUDPNonce, cons_append, nil_append, List.cons.injEq, true_and,
    beBytes_uint64_inj]
  exact and_comm

/-! ## Validation -/

variable {p : FxpUDPPacket}

theorem validateFXPUDPContext_ok : validateFXPUDPContext p = .ok () ↔
    (p.packetType = fxpUDPTypeData ∨ p.packetType = fxpUDPTypeReturn) ∧
      0 ≤ p.tunnelID ∧ 0 ≤ p.ruleID ∧ p.sessionID ≠ 0 := by
  unfold validateFXPUDPContext
  by_cases htype : p.packetType ≠ fxpUDPTypeData ∧ p.packetType ≠ fxpUDPTypeReturn
  · rw [if_pos htype]
    simp only [reduceCtorEq, htype, false_or, false_and]
  · rw [if_neg htype]
    have htype' : p.packetType = fxpUDPTypeData ∨ p.packetType = fxpUDPTypeReturn := by
      by_contra hbad
      exact htype (not_or.mp hbad)
    by_cases hfields : p.tunnelID < 0 ∨ p.ruleID < 0 ∨ p.sessionID = 0
    · rw [if_pos hfields]
      simp only [reduceCtorEq, htype', true_and, false_iff]
      rintro ⟨ht, hr, hs⟩
      rcases hfields with h | h | h
      · omega
      · omega
      · exact hs h
    · rw [if_neg hfields]
      simp only [not_or, not_lt] at hfields
      simp only [htype', true_and, true_iff]
      exact hfields

theorem validateFXPUDPPacket_ok : validateFXPUDPPacket p = .ok () ↔
    validateFXPUDPContext p = .ok () ∧ p.sequence ≠ 0 ∧
      validFXPUDPFragmentMetadata p.fragment p.fragments = true := by
  unfold validateFXPUDPPacket
  rcases validateFXPUDPContext p with e | ⟨⟩
  · simp
  · dsimp only
    by_cases hseq : p.sequence = 0
    · simp [hseq]
    · rw [if_neg hseq]
      cases validFXPUDPFragmentMetadata p.fragment p.fragments <;> simp [hseq]

/-! ## What comes back from a header -/

@[simp] theorem headerBytes_length (p : FxpUDPPacket) : (headerBytes p).length = fxpUDPHeaderSize := by
  simp only [headerBytes, putUint32, fxpUDPMagic, fxpUDPHeaderSize, List.length_append,
    List.length_cons, List.length_nil, beBytes_length]

theorem slice_append {pre mid post : List UInt8} {i j : ℕ} (hi : pre.length = i)
    (hj : i + mid.length = j) : slice (pre ++ (mid ++ post)) i j = mid := by
  unfold slice
  rw [← hj, Nat.add_sub_cancel_left, ← hi, drop_left, take_left]

theorem beNat_putUint32 (n : ℤ) : (beNat (putUint32 n) : ℤ) = n % 2 ^ 32 := by
  have hlow := Int.emod_nonneg n (by norm_num : (2 : ℤ) ^ 32 ≠ 0)
  have hhigh := Int.emod_lt_of_pos n (by norm_num : (0 : ℤ) < 2 ^ 32)
  rw [putUint32, beNat_beBytes_of_lt (by norm_num; omega)]
  exact Int.toNat_of_nonneg hlow

theorem ofNat_beNat_beBytes_uint64 (c : UInt64) : UInt64.ofNat (beNat (beBytes 8 c.toNat)) = c := by
  rw [beNat_beBytes_uint64, UInt64.ofNat_toNat]

/-- The header fields of a packet as a reader sees them. -/
def FxpUDPPacket.onWire (p : FxpUDPPacket) : FxpUDPPacket :=
  { p with tunnelID := p.tunnelID % 2 ^ 32, ruleID := p.ruleID % 2 ^ 32, payload := [] }

theorem validateFXPUDPPacket_onWire (h : validateFXPUDPPacket p = .ok ()) :
    validateFXPUDPPacket p.onWire = .ok () := by
  rw [validateFXPUDPPacket_ok, validateFXPUDPContext_ok] at h ⊢
  obtain ⟨⟨htype, -, -, hsession⟩, hseq, hmeta⟩ := h
  exact ⟨⟨htype, Int.emod_nonneg _ (by norm_num), Int.emod_nonneg _ (by norm_num), hsession⟩,
    hseq, hmeta⟩

theorem parse_header (h : validateFXPUDPPacket p = .ok ()) {rest : List UInt8}
    (hrest : fxpUDPAuthTagSize ≤ rest.length) :
    parseFXPUDPHeader (headerBytes p ++ rest) = .ok p.onWire := by
  have hsize : ¬ (headerBytes p ++ rest).length < fxpUDPHeaderSize + fxpUDPAuthTagSize := by
    rw [length_append, headerBytes_length]; omega
  have hmagic : fxpUDPHasMagic (headerBytes p ++ rest) = true := by
    rw [fxpUDPHasMagic, Bool.and_eq_true, decide_eq_true_eq, decide_eq_true_eq]
    refine ⟨?_, rfl⟩
    rw [length_append, headerBytes_length]; omega
  -- the header as five runs of bytes, so that each field is one slice
  have hshape : headerBytes p ++ rest = fxpUDPMagic ++ [fxpUDPVersion, p.packetType, p.fragment,
      p.fragments] ++ (putUint32 p.tunnelID ++ (putUint32 p.ruleID ++
        (beBytes 8 p.sessionID.toNat ++ (beBytes 8 p.sequence.toNat ++ rest)))) := by
    simp only [headerBytes, append_assoc]
  have htunnel : slice (headerBytes p ++ rest) 8 12 = putUint32 p.tunnelID := by
    rw [hshape]
    exact slice_append rfl (by rw [putUint32, beBytes_length])
  have hrule : slice (headerBytes p ++ rest) 12 16 = putUint32 p.ruleID := by
    rw [hshape, ← append_assoc _ (putUint32 p.tunnelID)]
    refine slice_append ?_ (by rw [putUint32, beBytes_length])
    rw [length_append, putUint32, beBytes_length]; rfl
  have hsession : slice (headerBytes p ++ rest) 16 24 = beBytes 8 p.sessionID.toNat := by
    rw [hshape, ← append_assoc _ (putUint32 p.tunnelID), ← append_assoc _ (putUint32 _)]
    refine slice_append ?_ (by rw [beBytes_length])
    rw [length_append, length_append, putUint32, putUint32, beBytes_length,
      beBytes_length]; rfl
  have hsequence : slice (headerBytes p ++ rest) 24 32 = beBytes 8 p.sequence.toNat := by
    rw [hshape, ← append_assoc _ (putUint32 p.tunnelID), ← append_assoc _ (putUint32 _),
      ← append_assoc _ (beBytes 8 _)]
    refine slice_append ?_ (by rw [beBytes_length])
    rw [length_append, length_append, length_append, putUint32, putUint32,
      beBytes_length, beBytes_length, beBytes_length]; rfl
  have hversion : ¬ (fxpUDPHasMagic (headerBytes p ++ rest) = false ∨
      (headerBytes p ++ rest).getD 4 0 ≠ fxpUDPVersion) := by
    rw [hmagic, hshape]
    rintro (hbad | hbad)
    · cases hbad
    · exact hbad rfl
  unfold parseFXPUDPHeader
  dsimp only
  rw [if_neg hsize, if_neg hversion, htunnel, hrule, hsession, hsequence, beNat_putUint32,
    beNat_putUint32, ofNat_beNat_beBytes_uint64, ofNat_beNat_beBytes_uint64, hshape]
  change (match validateFXPUDPPacket p.onWire with
    | .error e => (.error e : Except String FxpUDPPacket)
    | .ok () => .ok p.onWire) = .ok p.onWire
  rw [validateFXPUDPPacket_onWire h]

/-! ## Sealing and opening -/

theorem isFor_iff {c : FxpUDPCodec} : c.isFor p = true ↔
    p.packetType = c.packetType ∧ p.tunnelID = c.tunnelID ∧ p.ruleID = c.ruleID ∧
      p.sessionID = c.sessionID := by
  simp only [FxpUDPCodec.isFor, Bool.and_eq_true, beq_iff_eq, and_assoc]

section

variable (A : Aead) {c : FxpUDPCodec} (hfor : c.isFor p = true) (hvalid : validateFXPUDPPacket p = .ok ())

include A hfor hvalid

theorem sealPacket_eq (hsize : p.payload.length ≤ fxpUDPMaxSinglePayload) :
    c.sealPacket A p = .ok (headerBytes p ++
      A.Seal c.aead (fxpUDPNonce p.sequence p.fragment) p.payload (headerBytes p)) := by
  unfold FxpUDPCodec.sealPacket writeFXPUDPHeader
  rw [if_neg (by rw [hfor]; decide), if_neg (by omega), hvalid]

/-- **Opening a sealed packet**: the header comes back truncated, and the codec
opens the packet exactly when the truncated ids are still its own. -/
theorem openPacket_seal :
    c.openPacket A (headerBytes p ++
        A.Seal c.aead (fxpUDPNonce p.sequence p.fragment) p.payload (headerBytes p))
      = if p.tunnelID < 2 ^ 32 ∧ p.ruleID < 2 ^ 32 then .ok p
        else .error "udp packet does not match cached decryption context" := by
  obtain ⟨htype, htunnel, hrule, hsession⟩ := isFor_iff.mp hfor
  obtain ⟨-, htpos, hrpos, -⟩ :=
    validateFXPUDPContext_ok.mp (validateFXPUDPPacket_ok.mp hvalid).1
  unfold FxpUDPCodec.openPacket FxpUDPCodec.openParsedPacket
  rw [parse_header hvalid (by rw [A.seal_length]; exact Nat.le_add_left _ _)]
  dsimp only
  by_cases hfits : p.tunnelID < 2 ^ 32 ∧ p.ruleID < 2 ^ 32
  · have htid : p.tunnelID % 2 ^ 32 = p.tunnelID := Int.emod_eq_of_lt htpos hfits.1
    have hrid : p.ruleID % 2 ^ 32 = p.ruleID := Int.emod_eq_of_lt hrpos hfits.2
    have hmatch : c.isFor p.onWire = true := by
      rw [isFor_iff]
      exact ⟨htype, htid.trans htunnel, hrid.trans hrule, hsession⟩
    have htake : ∀ sealed, (headerBytes p ++ sealed).take (headerBytes p).length = headerBytes p :=
      fun _ => take_left
    have hdrop : ∀ sealed, (headerBytes p ++ sealed).drop (headerBytes p).length = sealed :=
      fun _ => drop_left
    rw [headerBytes_length] at htake hdrop
    rw [if_pos hfits, if_neg (by rw [hmatch]; decide), htake, hdrop,
      show p.onWire.sequence = p.sequence from rfl, show p.onWire.fragment = p.fragment from rfl,
      A.open_seal]
    simp only [FxpUDPPacket.onWire, htid, hrid]
  · rw [if_neg hfits, if_pos]
    rw [Bool.eq_false_iff, ne_eq, isFor_iff]
    rintro ⟨-, ht, hr, -⟩
    have ht' : p.tunnelID % 2 ^ 32 = p.tunnelID := ht.trans htunnel.symm
    have hr' : p.ruleID % 2 ^ 32 = p.ruleID := hr.trans hrule.symm
    refine hfits ⟨?_, ?_⟩
    · rw [← ht']; exact Int.emod_lt_of_pos _ (by norm_num)
    · rw [← hr']; exact Int.emod_lt_of_pos _ (by norm_num)

end

end ForwardX.Fxp
