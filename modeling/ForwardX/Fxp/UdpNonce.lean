/-
Nonces of the UDP senders of one process (`forwardx-fxp/udp_fragment.go`).

Senders of one process and key are kept apart by seeds that come from the clock. The proof shows how
far two senders can get before their counters meet, and which condition on a new seed excludes it.
-/
import ForwardX.Lib.Run
import ForwardX.Fxp.SecureConn
import ForwardX.Fxp.UdpFragment

namespace ForwardX.Fxp

open Run List

/-! ## Seeds -/

/-- `fxpUDPSequenceSeedAllocator.next` at the clock reading `nanos`, with `last`
the allocator's state. A seed becomes the next `last`. -/
def nextSequenceSeed (last : UInt64) (nanos : Int64) : Except String UInt64 :=
  if nanos ≤ 0 then .error "udp sequence seed time out of range"
  else
    let candidate := nanos.toUInt64
    if candidate ≤ last then
      if last = UInt64.ofNat (2 ^ 64 - 1) then .error "udp sequence seed exhausted"
      else .ok (last + 1)
    else .ok candidate

/-- `fxpUDPSequenceSeedAllocator.observe`. -/
def observeSequence (last sequence : UInt64) : UInt64 :=
  if sequence = 0 ∨ sequence ≤ last then last else sequence

/-! ## The senders of a process -/

/-- A session direction that sends: its codec, and its counter with the seed it
started from. -/
structure UdpSender where
  codec : FxpUDPCodec
  seed : UInt64
  counter : UInt64

/-- One call of `sealFXPUDPDatagramsWithCodec`: who made it, the sequence it took,
and its `Seal` calls. -/
structure UdpSealCall where
  sender : ℕ
  sequence : UInt64
  seals : List SealRecord

/-- The allocator, all senders in the order of their creation, and the calls,
newest first. -/
structure UdpSenders where
  last : UInt64
  senders : List UdpSender
  calls : List UdpSealCall

def UdpSenders.new : UdpSenders := ⟨0, [], []⟩

inductive SenderEvent where
  | create (key : List UInt8) (packet : FxpUDPPacket) (nanos : Int64)
  | send (i : ℕ) (payload : List UInt8)
  | close (i : ℕ)

def UdpSender.packet (a : UdpSender) (payload : List UInt8) : FxpUDPPacket where
  packetType := a.codec.packetType
  tunnelID := a.codec.tunnelID
  ruleID := a.codec.ruleID
  sessionID := a.codec.sessionID
  sequence := 0
  fragment := 0
  fragments := 0
  payload := payload

/-- The `Seal` calls for the fragments of a datagram. -/
def sealRecords (codec : FxpUDPCodec) (fragments : List FxpUDPPacket) : List SealRecord :=
  fragments.map fun f => ⟨codec.aead, fxpUDPNonce f.sequence f.fragment, f.payload⟩

/-- One step. A send is possible at any time, also after the close of its
session: the worker may be past the check. -/
def UdpSenders.step (A : Aead) (hmac : List UInt8 → List UInt8 → List UInt8) (s : UdpSenders) :
    SenderEvent → UdpSenders
  | .create key packet nanos =>
    match newFXPUDPCodec hmac key packet with
    | .error _ => s
    | .ok codec =>
      match nextSequenceSeed s.last nanos with
      | .error _ => s
      | .ok seed => { s with last := seed, senders := s.senders ++ [⟨codec, seed, seed⟩] }
  | .send i payload =>
    match s.senders[i]? with
    | none => s
    | some a =>
      let sealed := sealFXPUDPDatagramsWithCodec A (a.packet payload) a.codec a.counter
      if sealed.fragments = [] then s
      else
        { s with
          senders := s.senders.set i { a with counter := sealed.counter }
          calls := ⟨i, sealed.counter, sealRecords a.codec sealed.fragments⟩ :: s.calls }
  | .close i =>
    match s.senders[i]? with
    | none => s
    | some a => { s with last := observeSequence s.last a.counter }

/-- The guard of a run. A sender is created only where the clock or the allocator
is at least at the counter of every sender with the same derived key, and a
sender sends only while it is below the seed of every younger one. -/
def UdpSenders.Apart (hmac : List UInt8 → List UInt8 → List UInt8) (s : UdpSenders) :
    SenderEvent → Prop
  | .create key packet nanos => ∀ codec ∈ (newFXPUDPCodec hmac key packet).toOption,
      ∀ a ∈ s.senders, a.codec.aead = codec.aead →
        a.counter ≤ nanos.toUInt64 ∨ a.counter.toNat ≤ s.last.toNat + 1
  | .send i _ => ∀ a ∈ s.senders[i]?, ∀ b ∈ s.senders.drop (i + 1),
      a.codec.aead = b.codec.aead → a.counter < b.seed
  | .close _ => True

instance (hmac : List UInt8 → List UInt8 → List UInt8) (s : UdpSenders) :
    ∀ e, Decidable (s.Apart hmac e)
  | .create .. => by unfold UdpSenders.Apart; infer_instance
  | .send .. => by unfold UdpSenders.Apart; infer_instance
  | .close _ => .isTrue trivial

/-! ## What one call does -/

theorem sealed_sequence {A : Aead} {packet : FxpUDPPacket} {codec : FxpUDPCodec} {counter : UInt64}
    (h : (sealFXPUDPDatagramsWithCodec A packet codec counter).fragments ≠ []) :
    (sealFXPUDPDatagramsWithCodec A packet codec counter).counter.toNat = counter.toNat + 1 ∧
    ∀ f ∈ (sealFXPUDPDatagramsWithCodec A packet codec counter).fragments,
      f.sequence = (sealFXPUDPDatagramsWithCodec A packet codec counter).counter := by
  unfold sealFXPUDPDatagramsWithCodec at h ⊢
  split_ifs at h ⊢ with hmeta hfor
  · exact absurd rfl h
  · exact absurd rfl h
  rcases hcount : fxpUDPFragmentCount packet.payload.length with e | count
  · rw [hcount] at h; exact absurd rfl h
  · rw [hcount] at h
    unfold nextFXPUDPSequence at h ⊢
    by_cases hmax : counter = UInt64.ofNat (2 ^ 64 - 1)
    · rw [if_pos hmax] at h; exact absurd rfl h
    · rw [if_neg hmax]
      refine ⟨toNat_add_one hmax, fun f hf => ?_⟩
      obtain ⟨index, -, rfl⟩ := mem_map.mp hf
      rfl

theorem nextSequenceSeed_ge {last seed : UInt64} {nanos : Int64} (h : nextSequenceSeed last nanos = .ok seed) :
    nanos.toUInt64 ≤ seed ∧ last.toNat + 1 ≤ seed.toNat := by
  unfold nextSequenceSeed at h
  dsimp only at h
  split_ifs at h with hpos hle hmax
  · cases h
    have hnext := toNat_add_one hmax
    have hle' := UInt64.le_iff_toNat_le.mp hle
    exact ⟨UInt64.le_iff_toNat_le.mpr (by omega), by omega⟩
  · cases h
    have hlt := UInt64.lt_iff_toNat_lt.mp (UInt64.not_le.mp hle)
    exact ⟨UInt64.le_refl _, hlt⟩

/-! ## Senders stay apart -/

structure UdpSenders.Inv (s : UdpSenders) : Prop where
  started : ∀ (i : ℕ) (a : UdpSender), s.senders[i]? = some a → a.seed.toNat ≤ a.counter.toNat
  apart : ∀ (i j : ℕ) (a b : UdpSender), i < j → s.senders[i]? = some a → s.senders[j]? = some b →
    a.codec.aead = b.codec.aead → a.counter.toNat ≤ b.seed.toNat
  made : ∀ c ∈ s.calls, ∃ a : UdpSender, s.senders[c.sender]? = some a ∧
    (∀ r ∈ c.seals, r.key = a.codec.aead ∧ ∃ fragment, r.nonce = fxpUDPNonce c.sequence fragment) ∧
    a.seed.toNat < c.sequence.toNat ∧ c.sequence.toNat ≤ a.counter.toNat
  unique : NoncesUnique (s.calls.map UdpSealCall.seals)

theorem UdpSenders.inv_new : UdpSenders.new.Inv where
  started := by simp [UdpSenders.new]
  apart := by simp [UdpSenders.new]
  made := by simp [UdpSenders.new]
  unique := List.Pairwise.nil

theorem inv_create {s : UdpSenders} (hs : s.Inv) {codec : FxpUDPCodec} {nanos : Int64}
    {seed : UInt64} (hseed : nextSequenceSeed s.last nanos = .ok seed)
    (hapart : ∀ a ∈ s.senders, a.codec.aead = codec.aead →
      a.counter ≤ nanos.toUInt64 ∨ a.counter.toNat ≤ s.last.toNat + 1) :
    UdpSenders.Inv { s with last := seed, senders := s.senders ++ [⟨codec, seed, seed⟩] } := by
  obtain ⟨hclock, hlast⟩ := nextSequenceSeed_ge hseed
  have hget : ∀ (i : ℕ) a, (s.senders ++ [(⟨codec, seed, seed⟩ : UdpSender)])[i]? = some a →
      s.senders[i]? = some a ∨ (i = s.senders.length ∧ a = ⟨codec, seed, seed⟩) := by
    intro i a ha
    by_cases hi : i < s.senders.length
    · rw [getElem?_append_left hi] at ha
      exact .inl ha
    · rw [getElem?_append_right (not_lt.mp hi)] at ha
      have hzero : i - s.senders.length = 0 := by
        by_contra hne
        rw [getElem?_eq_none (by simp; omega)] at ha
        cases ha
      rw [hzero] at ha
      exact .inr ⟨by omega, (Option.some.inj ha).symm⟩
  refine ⟨fun i a ha => ?_, fun i j a b hij ha hb hkey => ?_, fun c hc => ?_, hs.unique⟩
  · rcases hget i a ha with ha | ⟨-, rfl⟩
    · exact hs.started i a ha
    · exact le_refl _
  · rcases hget j b hb with hb | ⟨hj, rfl⟩
    · rcases hget i a ha with ha | ⟨hi, -⟩
      · exact hs.apart i j a b hij ha hb hkey
      · have hlen := (List.getElem?_eq_some_iff.mp hb).1
        omega
    · rcases hget i a ha with ha | ⟨hi, -⟩
      · rcases hapart a (mem_of_getElem? ha) hkey with hle | hle
        · exact le_trans (UInt64.le_iff_toNat_le.mp hle) (UInt64.le_iff_toNat_le.mp hclock)
        · exact le_trans hle hlast
      · omega
  · obtain ⟨a, ha, hrest⟩ := hs.made c hc
    refine ⟨a, ?_, hrest⟩
    rw [getElem?_append_left (List.getElem?_eq_some_iff.mp ha).1]
    exact ha

theorem sequence_fresh {s : UdpSenders} (hs : s.Inv) {i : ℕ} {a : UdpSender} (ha : s.senders[i]? = some a)
    (hyounger : ∀ j (b : UdpSender), i < j → s.senders[j]? = some b → a.codec.aead = b.codec.aead →
      a.counter.toNat < b.seed.toNat)
    {c : UdpSealCall} (hc : c ∈ s.calls) {b : UdpSender} (hb : s.senders[c.sender]? = some b)
    (hkey : a.codec.aead = b.codec.aead) : c.sequence.toNat ≠ a.counter.toNat + 1 := by
  obtain ⟨b', hb', -, hlow, hhigh⟩ := hs.made c hc
  rw [hb] at hb'
  cases hb'
  rcases lt_trichotomy i c.sender with hlt | heq | hgt
  · have := hyounger c.sender b hlt hb hkey
    omega
  · rw [heq, hb] at ha
    cases ha
    omega
  · have := hs.apart c.sender i b a hgt hb ha hkey.symm
    have := hs.started i a ha
    omega

section

variable {l : List UdpSender} {i : ℕ} {a : UdpSender} (ha : l[i]? = some a) {sequence : UInt64}
  (hseq : sequence.toNat = a.counter.toNat + 1) {j : ℕ}

include ha hseq

theorem getElem?_set_counter {b : UdpSender} (hb : (l.set i { a with counter := sequence })[j]? = some b) :
    ∃ b₀ : UdpSender, l[j]? = some b₀ ∧ b.codec = b₀.codec ∧ b.seed = b₀.seed ∧
      b₀.counter.toNat ≤ b.counter.toNat ∧ (j ≠ i → b = b₀) ∧
      (j = i → b.counter.toNat = a.counter.toNat + 1) := by
  have hlen := (List.getElem?_eq_some_iff.mp ha).1
  by_cases hj : j = i
  · subst hj
    rw [getElem?_set_self hlen] at hb
    cases hb
    exact ⟨a, ha, rfl, rfl, by show _ ≤ sequence.toNat; omega, fun hne => absurd rfl hne,
      fun _ => hseq⟩
  · rw [getElem?_set_ne (Ne.symm hj)] at hb
    exact ⟨b, hb, rfl, rfl, le_refl _, fun _ => rfl, fun heq => absurd heq hj⟩

theorem exists_getElem?_set_counter {b₀ : UdpSender} (hb₀ : l[j]? = some b₀) :
    ∃ b : UdpSender, (l.set i { a with counter := sequence })[j]? = some b ∧
      b.codec = b₀.codec ∧ b.seed = b₀.seed ∧ b₀.counter.toNat ≤ b.counter.toNat := by
  have hlen : j < (l.set i { a with counter := sequence }).length := by
    rw [length_set]
    exact (List.getElem?_eq_some_iff.mp hb₀).1
  obtain ⟨b₁, hb₁, hcodec, hseed, hle, -, -⟩ :=
    getElem?_set_counter ha hseq (getElem?_eq_getElem hlen)
  rw [hb₀] at hb₁
  cases hb₁
  exact ⟨_, getElem?_eq_getElem hlen, hcodec, hseed, hle⟩

end

theorem inv_send {s : UdpSenders} (hs : s.Inv) {i : ℕ} {a : UdpSender} (ha : s.senders[i]? = some a)
    (hyounger : ∀ j (b : UdpSender), i < j → s.senders[j]? = some b → a.codec.aead = b.codec.aead →
      a.counter.toNat < b.seed.toNat)
    {sequence : UInt64} (hseq : sequence.toNat = a.counter.toNat + 1)
    {fragments : List FxpUDPPacket} (hfrag : ∀ f ∈ fragments, f.sequence = sequence) :
    UdpSenders.Inv { s with
      senders := s.senders.set i { a with counter := sequence }
      calls := ⟨i, sequence, sealRecords a.codec fragments⟩ :: s.calls } := by
  have hlen := (List.getElem?_eq_some_iff.mp ha).1
  refine ⟨fun j b hb => ?_, fun j k b d hjk hb hd hkey => ?_, fun c hc => ?_, ?_⟩
  · obtain ⟨b₀, hb₀, -, hseed, hle, -, -⟩ := getElem?_set_counter ha hseq hb
    rw [hseed]
    exact le_trans (hs.started j b₀ hb₀) hle
  -- only the counter of `i` moved, and `hyounger` keeps it below the seeds after it
  · obtain ⟨b₀, hb₀, hcodec, -, -, hother, hself⟩ := getElem?_set_counter ha hseq hb
    obtain ⟨d₀, hd₀, hcodec', hseed', -, -, -⟩ := getElem?_set_counter ha hseq hd
    rw [hcodec, hcodec'] at hkey
    rw [hseed']
    by_cases hj : j = i
    · subst hj
      rw [ha] at hb₀
      cases hb₀
      rw [hself rfl]
      exact hyounger k d₀ hjk hd₀ hkey
    · rw [hother hj]
      exact hs.apart j k b₀ d₀ hjk hb₀ hd₀ hkey
  · rcases mem_cons.mp hc with rfl | hc
    · refine ⟨_, getElem?_set_self hlen, fun r hr => ?_, ?_, le_refl _⟩
      · obtain ⟨f, hf, rfl⟩ := mem_map.mp hr
        refine ⟨rfl, f.fragment, ?_⟩
        rw [← hfrag f hf]
      · have := hs.started i a ha
        show a.seed.toNat < sequence.toNat
        omega
    · obtain ⟨b₀, hb₀, hrec, hlow, hhigh⟩ := hs.made c hc
      obtain ⟨b, hb, hcodec, hseed, hle⟩ := exists_getElem?_set_counter ha hseq hb₀
      exact ⟨b, hb, hcodec ▸ hrec, hseed ▸ hlow, le_trans hhigh hle⟩
  -- an older call with this key and nonce would have had this sequence
  · refine pairwise_cons.mpr ⟨fun seals hseals r hr q hq hkey hnonce => ?_, hs.unique⟩
    obtain ⟨c, hc, rfl⟩ := mem_map.mp hseals
    obtain ⟨b, hb, hrec, -, -⟩ := hs.made c hc
    obtain ⟨hqkey, fragment, hqnonce⟩ := hrec q hq
    obtain ⟨f, hf, rfl⟩ := mem_map.mp hr
    have hsame : f.sequence = c.sequence := (fxpUDPNonce_inj.mp (hnonce.trans hqnonce)).1
    rw [hfrag f hf] at hsame
    exact absurd (hsame ▸ hseq) (sequence_fresh hs ha hyounger hc hb (hkey.trans hqkey))

theorem UdpSenders.inv_step (A : Aead) (hmac : List UInt8 → List UInt8 → List UInt8)
    (s : UdpSenders) (e : SenderEvent) (hapart : s.Apart hmac e) (hs : s.Inv) :
    (s.step A hmac e).Inv := by
  cases e with
  | create key packet nanos =>
    unfold UdpSenders.step
    dsimp only
    rcases hcodec : newFXPUDPCodec hmac key packet with err | codec
    · exact hs
    · dsimp only
      rcases hseed : nextSequenceSeed s.last nanos with err | seed
      · exact hs
      · exact inv_create hs hseed (hapart codec (by rw [hcodec]; rfl))
  | send i payload =>
    unfold UdpSenders.step
    dsimp only
    rcases ha : s.senders[i]? with _ | a
    · exact hs
    · dsimp only
      split_ifs with hnone
      · exact hs
      · obtain ⟨hseq, hfrag⟩ := sealed_sequence hnone
        refine inv_send hs ha (fun j b hij hb hkey => ?_) hseq hfrag
        refine UInt64.lt_iff_toNat_lt.mp (hapart a ha b ?_ hkey)
        -- sender `j` is among the ones created after `i`
        refine mem_of_getElem? (i := j - (i + 1)) ?_
        rw [getElem?_drop, show i + 1 + (j - (i + 1)) = j by omega]
        exact hb
  | close i =>
    unfold UdpSenders.step
    dsimp only
    rcases s.senders[i]? with _ | a
    · exact hs
    · exact ⟨hs.started, hs.apart, hs.made, hs.unique⟩

/-- **UDP nonces are unique while senders of one key stay apart.** For every run
of session creations, sends and closes, under any clock. -/
theorem udpNonces_unique (A : Aead) (hmac : List UInt8 → List UInt8 → List UInt8) (es : List SenderEvent)
    (hapart : Admissible (UdpSenders.Apart hmac) (UdpSenders.step A hmac) .new es) :
    NoncesUnique ((run (UdpSenders.step A hmac) .new es).calls.map UdpSealCall.seals) :=
  (run_invariant_of_admissible (UdpSenders.inv_step A hmac) es .new hapart
    UdpSenders.inv_new).unique

/-! Two exit sessions of one rule and session id, from two peer addresses. -/

def returnPacket : FxpUDPPacket := ⟨fxpUDPTypeReturn, 1, 1, 1, 0, 0, 0, []⟩

def plainHmac (key message : List UInt8) : List UInt8 := key ++ message

/-- The clock moves on between the sessions; the first one is closed. -/
def recreatedSender : List SenderEvent :=
  [.create [1] returnPacket 1000, .send 0 [7], .send 0 [8], .close 0,
    .create [1] returnPacket 500, .send 1 [9]]

/-- A session that replaces a closed one is above it even after the clock was set
back. -/
theorem recreatedSender_unique :
    Admissible (UdpSenders.Apart plainHmac) (UdpSenders.step tagAead plainHmac) .new
        recreatedSender ∧
      NoncesUnique ((run (UdpSenders.step tagAead plainHmac) .new recreatedSender).calls.map
        UdpSealCall.seals) :=
  ⟨by decide, udpNonces_unique tagAead plainHmac recreatedSender (by decide)⟩

/-- The clock is set back while the first session lives. -/
def liveSenders : List SenderEvent :=
  [.create [1] returnPacket 1000, .send 0 [7], .send 0 [8],
    .create [1] returnPacket 500, .send 1 [9]]

theorem liveSenders_reuse_nonce :
    ¬ NoncesUnique ((run (UdpSenders.step tagAead plainHmac) .new liveSenders).calls.map
      UdpSealCall.seals) := by
  decide

end ForwardX.Fxp
