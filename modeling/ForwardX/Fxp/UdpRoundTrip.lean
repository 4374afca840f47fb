/-
The way of a datagram over direct UDP: `sealFXPUDPDatagramsWithCodec` on one side, `openPacket` and
`udpFragmentReassembler.accept` on the other.

Sealing cuts a payload into fragments, which come in any order and any number of times. The proof
reassembles a prefix of the arrivals at a time; the one thing that can go wrong are ids that do not
fit into the header.
-/
import ForwardX.Lib.Run
import ForwardX.Fxp.UdpReassembly

namespace ForwardX.Fxp

open Run List

/-! ## Sealing -/

/-- The packet a sender fills in for a payload. -/
def FxpUDPCodec.datagram (codec : FxpUDPCodec) (payload : List UInt8) : FxpUDPPacket :=
  ⟨codec.packetType, codec.tunnelID, codec.ruleID, codec.sessionID, 0, 0, 0, payload⟩

/-- The frame of a packet that `sealPacket` accepts. -/
def FxpUDPCodec.frameOf (A : Aead) (codec : FxpUDPCodec) (p : FxpUDPPacket) : List UInt8 :=
  headerBytes p ++ A.Seal codec.aead (fxpUDPNonce p.sequence p.fragment) p.payload (headerBytes p)

/-- A codec that `newFXPUDPCodec` has made. -/
def FxpUDPCodec.Valid (codec : FxpUDPCodec) : Prop :=
  validateFXPUDPContext (codec.datagram []) = .ok ()

theorem newFXPUDPCodec_valid {hmac : List UInt8 → List UInt8 → List UInt8} {key : List UInt8}
    {packet : FxpUDPPacket} {codec : FxpUDPCodec} (h : newFXPUDPCodec hmac key packet = .ok codec) :
    codec.Valid := by
  unfold newFXPUDPCodec at h
  rcases hctx : validateFXPUDPContext packet with e | ⟨⟩
  · rw [hctx] at h; cases h
  · rw [hctx] at h
    rcases haead : fxpUDPAEAD hmac key packet with e | aead
    · rw [haead] at h; cases h
    · rw [haead] at h
      cases h
      exact validateFXPUDPContext_ok.mpr (validateFXPUDPContext_ok.mp hctx)

theorem fragmentCount_spec {payload : List UInt8} (hlen : payload.length ≤ fxpUDPMaxDatagramPayload) :
    ∃ count, fxpUDPFragmentCount payload.length = .ok count ∧ HasFragments payload count := by
  have hsize : fxpUDPFragmentPayloadSize = 1152 := rfl
  have hmax : fxpUDPMaxFragments = 57 := rfl
  have hlen' : payload.length ≤ 65507 := hlen
  unfold fxpUDPFragmentCount
  rw [if_neg (Nat.not_lt.mpr hlen)]
  by_cases hone : payload.length ≤ fxpUDPFragmentPayloadSize
  · rw [if_pos hone]
    exact ⟨1, rfl, hlen, by omega, by omega, by omega, by omega⟩
  · rw [if_neg hone]
    rw [hsize] at hone
    have hcount : ¬ (payload.length + fxpUDPFragmentPayloadSize - 1) / fxpUDPFragmentPayloadSize
        > fxpUDPMaxFragments := by
      rw [hsize, hmax]; omega
    dsimp only
    rw [if_neg hcount]
    refine ⟨_, rfl, hlen, ?_, ?_, ?_, fun _ => ?_⟩ <;> rw [hsize]
    · omega
    · omega
    · omega
    · omega

variable (A : Aead) (codec : FxpUDPCodec) (payload : List UInt8) (sequence : UInt64)

theorem fragmentOf_payload (packet : FxpUDPPacket) (count i : ℕ) :
    (fragmentOf packet sequence count i).payload
      = piece fxpUDPFragmentPayloadSize packet.payload i := by
  show slice packet.payload (i * fxpUDPFragmentPayloadSize)
    (min (i * fxpUDPFragmentPayloadSize + fxpUDPFragmentPayloadSize) packet.payload.length)
      = piece fxpUDPFragmentPayloadSize packet.payload i
  rw [slice, piece]
  by_cases hend : i * fxpUDPFragmentPayloadSize + fxpUDPFragmentPayloadSize ≤ packet.payload.length
  · rw [Nat.min_eq_left hend, Nat.add_sub_cancel_left]
  · rw [take_of_length_le (by rw [length_drop]; omega),
      take_of_length_le (by rw [length_drop]; omega)]

variable {count i : ℕ}

theorem fragmentOf_isPiece (packet : FxpUDPPacket) (htwo : 2 ≤ count)
    (hcount : count ≤ fxpUDPMaxFragments) (hi : i < count) :
    (fragmentOf packet sequence count i).IsPiece sequence packet.payload count i := by
  have hbytes : fxpUDPMaxFragments < 2 ^ 8 := by decide
  refine ⟨rfl, ?_, ?_, fragmentOf_payload _ _ _ _⟩
  · show (if count > 1 then UInt8.ofNat i else packet.fragment).toNat = i
    rw [if_pos (by omega), UInt8.toNat_ofNat', Nat.mod_eq_of_lt (by omega)]
  · show (if count > 1 then UInt8.ofNat count else packet.fragments).toNat = count
    rw [if_pos (by omega), UInt8.toNat_ofNat', Nat.mod_eq_of_lt (by omega)]

theorem validMetadata_of_isPiece {p : FxpUDPPacket}
    (hp : p.IsPiece sequence payload count i) (htwo : 2 ≤ count)
    (hcount : count ≤ fxpUDPMaxFragments) (hi : i < count) :
    validFXPUDPFragmentMetadata p.fragment p.fragments = true := by
  have hne : p.fragments ≠ 0 := by
    intro h
    have := hp.fragments
    rw [h] at this
    simp at this
    omega
  unfold validFXPUDPFragmentMetadata
  rw [if_neg hne, Bool.and_eq_true, Bool.and_eq_true, decide_eq_true_eq, decide_eq_true_eq,
    decide_eq_true_eq, hp.fragments]
  refine ⟨⟨?_, hcount⟩, ?_⟩
  · rw [ge_iff_le, UInt8.le_iff_toNat_le, hp.fragments]; exact htwo
  · rw [UInt8.lt_iff_toNat_lt, hp.fragment, hp.fragments]; exact hi

theorem fragmentOf_valid (hvalid : codec.Valid) (hseq : sequence ≠ 0)
    (hone : 1 ≤ count) (hcount : count ≤ fxpUDPMaxFragments) (hi : i < count) :
    validateFXPUDPPacket (fragmentOf (codec.datagram payload) sequence count i) = .ok () := by
  rw [validateFXPUDPPacket_ok]
  refine ⟨validateFXPUDPContext_ok.mpr (validateFXPUDPContext_ok.mp hvalid), hseq, ?_⟩
  by_cases htwo : 2 ≤ count
  · exact validMetadata_of_isPiece _ _
      (fragmentOf_isPiece sequence (codec.datagram payload) htwo hcount hi) htwo hcount hi
  · obtain rfl : count = 1 := by omega
    rfl

theorem frameOf_length (p : FxpUDPPacket) :
    (codec.frameOf A p).length = fxpUDPHeaderSize + (p.payload.length + aeadOverhead) := by
  rw [FxpUDPCodec.frameOf, length_append, headerBytes_length, A.seal_length]

theorem frameOf_fragment_length (count i : ℕ) :
    (codec.frameOf A (fragmentOf (codec.datagram payload) sequence count i)).length
      ≤ fxpUDPMaxWirePacketSize := by
  rw [frameOf_length, fragmentOf_payload, length_piece]
  simp only [fxpUDPFragmentPayloadSize, fxpUDPMaxWirePacketSize, fxpUDPHeaderSize,
    fxpUDPAuthTagSize, aeadOverhead]
  omega

theorem sealFragment_eq (hvalid : codec.Valid) (hseq : sequence ≠ 0)
    (hone : 1 ≤ count) (hcount : count ≤ fxpUDPMaxFragments) (hi : i < count) :
    sealFragment A codec (fragmentOf (codec.datagram payload) sequence count i)
      = .ok (codec.frameOf A (fragmentOf (codec.datagram payload) sequence count i)) := by
  have hsize : (fragmentOf (codec.datagram payload) sequence count i).payload.length
      ≤ fxpUDPMaxSinglePayload := by
    rw [fragmentOf_payload, length_piece]
    exact (Nat.min_le_left _ _).trans (by decide)
  unfold sealFragment
  rw [sealPacket_eq A (isFor_iff.mpr ⟨rfl, rfl, rfl, rfl⟩)
    (fragmentOf_valid codec payload sequence hvalid hseq hone hcount hi) hsize]
  exact if_neg (Nat.not_lt.mpr (frameOf_fragment_length A codec payload sequence count i))

theorem mapM_eq_ok {α β : Type} {f : α → Except String β} {g : α → β} {l : List α}
    (h : ∀ x ∈ l, f x = .ok (g x)) : l.mapM f = .ok (l.map g) := by
  induction l with
  | nil => rfl
  | cons x l ih =>
    rw [mapM_cons, h x mem_cons_self, ih fun y hy => h y (mem_cons_of_mem _ hy)]
    rfl

def FxpUDPCodec.framesOf (count : ℕ) : List (List UInt8) :=
  (List.range count).map fun i =>
    codec.frameOf A (fragmentOf (codec.datagram payload) sequence count i)

theorem add_one_ne_zero {counter : UInt64} (h : counter ≠ UInt64.ofNat (2 ^ 64 - 1)) : counter + 1 ≠ 0 := by
  intro hzero
  have hnext := toNat_add_one h
  rw [hzero, show (0 : UInt64).toNat = 0 from rfl] at hnext
  omega

theorem sealDatagrams_frames (hvalid : codec.Valid) {counter : UInt64}
    (hcounter : counter ≠ UInt64.ofNat (2 ^ 64 - 1)) {count : ℕ}
    (hcount : fxpUDPFragmentCount payload.length = .ok count) (hd : HasFragments payload count) :
    (sealFXPUDPDatagramsWithCodec A (codec.datagram payload) codec counter).counter = counter + 1 ∧
      (sealFXPUDPDatagramsWithCodec A (codec.datagram payload) codec counter).frames
        = .ok (codec.framesOf A payload (counter + 1) count) := by
  have hfor : codec.isFor (codec.datagram payload) = true := isFor_iff.mpr ⟨rfl, rfl, rfl, rfl⟩
  unfold sealFXPUDPDatagramsWithCodec nextFXPUDPSequence
  rw [if_neg (by simp [FxpUDPCodec.datagram]), if_neg (by rw [hfor]; decide),
    show (codec.datagram payload).payload.length = payload.length from rfl, hcount,
    if_neg hcounter]
  refine ⟨rfl, ?_⟩
  dsimp only
  rw [mapM_eq_ok (g := codec.frameOf A) fun f hf => ?_, map_map]
  · rfl
  · obtain ⟨i, hi, rfl⟩ := mem_map.mp hf
    exact sealFragment_eq A codec payload _ hvalid (add_one_ne_zero hcounter) hd.one_le hd.count_le
      (mem_range.mp hi)

theorem sealDatagrams_exhausted (hcount : ∃ count, fxpUDPFragmentCount payload.length = .ok count) :
    (sealFXPUDPDatagramsWithCodec A (codec.datagram payload) codec
      (UInt64.ofNat (2 ^ 64 - 1))).frames = .error "udp packet sequence exhausted" := by
  have hfor : codec.isFor (codec.datagram payload) = true := isFor_iff.mpr ⟨rfl, rfl, rfl, rfl⟩
  obtain ⟨count, hcount⟩ := hcount
  unfold sealFXPUDPDatagramsWithCodec nextFXPUDPSequence
  rw [if_neg (by simp [FxpUDPCodec.datagram]), if_neg (by rw [hfor]; decide),
    show (codec.datagram payload).payload.length = payload.length from rfl, hcount, if_pos rfl]

/-! ## The receiver -/

/-- The receiving end of a session direction, and what it has handed on. -/
structure UdpReceiver where
  fragments : UdpFragmentReassembler
  replay : UdpReplayWindow
  delivered : List (UInt64 × List UInt8)

/-- A frame from the socket, with the clock and the shared budgets at that moment. -/
structure UdpArrival where
  raw : List UInt8
  now : ℤ
  budgets : Budgets

def UdpReceiver.feed (s : UdpReceiver) (e : UdpArrival) (p : FxpUDPPacket) : UdpReceiver :=
  let res := s.fragments.accept e.budgets s.replay p e.now
  { fragments := res.r
    replay := res.w
    delivered := s.delivered ++ res.datagram.toList.map fun d => (p.sequence, d) }

/-- A frame that does not open is dropped. -/
def UdpReceiver.receive (s : UdpReceiver) (e : UdpArrival) : UdpReceiver :=
  match codec.openPacket A e.raw with
  | .error _ => s
  | .ok p => s.feed e p

def UdpReceiver.deliveredFor (s : UdpReceiver) (sequence : UInt64) : List (List UInt8) :=
  (s.delivered.filter fun x => x.1 == sequence).map Prod.snd

/-- The sequences beside `sequence` that are pending or about to be. -/
def UdpReceiver.others (s : UdpReceiver) (e : UdpArrival) (p : FxpUDPPacket) (sequence : UInt64) :
    Finset UInt64 :=
  (insert p.sequence (s.fragments.pendingAt e.budgets e.now).keys.toFinset).erase sequence

/-- What the round trip asks of an arrival that opens to `p`: frames of `sequence`
are those in `frames`, at most seven other sequences are pending, and a frame of
`sequence` finds room in the budget and the sequence inside the replay window. -/
structure UdpReceiver.Undisturbed (s : UdpReceiver) (sequence : UInt64)
    (frames : List (List UInt8)) (e : UdpArrival) (p : FxpUDPPacket) : Prop where
  mine : p.sequence = sequence → e.raw ∈ frames
  others : p.fragments ≠ 0 → (s.others e p sequence).card ≤ 7
  paid : p.sequence = sequence → ((s.fragments.expireLocked e.budgets e.now).2.reserve?
    s.fragments.budget p.payload.length).2 = true
  inWindow : p.sequence = sequence →
    s.replay.initialized = false ∨ s.replay.highest.toNat < sequence.toNat + 64

theorem hasSlot_of_others {s : UdpReceiver} {e : UdpArrival} {p : FxpUDPPacket}
    {sequence : UInt64} (h : p.fragments ≠ 0 → (s.others e p sequence).card ≤ 7) :
    s.fragments.HasSlot e.budgets p e.now := by
  intro hfrag hnone
  have hnew : p.sequence ∉ (s.fragments.pendingAt e.budgets e.now).keys.toFinset := by
    rw [mem_toFinset]
    exact AList.lookup_eq_none.mp hnone
  have hcard : (s.fragments.pendingAt e.budgets e.now).keys.toFinset.card
      = (s.fragments.pendingAt e.budgets e.now).entries.length := by
    rw [toFinset_card_of_nodup (AList.keys_nodup _)]
    exact length_map _
  have herase := Finset.pred_card_le_card_erase (a := sequence)
    (s := insert p.sequence (s.fragments.pendingAt e.budgets e.now).keys.toFinset)
  rw [Finset.card_insert_of_notMem hnew, hcard, Nat.add_sub_cancel] at herase
  exact lt_of_le_of_lt (herase.trans (h hfrag)) (by decide)

/-! ## One sequence along a run -/

/-- Where the receiver stands with `sequence`, `seen` being the fragments that have
come and `times` the clock readings of the run: it has that part of the datagram
and nothing was delivered, or the datagram was delivered once. -/
inductive Progress (times : Set ℤ) (payload : List UInt8) (sequence : UInt64) (count : ℕ)
    (seen : Finset ℕ) (s : UdpReceiver) : Prop
  | before (acc : Set ℕ) (rep : s.replay.Rep acc) (fresh : sequence.toNat ∉ acc)
      (alive : s.fragments.closed = false) (missing : seen ⊂ Finset.range count)
      (pending : (seen = ∅ ∧ s.fragments.pending.lookup sequence = none) ∨
        ∃ t ∈ times, s.fragments.pending.lookup sequence = some (assemblyOf payload count seen t))
      (silent : s.deliveredFor sequence = [])
  | after (acc : Set ℕ) (rep : s.replay.Rep acc) (taken : sequence.toNat ∈ acc)
      (once : s.deliveredFor sequence = [payload])

section

variable {payload sequence} {times : Set ℤ} {count : ℕ} {seen : Finset ℕ} {s : UdpReceiver}
  {e : UdpArrival} {p : FxpUDPPacket}

theorem deliveredFor_feed : (s.feed e p).deliveredFor sequence = s.deliveredFor sequence ++
    if p.sequence = sequence
      then (s.fragments.accept e.budgets s.replay p e.now).datagram.toList else [] := by
  unfold UdpReceiver.deliveredFor UdpReceiver.feed
  rw [filter_append, map_append]
  congr 1
  rcases (s.fragments.accept e.budgets s.replay p e.now).datagram with _ | d
  · simp
  · by_cases hs : p.sequence = sequence <;> simp [hs]

variable {acc : Set ℕ}

theorem feed_replay (h : s.replay.Rep acc) :
    ((s.fragments.accept e.budgets s.replay p e.now).datagram = none ∧
      (s.feed e p).replay.Rep acc) ∨
    (p.sequence.toNat ∉ acc ∧ (s.feed e p).replay.Rep (insert p.sequence.toNat acc)) := by
  rcases accept_window s.fragments e.budgets s.replay p e.now with ⟨hnone, hw⟩ | ⟨-, hw⟩
  · refine .inl ⟨hnone, ?_⟩
    show (s.fragments.accept e.budgets s.replay p e.now).w.Rep acc
    rw [hw]; exact h
  · obtain ⟨hadmits, hrep⟩ := UdpReplayWindow.accept_spec h p.sequence
    rw [hw] at hadmits hrep
    exact .inr ⟨(hadmits.mp rfl).2.1, hrep⟩

theorem progress_after (hrep : s.replay.Rep acc) (htaken : sequence.toNat ∈ acc)
    (honce : s.deliveredFor sequence = [payload]) (seen' : Finset ℕ) :
    Progress times payload sequence count seen' (s.feed e p) := by
  rcases feed_replay (e := e) (p := p) hrep with ⟨hnone, hrep'⟩ | ⟨hnew, hrep'⟩
  · refine .after acc hrep' htaken ?_
    rw [deliveredFor_feed, honce, hnone, Option.toList_none, ite_self, append_nil]
  · refine .after _ hrep' (Set.mem_insert_of_mem _ htaken) ?_
    have hs : p.sequence ≠ sequence := by
      rintro rfl
      exact hnew htaken
    rw [deliveredFor_feed, if_neg hs, honce, append_nil]

theorem progress_other (h : Progress times payload sequence count seen s)
    (hs : p.sequence ≠ sequence) (hslot : s.fragments.HasSlot e.budgets p e.now)
    (htimes : ∀ t ∈ times, e.now - t < fxpUDPFragmentTimeout) :
    Progress times payload sequence count seen (s.feed e p) := by
  cases h with
  | after acc hrep htaken honce => exact progress_after hrep htaken honce _
  | before acc hrep hfresh halive hmissing hpending hsilent =>
    have hkeep : ∀ a, s.fragments.pending.lookup sequence = some a → a.expired e.now = false := by
      intro a ha
      rcases hpending with ⟨-, hnone⟩ | ⟨t, ht, hsome⟩
      · rw [hnone] at ha; cases ha
      · rw [hsome] at ha
        cases ha
        exact decide_eq_false (not_le.mpr (htimes t ht))
    have hlookup : (s.feed e p).fragments.pending.lookup sequence
        = s.fragments.pending.lookup sequence :=
      accept_other _ _ _ _ hs.symm hslot hkeep
    have hsilent' : (s.feed e p).deliveredFor sequence = [] := by
      rw [deliveredFor_feed, if_neg hs, hsilent, append_nil]
    have halive' : (s.feed e p).fragments.closed = false :=
      (accept_closed _ _ _ _ _).trans halive
    rcases feed_replay (e := e) (p := p) hrep with ⟨-, hrep'⟩ | ⟨-, hrep'⟩
    · exact .before acc hrep' hfresh halive' hmissing (hlookup ▸ hpending) hsilent'
    · refine .before _ hrep' ?_ halive' hmissing (hlookup ▸ hpending) hsilent'
      rintro (hbad | hbad)
      · exact hs (UInt64.toNat_inj.mp hbad.symm)
      · exact hfresh hbad

theorem progress_delivers (hrep : s.replay.Rep acc) (hfresh : sequence.toNat ∉ acc)
    (hseq : sequence ≠ 0)
    (hwindow : s.replay.initialized = false ∨ s.replay.highest.toNat < sequence.toNat + 64)
    (hsilent : s.deliveredFor sequence = []) (hp : p.sequence = sequence)
    (hw : (s.fragments.accept e.budgets s.replay p e.now).w = (s.replay.accept sequence).1)
    (hout : (s.fragments.accept e.budgets s.replay p e.now).datagram
      = if (s.replay.accept sequence).2 then some payload else none) (seen' : Finset ℕ) :
    Progress times payload sequence count seen' (s.feed e p) := by
  obtain ⟨hadmits, hrep'⟩ := UdpReplayWindow.accept_spec hrep sequence
  have hyes : (s.replay.accept sequence).2 = true := hadmits.mpr ⟨hseq, hfresh, hwindow⟩
  rw [hyes, if_pos rfl] at hrep' hout
  refine .after (insert sequence.toNat acc) ?_ (Set.mem_insert _ _) ?_
  · show (s.fragments.accept e.budgets s.replay p e.now).w.Rep _
    rw [hw]; exact hrep'
  · rw [deliveredFor_feed, if_pos hp, hout, hsilent]
    rfl

theorem progress_whole (h : Progress times payload sequence 1 seen s) (hseq : sequence ≠ 0)
    (hp : p.sequence = sequence) (hfrag : p.fragment = 0) (hfrags : p.fragments = 0)
    (hpayload : p.payload = payload)
    (hwindow : s.replay.initialized = false ∨ s.replay.highest.toNat < sequence.toNat + 64)
    (seen' : Finset ℕ) : Progress times payload sequence 1 seen' (s.feed e p) := by
  cases h with
  | after acc hrep htaken honce => exact progress_after hrep htaken honce _
  | before acc hrep hfresh halive _ _ hsilent =>
    have hskip : ¬ (s.fragments.closed = true ∨
        validFXPUDPFragmentMetadata p.fragment p.fragments = false) := by
      rw [halive, hfrag, hfrags]; decide
    refine progress_delivers hrep hfresh hseq hwindow hsilent hp ?_ ?_ _
    · rw [UdpFragmentReassembler.accept, if_neg hskip, if_pos hfrags, hp]
    · rw [UdpFragmentReassembler.accept, if_neg hskip, if_pos hfrags, hp, hpayload]

section

variable (hd : HasFragments payload count) (htwo : 2 ≤ count) {i : ℕ} (hi : i < count)
  (hp : p.IsPiece sequence payload count i) (hsize : 0 < p.payload.length)

include hd htwo hi hp hsize

theorem accept_piece (halive : s.fragments.closed = false)
    (hpending : (seen = ∅ ∧ s.fragments.pending.lookup sequence = none) ∨
      ∃ t ∈ times, s.fragments.pending.lookup sequence = some (assemblyOf payload count seen t))
    (hslot : s.fragments.HasSlot e.budgets p e.now)
    (htimes : ∀ t ∈ times, e.now - t < fxpUDPFragmentTimeout) (hnow : e.now ∈ times) :
    ∃ t ∈ times, ∃ newAssembly,
      (seen = ∅ ∨ (s.fragments.expireLocked e.budgets e.now).1.pending.lookup sequence
        = some (assemblyOf payload count seen t)) ∧
      s.fragments.accept e.budgets s.replay p e.now
        = (s.fragments.expireLocked e.budgets e.now).1.acceptFragment
          (s.fragments.expireLocked e.budgets e.now).2 s.replay p
          (assemblyOf payload count seen t) newAssembly := by
  have hmeta := validMetadata_of_isPiece payload sequence hp htwo hd.count_le hi
  have hfrag : p.fragments ≠ 0 := by
    intro hzero
    have hcount := hp.fragments
    rw [hzero, show (0 : UInt8).toNat = 0 from rfl] at hcount
    omega
  have hlen : ¬ (p.payload.length = 0 ∨ p.payload.length > fxpUDPFragmentPayloadSize) := by
    have hle : p.payload.length ≤ fxpUDPFragmentPayloadSize := by
      rw [hp.payload, length_piece]; exact Nat.min_le_left _ _
    omega
  have haccept := accept_fragment s.fragments e.budgets s.replay p halive hmeta hfrag hlen hslot
  rcases hpending with ⟨rfl, hnone⟩ | ⟨t, ht, hsome⟩
  · have hpend : (s.fragments.pendingAt e.budgets e.now).lookup p.sequence = none := by
      rw [hp.sequence]
      exact (lookup_expireLocked _ _ (by simp [hnone])).trans hnone
    rw [hpend, assemblyOf_empty hp] at haccept
    exact ⟨e.now, hnow, true, .inl rfl, haccept⟩
  -- the assembly is there, and not expired
  · have hpend : (s.fragments.expireLocked e.budgets e.now).1.pending.lookup sequence
        = some (assemblyOf payload count seen t) := by
      refine (lookup_expireLocked _ _ fun a ha => ?_).trans hsome
      rw [hsome] at ha
      cases ha
      exact decide_eq_false (not_le.mpr (htimes t ht))
    have hsame : ¬ (assemblyOf payload count seen t).fragments ≠ p.fragments :=
      not_not.mpr (fragments_eq hp).symm
    rw [hp.sequence, UdpFragmentReassembler.pendingAt, hpend] at haccept
    dsimp only at haccept
    rw [if_neg hsame] at haccept
    exact ⟨t, ht, false, .inr hpend, haccept⟩

theorem progress_piece (hseq : sequence ≠ 0) (h : Progress times payload sequence count seen s)
    (hslot : s.fragments.HasSlot e.budgets p e.now)
    (htimes : ∀ t ∈ times, e.now - t < fxpUDPFragmentTimeout) (hnow : e.now ∈ times)
    (hpaid : ((s.fragments.expireLocked e.budgets e.now).2.reserve?
      s.fragments.budget p.payload.length).2 = true)
    (hwindow : s.replay.initialized = false ∨ s.replay.highest.toNat < sequence.toNat + 64) :
    Progress times payload sequence count (insert i seen) (s.feed e p) := by
  cases h with
  | after acc hrep htaken honce => exact progress_after hrep htaken honce _
  | before acc hrep hfresh halive hmissing hpending hsilent =>
    have hsub := hmissing.subset
    obtain ⟨t, ht, newAssembly, hfound, hres⟩ :=
      accept_piece hd htwo hi hp hsize halive hpending hslot htimes hnow
    have halive' : (s.feed e p).fragments.closed = false :=
      (accept_closed _ _ _ _ _).trans halive
    by_cases hseen : i ∈ seen
    -- a duplicate: what has come is what was there
    · rw [acceptFragment_duplicate hp hi hseen] at hres
      rw [Finset.insert_eq_of_mem hseen]
      refine .before acc ?_ hfresh halive' hmissing (.inr ⟨t, ht, ?_⟩) ?_
      · show (s.fragments.accept e.budgets s.replay p e.now).w.Rep acc
        rw [hres]; exact hrep
      · show (s.fragments.accept e.budgets s.replay p e.now).r.pending.lookup sequence = _
        rw [hres]
        exact hfound.resolve_left (Finset.ne_empty_of_mem hseen)
      · rw [deliveredFor_feed, hres, hsilent]
        simp
    · rw [acceptFragment_store (r := (s.fragments.expireLocked e.budgets e.now).1)
        hd hp hi hsub hseen hpaid] at hres
      dsimp only at hres
      by_cases hlast : insert i seen = Finset.range count
      · rw [if_neg (not_not.mpr hlast)] at hres
        refine progress_delivers hrep hfresh hseq hwindow hsilent hp.sequence ?_ ?_ _
        · rw [hres]
        · rw [hres]
      · rw [if_pos hlast] at hres
        refine .before acc ?_ hfresh halive' ?_ (.inr ⟨t, ht, ?_⟩) ?_
        · show (s.fragments.accept e.budgets s.replay p e.now).w.Rep acc
          rw [hres]; exact hrep
        · exact Finset.ssubset_iff_subset_ne.mpr
            ⟨Finset.insert_subset (Finset.mem_range.mpr hi) hsub, hlast⟩
        · show (s.fragments.accept e.budgets s.replay p e.now).r.pending.lookup sequence = _
          rw [hres]; exact AList.lookup_insert _
        · rw [deliveredFor_feed, hres, hsilent]
          simp

end

end

/-! ## Whole runs -/

section

variable {codec payload sequence} {count : ℕ}

theorem openPacket_frameOf (hvalid : codec.Valid) (hseq : sequence ≠ 0) (hone : 1 ≤ count)
    (hmax : count ≤ fxpUDPMaxFragments) {i : ℕ} (hi : i < count) :
    codec.openPacket A (codec.frameOf A (fragmentOf (codec.datagram payload) sequence count i))
      = if codec.tunnelID < 2 ^ 32 ∧ codec.ruleID < 2 ^ 32
        then .ok (fragmentOf (codec.datagram payload) sequence count i)
        else .error "udp packet does not match cached decryption context" :=
  openPacket_seal A (isFor_iff.mpr ⟨rfl, rfl, rfl, rfl⟩)
    (fragmentOf_valid codec payload sequence hvalid hseq hone hmax hi)

theorem progress_fragment (hd : HasFragments payload count) (hseq : sequence ≠ 0)
    {times : Set ℤ} {seen : Finset ℕ} {s : UdpReceiver} {e : UdpArrival} {i : ℕ} (hi : i < count)
    (htimes : ∀ t ∈ times, e.now - t < fxpUDPFragmentTimeout) (hnow : e.now ∈ times)
    {frames : List (List UInt8)} (hok : s.Undisturbed sequence frames e
      (fragmentOf (codec.datagram payload) sequence count i))
    (h : Progress times payload sequence count seen s) :
    Progress times payload sequence count (insert i seen)
      (s.feed e (fragmentOf (codec.datagram payload) sequence count i)) := by
  by_cases htwo : 2 ≤ count
  · have hpiece := fragmentOf_isPiece sequence (codec.datagram payload) htwo hd.count_le hi
    refine progress_piece hd htwo hi hpiece ?_ hseq h
      (hasSlot_of_others hok.others) htimes hnow (hok.paid rfl) (hok.inWindow rfl)
    -- only the last piece is short, and it is not empty
    have hlast : i * fxpUDPFragmentPayloadSize ≤ (count - 1) * fxpUDPFragmentPayloadSize :=
      Nat.mul_le_mul_right _ (by omega)
    have hfull := hd.full htwo
    have hsize : 0 < fxpUDPFragmentPayloadSize := by decide
    rw [fragmentOf_payload, length_piece]
    exact Nat.lt_min.mpr ⟨hsize, Nat.sub_pos_of_lt (lt_of_le_of_lt hlast hfull)⟩
  · obtain rfl : count = 1 := by have := hd.one_le; omega
    obtain rfl : i = 0 := by omega
    refine progress_whole h hseq rfl rfl rfl ?_ (hok.inWindow rfl) _
    rw [fragmentOf_payload]
    have hwhole : payload.length ≤ fxpUDPFragmentPayloadSize := by simpa using hd.fits
    show (payload.drop (0 * _)).take _ = payload
    rw [Nat.zero_mul, drop_zero, take_of_length_le hwhole]

theorem fragmentOf_inj (packet : FxpUDPPacket) (hmax : count ≤ fxpUDPMaxFragments) {i j : ℕ}
    (hi : i < count) (hj : j < count)
    (h : fragmentOf packet sequence count i = fragmentOf packet sequence count j) : i = j := by
  by_cases htwo : 2 ≤ count
  · rw [← (fragmentOf_isPiece sequence packet htwo hmax hi).fragment, h]
    exact (fragmentOf_isPiece sequence packet htwo hmax hj).fragment
  · omega

def UdpReceiver.AllUndisturbed (codec : FxpUDPCodec) (sequence : UInt64)
    (frames : List (List UInt8)) (s : UdpReceiver) (e : UdpArrival) : Prop :=
  ∀ p, codec.openPacket A e.raw = .ok p → s.Undisturbed sequence frames e p

section

variable (hvalid : codec.Valid) (hd : HasFragments payload count) (hseq : sequence ≠ 0)
  (hids : codec.tunnelID < 2 ^ 32 ∧ codec.ruleID < 2 ^ 32) {times : Set ℤ}

include hvalid hd hseq hids

theorem progress_receive {seen : Finset ℕ} {s : UdpReceiver} {e : UdpArrival}
    (htimes : ∀ t ∈ times, e.now - t < fxpUDPFragmentTimeout) (hnow : e.now ∈ times)
    (hok : s.AllUndisturbed A codec sequence (codec.framesOf A payload sequence count) e)
    (h : Progress times payload sequence count seen s) :
    ∃ seen', seen ⊆ seen' ∧ Progress times payload sequence count seen' (s.receive A codec e) ∧
      ∀ i < count, e.raw = codec.frameOf A (fragmentOf (codec.datagram payload) sequence count i) →
        i ∈ seen' := by
  have hopen : ∀ i < count,
      e.raw = codec.frameOf A (fragmentOf (codec.datagram payload) sequence count i) →
      codec.openPacket A e.raw = .ok (fragmentOf (codec.datagram payload) sequence count i) := by
    intro i hi hraw
    rw [hraw, openPacket_frameOf A hvalid hseq hd.one_le hd.count_le hi, if_pos hids]
  unfold UdpReceiver.receive
  rcases hres : codec.openPacket A e.raw with err | p
  · refine ⟨seen, Finset.Subset.refl _, h, fun i hi hraw => ?_⟩
    rw [hopen i hi hraw] at hres
    cases hres
  have hp := hok p hres
  by_cases hmine : p.sequence = sequence
  · obtain ⟨i, hi, hraw⟩ := mem_map.mp (hp.mine hmine)
    have hi := mem_range.mp hi
    obtain rfl : p = fragmentOf (codec.datagram payload) sequence count i :=
      Except.ok.inj (hres.symm.trans (hopen i hi hraw.symm))
    refine ⟨insert i seen, Finset.subset_insert _ _,
      progress_fragment hd hseq hi htimes hnow hp h, fun j hj hrawj => ?_⟩
    have hsame := Except.ok.inj (hres.symm.trans (hopen j hj hrawj))
    rw [fragmentOf_inj _ hd.count_le hi hj hsame]
    exact Finset.mem_insert_self _ _
  · refine ⟨seen, Finset.Subset.refl _,
      progress_other h hmine (hasSlot_of_others hp.others) htimes, fun i hi hraw => ?_⟩
    rw [hopen i hi hraw] at hres
    cases hres
    exact absurd rfl hmine

theorem progress_run (arrivals : List UdpArrival) :
    ∀ (s : UdpReceiver) (seen : Finset ℕ),
      (∀ e ∈ arrivals, e.now ∈ times ∧ ∀ t ∈ times, e.now - t < fxpUDPFragmentTimeout) →
      Admissible (UdpReceiver.AllUndisturbed A codec sequence
        (codec.framesOf A payload sequence count)) (UdpReceiver.receive A codec) s arrivals →
      Progress times payload sequence count seen s →
      ∃ seen', seen ⊆ seen' ∧ Progress times payload sequence count seen'
          (run (UdpReceiver.receive A codec) s arrivals) ∧
        ∀ e ∈ arrivals, ∀ i < count,
          e.raw = codec.frameOf A (fragmentOf (codec.datagram payload) sequence count i) →
            i ∈ seen' := by
  induction arrivals with
  | nil =>
    intro s seen _ _ h
    exact ⟨seen, Finset.Subset.refl _, h, fun e he => absurd he not_mem_nil⟩
  | cons e arrivals ih =>
    intro s seen htimes hok h
    obtain ⟨hnow, hlate⟩ := htimes e mem_cons_self
    obtain ⟨seen₁, hsub₁, h₁, hhead⟩ := progress_receive A hvalid hd hseq hids hlate hnow hok.1 h
    obtain ⟨seen₂, hsub₂, h₂, htail⟩ :=
      ih _ seen₁ (fun e' he' => htimes e' (mem_cons_of_mem _ he')) hok.2 h₁
    refine ⟨seen₂, hsub₁.trans hsub₂, h₂, fun e' he' i hi hraw => ?_⟩
    rcases mem_cons.mp he' with rfl | he'
    · exact hsub₂ (hhead i hi hraw)
    · exact htail e' he' i hi hraw

end

end

/-! ## The round trip -/

/-- The receiver has not met `sequence` yet. -/
structure UdpReceiver.Ready (s : UdpReceiver) (sequence : UInt64) : Prop where
  alive : s.fragments.closed = false
  absent : s.fragments.pending.lookup sequence = none
  unseen : ∃ acc : Set ℕ, s.replay.Rep acc ∧ sequence.toNat ∉ acc
  silent : s.deliveredFor sequence = []

/-- The frames of the datagram fit the wire and their number fits the header, and
however they arrive, each at least once, within the fragment timeout and
undisturbed, the receiver hands on the payload exactly once. -/
def RoundTrips (A : Aead) (codec : FxpUDPCodec) (payload : List UInt8) (counter : UInt64) : Prop :=
  ∃ frames, (sealFXPUDPDatagramsWithCodec A (codec.datagram payload) codec counter).frames
      = .ok frames ∧
    (∀ f ∈ frames, f.length ≤ fxpUDPMaxWirePacketSize) ∧
    frames.length ≤ fxpUDPMaxFragments ∧ frames.length < UInt8.size ∧
    let sequence := (sealFXPUDPDatagramsWithCodec A (codec.datagram payload) codec counter).counter
    ∀ (s : UdpReceiver) (arrivals : List UdpArrival), s.Ready sequence →
      (∀ e ∈ arrivals, ∀ e' ∈ arrivals, e'.now - e.now < fxpUDPFragmentTimeout) →
      Admissible (UdpReceiver.AllUndisturbed A codec sequence frames) (UdpReceiver.receive A codec)
        s arrivals →
      (∀ f ∈ frames, ∃ e ∈ arrivals, e.raw = f) →
      (run (UdpReceiver.receive A codec) s arrivals).deliveredFor sequence = [payload]

section

variable (hvalid : codec.Valid) (hlen : payload.length ≤ fxpUDPMaxDatagramPayload) {counter : UInt64}
  (hcounter : counter ≠ UInt64.ofNat (2 ^ 64 - 1))

include hvalid hlen hcounter

theorem roundTrips_of_ids_fit (hids : codec.tunnelID < 2 ^ 32 ∧ codec.ruleID < 2 ^ 32) :
    RoundTrips A codec payload counter := by
  obtain ⟨count, hcount, hd⟩ := fragmentCount_spec hlen
  obtain ⟨hseq, hframes⟩ := sealDatagrams_frames A codec payload hvalid hcounter hcount hd
  have hnumber : (codec.framesOf A payload (counter + 1) count).length = count := by
    rw [FxpUDPCodec.framesOf, length_map, length_range]
  refine ⟨_, hframes, ?_, ?_, ?_, ?_⟩
  · intro f hf
    obtain ⟨i, -, rfl⟩ := mem_map.mp hf
    exact frameOf_fragment_length A codec payload _ _ _
  · rw [hnumber]; exact hd.count_le
  · rw [hnumber]; exact lt_of_le_of_lt hd.count_le (by decide)
  rw [hseq]
  dsimp only
  intro s arrivals hready htimes hok hall
  obtain ⟨acc, hrep, hfresh⟩ := hready.unseen
  have hstart : Progress {t | ∃ e ∈ arrivals, e.now = t} payload (counter + 1) count ∅ s := by
    refine .before acc hrep hfresh hready.alive ?_ (.inl ⟨rfl, hready.absent⟩) hready.silent
    rw [Finset.empty_ssubset, Finset.nonempty_range_iff]
    have := hd.one_le
    omega
  have hclock : ∀ e ∈ arrivals, e.now ∈ {t | ∃ e ∈ arrivals, e.now = t} ∧
      ∀ t ∈ {t | ∃ e ∈ arrivals, e.now = t}, e.now - t < fxpUDPFragmentTimeout := by
    intro e he
    refine ⟨⟨e, he, rfl⟩, ?_⟩
    rintro t ⟨e', he', rfl⟩
    exact htimes e' he' e he
  obtain ⟨seen, -, hend, hseen⟩ :=
    progress_run A hvalid hd (add_one_ne_zero hcounter) hids arrivals s ∅ hclock hok hstart
  cases hend with
  | after _ _ _ honce => exact honce
  | before _ _ _ _ hmissing _ _ =>
    -- every frame has arrived, so no fragment is missing
    refine absurd (Finset.Subset.antisymm hmissing.subset fun i hi => ?_) hmissing.ne
    have hi := Finset.mem_range.mp hi
    obtain ⟨e, he, hraw⟩ := hall _ (mem_map_of_mem (mem_range.mpr hi))
    exact hseen e he i hi hraw

theorem not_roundTrips_of_ids_large (hids : ¬ (codec.tunnelID < 2 ^ 32 ∧ codec.ruleID < 2 ^ 32)) :
    ¬ RoundTrips A codec payload counter := by
  obtain ⟨count, hcount, hd⟩ := fragmentCount_spec hlen
  obtain ⟨hseq, hframes⟩ := sealDatagrams_frames A codec payload hvalid hcounter hcount hd
  rintro ⟨frames, hframes', -, -, -, htrip⟩
  obtain rfl : codec.framesOf A payload (counter + 1) count = frames :=
    Except.ok.inj (hframes.symm.trans hframes')
  rw [hseq] at htrip
  have hrefused : ∀ f ∈ codec.framesOf A payload (counter + 1) count,
      ∃ err, codec.openPacket A f = .error err := by
    intro f hf
    obtain ⟨i, hi, rfl⟩ := mem_map.mp hf
    refine ⟨_, (openPacket_frameOf A hvalid (add_one_ne_zero hcounter) hd.one_le hd.count_le
      (mem_range.mp hi)).trans (if_neg hids)⟩
  let start : UdpReceiver := ⟨.new, .new, []⟩
  let arrivals : List UdpArrival := (codec.framesOf A payload (counter + 1) count).map
    fun f => ⟨f, 0, newFXPUDPQueueProcessBudget 0, ∅, 0⟩
  have harrivals : ∀ e ∈ arrivals, e.now = 0 ∧ ∃ err, codec.openPacket A e.raw = .error err := by
    intro e he
    obtain ⟨f, hf, rfl⟩ := mem_map.mp he
    exact ⟨rfl, hrefused f hf⟩
  have hstay : run (UdpReceiver.receive A codec) start arrivals = start := by
    refine run_invariant_of_forall (I := (· = start)) (fun s e he hs => ?_) arrivals harrivals _ rfl
    obtain ⟨-, err, herr⟩ := he
    rw [UdpReceiver.receive, herr]
    exact hs
  have hout := htrip start arrivals ⟨rfl, rfl, ⟨∅, UdpReplayWindow.rep_new, Set.notMem_empty _⟩, rfl⟩
    (fun e he e' he' => by rw [(harrivals e he).1, (harrivals e' he').1]; decide)
    (admissible_of_forall _ (fun s e he p hp => by
      obtain ⟨-, err, herr⟩ := harrivals e he
      rw [herr] at hp
      cases hp) _)
    (fun f hf => ⟨_, mem_map_of_mem hf, rfl⟩)
  rw [hstay] at hout
  cases hout

end

/-- **Exactly when a datagram makes the round trip.** For every codec that
`newFXPUDPCodec` makes, every payload of at most 65507 bytes and every counter. -/
theorem datagram_roundTrip_iff {hmac : List UInt8 → List UInt8 → List UInt8} {key : List UInt8}
    {packet : FxpUDPPacket} (hcodec : newFXPUDPCodec hmac key packet = .ok codec)
    (hlen : payload.length ≤ fxpUDPMaxDatagramPayload) (counter : UInt64) :
    RoundTrips A codec payload counter ↔
      (codec.tunnelID < 2 ^ 32 ∧ codec.ruleID < 2 ^ 32) ∧ counter ≠ UInt64.ofNat (2 ^ 64 - 1) := by
  have hvalid := newFXPUDPCodec_valid hcodec
  by_cases hcounter : counter = UInt64.ofNat (2 ^ 64 - 1)
  · obtain ⟨count, hcount, -⟩ := fragmentCount_spec hlen
    refine ⟨?_, fun h => absurd hcounter h.2⟩
    rintro ⟨frames, hframes, -⟩
    rw [hcounter, sealDatagrams_exhausted A codec payload ⟨count, hcount⟩] at hframes
    cases hframes
  · by_cases hids : codec.tunnelID < 2 ^ 32 ∧ codec.ruleID < 2 ^ 32
    · exact ⟨fun _ => ⟨hids, hcounter⟩,
        fun _ => roundTrips_of_ids_fit A codec payload hvalid hlen hcounter hids⟩
    · refine ⟨fun h => absurd h ?_, fun h => absurd h.1 hids⟩
      exact not_roundTrips_of_ids_large A codec payload hvalid hlen hcounter hids

/-- A data packet of session 1 under rule 1, in tunnel `tunnelID`. -/
def dataPacket (tunnelID : ℤ) : FxpUDPPacket := ⟨fxpUDPTypeData, tunnelID, 1, 1, 0, 0, 0, []⟩

def dataCodec (tunnelID : ℤ) : FxpUDPCodec := ⟨fxpUDPTypeData, tunnelID, 1, 1, [1]⟩

theorem datagram_roundTrip_tunnel_one :
    newFXPUDPCodec (fun key _ => key) [1] (dataPacket 1) = .ok (dataCodec 1) ∧
      RoundTrips tagAead (dataCodec 1) [1, 2, 3] 0 :=
  have hcodec : newFXPUDPCodec (fun key _ => key) [1] (dataPacket 1) = .ok (dataCodec 1) := rfl
  ⟨hcodec, (datagram_roundTrip_iff tagAead (dataCodec 1) [1, 2, 3] hcodec (by decide) 0).mpr
    ⟨by decide, by decide⟩⟩

/-- Tunnel `2 ^ 32` gets a codec, but what it seals it cannot open. -/
theorem datagram_lost_tunnel_two_pow_32 :
    newFXPUDPCodec (fun key _ => key) [1] (dataPacket (2 ^ 32)) = .ok (dataCodec (2 ^ 32)) ∧
      ¬ RoundTrips tagAead (dataCodec (2 ^ 32)) [1, 2, 3] 0 :=
  have hcodec : newFXPUDPCodec (fun key _ => key) [1] (dataPacket (2 ^ 32))
      = .ok (dataCodec (2 ^ 32)) := rfl
  ⟨hcodec, not_roundTrips_of_ids_large tagAead (dataCodec (2 ^ 32)) [1, 2, 3]
    (newFXPUDPCodec_valid hcodec) (by decide) (by decide) (by decide)⟩

end ForwardX.Fxp
