/-
Datagrams and fragments (`forwardx-fxp/udp_fragment.go`): how a payload becomes sealed frames of at
most 1200 bytes, and how `udpFragmentReassembler` puts the frames of a sequence together again.
-/
import ForwardX.Fxp.UdpCodec
import ForwardX.Fxp.UdpBudget
import ForwardX.Fxp.ReplayWindow

namespace ForwardX.Fxp

/-! ## Sequences -/

def nextFXPUDPSequence (counter : UInt64) : Except String UInt64 :=
  if counter = UInt64.ofNat (2 ^ 64 - 1) then .error "udp packet sequence exhausted"
  else .ok (counter + 1)

theorem toNat_add_one {c : UInt64} (h : c ≠ UInt64.ofNat (2 ^ 64 - 1)) : (c + 1).toNat = c.toNat + 1 := by
  have hlt : c.toNat < 2 ^ 64 := c.toNat_lt
  have hne : c.toNat ≠ 2 ^ 64 - 1 := fun heq => h (UInt64.toNat_inj.mp (by rw [heq]; rfl))
  rw [UInt64.toNat_add, show (1 : UInt64).toNat = 1 from rfl, Nat.mod_eq_of_lt (by omega)]

/-! ## Sealing a datagram -/

def fxpUDPFragmentCount (payloadSize : ℕ) : Except String ℕ :=
  if payloadSize > fxpUDPMaxDatagramPayload then .error "udp datagram payload too large"
  else if payloadSize ≤ fxpUDPFragmentPayloadSize then .ok 1
  else
    let count := (payloadSize + fxpUDPFragmentPayloadSize - 1) / fxpUDPFragmentPayloadSize
    if count > fxpUDPMaxFragments then .error "udp datagram requires too many fragments"
    else .ok count

/-- Fragment `index` of `count`, as the loop of `sealFXPUDPDatagramsWithCodec`
fills it in. -/
def fragmentOf (packet : FxpUDPPacket) (sequence : UInt64) (count index : ℕ) : FxpUDPPacket :=
  let start := index * fxpUDPFragmentPayloadSize
  let stop := min (start + fxpUDPFragmentPayloadSize) packet.payload.length
  { packet with
    sequence := sequence
    payload := slice packet.payload start stop
    fragment := if count > 1 then UInt8.ofNat index else packet.fragment
    fragments := if count > 1 then UInt8.ofNat count else packet.fragments }

def sealFragment (A : Aead) (codec : FxpUDPCodec) (fragment : FxpUDPPacket) : Except String (List UInt8) :=
  match codec.sealPacket A fragment with
  | .error e => .error e
  | .ok frame =>
    if frame.length > fxpUDPMaxWirePacketSize then .error "sealed udp fragment exceeds wire limit"
    else .ok frame

/-- The result of a call: the counter, which a failed call may have moved too, and
the fragments that went into `Seal`. -/
structure SealedDatagram where
  counter : UInt64
  fragments : List FxpUDPPacket
  frames : Except String (List (List UInt8))

def sealFXPUDPDatagramsWithCodec (A : Aead) (packet : FxpUDPPacket) (codec : FxpUDPCodec)
    (counter : UInt64) : SealedDatagram :=
  if packet.fragment ≠ 0 ∨ packet.fragments ≠ 0 ∨ packet.sequence ≠ 0 then
    ⟨counter, [], .error "udp datagram already has wire metadata"⟩
  else if codec.isFor packet = false then
    ⟨counter, [], .error "udp datagram does not match cached encryption context"⟩
  else
    match fxpUDPFragmentCount packet.payload.length with
    | .error e => ⟨counter, [], .error e⟩
    | .ok count =>
      match nextFXPUDPSequence counter with
      | .error e => ⟨counter, [], .error e⟩
      | .ok sequence =>
        let fragments := (List.range count).map (fragmentOf packet sequence count)
        ⟨sequence, fragments, fragments.mapM (sealFragment A codec)⟩

/-! ## Reassembly -/

def fxpUDPFragmentTimeout : ℤ := 5 * 1000000000
def fxpUDPMaxPendingFragmentSets : ℕ := 8

structure UdpFragmentAssembly where
  fragments : UInt8
  chunks : List (Option (List UInt8))
  received : ℕ
  total : ℕ
  createdAt : ℤ

structure UdpFragmentReassembler where
  pending : GoMap UInt64 UdpFragmentAssembly
  budget : Option ℕ
  closed : Bool

def UdpFragmentReassembler.new : UdpFragmentReassembler := ⟨∅, none, false⟩

def UdpFragmentReassembler.removeAssemblyLocked (r : UdpFragmentReassembler) (b : Budgets)
    (sequence : UInt64) : UdpFragmentReassembler × Budgets :=
  match r.pending.lookup sequence with
  | none => (r, b)
  | some assembly =>
    ({ r with pending := r.pending.erase sequence }, b.release? r.budget assembly.total)

/-- `now.Sub(assembly.createdAt) >= fxpUDPFragmentTimeout`. -/
def UdpFragmentAssembly.expired (now : ℤ) (assembly : UdpFragmentAssembly) : Bool :=
  decide (now - assembly.createdAt ≥ fxpUDPFragmentTimeout)

def assemblyTotals (m : GoMap UInt64 UdpFragmentAssembly) : List ℕ :=
  m.entries.map fun e => e.2.total

def UdpFragmentReassembler.expireLocked (r : UdpFragmentReassembler) (b : Budgets) (now : ℤ) :
    UdpFragmentReassembler × Budgets :=
  ({ r with pending := GoMap.filter (fun _ a => !a.expired now) r.pending },
    b.releaseAll r.budget (assemblyTotals (GoMap.filter (fun _ a => a.expired now) r.pending)))

/-- The loop of `evictOldestLocked`: sequence and creation time of the oldest
assembly, a zero time while there is none. -/
def oldestAssembly (m : GoMap UInt64 UdpFragmentAssembly) : UInt64 × ℤ :=
  m.foldl (fun oldest sequence assembly =>
    if oldest.2 = 0 ∨ assembly.createdAt < oldest.2 then (sequence, assembly.createdAt)
    else oldest) (0, 0)

def UdpFragmentReassembler.evictOldestLocked (r : UdpFragmentReassembler) (b : Budgets) :
    UdpFragmentReassembler × Budgets :=
  let (oldestSequence, oldestTime) := oldestAssembly r.pending
  if oldestTime ≠ 0 then r.removeAssemblyLocked b oldestSequence else (r, b)

def UdpFragmentReassembler.clearLocked (r : UdpFragmentReassembler) (b : Budgets) :
    UdpFragmentReassembler × Budgets :=
  ({ r with pending := ∅ }, b.releaseAll r.budget (assemblyTotals r.pending))

def UdpFragmentReassembler.expire (r : UdpFragmentReassembler) (b : Budgets) (now : ℤ) :
    UdpFragmentReassembler × Budgets :=
  if r.closed then (r, b) else r.expireLocked b now

def UdpFragmentReassembler.setBudget (r : UdpFragmentReassembler) (b : Budgets)
    (budget : Option ℕ) : UdpFragmentReassembler × Budgets :=
  if r.budget = budget then (r, b)
  else
    let (r, b) := r.clearLocked b
    ({ r with budget := budget }, b)

/-- What `accept` leaves behind: the reassembler, the budgets, the replay window
and the datagram, if one is complete. -/
structure Accepted where
  r : UdpFragmentReassembler
  b : Budgets
  w : UdpReplayWindow
  datagram : Option (List UInt8)

/-- The copy loop at the end of `accept`. -/
def joinChunks (total : ℕ) (chunks : List (Option (List UInt8))) : List UInt8 :=
  ((chunks.map fun (chunk : Option (List UInt8)) => chunk.getD []).flatten ++ List.replicate total 0).take total

def UdpFragmentAssembly.store (assembly : UdpFragmentAssembly) (packet : FxpUDPPacket) : UdpFragmentAssembly :=
  { assembly with
    total := assembly.total + packet.payload.length
    chunks := assembly.chunks.set packet.fragment.toNat (some packet.payload)
    received := assembly.received + 1 }

/-- `accept` from the lookup of the assembly on. A new assembly enters the map
only when its first fragment has been paid for. -/
def UdpFragmentReassembler.acceptFragment (r : UdpFragmentReassembler) (b : Budgets)
    (w : UdpReplayWindow) (packet : FxpUDPPacket) (assembly : UdpFragmentAssembly)
    (newAssembly : Bool) : Accepted :=
  if (assembly.chunks.getD packet.fragment.toNat none).isSome then ⟨r, b, w, none⟩
  else if assembly.total + packet.payload.length > fxpUDPMaxDatagramPayload then
    let (r, b) := if newAssembly then (r, b) else r.removeAssemblyLocked b packet.sequence
    ⟨r, b, w, none⟩
  else
    let (b, reserved) := b.reserve? r.budget packet.payload.length
    if reserved = false then
      let (r, b) := if newAssembly then (r, b) else r.removeAssemblyLocked b packet.sequence
      ⟨r, b, w, none⟩
    else
      let assembly := assembly.store packet
      let r := { r with pending := r.pending.insert packet.sequence assembly }
      if assembly.received ≠ assembly.fragments.toNat then ⟨r, b, w, none⟩
      else
        let (r, b) := r.removeAssemblyLocked b packet.sequence
        let (w, fresh) := w.accept packet.sequence
        ⟨r, b, w, if fresh then some (joinChunks assembly.total assembly.chunks) else none⟩

def UdpFragmentReassembler.accept (r : UdpFragmentReassembler) (b : Budgets)
    (w : UdpReplayWindow) (packet : FxpUDPPacket) (now : ℤ) : Accepted :=
  if r.closed = true ∨ validFXPUDPFragmentMetadata packet.fragment packet.fragments = false then
    ⟨r, b, w, none⟩
  else if packet.fragments = 0 then
    let (w, fresh) := w.accept packet.sequence
    ⟨r, b, w, if fresh then some packet.payload else none⟩
  else if packet.payload.length = 0 ∨ packet.payload.length > fxpUDPFragmentPayloadSize then
    ⟨r, b, w, none⟩
  else
    let (r, b) := r.expireLocked b now
    match r.pending.lookup packet.sequence with
    | none =>
      -- a full table gives up its oldest assembly for the new one
      let (r, b) := if r.pending.entries.length ≥ fxpUDPMaxPendingFragmentSets
        then r.evictOldestLocked b else (r, b)
      r.acceptFragment b w packet
        ⟨packet.fragments, List.replicate packet.fragments.toNat none, 0, 0, now⟩ true
    | some assembly =>
      if assembly.fragments ≠ packet.fragments then
        -- two counts for one sequence: neither the assembly nor the packet is kept
        let (r, b) := r.removeAssemblyLocked b packet.sequence
        ⟨r, b, w, none⟩
      else r.acceptFragment b w packet assembly false

/-! ## What a packet can do

Every statement about `accept` is one about each of these outcomes. -/

abbrev UdpFragmentReassembler.storing (r : UdpFragmentReassembler) (packet : FxpUDPPacket)
    (assembly : UdpFragmentAssembly) : UdpFragmentReassembler :=
  { r with pending := r.pending.insert packet.sequence (assembly.store packet) }

/-- Expired assemblies are gone, and the oldest one too if there are eight. -/
abbrev UdpFragmentReassembler.makeRoom (r : UdpFragmentReassembler) (b : Budgets) (now : ℤ) :
    UdpFragmentReassembler × Budgets :=
  if (r.expireLocked b now).1.pending.entries.length ≥ fxpUDPMaxPendingFragmentSets
    then (r.expireLocked b now).1.evictOldestLocked (r.expireLocked b now).2
    else r.expireLocked b now

inductive FragmentOutcome (r : UdpFragmentReassembler) (b : Budgets) (w : UdpReplayWindow)
    (packet : FxpUDPPacket) (assembly : UdpFragmentAssembly) (newAssembly : Bool) : Accepted → Prop
  | duplicate : FragmentOutcome r b w packet assembly newAssembly ⟨r, b, w, none⟩
  /-- Too large in all, or not paid for: the assembly goes. -/
  | givenUp (b' : Budgets)
      (hb' : b' = b ∨ (b' = (b.reserve? r.budget packet.payload.length).1 ∧
        (b.reserve? r.budget packet.payload.length).2 = false)) :
      FragmentOutcome r b w packet assembly newAssembly
        ⟨(if newAssembly then (r, b') else r.removeAssemblyLocked b' packet.sequence).1,
          (if newAssembly then (r, b') else r.removeAssemblyLocked b' packet.sequence).2, w, none⟩
  | stored (hpaid : (b.reserve? r.budget packet.payload.length).2 = true) :
      FragmentOutcome r b w packet assembly newAssembly
        ⟨r.storing packet assembly, (b.reserve? r.budget packet.payload.length).1, w, none⟩
  | complete (hpaid : (b.reserve? r.budget packet.payload.length).2 = true) :
      FragmentOutcome r b w packet assembly newAssembly
        ⟨((r.storing packet assembly).removeAssemblyLocked
            (b.reserve? r.budget packet.payload.length).1 packet.sequence).1,
          ((r.storing packet assembly).removeAssemblyLocked
            (b.reserve? r.budget packet.payload.length).1 packet.sequence).2,
          (w.accept packet.sequence).1,
          if (w.accept packet.sequence).2
            then some (joinChunks (assembly.store packet).total (assembly.store packet).chunks)
            else none⟩

open UdpFragmentReassembler

theorem acceptFragment_outcome (r : UdpFragmentReassembler) (b : Budgets) (w : UdpReplayWindow)
    (packet : FxpUDPPacket) (assembly : UdpFragmentAssembly) (newAssembly : Bool) :
    FragmentOutcome r b w packet assembly newAssembly
      (r.acceptFragment b w packet assembly newAssembly) := by
  unfold acceptFragment
  dsimp only
  by_cases hdup : (assembly.chunks.getD packet.fragment.toNat none).isSome = true
  · rw [if_pos hdup]
    exact .duplicate
  rw [if_neg hdup]
  by_cases hbig : assembly.total + packet.payload.length > fxpUDPMaxDatagramPayload
  · rw [if_pos hbig]
    exact .givenUp b (.inl rfl)
  rw [if_neg hbig]
  by_cases hfail : (b.reserve? r.budget packet.payload.length).2 = false
  · rw [if_pos hfail]
    exact .givenUp _ (.inr ⟨rfl, hfail⟩)
  rw [if_neg hfail]
  have hpaid : (b.reserve? r.budget packet.payload.length).2 = true := by simpa using hfail
  by_cases hmore : (assembly.store packet).received ≠ (assembly.store packet).fragments.toNat
  · rw [if_pos hmore]
    exact .stored hpaid
  · rw [if_neg hmore]
    exact .complete hpaid

/-- The ways `accept` can treat a packet. -/
inductive AcceptOutcome (r : UdpFragmentReassembler) (b : Budgets) (w : UdpReplayWindow)
    (packet : FxpUDPPacket) (now : ℤ) : Accepted → Prop
  | ignored : AcceptOutcome r b w packet now ⟨r, b, w, none⟩
  /-- A datagram in one piece, which goes through the replay window at once. -/
  | whole : AcceptOutcome r b w packet now ⟨r, b, (w.accept packet.sequence).1,
      if (w.accept packet.sequence).2 then some packet.payload else none⟩
  /-- The first fragment of its sequence; eight assemblies are pending at most. -/
  | first (hread : (r.expireLocked b now).1.pending.lookup packet.sequence = none) :
      AcceptOutcome r b w packet now ((r.makeRoom b now).1.acceptFragment (r.makeRoom b now).2 w
        packet ⟨packet.fragments, List.replicate packet.fragments.toNat none, 0, 0, now⟩ true)
  /-- The fragments of one sequence disagree about their number. -/
  | mismatch : AcceptOutcome r b w packet now
      ⟨((r.expireLocked b now).1.removeAssemblyLocked (r.expireLocked b now).2 packet.sequence).1,
        ((r.expireLocked b now).1.removeAssemblyLocked (r.expireLocked b now).2 packet.sequence).2,
        w, none⟩
  | further (assembly : UdpFragmentAssembly)
      (hread : (r.expireLocked b now).1.pending.lookup packet.sequence = some assembly) :
      AcceptOutcome r b w packet now
        ((r.expireLocked b now).1.acceptFragment (r.expireLocked b now).2 w packet assembly false)

theorem accept_outcome (r : UdpFragmentReassembler) (b : Budgets) (w : UdpReplayWindow)
    (packet : FxpUDPPacket) (now : ℤ) : AcceptOutcome r b w packet now (r.accept b w packet now) := by
  unfold accept
  dsimp only
  by_cases hskip : r.closed = true ∨
      validFXPUDPFragmentMetadata packet.fragment packet.fragments = false
  · rw [if_pos hskip]
    exact .ignored
  rw [if_neg hskip]
  by_cases hwhole : packet.fragments = 0
  · rw [if_pos hwhole]
    exact .whole
  rw [if_neg hwhole]
  by_cases hsize : packet.payload.length = 0 ∨ packet.payload.length > fxpUDPFragmentPayloadSize
  · rw [if_pos hsize]
    exact .ignored
  rw [if_neg hsize]
  rcases hread : (r.expireLocked b now).1.pending.lookup packet.sequence with _ | assembly
  · exact .first hread
  · dsimp only
    by_cases hcount : assembly.fragments ≠ packet.fragments
    · rw [if_pos hcount]
      exact .mismatch
    · rw [if_neg hcount]
      exact .further assembly hread

/-! ## What removing an assembly leaves -/

theorem lookup_removeAssemblyLocked (r : UdpFragmentReassembler) (b : Budgets)
    (sequence s : UInt64) : (r.removeAssemblyLocked b sequence).1.pending.lookup s
      = if s = sequence then none else r.pending.lookup s := by
  unfold removeAssemblyLocked
  rcases ha : r.pending.lookup sequence with _ | assembly
  · by_cases hs : s = sequence
    · rw [if_pos hs, hs]; exact ha
    · rw [if_neg hs]
  · by_cases hs : s = sequence
    · rw [if_pos hs, hs]; exact AList.lookup_erase _ _
    · rw [if_neg hs]; exact AList.lookup_erase_ne hs

theorem lookup_evictOldestLocked {r : UdpFragmentReassembler} (b : Budgets) {s : UInt64}
    (h : r.pending.lookup s = none) : (r.evictOldestLocked b).1.pending.lookup s = none := by
  unfold evictOldestLocked
  dsimp only
  split_ifs
  · rw [lookup_removeAssemblyLocked, h, ite_self]
  · exact h

/-! ## What the reassembler charges

`g` is what everyone else has charged. Every operation keeps the budgets balanced
at `g` plus the weight of the pending fragments. -/

def UdpFragmentReassembler.held (r : UdpFragmentReassembler) : ℕ :=
  GoMap.sumOver (fun _ a => a.total) r.pending

/-- The reassembler's budget stands, and is charged `held` on top of `g`. -/
structure UdpFragmentReassembler.Charged (r : UdpFragmentReassembler) (b : Budgets)
    (g : ℕ → ℤ) : Prop where
  knows : b.Knows r.budget
  balanced : b.Balanced fun i => g i + share r.budget r.held i

/-- `r'` with budgets `b'` is `r` with budgets `b` after some work on its pending
fragments. -/
structure ChargedStep (g : ℕ → ℤ) (r : UdpFragmentReassembler) (b : Budgets)
    (r' : UdpFragmentReassembler) (b' : Budgets) : Prop where
  charged : r'.Charged b' g
  budget : r'.budget = r.budget
  closed : r'.closed = r.closed
  rules : b.SameRules b'

variable {g : ℕ → ℤ} {r r' r'' : UdpFragmentReassembler} {b b' b'' : Budgets}

theorem ChargedStep.refl (h : r.Charged b g) : ChargedStep g r b r b := ⟨h, rfl, rfl, .refl b⟩

theorem ChargedStep.trans (h : ChargedStep g r b r' b') (h' : ChargedStep g r' b' r'' b'') :
    ChargedStep g r b r'' b'' :=
  ⟨h'.charged, h'.budget.trans h.budget, h'.closed.trans h.closed, h.rules.trans h'.rules⟩

section

variable (hg : ∀ i, 0 ≤ g i) (h : r.Charged b g)

include hg h

theorem chargedStep_release {pending : GoMap UInt64 UdpFragmentAssembly} {holdings : List ℕ}
    (hsum : r.held = holdings.sum + GoMap.sumOver (fun _ a => a.total) pending) :
    ChargedStep g r b { r with pending := pending } (b.releaseAll r.budget holdings) := by
  have hsplit : ∀ i, share r.budget r.held i = share r.budget (holdings.sum : ℕ) i
      + share r.budget (GoMap.sumOver (fun _ a => a.total) pending : ℕ) i := by
    intro i
    rw [hsum, Nat.cast_add, share_add]
  obtain ⟨hrules, hbal⟩ := Budgets.releaseAll_spec r.budget holdings h.balanced h.knows fun i => by
    have := share_nonneg r.budget
      (Int.natCast_nonneg (GoMap.sumOver (fun _ a => a.total) pending)) i
    have := hg i
    rw [hsplit]
    linarith
  refine ⟨⟨h.knows.mono hrules, hbal.congr fun i _ => ?_⟩, rfl, rfl, hrules⟩
  rw [hsplit]
  exact (add_sub_assoc ..).trans (congrArg (g i + ·) (add_sub_cancel_left _ _))

theorem removeAssemblyLocked_step (sequence : UInt64) :
    ChargedStep g r b (r.removeAssemblyLocked b sequence).1
      (r.removeAssemblyLocked b sequence).2 := by
  unfold removeAssemblyLocked
  rcases ha : r.pending.lookup sequence with _ | assembly
  · exact .refl h
  · have hsum : r.held = [assembly.total].sum
        + GoMap.sumOver (fun _ a => a.total) (r.pending.erase sequence) := by
      rw [List.sum_singleton]
      exact GoMap.sumOver_of_lookup (fun _ a => a.total) ha
    exact chargedStep_release hg h hsum

theorem expireLocked_step (now : ℤ) : ChargedStep g r b (r.expireLocked b now).1 (r.expireLocked b now).2 :=
  chargedStep_release hg h
    (GoMap.sumOver_filter_add (fun _ (a : UdpFragmentAssembly) => a.total)
      (fun _ a => a.expired now) r.pending).symm

theorem evictOldestLocked_step : ChargedStep g r b (r.evictOldestLocked b).1 (r.evictOldestLocked b).2 := by
  unfold evictOldestLocked
  dsimp only
  split_ifs
  · exact removeAssemblyLocked_step hg h _
  · exact .refl h

theorem clearLocked_step : ChargedStep g r b (r.clearLocked b).1 (r.clearLocked b).2 :=
  chargedStep_release hg h rfl

end

theorem store_step (h : r.Charged b g) {packet : FxpUDPPacket} {assembly : UdpFragmentAssembly}
    (hin : r.pending.lookup packet.sequence = some assembly ∨
      (r.pending.lookup packet.sequence = none ∧ assembly.total = 0))
    (hok : (b.reserve? r.budget packet.payload.length).2 = true) :
    ChargedStep g r b { r with pending := r.pending.insert packet.sequence (assembly.store packet) }
      (b.reserve? r.budget packet.payload.length).1 := by
  obtain ⟨hrules, ⟨hfail, -⟩ | ⟨-, hbal⟩⟩ :=
    Budgets.reserve?_spec h.balanced r.budget (Int.natCast_nonneg packet.payload.length)
  · rw [hok] at hfail; cases hfail
  refine ⟨⟨h.knows.mono hrules, hbal.congr fun i _ => ?_⟩, rfl, rfl, hrules⟩
  have hheld : GoMap.sumOver (fun _ a => a.total)
      (r.pending.insert packet.sequence (assembly.store packet))
        = r.held + packet.payload.length := by
    rw [GoMap.sumOver_insert, held]
    rcases hin with hin | ⟨hin, hzero⟩
    · rw [GoMap.sumOver_of_lookup _ hin]
      exact Nat.add_right_comm ..
    · rw [GoMap.erase_of_lookup_none hin, UdpFragmentAssembly.store, hzero, Nat.zero_add,
        Nat.add_comm]
  show _ = g i + share r.budget (GoMap.sumOver (fun _ a => a.total)
    (r.pending.insert packet.sequence (assembly.store packet)) : ℕ) i
  rw [hheld, Nat.cast_add, share_add, add_assoc]

section

variable (hg : ∀ i, 0 ≤ g i) (h : r.Charged b g)

include hg h

theorem acceptFragment_step (w : UdpReplayWindow)
    {packet : FxpUDPPacket} {assembly : UdpFragmentAssembly} {newAssembly : Bool}
    (hin : r.pending.lookup packet.sequence = some assembly ∨
      (r.pending.lookup packet.sequence = none ∧ assembly.total = 0)) :
    ChargedStep g r b (r.acceptFragment b w packet assembly newAssembly).r
      (r.acceptFragment b w packet assembly newAssembly).b := by
  have hout := acceptFragment_outcome r b w packet assembly newAssembly
  generalize r.acceptFragment b w packet assembly newAssembly = res at hout ⊢
  cases hout with
  | duplicate => exact .refl h
  | givenUp b' hb' =>
    -- a reservation that fails leaves the budgets as they were
    have hunchanged : b' = b := by
      obtain rfl | ⟨rfl, hfail⟩ := hb'
      · rfl
      obtain ⟨-, ⟨-, hsame⟩ | ⟨hbad, -⟩⟩ :=
        Budgets.reserve?_spec h.balanced r.budget (Int.natCast_nonneg packet.payload.length)
      · exact hsame
      · rw [hfail] at hbad
        cases hbad
    rw [hunchanged]
    cases newAssembly with
    | true => exact .refl h
    | false => exact removeAssemblyLocked_step hg h _
  | stored hpaid => exact store_step h hin hpaid
  | complete hpaid =>
    have hstore := store_step h hin hpaid
    exact hstore.trans (removeAssemblyLocked_step hg hstore.charged packet.sequence)

theorem accept_step (w : UdpReplayWindow) (packet : FxpUDPPacket) (now : ℤ) :
    ChargedStep g r b (r.accept b w packet now).r (r.accept b w packet now).b := by
  have hexp := expireLocked_step hg h now
  have hout := accept_outcome r b w packet now
  generalize r.accept b w packet now = res at hout ⊢
  cases hout with
  | ignored | whole => exact .refl h
  | first hread =>
    unfold makeRoom
    split_ifs
    · have hev := hexp.trans (evictOldestLocked_step hg hexp.charged)
      exact hev.trans (acceptFragment_step hg hev.charged w
        (.inr ⟨lookup_evictOldestLocked _ hread, rfl⟩))
    · exact hexp.trans (acceptFragment_step hg hexp.charged w (.inr ⟨hread, rfl⟩))
  | mismatch =>
    exact hexp.trans (removeAssemblyLocked_step hg hexp.charged packet.sequence)
  | further assembly hread =>
    exact hexp.trans (acceptFragment_step hg hexp.charged w (.inl hread))

theorem setBudget_step {budget : Option ℕ} (hknows : b.Knows budget) :
    ((r.setBudget b budget).1.Charged (r.setBudget b budget).2 g) ∧
      b.SameRules (r.setBudget b budget).2 := by
  unfold setBudget
  by_cases hsame : r.budget = budget
  · rw [if_pos hsame]; exact ⟨h, .refl b⟩
  · rw [if_neg hsame]
    have hclear := clearLocked_step hg h
    refine ⟨⟨hknows.mono hclear.rules, hclear.charged.balanced.congr fun i _ => ?_⟩, hclear.rules⟩
    -- nothing is pending, so neither the old nor the new pointer is charged
    show g i + share _ (0 : ℕ) i = g i + share _ (0 : ℕ) i
    rw [Nat.cast_zero, share_zero, share_zero]

end

end ForwardX.Fxp
