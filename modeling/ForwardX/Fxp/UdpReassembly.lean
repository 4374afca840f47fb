/-
What one call of `udpFragmentReassembler.accept` does, one lemma for each question a caller asks.
-/
import ForwardX.Lib.Pieces
import ForwardX.Fxp.UdpFragment

namespace ForwardX.Fxp

variable (r : UdpFragmentReassembler) (b : Budgets) (w : UdpReplayWindow) (p : FxpUDPPacket)

/-! ## The replay window -/

/-- Nothing comes out and the window stays, or a datagram comes out and its
sequence has been admitted. -/
def WindowStep (w : UdpReplayWindow) (sequence : UInt64) (res : Accepted) : Prop :=
  (res.datagram = none ∧ res.w = w) ∨
    (res.datagram.isSome = true ∧ w.accept sequence = (res.w, true))

theorem windowStep_accept (w : UdpReplayWindow) (sequence : UInt64) (r : UdpFragmentReassembler)
    (b : Budgets) (datagram : List UInt8) :
    WindowStep w sequence ⟨r, b, (w.accept sequence).1,
      if (w.accept sequence).2 then some datagram else none⟩ := by
  cases hfresh : (w.accept sequence).2 with
  | false => exact .inl ⟨rfl, UdpReplayWindow.accept_refused hfresh⟩
  | true => exact .inr ⟨rfl, Prod.ext rfl hfresh⟩

theorem acceptFragment_window (assembly : UdpFragmentAssembly) (newAssembly : Bool) :
    WindowStep w p.sequence (r.acceptFragment b w p assembly newAssembly) := by
  have hout := acceptFragment_outcome r b w p assembly newAssembly
  generalize r.acceptFragment b w p assembly newAssembly = res at hout ⊢
  cases hout with
  | duplicate | givenUp | stored => exact .inl ⟨rfl, rfl⟩
  | complete => exact windowStep_accept _ _ _ _ _

theorem accept_window (now : ℤ) : WindowStep w p.sequence (r.accept b w p now) := by
  have hout := accept_outcome r b w p now
  generalize r.accept b w p now = res at hout ⊢
  cases hout with
  | ignored => exact .inl ⟨rfl, rfl⟩
  | whole => exact windowStep_accept _ _ _ _ _
  | first => exact acceptFragment_window _ _ _ _ _ _
  | mismatch => exact .inl ⟨rfl, rfl⟩
  | further => exact acceptFragment_window _ _ _ _ _ _

/-! ## Other sequences -/

/-- `r'` is `r` up to the assembly of one sequence. -/
structure SameBut (sequence : UInt64) (r r' : UdpFragmentReassembler) : Prop where
  lookup : ∀ s, s ≠ sequence → r'.pending.lookup s = r.pending.lookup s
  closed : r'.closed = r.closed

theorem SameBut.refl (sequence : UInt64) (r : UdpFragmentReassembler) : SameBut sequence r r :=
  ⟨fun _ _ => rfl, rfl⟩

theorem SameBut.trans {sequence : UInt64} {r r' r'' : UdpFragmentReassembler}
    (h : SameBut sequence r r') (h' : SameBut sequence r' r'') : SameBut sequence r r'' :=
  ⟨fun s hs => (h'.lookup s hs).trans (h.lookup s hs), h'.closed.trans h.closed⟩

open UdpFragmentReassembler

theorem sameBut_removeAssemblyLocked (sequence : UInt64) :
    SameBut sequence r (r.removeAssemblyLocked b sequence).1 := by
  refine ⟨fun s hs => ?_, ?_⟩
  · rw [lookup_removeAssemblyLocked, if_neg hs]
  · unfold removeAssemblyLocked
    split <;> rfl

theorem sameBut_insert (sequence : UInt64) (assembly : UdpFragmentAssembly) :
    SameBut sequence r { r with pending := r.pending.insert sequence assembly } :=
  ⟨fun _ hs => AList.lookup_insert_ne hs, rfl⟩

theorem acceptFragment_sameBut (assembly : UdpFragmentAssembly) (newAssembly : Bool) :
    SameBut p.sequence r (r.acceptFragment b w p assembly newAssembly).r := by
  have hout := acceptFragment_outcome r b w p assembly newAssembly
  generalize r.acceptFragment b w p assembly newAssembly = res at hout ⊢
  have hstore : SameBut p.sequence r (r.storing p assembly) :=
    sameBut_insert r p.sequence (assembly.store p)
  cases hout with
  | duplicate => exact .refl _ _
  | givenUp b' =>
    cases newAssembly with
    | true => exact .refl _ _
    | false => exact sameBut_removeAssemblyLocked _ _ _
  | stored => exact hstore
  | complete => exact hstore.trans (sameBut_removeAssemblyLocked _ _ _)

theorem lookup_expireLocked {s : UInt64} {now : ℤ}
    (hfresh : ∀ a, r.pending.lookup s = some a → a.expired now = false) :
    (r.expireLocked b now).1.pending.lookup s = r.pending.lookup s := by
  show (GoMap.filter _ r.pending).lookup s = _
  rw [GoMap.lookup_filter]
  rcases hs : r.pending.lookup s with _ | a
  · rfl
  · rw [Option.filter_some, if_pos (by rw [hfresh a hs]; rfl)]

def UdpFragmentReassembler.pendingAt (now : ℤ) : GoMap UInt64 UdpFragmentAssembly :=
  (r.expireLocked b now).1.pending

/-- A slot is free for the packet, if it needs one. -/
def UdpFragmentReassembler.HasSlot (now : ℤ) : Prop :=
  p.fragments ≠ 0 → (r.pendingAt b now).lookup p.sequence = none →
    (r.pendingAt b now).entries.length < fxpUDPMaxPendingFragmentSets

theorem accept_fragment {now : ℤ} (hopen : r.closed = false)
    (hmeta : validFXPUDPFragmentMetadata p.fragment p.fragments = true) (hfrag : p.fragments ≠ 0)
    (hsize : ¬ (p.payload.length = 0 ∨ p.payload.length > fxpUDPFragmentPayloadSize))
    (hslot : r.HasSlot b p now) :
    r.accept b w p now = match (r.pendingAt b now).lookup p.sequence with
      | none => (r.expireLocked b now).1.acceptFragment (r.expireLocked b now).2 w p
          ⟨p.fragments, List.replicate p.fragments.toNat none, 0, 0, now⟩ true
      | some assembly =>
        if assembly.fragments ≠ p.fragments then
          ⟨((r.expireLocked b now).1.removeAssemblyLocked (r.expireLocked b now).2 p.sequence).1,
            ((r.expireLocked b now).1.removeAssemblyLocked (r.expireLocked b now).2 p.sequence).2,
            w, none⟩
        else (r.expireLocked b now).1.acceptFragment (r.expireLocked b now).2 w p assembly false := by
  unfold accept
  rw [if_neg (by rw [hopen, hmeta]; decide), if_neg hfrag, if_neg hsize]
  dsimp only
  rcases hread : (r.pendingAt b now).lookup p.sequence with _ | assembly
  · have hfree : ¬ (r.expireLocked b now).1.pending.entries.length ≥ fxpUDPMaxPendingFragmentSets :=
      Nat.not_le.mpr (hslot hfrag hread)
    rw [show (r.expireLocked b now).1.pending.lookup p.sequence = none from hread]
    dsimp only
    rw [if_neg hfree]
  · rw [show (r.expireLocked b now).1.pending.lookup p.sequence = some assembly from hread]

theorem accept_other {now : ℤ} {s : UInt64} (hs : s ≠ p.sequence) (hslot : r.HasSlot b p now)
    (hfresh : ∀ a, r.pending.lookup s = some a → a.expired now = false) :
    (r.accept b w p now).r.pending.lookup s = r.pending.lookup s := by
  by_cases hskip : r.closed = true ∨ validFXPUDPFragmentMetadata p.fragment p.fragments = false
  · rw [accept, if_pos hskip]
  by_cases hwhole : p.fragments = 0
  · rw [accept, if_neg hskip, if_pos hwhole]
  by_cases hsize : p.payload.length = 0 ∨ p.payload.length > fxpUDPFragmentPayloadSize
  · rw [accept, if_neg hskip, if_neg hwhole, if_pos hsize]
  obtain ⟨hopen, hmeta⟩ := not_or.mp hskip
  rw [accept_fragment r b w p (by simpa using hopen) (by simpa using hmeta) hwhole hsize hslot,
    ← lookup_expireLocked r b hfresh]
  rcases (r.pendingAt b now).lookup p.sequence with _ | assembly
  · exact (acceptFragment_sameBut _ _ _ _ _ _).lookup s hs
  · dsimp only
    split_ifs
    · exact (sameBut_removeAssemblyLocked _ _ _).lookup s hs
    · exact (acceptFragment_sameBut _ _ _ _ _ _).lookup s hs

theorem evictOldestLocked_closed : (r.evictOldestLocked b).1.closed = r.closed := by
  unfold evictOldestLocked
  dsimp only
  split_ifs
  · exact (sameBut_removeAssemblyLocked _ _ _).closed
  · rfl

theorem accept_closed (now : ℤ) : (r.accept b w p now).r.closed = r.closed := by
  have hout := accept_outcome r b w p now
  generalize r.accept b w p now = res at hout ⊢
  cases hout with
  | ignored | whole => rfl
  | first =>
    rw [(acceptFragment_sameBut _ _ _ _ _ _).closed]
    unfold makeRoom
    split_ifs
    · exact evictOldestLocked_closed _ _
    · rfl
  | mismatch => exact (sameBut_removeAssemblyLocked _ _ _).closed
  | further => exact (acceptFragment_sameBut _ _ _ _ _ _).closed

/-! ## The assembly of a datagram -/

/-- The payload takes `count` fragments. -/
structure HasFragments (payload : List UInt8) (count : ℕ) : Prop where
  size : payload.length ≤ fxpUDPMaxDatagramPayload
  one_le : 1 ≤ count
  count_le : count ≤ fxpUDPMaxFragments
  fits : payload.length ≤ count * fxpUDPFragmentPayloadSize
  full : 2 ≤ count → (count - 1) * fxpUDPFragmentPayloadSize < payload.length

/-- `p` carries fragment `i` of the datagram. -/
structure FxpUDPPacket.IsPiece (p : FxpUDPPacket) (sequence : UInt64) (payload : List UInt8)
    (count i : ℕ) : Prop where
  sequence : p.sequence = sequence
  fragment : p.fragment.toNat = i
  fragments : p.fragments.toNat = count
  payload : p.payload = piece fxpUDPFragmentPayloadSize payload i

/-- The assembly of a datagram after the fragments in `seen` have come. -/
def assemblyOf (payload : List UInt8) (count : ℕ) (seen : Finset ℕ) (createdAt : ℤ) :
    UdpFragmentAssembly where
  fragments := UInt8.ofNat count
  chunks := collected count (piece fxpUDPFragmentPayloadSize payload) seen
  received := seen.card
  total := ∑ i ∈ seen, (piece fxpUDPFragmentPayloadSize payload i).length
  createdAt := createdAt

section

variable {r b w p} {sequence : UInt64} {payload : List UInt8} {count i : ℕ} {seen : Finset ℕ}
  {createdAt : ℤ}

section

variable (hp : p.IsPiece sequence payload count i)

include hp

theorem fragments_eq : p.fragments = UInt8.ofNat count := by
  rw [← hp.fragments, UInt8.ofNat_toNat]

theorem assemblyOf_empty :
    (⟨p.fragments, List.replicate p.fragments.toNat none, 0, 0, createdAt⟩ : UdpFragmentAssembly)
      = assemblyOf payload count ∅ createdAt := by
  rw [assemblyOf, collected_empty, hp.fragments, fragments_eq hp]
  rfl

theorem assemblyOf_store (hnew : i ∉ seen) :
    (assemblyOf payload count seen createdAt).store p
      = assemblyOf payload count (insert i seen) createdAt := by
  unfold UdpFragmentAssembly.store assemblyOf
  dsimp only
  rw [hp.fragment, hp.payload, collected_set, Finset.card_insert_of_notMem hnew,
    Finset.sum_insert hnew, Nat.add_comm (∑ i ∈ seen, _)]

theorem acceptFragment_duplicate (hi : i < count) (hseen : i ∈ seen) (newAssembly : Bool) :
    r.acceptFragment b w p (assemblyOf payload count seen createdAt) newAssembly
      = ⟨r, b, w, none⟩ := by
  unfold acceptFragment
  rw [if_pos]
  rw [hp.fragment, assemblyOf, collected_getD _ _ hi, if_pos hseen]
  rfl

end

theorem acceptFragment_store (hd : HasFragments payload count)
    (hp : p.IsPiece sequence payload count i) (hi : i < count) (hsub : seen ⊆ Finset.range count)
    (hnew : i ∉ seen) (hpaid : (b.reserve? r.budget p.payload.length).2 = true) (newAssembly : Bool) :
    r.acceptFragment b w p (assemblyOf payload count seen createdAt) newAssembly
      = let r' : UdpFragmentReassembler := { r with
          pending := r.pending.insert sequence (assemblyOf payload count (insert i seen) createdAt) }
        let b' := (b.reserve? r.budget p.payload.length).1
        if insert i seen ≠ Finset.range count then ⟨r', b', w, none⟩
        else ⟨(r'.removeAssemblyLocked b' sequence).1, (r'.removeAssemblyLocked b' sequence).2,
          (w.accept sequence).1, if (w.accept sequence).2 then some payload else none⟩ := by
  have hsub' : insert i seen ⊆ Finset.range count :=
    Finset.insert_subset (Finset.mem_range.mpr hi) hsub
  have hempty : ¬ ((assemblyOf payload count seen createdAt).chunks.getD p.fragment.toNat
      none).isSome = true := by
    rw [hp.fragment, assemblyOf, collected_getD _ _ hi, if_neg hnew]
    exact Bool.false_ne_true
  -- distinct pieces of one datagram are never longer than the datagram
  have hsmall : ¬ (assemblyOf payload count seen createdAt).total + p.payload.length
      > fxpUDPMaxDatagramPayload := by
    have htotal := sum_length_pieces_le hd.fits hsub'
    rw [Finset.sum_insert hnew] at htotal
    have hsize := hd.size
    rw [hp.payload]
    show ¬ (∑ i ∈ seen, (piece fxpUDPFragmentPayloadSize payload i).length) + _ > _
    omega
  -- `received` reaches the count exactly when every piece is there
  have hcount : (assemblyOf payload count (insert i seen) createdAt).received
      = (assemblyOf payload count (insert i seen) createdAt).fragments.toNat ↔
      insert i seen = Finset.range count := by
    show (insert i seen).card = (UInt8.ofNat count).toNat ↔ _
    have hbyte : (UInt8.ofNat count).toNat = count := by
      rw [UInt8.toNat_ofNat', Nat.mod_eq_of_lt (lt_of_le_of_lt hd.count_le (by decide))]
    rw [hbyte]
    constructor
    · intro hcard
      exact Finset.eq_of_subset_of_card_le hsub' (by rw [Finset.card_range, hcard])
    · intro hall
      rw [hall, Finset.card_range]
  unfold acceptFragment
  dsimp only
  rw [if_neg hempty, if_neg hsmall, if_neg (by rw [hpaid]; decide), assemblyOf_store hp hnew,
    hp.sequence]
  by_cases hlast : insert i seen = Finset.range count
  · have hjoin : joinChunks (assemblyOf payload count (insert i seen) createdAt).total
        (assemblyOf payload count (insert i seen) createdAt).chunks = payload := by
      rw [joinChunks, assemblyOf, hlast, flatten_collected hd.fits, sum_length_pieces hd.fits,
        List.take_left]
    rw [if_neg (not_not.mpr hlast), if_neg (not_not.mpr (hcount.mpr hlast)), hjoin]
  · rw [if_pos hlast, if_pos (mt hcount.mp hlast)]

end

end ForwardX.Fxp
