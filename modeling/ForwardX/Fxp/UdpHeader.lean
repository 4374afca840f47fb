/-
The header of direct UDP read and written: `writeFXPUDPHeader` and `parseFXPUDPHeader` of
`forwardx-fxp/udp_direct.go`.
-/
import ForwardX.Fxp.UdpCodec

namespace ForwardX.Fxp

open BigEndian

/-- A packet comes back from its header, whatever follows it, but for its payload. -/
def HeaderRoundTrips (packet : FxpUDPPacket) : Prop :=
  ∃ header, writeFXPUDPHeader packet = .ok header ∧ ∀ rest : List UInt8, fxpUDPAuthTagSize ≤ rest.length →
    parseFXPUDPHeader (header ++ rest) = .ok { packet with payload := [] }

/-- What is read from a header is written back as it was. -/
def HeadersRewrite : Prop :=
  ∀ raw packet, parseFXPUDPHeader raw = .ok packet →
    writeFXPUDPHeader packet = .ok (raw.take fxpUDPHeaderSize)

/-! ## From bytes to bytes -/

variable {raw : List UInt8}

theorem take_eq_append_slice {i j : ℕ} (h : i ≤ j) :
    raw.take j = raw.take i ++ slice raw i j := by
  rw [slice, ← Nat.add_sub_of_le h, List.take_add, Nat.add_sub_cancel_left]

theorem putUint32_beNat {bs : List UInt8} (h : bs.length = 4) : putUint32 (beNat bs) = bs := by
  have hlt : beNat bs < 2 ^ 32 := by
    have hbound := beNat_lt bs
    rw [h] at hbound
    exact lt_of_lt_of_eq hbound (by norm_num)
  have hmod : ((beNat bs : ℤ) % 2 ^ 32).toNat = beNat bs := by omega
  rw [putUint32, hmod, ← h, beBytes_beNat]

theorem beBytes_ofNat_beNat {bs : List UInt8} (h : bs.length = 8) :
    beBytes 8 (UInt64.ofNat (beNat bs)).toNat = bs := by
  have hlt : beNat bs < 2 ^ 64 := by
    have hbound := beNat_lt bs
    rw [h] at hbound
    exact lt_of_lt_of_eq hbound (by norm_num)
  rw [UInt64.toNat_ofNat', Nat.mod_eq_of_lt hlt, ← h, beBytes_beNat]

theorem length_slice {i j : ℕ} (h : j ≤ raw.length) : (slice raw i j).length = j - i := by
  rw [slice, List.length_take, List.length_drop]
  omega

theorem slice_four_eight (h : 8 ≤ raw.length) :
    slice raw 4 8 = [raw.getD 4 0, raw.getD 5 0, raw.getD 6 0, raw.getD 7 0] := by
  rw [slice, List.drop_eq_getElem_cons (by omega), List.drop_eq_getElem_cons (by omega),
    List.drop_eq_getElem_cons (by omega), List.drop_eq_getElem_cons (by omega)]
  simp only [List.getD_eq_getElem?_getD, List.getElem?_eq_getElem (show 4 < raw.length by omega),
    List.getElem?_eq_getElem (show 5 < raw.length by omega), List.getElem?_eq_getElem (show 6 < raw.length by omega),
    List.getElem?_eq_getElem (show 7 < raw.length by omega), Option.getD_some]
  rfl

theorem write_parse : HeadersRewrite := by
  intro raw packet h
  unfold parseFXPUDPHeader at h
  by_cases hsize : raw.length < fxpUDPHeaderSize + fxpUDPAuthTagSize
  · rw [if_pos hsize] at h
    cases h
  rw [if_neg hsize] at h
  by_cases hmagic : fxpUDPHasMagic raw = false ∨ raw.getD 4 0 ≠ fxpUDPVersion
  · rw [if_pos hmagic] at h
    cases h
  rw [if_neg hmagic] at h
  rw [not_or, Bool.not_eq_false, not_not] at hmagic
  obtain ⟨hhas, hversion⟩ := hmagic
  rw [fxpUDPHasMagic, Bool.and_eq_true, decide_eq_true_eq, decide_eq_true_eq] at hhas
  have hlong : 32 ≤ raw.length := hhas.1
  dsimp only at h
  split at h
  · cases h
  · rename_i hvalid
    obtain rfl := Except.ok.inj h
    rw [writeFXPUDPHeader, hvalid]
    dsimp only
    rw [Except.ok.injEq, headerBytes]
    dsimp only
    -- the header in the runs of bytes that the reader looks at
    have hfirst : slice raw 4 8 = [fxpUDPVersion, raw.getD 5 0, raw.getD 6 0, raw.getD 7 0] := by
      rw [slice_four_eight (by omega), hversion]
    rw [putUint32_beNat (length_slice (by omega)), putUint32_beNat (length_slice (by omega)),
      beBytes_ofNat_beNat (length_slice (by omega)), beBytes_ofNat_beNat (length_slice (by omega)), ← hfirst, ← hhas.2,
      show fxpUDPHeaderSize = 32 from rfl, take_eq_append_slice (show 24 ≤ 32 by omega),
      take_eq_append_slice (show 16 ≤ 24 by omega), take_eq_append_slice (show 12 ≤ 16 by omega),
      take_eq_append_slice (show 8 ≤ 12 by omega), take_eq_append_slice (show 4 ≤ 8 by omega)]
    rfl

/-! ## From values to values -/

/-- **A packet comes back from its header exactly if its ids fit into four bytes**, and
what is read is always written back. -/
theorem header_round_trip_iff {packet : FxpUDPPacket} (h : validateFXPUDPPacket packet = .ok ()) :
    (HeaderRoundTrips packet ∧ HeadersRewrite) ↔ packet.tunnelID < 2 ^ 32 ∧ packet.ruleID < 2 ^ 32 := by
  have hwrite : writeFXPUDPHeader packet = .ok (headerBytes packet) := by rw [writeFXPUDPHeader, h]
  obtain ⟨-, htunnel, hrule, -⟩ := validateFXPUDPContext_ok.mp (validateFXPUDPPacket_ok.mp h).1
  constructor
  · rintro ⟨⟨header, hheader, hparse⟩, -⟩
    obtain rfl := Except.ok.inj (hwrite.symm.trans hheader)
    have hrest : fxpUDPAuthTagSize ≤ (List.replicate 16 (0 : UInt8)).length := le_rfl
    have hboth := (parse_header h hrest).symm.trans (hparse _ hrest)
    rw [Except.ok.injEq, FxpUDPPacket.onWire, FxpUDPPacket.mk.injEq] at hboth
    obtain ⟨-, ht, hr, -⟩ := hboth
    rw [← ht, ← hr]
    exact ⟨Int.emod_lt_of_pos _ (by norm_num), Int.emod_lt_of_pos _ (by norm_num)⟩
  · rintro ⟨ht, hr⟩
    refine ⟨⟨_, hwrite, fun rest hrest => ?_⟩, write_parse⟩
    rw [parse_header h hrest, FxpUDPPacket.onWire, Int.emod_eq_of_lt htunnel ht, Int.emod_eq_of_lt hrule hr]

def firstPacket (tunnelID ruleID : ℤ) : FxpUDPPacket := ⟨fxpUDPTypeData, tunnelID, ruleID, 1, 1, 0, 0, []⟩

theorem header_round_trip_seven_nine :
    validateFXPUDPPacket (firstPacket 7 9) = .ok () ∧ HeaderRoundTrips (firstPacket 7 9) :=
  have hvalid : validateFXPUDPPacket (firstPacket 7 9) = .ok () := rfl
  ⟨hvalid, ((header_round_trip_iff hvalid).mpr ⟨by decide, by decide⟩).1⟩

/-- **Two tunnels share a header**: `2 ^ 32 + 7` comes back as 7. -/
theorem header_shared_by_two_tunnels :
    writeFXPUDPHeader (firstPacket (2 ^ 32 + 7) 9) = writeFXPUDPHeader (firstPacket 7 9) ∧
      validateFXPUDPPacket (firstPacket (2 ^ 32 + 7) 9) = .ok () ∧
      ¬ HeaderRoundTrips (firstPacket (2 ^ 32 + 7) 9) := by
  refine ⟨by decide, by decide, ?_⟩
  rintro ⟨header, hheader, hparse⟩
  have hback := hparse (List.replicate 16 0) le_rfl
  obtain rfl := Except.ok.inj ((show writeFXPUDPHeader (firstPacket (2 ^ 32 + 7) 9)
    = .ok (headerBytes (firstPacket 7 9)) by decide).symm.trans hheader)
  exact absurd hback (by decide)

end ForwardX.Fxp
