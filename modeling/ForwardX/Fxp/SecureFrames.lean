/-
Reading frames from a `secureConn` of `forwardx-fxp/main.go`, against writing them.
-/
import ForwardX.Fxp.Handshake
import ForwardX.Lib.Chain
import Mathlib.Data.List.Infix

namespace ForwardX.Fxp.SecureFrames

open BigEndian List

/-! ## Reading -/

/-- `io.ReadFull`. A `Read` gives what is left of the first segment, and after the last one an error. -/
def readFullSegments : ℕ → List (List UInt8) → Option (List UInt8 × List (List UInt8))
  | 0, segments => some ([], segments)
  | _ + 1, [] => none
  | n + 1, segment :: segments =>
    if n + 1 ≤ segment.length then some (segment.take (n + 1), segment.drop (n + 1) :: segments)
    else
      (readFullSegments (n + 1 - segment.length) segments).map fun read => (segment ++ read.1, read.2)

/-- `readEncryptedFrame`: the connection, the segments that are left and the frame or the error. The
counter is consumed before the transport is touched. -/
def readEncryptedFrame (A : Aead) (c : SecureConn) (segments : List (List UInt8)) :
    SecureConn × List (List UInt8) × Except String (List UInt8) :=
  let counter := c.readCounter
  let c' := { c with readCounter := counter + 1 }
  match readFullSegments (4 + aeadOverhead) segments with
  | none => (c', [], .error "unexpected EOF")
  | some (lenCipher, segments) =>
    match c.decryptFrameLength A counter lenCipher with
    | .error err => (c', segments, .error err)
    | .ok n =>
      match readFullSegments (n + aeadOverhead) segments with
      | none => (c', [], .error "unexpected EOF")
      | some (dataCipher, segments) => (c', segments, c.decryptFrameData A counter dataCipher)

/-- The frames that calls of `readFrame` return, at most `calls` of them and none after an error. -/
def readFrames (A : Aead) : ℕ → SecureConn → List (List UInt8) → List (List UInt8)
  | 0, _, _ => []
  | calls + 1, c, segments =>
    match readEncryptedFrame A c segments with
    | (c', segments, .ok plain) => plain :: readFrames A calls c' segments
    | (_, _, .error _) => []

/-- What calls of `writeFrame` put on the wire. -/
def wire (A : Aead) : SecureConn → List FrameWrite → List UInt8
  | _, [] => []
  | c, w :: ws => (c.writeEncryptedFrame A w).wire ++ wire A (c.writeEncryptedFrame A w).conn ws

/-! ## The bytes decide -/

theorem readFullSegments_some (segments : List (List UInt8)) : ∀ n, n ≤ segments.flatten.length →
    ∃ rest, readFullSegments n segments = some (segments.flatten.take n, rest) ∧
      rest.flatten = segments.flatten.drop n := by
  induction segments with
  | nil =>
    intro n hn
    rw [flatten_nil, length_nil, Nat.le_zero] at hn
    rw [hn]
    exact ⟨[], rfl, rfl⟩
  | cons segment segments ih =>
    intro n hn
    rw [flatten_cons, length_append] at hn
    cases n with
    | zero => exact ⟨segment :: segments, rfl, rfl⟩
    | succ n =>
      rw [readFullSegments, flatten_cons]
      by_cases hfits : n + 1 ≤ segment.length
      · rw [if_pos hfits, take_append_of_le_length hfits, drop_append_of_le_length hfits]
        exact ⟨_, rfl, flatten_cons⟩
      · obtain ⟨rest, hread, hrest⟩ := ih (n + 1 - segment.length) (by omega)
        have hlong : segment.length ≤ n + 1 := by omega
        rw [if_neg hfits, hread, take_append, take_of_length_le hlong, drop_append,
          drop_eq_nil_of_le hlong, nil_append]
        exact ⟨rest, rfl, hrest⟩

theorem of_readFullSegments (segments : List (List UInt8)) : ∀ {n : ℕ} {bytes : List UInt8}
    {rest : List (List UInt8)}, readFullSegments n segments = some (bytes, rest) →
      segments.flatten = bytes ++ rest.flatten ∧ bytes.length = n := by
  induction segments with
  | nil =>
    intro n bytes rest h
    cases n with
    | zero =>
      cases h
      exact ⟨rfl, rfl⟩
    | succ n => cases h
  | cons segment segments ih =>
    intro n bytes rest h
    cases n with
    | zero =>
      cases h
      exact ⟨rfl, rfl⟩
    | succ n =>
      rw [readFullSegments] at h
      split at h
      · rename_i hfits
        cases h
        rw [flatten_cons, flatten_cons, ← append_assoc, take_append_drop, length_take]
        exact ⟨rfl, Nat.min_eq_left hfits⟩
      · rename_i hlong
        obtain ⟨⟨bytes', rest'⟩, hread, heq⟩ := Option.map_eq_some_iff.mp h
        cases heq
        obtain ⟨hflatten, hlength⟩ := ih hread
        rw [flatten_cons, hflatten, append_assoc, length_append, hlength]
        exact ⟨rfl, by omega⟩

theorem readFullSegments_append {segments : List (List UInt8)} {record tail : List UInt8} {n : ℕ}
    (hstream : segments.flatten = record ++ tail) (hlength : record.length = n) :
    ∃ rest, readFullSegments n segments = some (record, rest) ∧ rest.flatten = tail := by
  obtain ⟨rest, hread, hrest⟩ := readFullSegments_some segments n (by
    rw [hstream, length_append]
    omega)
  rw [hstream, ← hlength, take_left, drop_left] at *
  exact ⟨rest, hlength ▸ hread, hrest⟩

/-! ## The two ends -/

/-- The reading side of `r` belongs to the writing side of `c`. -/
structure Peer (c r : SecureConn) : Prop where
  lenAEAD : r.lenReadAEAD = c.lenWriteAEAD
  dataAEAD : r.dataReadAEAD = c.dataWriteAEAD
  lengthAD : r.lengthAD = c.lengthAD
  payloadAD : r.payloadAD = c.payloadAD
  dir : r.readDir = c.writeDir
  counter : r.readCounter = c.writeCounter

theorem Peer.next {c r : SecureConn} (h : Peer c r) :
    Peer { c with writeCounter := c.writeCounter + 1 } { r with readCounter := r.readCounter + 1 } :=
  ⟨h.lenAEAD, h.dataAEAD, h.lengthAD, h.payloadAD, h.dir, congrArg (· + 1) h.counter⟩

def lenRecord (A : Aead) (c : SecureConn) (plain : List UInt8) : List UInt8 :=
  A.Seal c.lenWriteAEAD (fillFXPNonce c.writeDir c.writeCounter 0) (lenPlain plain) c.lengthAD

def dataRecord (A : Aead) (c : SecureConn) (plain : List UInt8) : List UInt8 :=
  A.Seal c.dataWriteAEAD (fillFXPNonce c.writeDir c.writeCounter 1) plain c.payloadAD

theorem length_le_of_sent {w : FrameWrite} (hsent : w.sent = true) : w.plain.length ≤ fxpMaxFrame := by
  unfold FrameWrite.sent FrameWrite.sealsFrame at hsent
  rw [Bool.and_eq_true] at hsent
  exact of_decide_eq_true hsent.1

theorem sent_whole {plain : List UInt8} (hfits : plain.length ≤ fxpMaxFrame) :
    FrameWrite.sent ⟨plain, [(wireSize plain, false)]⟩ = true := by
  have hpos : 0 < wireSize plain := by
    unfold wireSize aeadOverhead
    omega
  unfold FrameWrite.sent FrameWrite.sealsFrame
  rw [decide_eq_true hfits, Bool.true_and, decide_eq_true_eq]
  rw [writeFull, if_pos hpos, if_neg Bool.false_ne_true, if_neg hpos.ne', writeFull, Nat.zero_add,
    if_neg (lt_irrefl _)]

theorem wire_of_sent (A : Aead) (c : SecureConn) {w : FrameWrite} (hsent : w.sent = true) :
    (c.writeEncryptedFrame A w).wire = lenRecord A c w.plain ++ dataRecord A c w.plain := by
  have hfits := length_le_of_sent hsent
  unfold FrameWrite.sent at hsent
  rw [Bool.and_eq_true, decide_eq_true_eq] at hsent
  unfold SecureConn.writeEncryptedFrame
  rw [if_neg (by omega)]
  dsimp only
  rw [seal_wire_length, hsent.2]
  dsimp only
  rw [if_neg Bool.false_ne_true, if_neg (fun h => h rfl)]
  rfl

theorem conn_of_sent (A : Aead) (c : SecureConn) {w : FrameWrite} (hsent : w.sent = true) :
    (c.writeEncryptedFrame A w).conn = { c with writeCounter := c.writeCounter + 1 } := by
  rw [writeEncryptedFrame_conn, if_pos hsent]

theorem beNat_lenPlain {plain : List UInt8} (hfits : plain.length ≤ fxpMaxFrame) :
    beNat (lenPlain plain) = plain.length := by
  refine beNat_beBytes_of_lt ?_
  unfold fxpMaxFrame at hfits
  omega

/-! ## The round trip -/

section

variable {A : Aead} {c r : SecureConn}

theorem decryptFrameLength_of_open (h : Peer c r) {plain lenCipher : List UInt8}
    (hfits : plain.length ≤ fxpMaxFrame)
    (hopen : A.Open c.lenWriteAEAD (fillFXPNonce c.writeDir c.writeCounter 0) lenCipher c.lengthAD =
      some (lenPlain plain)) :
    r.decryptFrameLength A r.readCounter lenCipher = .ok plain.length := by
  unfold SecureConn.decryptFrameLength
  rw [h.lenAEAD, h.dir, h.counter, h.lengthAD, hopen]
  dsimp only
  rw [if_neg (by rw [lenPlain, beBytes_length]; exact fun h => h rfl), beNat_lenPlain hfits,
    if_neg (not_lt.mpr hfits)]

theorem readEncryptedFrame_records (h : Peer c r) {plain tail : List UInt8} {segments : List (List UInt8)}
    (hfits : plain.length ≤ fxpMaxFrame)
    (hstream : segments.flatten = lenRecord A c plain ++ (dataRecord A c plain ++ tail)) :
    ∃ rest, readEncryptedFrame A r segments = ({ r with readCounter := r.readCounter + 1 }, rest, .ok plain) ∧
      rest.flatten = tail := by
  have hlen : (lenRecord A c plain).length = 4 + aeadOverhead := by
    rw [lenRecord, A.seal_length, lenPlain, beBytes_length]
  obtain ⟨rest, hread, hrest⟩ := readFullSegments_append hstream hlen
  have hdata : (dataRecord A c plain).length = plain.length + aeadOverhead := A.seal_length _ _ _ _
  obtain ⟨rest', hread', hrest'⟩ := readFullSegments_append hrest hdata
  have hopen : A.Open c.lenWriteAEAD (fillFXPNonce c.writeDir c.writeCounter 0) (lenRecord A c plain) c.lengthAD =
      some (lenPlain plain) := A.open_seal _ _ _ _
  refine ⟨rest', ?_, hrest'⟩
  unfold readEncryptedFrame
  dsimp only
  rw [hread]
  dsimp only
  rw [decryptFrameLength_of_open h hfits hopen]
  dsimp only
  rw [hread']
  dsimp only
  unfold SecureConn.decryptFrameData
  rw [h.dataAEAD, h.dir, h.counter, h.payloadAD, dataRecord, A.open_seal]

theorem readFrames_wire (ws : List FrameWrite) : ∀ {c r : SecureConn} {segments : List (List UInt8)} {calls : ℕ},
    Peer c r → (∀ w ∈ ws, w.sent = true) → segments.flatten = wire A c ws → ws.length ≤ calls →
      readFrames A calls r segments = ws.map fun w => w.plain := by
  induction ws with
  | nil =>
    intro c r segments calls hpeer _ hstream _
    cases calls with
    | zero => rfl
    | succ calls =>
      have hnone : readFullSegments (4 + aeadOverhead) segments = none := by
        cases hread : readFullSegments (4 + aeadOverhead) segments with
        | none => rfl
        | some read =>
          obtain ⟨hbytes, hlength⟩ := of_readFullSegments segments hread
          rw [hstream, wire] at hbytes
          have hempty := congrArg List.length hbytes
          rw [length_nil, length_append, hlength] at hempty
          omega
      rw [readFrames, readEncryptedFrame, hnone]
      rfl
  | cons w ws ih =>
    intro c r segments calls hpeer hsent hstream hcalls
    obtain ⟨calls, rfl⟩ : ∃ n, calls = n + 1 := ⟨calls - 1, by rw [length_cons] at hcalls; omega⟩
    have hw := hsent w mem_cons_self
    rw [wire, wire_of_sent A c hw, conn_of_sent A c hw, append_assoc] at hstream
    obtain ⟨rest, hread, hrest⟩ := readEncryptedFrame_records hpeer (length_le_of_sent hw) hstream
    rw [readFrames, hread, map_cons]
    dsimp only
    rw [ih hpeer.next (fun w' hw' => hsent w' (mem_cons_of_mem _ hw')) hrest (Nat.le_of_succ_le_succ hcalls)]

end

/-! ## Streams that were tampered with -/

/-- The cipher is ideal for a stream: of what is in it, under the nonce of position `i` only the payload
opens that was sealed for the frame at that position, and past the last frame nothing does. -/
def Ideal (A : Aead) (c : SecureConn) (ws : List FrameWrite) (stream : List UInt8) : Prop :=
  ∀ i ≤ ws.length, ∀ (sealed plain : List UInt8), sealed <:+: stream →
    A.Open c.dataWriteAEAD (fillFXPNonce c.writeDir (c.writeCounter + UInt64.ofNat i) 1) sealed c.payloadAD =
      some plain → ∃ w, ws[i]? = some w ∧ plain = w.plain

section

variable {A : Aead} {c r : SecureConn} {w : FrameWrite} {ws : List FrameWrite} {stream stream' : List UInt8}

theorem counter_next (c : SecureConn) (i : ℕ) :
    c.writeCounter + 1 + UInt64.ofNat i = c.writeCounter + UInt64.ofNat (i + 1) := by
  rw [Nat.add_comm i 1, UInt64.ofNat_add, UInt64.add_assoc]
  rfl

theorem Ideal.next (h : Ideal A c (w :: ws) stream) (hsuffix : stream' <:+ stream) :
    Ideal A { c with writeCounter := c.writeCounter + 1 } ws stream' := by
  intro i hi sealed plain hsub hopen
  dsimp only at hopen
  rw [counter_next] at hopen
  exact h (i + 1) (Nat.succ_le_succ hi) sealed plain (hsub.trans hsuffix.isInfix) hopen

theorem Ideal.first (h : Ideal A c ws stream) (sealed plain : List UInt8) (hsub : sealed <:+: stream)
    (hopen : A.Open c.dataWriteAEAD (fillFXPNonce c.writeDir c.writeCounter 1) sealed c.payloadAD = some plain) :
    ∃ w, ws[0]? = some w ∧ plain = w.plain := by
  have hcounter : c.writeCounter + UInt64.ofNat 0 = c.writeCounter := UInt64.add_zero _
  have hpayload := h 0 (Nat.zero_le _) sealed plain hsub
  rw [hcounter] at hpayload
  exact hpayload hopen

theorem readEncryptedFrame_ideal (hpeer : Peer c r) {segments rest : List (List UInt8)} {r' : SecureConn}
    {plain : List UInt8} (h : Ideal A c ws segments.flatten)
    (hread : readEncryptedFrame A r segments = (r', rest, .ok plain)) :
    ∃ w, ws[0]? = some w ∧ plain = w.plain ∧ r' = { r with readCounter := r.readCounter + 1 } ∧
      rest.flatten <:+ segments.flatten := by
  unfold readEncryptedFrame at hread
  dsimp only at hread
  split at hread
  · cases hread
  · rename_i lenCipher segments' hlen
    split at hread
    · cases hread
    · split at hread
      · cases hread
      · rename_i dataCipher segments'' hdata
        obtain ⟨rfl, rfl, hplain⟩ : { r with readCounter := r.readCounter + 1 } = r' ∧ segments'' = rest ∧
            r.decryptFrameData A r.readCounter dataCipher = .ok plain := by
          simpa only [Prod.mk.injEq] using hread
        have hstream : segments.flatten = lenCipher ++ (dataCipher ++ segments''.flatten) := by
          rw [(of_readFullSegments _ hlen).1, (of_readFullSegments _ hdata).1]
        unfold SecureConn.decryptFrameData at hplain
        rw [hpeer.dataAEAD, hpeer.dir, hpeer.counter, hpeer.payloadAD] at hplain
        split at hplain
        · cases hplain
        · rename_i plain' hopen
          cases hplain
          obtain ⟨w, hw, heq⟩ := h.first dataCipher plain ⟨lenCipher, segments''.flatten, by
            rw [hstream, append_assoc]⟩ hopen
          refine ⟨w, hw, heq, rfl, ?_⟩
          rw [hstream, ← append_assoc]
          exact suffix_append _ _

theorem readFrames_ideal (calls : ℕ) : ∀ {c r : SecureConn} {ws : List FrameWrite} {segments : List (List UInt8)},
    Peer c r → Ideal A c ws segments.flatten →
      readFrames A calls r segments <+: ws.map fun w => w.plain := by
  induction calls with
  | zero => intro c r ws segments _ _; exact nil_prefix
  | succ calls ih =>
    intro c r ws segments hpeer hideal
    rw [readFrames]
    split
    · rename_i r' rest plain hread
      obtain ⟨w, hw, rfl, rfl, hsuffix⟩ := readEncryptedFrame_ideal hpeer hideal hread
      cases ws with
      | nil => cases hw
      | cons first ws =>
        obtain rfl := Option.some.inj hw
        rw [map_cons, prefix_cons_inj]
        exact ih hpeer.next (hideal.next hsuffix)
    · exact nil_prefix

end

/-! ## Both -/

/-- **Secure framing.** Frames that were written are read back, whatever segments the transport makes of
the stream. -/
theorem frames_round_trip (A : Aead) {c r : SecureConn} (hpeer : Peer c r) (ws : List FrameWrite)
    (hsent : ∀ w ∈ ws, w.sent = true) :
    (∀ segments calls, segments.flatten = wire A c ws → ws.length ≤ calls →
      readFrames A calls r segments = ws.map fun w => w.plain) ∧
    ∀ segments calls, Ideal A c ws segments.flatten →
      readFrames A calls r segments <+: ws.map fun w => w.plain :=
  ⟨fun _ _ hstream hcalls => readFrames_wire ws hpeer hsent hstream hcalls,
    fun _ calls hideal => readFrames_ideal calls hpeer hideal⟩

/-- A cipher whose tag has the length of the plaintext and the nonce. -/
def nonceTag (nonce : List UInt8) (length : ℕ) : List UInt8 :=
  (beBytes 4 length ++ nonce ++ List.replicate aeadOverhead 0).take aeadOverhead

theorem nonceTag_length (nonce : List UInt8) (length : ℕ) : (nonceTag nonce length).length = aeadOverhead := by
  rw [nonceTag, length_take, length_append, length_replicate]
  omega

def nonceAead : Aead where
  Seal _ nonce plain _ := plain ++ nonceTag nonce plain.length
  Open _ nonce sealed _ :=
    if sealed.drop (sealed.length - aeadOverhead) = nonceTag nonce (sealed.length - aeadOverhead) then
      some (sealed.take (sealed.length - aeadOverhead))
    else none
  open_seal := by
    intro key nonce plain ad
    have hlength : (plain ++ nonceTag nonce plain.length).length - aeadOverhead = plain.length := by
      rw [List.length_append, nonceTag_length, Nat.add_sub_cancel]
    rw [hlength, List.drop_left, List.take_left, if_pos rfl]
  seal_length := by
    intro key nonce plain ad
    rw [List.length_append, nonceTag_length]

/-- The other end of `freshEntryConn`. -/
def freshExitConn : SecureConn where
  lenWriteAEAD := [3]
  dataWriteAEAD := [4]
  lenReadAEAD := [1]
  dataReadAEAD := [2]
  lengthAD := []
  payloadAD := []
  writeDir := fxpExitToEntry
  readDir := fxpEntryToExit
  writeCounter := 0
  readCounter := 0

def oneFrame : List FrameWrite := [⟨[7], [(wireSize [7], false)]⟩]

theorem oneFrame_sent : ∀ w ∈ oneFrame, w.sent = true := by
  intro w hw
  rw [oneFrame, mem_singleton] at hw
  rw [hw]
  exact sent_whole (by decide)

theorem ideal_of_tails {A : Aead} {c : SecureConn} {ws : List FrameWrite} {stream : List UInt8}
    (h : ∀ i < ws.length + 1, ∀ tail ∈ stream.tails, ∀ sealed ∈ tail.inits,
      (A.Open c.dataWriteAEAD (fillFXPNonce c.writeDir (c.writeCounter + UInt64.ofNat i) 1) sealed
        c.payloadAD).all (fun plain => ws[i]?.any fun w => plain == w.plain) = true) : Ideal A c ws stream := by
  intro i hi sealed plain hsub hopen
  obtain ⟨tail, hprefix, hsuffix⟩ := infix_iff_prefix_suffix.mp hsub
  have hall := h i (Nat.lt_succ_of_le hi) tail ((mem_tails _ _).mpr hsuffix) sealed ((mem_inits _ _).mpr hprefix)
  rw [hopen, Option.all_some] at hall
  obtain ⟨w, hw, heq⟩ := (Option.any_eq_true _ _).mp hall
  exact ⟨w, hw, beq_iff_eq.mp heq⟩

/-- Whole in three segments, and without its last seven bytes. -/
theorem frames_round_trip_one :
    readFrames nonceAead 2 freshExitConn
        [(wire nonceAead freshEntryConn oneFrame).take 5, [],
          (wire nonceAead freshEntryConn oneFrame).drop 5] = [[7]] ∧
      readFrames nonceAead 2 freshExitConn [(wire nonceAead freshEntryConn oneFrame).take 30] <+: [[7]] := by
  have htrip := frames_round_trip nonceAead (c := freshEntryConn) (r := freshExitConn)
    ⟨rfl, rfl, rfl, rfl, rfl, rfl⟩ oneFrame oneFrame_sent
  exact ⟨htrip.1 _ 2 (by decide +kernel) (by decide), htrip.2 _ 2 (ideal_of_tails (by decide +kernel))⟩

end ForwardX.Fxp.SecureFrames
