/-
`fxpUDPQueue` as it is stored: the ring buffer of `forwardx-fxp/udp_tuning.go`, and its wake-up
channel.

The ring is related to the list of its packets, and every operation to one on the list. The history
of a run is kept beside the queue, so that order and losses are statements about what was accepted
and handed out.
-/
import ForwardX.Lib.Run
import ForwardX.Lib.RingBuffer
import ForwardX.Fxp.UdpQueue

namespace ForwardX.Fxp

open Run RingBuffer List

/-! ## The ring -/

/-- `fxpUDPQueue`; `ready` is whether the channel holds a token. -/
structure FxpUDPRing (τ : Type) (cap : ℕ) where
  packets : Fin cap → FxpUDPQueuedPacket τ
  head : Fin cap
  size : ℕ
  queuedBytes : ℤ
  maxBytes : ℕ
  budget : Option ℕ
  closed : Bool
  ready : Bool

def ringCapacity (maxPackets : ℤ) : ℕ := if maxPackets ≤ 0 then 1 else maxPackets.toNat

instance (maxPackets : ℤ) : NeZero (ringCapacity maxPackets) := ⟨by
  unfold ringCapacity
  split <;> omega⟩

namespace FxpUDPRing

variable {τ : Type} [Inhabited τ] {cap : ℕ} [NeZero cap]

def zeroPacket : FxpUDPQueuedPacket τ := ⟨[], 0, default⟩

def new (cap : ℕ) [NeZero cap] (maxBytes : ℤ) (budget : Option ℕ) : FxpUDPRing τ cap where
  packets := fun _ => zeroPacket
  head := 0
  size := 0
  queuedBytes := 0
  maxBytes := if maxBytes ≤ 0 then 1 else maxBytes.toNat
  budget := budget
  closed := false
  ready := false

/-- The state after `popOldestLocked(false)`. -/
def popOldest (q : FxpUDPRing τ cap) : FxpUDPRing τ cap :=
  let packet := q.packets q.head
  let queuedBytes := q.queuedBytes - packet.payload.length
  { q with
    packets := Function.update q.packets q.head zeroPacket
    head := slotAt q.head 1
    size := q.size - 1
    queuedBytes := if queuedBytes < 0 then 0 else queuedBytes }

def signal (q : FxpUDPRing τ cap) : FxpUDPRing τ cap :=
  if q.size = 0 then q else { q with ready := true }

/-- The first loop of `enqueue`, with `remainingPackets` and `remainingBytes` at its head: how many
more packets are to go, their bytes, and what remains of both. -/
def dropLoop (q : FxpUDPRing τ cap) (packetBytes : ℕ) : ℕ → ℕ → ℤ → ℕ × ℤ × ℕ × ℤ
  | 0, _, remainingBytes => (0, 0, 0, remainingBytes)
  | remainingPackets + 1, dropCount, remainingBytes =>
    if remainingPackets + 1 ≥ cap ∨ remainingBytes + packetBytes > q.maxBytes then
      let bytes := (q.packets (slotAt q.head dropCount)).payload.length
      let (more, releaseBytes, rest) :=
        q.dropLoop packetBytes remainingPackets (dropCount + 1) (remainingBytes - bytes)
      (more + 1, releaseBytes + bytes, rest)
    else (0, 0, remainingPackets + 1, remainingBytes)

/-- What `enqueue` decides before it changes anything: the packets to drop and the budgets after
the exchange, or nothing if it refuses. -/
def admission (q : FxpUDPRing τ cap) (b : Budgets) (packetBytes : ℕ) : Option (ℕ × Budgets) :=
  if q.closed then none
  else if packetBytes > q.maxBytes then none
  else
    let (dropCount, releaseBytes, remainingPackets, remainingBytes) :=
      q.dropLoop packetBytes q.size 0 q.queuedBytes
    if remainingPackets ≥ cap ∨ remainingBytes + packetBytes > q.maxBytes then none
    else
      let (b, admitted) := b.replace? q.budget releaseBytes packetBytes
      if admitted = false then none else some (dropCount, b)

/-- The new packet in the slot behind the others. -/
def push (q : FxpUDPRing τ cap) (packet : FxpUDPQueuedPacket τ) : FxpUDPRing τ cap :=
  { q with
    packets := Function.update q.packets (slotAt q.head q.size) packet
    size := q.size + 1
    queuedBytes := q.queuedBytes + packet.payload.length }

def enqueue (q : FxpUDPRing τ cap) (b : Budgets) (payload : List UInt8) (tag : τ) (now : ℤ) :
    FxpUDPRing τ cap × Budgets × Bool :=
  match q.admission b payload.length with
  | none => (q, b, true)
  | some (dropCount, b) =>
    (((popOldest^[dropCount] q).push ⟨payload, now, tag⟩).signal, b, decide (dropCount > 0))

/-- The locked part of `nextTracked`: a packet, or none and the consumer goes on waiting. -/
def nextTracked (q : FxpUDPRing τ cap) : Option (FxpUDPQueuedPacket τ × FxpUDPRing τ cap) :=
  if q.size = 0 then none else some (q.packets q.head, q.popOldest.signal)

def dropOldest (s : FxpUDPRing τ cap × Budgets) : FxpUDPRing τ cap × Budgets :=
  (s.1.popOldest, s.2.release? s.1.budget (s.1.packets s.1.head).payload.length)

/-- The loop of `clear` and `close`, and the token taken back. -/
def dropAll (q : FxpUDPRing τ cap) (b : Budgets) : FxpUDPRing τ cap × Budgets :=
  let s := dropOldest^[q.size] (q, b)
  ({ s.1 with ready := false }, s.2)

def clear (q : FxpUDPRing τ cap) (b : Budgets) : FxpUDPRing τ cap × Budgets := q.dropAll b

def close (q : FxpUDPRing τ cap) (b : Budgets) : FxpUDPRing τ cap × Budgets :=
  { q with closed := true }.dropAll b

/-! ## The ring as a list -/

def contents (q : FxpUDPRing τ cap) : List (FxpUDPQueuedPacket τ) := window q.packets q.head q.size

def toQueue (q : FxpUDPRing τ cap) : FxpUDPQueue τ :=
  ⟨q.contents, cap, q.queuedBytes, q.maxBytes, q.budget, q.closed⟩

variable {q : FxpUDPRing τ cap}

omit [Inhabited τ] in
@[simp] theorem length_contents : q.contents.length = q.size := length_window

@[simp] theorem size_popOldest : q.popOldest.size = q.size - 1 := rfl

theorem contents_eq_cons (hpos : 0 < q.size) (hcap : q.size ≤ cap) :
    q.contents = q.packets q.head :: q.popOldest.contents := by
  obtain ⟨n, hn⟩ := Nat.exists_eq_add_of_lt hpos
  rw [Nat.zero_add] at hn
  have hpop : q.popOldest.contents = window q.packets (slotAt q.head 1) n := by
    show window (Function.update q.packets q.head zeroPacket) (slotAt q.head 1) (q.size - 1) = _
    rw [hn, Nat.add_sub_cancel]
    exact window_pop (by omega)
  rw [contents, hn, window_succ, hpop]

theorem toQueue_popOldest (hpos : 0 < q.size) (hcap : q.size ≤ cap) :
    q.popOldest.toQueue = q.toQueue.popOldest := by
  unfold FxpUDPQueue.popOldest
  have hcontents : q.toQueue.packets = q.packets q.head :: q.popOldest.contents :=
    contents_eq_cons hpos hcap
  rw [hcontents]
  rfl

theorem iterate_popOldest {n : ℕ} (hn : n ≤ q.size) (hcap : q.size ≤ cap) :
    (popOldest^[n] q).toQueue = FxpUDPQueue.popOldest^[n] q.toQueue ∧
      (popOldest^[n] q).size = q.size - n := by
  induction n with
  | zero => exact ⟨rfl, rfl⟩
  | succ n ih =>
    obtain ⟨hqueue, hsize⟩ := ih (by omega)
    rw [Function.iterate_succ_apply', Function.iterate_succ_apply', ← hqueue]
    refine ⟨toQueue_popOldest (by omega) (by omega), ?_⟩
    rw [size_popOldest, hsize, Nat.sub_sub]

omit [Inhabited τ] in
theorem toQueue_signal (q : FxpUDPRing τ cap) : q.signal.toQueue = q.toQueue := by
  unfold signal
  split <;> rfl

omit [Inhabited τ] in
theorem toQueue_push {packet : FxpUDPQueuedPacket τ} (h : q.size < cap) :
    (q.push packet).toQueue = { q.toQueue with
      packets := q.contents ++ [packet]
      queuedBytes := q.queuedBytes + packet.payload.length } := by
  have hcontents : (q.push packet).contents = q.contents ++ [packet] := window_push h
  unfold toQueue
  rw [hcontents]
  rfl

omit [Inhabited τ] in
theorem dropLoop_eq (q : FxpUDPRing τ cap) (packetBytes : ℕ) (remaining dropCount : ℕ) (remainingBytes : ℤ) :
    q.dropLoop packetBytes remaining dropCount remainingBytes =
      let plan := dropPlan cap q.maxBytes packetBytes
        (window q.packets (slotAt q.head dropCount) remaining) remainingBytes
      (plan.1, plan.2.1, remaining - plan.1, plan.2.2) := by
  induction remaining generalizing dropCount remainingBytes with
  | zero => rfl
  | succ remaining ih =>
    rw [window_succ, slotAt_slotAt]
    unfold dropLoop dropPlan
    rw [length_cons, length_window]
    by_cases hfull : remaining + 1 ≥ cap ∨ remainingBytes + packetBytes > q.maxBytes
    · rw [if_pos hfull, if_pos hfull]
      dsimp only
      rw [ih]
      simp only [Nat.add_sub_add_right]
    · rw [if_neg hfull, if_neg hfull]
      rfl

end FxpUDPRing

/-! ## What `enqueue` decides -/

section

variable {τ : Type}

/-- The decision of `enqueue` on the list. -/
def FxpUDPQueue.admission (q : FxpUDPQueue τ) (b : Budgets) (packetBytes : ℕ) : Option (ℕ × Budgets) :=
  if q.closed then none
  else if packetBytes > q.maxBytes then none
  else
    let (dropCount, releaseBytes, remainingBytes) :=
      dropPlan q.capacity q.maxBytes packetBytes q.packets q.queuedBytes
    if q.packets.length - dropCount ≥ q.capacity ∨ remainingBytes + packetBytes > q.maxBytes then none
    else
      let (b, admitted) := b.replace? q.budget releaseBytes packetBytes
      if admitted = false then none else some (dropCount, b)

/-- The queue with its oldest packets dropped and a new one at the end. -/
def FxpUDPQueue.accept (q : FxpUDPQueue τ) (dropCount : ℕ) (packet : FxpUDPQueuedPacket τ) : FxpUDPQueue τ :=
  let q := FxpUDPQueue.popOldest^[dropCount] q
  { q with packets := q.packets ++ [packet], queuedBytes := q.queuedBytes + packet.payload.length }

theorem Budgets.replace?_refused {b : Budgets} {rule : Option ℕ} {releaseBytes reserveBytes : ℤ}
    (h : (b.replace? rule releaseBytes reserveBytes).2 = false) :
    (b.replace? rule releaseBytes reserveBytes).1 = b := by
  cases rule with
  | none => cases h
  | some rule =>
    unfold Budgets.replace? Budgets.replace at h ⊢
    dsimp only at h ⊢
    split at h
    · rfl
    · split_ifs at h ⊢ <;> rfl

theorem FxpUDPQueue.enqueue_eq (q : FxpUDPQueue τ) (b : Budgets) (payload : List UInt8) (tag : τ)
    (now : ℤ) : q.enqueue b payload tag now =
      match q.admission b payload.length with
      | none => (q, b, true)
      | some (dropCount, b) => (q.accept dropCount ⟨payload, now, tag⟩, b, decide (dropCount > 0)) := by
  unfold FxpUDPQueue.enqueue FxpUDPQueue.admission
  dsimp only
  split_ifs with hclosed hbig hroom hrefused
  · rfl
  · rfl
  · rfl
  · rw [Budgets.replace?_refused hrefused]
  · rfl

def Fits (capacity maxBytes packetBytes : ℕ) (ps : List (FxpUDPQueuedPacket τ)) : Prop :=
  ps.length < capacity ∧ heldBytes ps + packetBytes ≤ maxBytes

/-- The least number of packets to drop so that one of this size fits. -/
def LeastDrop (capacity maxBytes packetBytes : ℕ) (ps : List (FxpUDPQueuedPacket τ)) (n : ℕ) : Prop :=
  n ≤ ps.length ∧ Fits capacity maxBytes packetBytes (ps.drop n) ∧
    ∀ m < n, ¬Fits capacity maxBytes packetBytes (ps.drop m)

theorem dropPlan_least {capacity maxBytes packetBytes : ℕ} (hcapacity : 0 < capacity)
    (hsize : packetBytes ≤ maxBytes) (ps : List (FxpUDPQueuedPacket τ)) :
    ∃ n, LeastDrop capacity maxBytes packetBytes ps n ∧
      dropPlan capacity maxBytes packetBytes ps (heldBytes ps)
        = (n, (heldBytes (ps.take n) : ℤ), (heldBytes (ps.drop n) : ℤ)) := by
  induction ps with
  | nil =>
    refine ⟨0, ⟨le_refl 0, ⟨hcapacity, ?_⟩, fun _ hm => absurd hm (Nat.not_lt_zero _)⟩, rfl⟩
    rw [drop_nil, heldBytes, map_nil, sum_nil, Nat.zero_add]
    exact hsize
  | cons p ps ih =>
    unfold dropPlan
    by_cases hfull : (p :: ps).length ≥ capacity ∨
        ((heldBytes (p :: ps) : ℕ) : ℤ) + packetBytes > maxBytes
    · obtain ⟨n, ⟨hn, hfits, hleast⟩, hplan⟩ := ih
      have hrest : ((heldBytes (p :: ps) : ℕ) : ℤ) - p.payload.length = heldBytes ps := by
        rw [heldBytes_cons]
        push_cast
        ring
      rw [if_pos hfull, hrest, hplan]
      refine ⟨n + 1, ⟨Nat.succ_le_succ hn, hfits, fun m hm hbad => ?_⟩, ?_⟩
      · cases m with
        | zero =>
          obtain ⟨hlength, hbytes⟩ := hbad
          rw [drop_zero] at hlength hbytes
          omega
        | succ m => exact hleast m (by omega) hbad
      · rw [take_succ_cons, heldBytes_cons, drop_succ_cons]
        push_cast
        exact Prod.ext rfl (Prod.ext (add_comm _ _) rfl)
    · rw [if_neg hfull]
      refine ⟨0, ⟨Nat.zero_le _, ?_, fun _ hm => absurd hm (Nat.not_lt_zero _)⟩, rfl⟩
      rw [drop_zero]
      exact ⟨by omega, by omega⟩

variable {q : FxpUDPQueue τ}

/-- **A bounded queue**: a packet is refused when the queue is closed, when it could never fit, or when
the budget does not grant the exchange. -/
theorem FxpUDPQueue.admission_spec (hq : q.Ok) (hcapacity : 0 < q.capacity)
    (b : Budgets) (packetBytes : ℕ) :
    (q.admission b packetBytes = none ∧ (q.closed = true ∨ packetBytes > q.maxBytes ∨
      ∃ n, LeastDrop q.capacity q.maxBytes packetBytes q.packets n ∧
        (b.replace? q.budget (heldBytes (q.packets.take n) : ℕ) packetBytes).2 = false)) ∨
    (∃ n, LeastDrop q.capacity q.maxBytes packetBytes q.packets n ∧
      q.closed = false ∧
      q.admission b packetBytes
        = some (n, (b.replace? q.budget (heldBytes (q.packets.take n) : ℕ) packetBytes).1)) := by
  unfold FxpUDPQueue.admission
  by_cases hclosed : q.closed = true
  · exact .inl ⟨if_pos hclosed, .inl hclosed⟩
  rw [if_neg hclosed]
  by_cases hbig : packetBytes > q.maxBytes
  · exact .inl ⟨if_pos hbig, .inr (.inl hbig)⟩
  rw [if_neg hbig]
  obtain ⟨n, hleast, hplan⟩ := dropPlan_least hcapacity (Nat.le_of_not_gt hbig) q.packets
  rw [hq.counted, hplan]
  dsimp only
  have hroom : ¬(q.packets.length - n ≥ q.capacity ∨
      ((heldBytes (q.packets.drop n) : ℕ) : ℤ) + packetBytes > q.maxBytes) := by
    obtain ⟨hlength, hbytes⟩ := hleast.2.1
    rw [length_drop] at hlength
    omega
  rw [if_neg hroom]
  by_cases hgranted : (b.replace? q.budget (heldBytes (q.packets.take n) : ℕ) packetBytes).2 = false
  · exact .inl ⟨if_pos hgranted, .inr (.inr ⟨n, hleast, hgranted⟩)⟩
  · exact .inr ⟨n, hleast, Bool.eq_false_iff.mpr hclosed, if_neg hgranted⟩

theorem FxpUDPQueue.accept_packets (q : FxpUDPQueue τ) (n : ℕ) (packet : FxpUDPQueuedPacket τ) :
    (q.accept n packet).packets = q.packets.drop n ++ [packet] := by
  unfold FxpUDPQueue.accept
  dsimp only
  rw [popOldest_iterate_packets]

theorem FxpUDPQueue.accept_ok (hq : q.Ok) (hopen : q.closed = false) (n : ℕ)
    (packet : FxpUDPQueuedPacket τ) : (q.accept n packet).Ok := by
  unfold FxpUDPQueue.accept
  rw [popOldest_iterate n hq.counted]
  refine ⟨?_, fun hclosed => ?_⟩
  · show ((heldBytes (q.packets.drop n) : ℕ) : ℤ) + packet.payload.length
      = heldBytes (q.packets.drop n ++ [packet])
    rw [heldBytes_append, heldBytes_cons]
    push_cast
    rfl
  · have hbad : q.closed = true := hclosed
    rw [hopen] at hbad
    cases hbad

theorem FxpUDPQueue.dropAll_ok (hq : q.queuedBytes = heldBytes q.packets)
    (b : Budgets) : (q.dropAll b).1.Ok := by
  unfold FxpUDPQueue.dropAll
  rw [popOldest_iterate _ hq]
  exact ⟨rfl, fun _ => drop_length⟩

end

namespace FxpUDPRing

variable {τ : Type} [Inhabited τ] {cap : ℕ} [NeZero cap] {q : FxpUDPRing τ cap}

omit [Inhabited τ] in
theorem admission_eq (q : FxpUDPRing τ cap) (b : Budgets) (packetBytes : ℕ) :
    q.admission b packetBytes = q.toQueue.admission b packetBytes := by
  unfold admission FxpUDPQueue.admission
  rw [dropLoop_eq, slotAt_zero]
  have hlength : q.toQueue.packets.length = q.size := length_contents
  rw [hlength]
  rfl

theorem toQueue_enqueue (hcap : q.size ≤ cap) (b : Budgets) (payload : List UInt8) (tag : τ)
    (now : ℤ) (hq : q.toQueue.Ok) :
    (q.enqueue b payload tag now).1.toQueue = (q.toQueue.enqueue b payload tag now).1 ∧
      (q.enqueue b payload tag now).2 = (q.toQueue.enqueue b payload tag now).2 ∧
      (q.enqueue b payload tag now).1.size ≤ cap := by
  rw [FxpUDPQueue.enqueue_eq, enqueue, admission_eq]
  obtain ⟨hnone, -⟩ | ⟨n, ⟨hn, hfits, -⟩, -, hsome⟩ :=
    FxpUDPQueue.admission_spec hq (Nat.pos_of_neZero cap) b payload.length
  · rw [hnone]
    exact ⟨rfl, rfl, hcap⟩
  · rw [hsome]
    dsimp only
    have hn' : n ≤ q.size := hn.trans_eq length_contents
    obtain ⟨hqueue, hsize⟩ := iterate_popOldest hn' hcap
    have hroom : (popOldest^[n] q).size < cap := by
      have hlength := hfits.1
      rw [length_drop] at hlength
      have hlength' : q.toQueue.packets.length = q.size := length_contents
      rw [hsize, ← hlength']
      exact hlength
    refine ⟨?_, rfl, ?_⟩
    · rw [toQueue_signal, toQueue_push hroom, hqueue, FxpUDPQueue.accept, ← hqueue]
      rfl
    · unfold signal
      split <;> exact hroom

omit [Inhabited τ] [NeZero cap] in
theorem size_signal (q : FxpUDPRing τ cap) : q.signal.size = q.size := by
  unfold signal
  split <;> rfl

omit [Inhabited τ] [NeZero cap] in
theorem ready_signal (h : q.size ≠ 0) : q.signal.ready = true := by
  rw [signal, if_neg h]

theorem toQueue_nextTracked (hcap : q.size ≤ cap) :
    (q.nextTracked = none ∧ q.contents = []) ∨
      ∃ p q', q.nextTracked = some (p, q') ∧ q.toQueue.nextTracked = some (p, q'.toQueue) ∧
        q.contents = p :: q'.contents ∧ q'.size ≤ cap ∧ q' = q.popOldest.signal := by
  unfold nextTracked
  by_cases hempty : q.size = 0
  · refine .inl ⟨if_pos hempty, ?_⟩
    rw [contents, hempty, window_zero]
  · rw [if_neg hempty]
    have hpos : 0 < q.size := Nat.pos_of_ne_zero hempty
    have hcons := contents_eq_cons hpos hcap
    have hsignal : q.popOldest.signal.contents = q.popOldest.contents :=
      congrArg FxpUDPQueue.packets (toQueue_signal q.popOldest)
    refine .inr ⟨_, _, rfl, ?_, ?_, ?_, rfl⟩
    · rw [toQueue_signal, toQueue_popOldest hpos hcap]
      unfold FxpUDPQueue.nextTracked
      rw [show q.toQueue.packets = _ from hcons]
    · rw [hsignal]
      exact hcons
    · rw [size_signal, size_popOldest]
      omega

theorem iterate_dropOldest {n : ℕ} (hn : n ≤ q.size) (hcap : q.size ≤ cap) (b : Budgets) :
    dropOldest^[n] (q, b) = (popOldest^[n] q,
      b.releaseAll q.budget ((q.contents.take n).map fun p => p.payload.length)) := by
  induction n generalizing q b with
  | zero => rfl
  | succ n ih =>
    rw [Function.iterate_succ_apply, Function.iterate_succ_apply, dropOldest]
    dsimp only
    rw [ih (by rw [size_popOldest]; omega) (by rw [size_popOldest]; omega),
      contents_eq_cons (by omega) hcap, take_succ_cons, map_cons]
    rfl

theorem toQueue_dropAll (hcap : q.size ≤ cap) (b : Budgets) :
    (q.dropAll b).1.toQueue = (q.toQueue.dropAll b).1 ∧
      (q.dropAll b).2 = (q.toQueue.dropAll b).2 ∧ (q.dropAll b).1.size = 0 := by
  unfold dropAll FxpUDPQueue.dropAll
  obtain ⟨hqueue, hsize⟩ := iterate_popOldest (le_refl q.size) hcap
  have hlength : q.toQueue.packets.length = q.size := length_contents
  rw [iterate_dropOldest (le_refl _) hcap, hlength, ← hqueue]
  refine ⟨rfl, ?_, hsize.trans (Nat.sub_self _)⟩
  dsimp only
  rw [← length_contents (q := q), take_length]
  rfl

end FxpUDPRing

/-! ## Runs -/

/-- A queue with its consumers, the packets it has accepted and those it has handed out. -/
structure QueueWorld (ι τ : Type) (cap : ℕ) where
  queue : FxpUDPRing τ cap
  /-- The consumer has taken the token and not yet locked the queue. -/
  awake : ι → Bool
  accepted : List (FxpUDPQueuedPacket τ)
  delivered : List (FxpUDPQueuedPacket τ)

inductive QueueEvent (ι τ : Type) where
  /-- `enqueue`, with the budgets as they are then. -/
  | enqueue (b : Budgets) (payload : List UInt8) (tag : τ) (now : ℤ)
  /-- A consumer in `nextTracked` receives the token. -/
  | wake (c : ι)
  /-- It locks the queue and takes a packet, or finds none and waits again. -/
  | next (c : ι)
  | clear (b : Budgets)
  | close (b : Budgets)

namespace QueueWorld

variable {ι τ : Type} [DecidableEq ι] [Inhabited τ] {cap : ℕ} [NeZero cap]

def new (cap : ℕ) [NeZero cap] (maxBytes : ℤ) (budget : Option ℕ) : QueueWorld ι τ cap :=
  ⟨FxpUDPRing.new cap maxBytes budget, fun _ => false, [], []⟩

def step (w : QueueWorld ι τ cap) : QueueEvent ι τ → QueueWorld ι τ cap
  | .enqueue b payload tag now =>
    { w with
      queue := (w.queue.enqueue b payload tag now).1
      accepted := if (w.queue.admission b payload.length).isSome
        then w.accepted ++ [⟨payload, now, tag⟩] else w.accepted }
  | .wake c =>
    if w.queue.ready && !w.awake c then
      { w with queue := { w.queue with ready := false }, awake := Function.update w.awake c true }
    else w
  | .next c =>
    if w.awake c then
      match w.queue.nextTracked with
      | none => { w with awake := Function.update w.awake c false }
      | some (p, queue) =>
        { w with queue, awake := Function.update w.awake c false, delivered := w.delivered ++ [p] }
    else w
  | .clear b => { w with queue := (w.queue.clear b).1 }
  | .close b => { w with queue := (w.queue.close b).1 }

structure Sound (w : QueueWorld ι τ cap) : Prop where
  size : w.queue.size ≤ cap
  ok : w.queue.toQueue.Ok
  /-- What was accepted is gone, from the front on, or in the queue; what was handed out is among
  what is gone, in the same order and no more often. -/
  fifo : ∃ gone, w.accepted = gone ++ w.queue.contents ∧ w.delivered.Sublist gone
  /-- A token is in the channel or in a consumer's hand. -/
  wakeUp : w.queue.size ≠ 0 → w.queue.closed = false →
    w.queue.ready = true ∨ ∃ c, w.awake c = true

variable {w : QueueWorld ι τ cap}

omit [DecidableEq ι] in
theorem sound_new (cap : ℕ) [NeZero cap] (maxBytes : ℤ) (budget : Option ℕ) :
    (new cap maxBytes budget : QueueWorld ι τ cap).Sound where
  size := Nat.zero_le _
  ok := ⟨rfl, fun _ => rfl⟩
  fifo := ⟨[], rfl, List.Sublist.refl _⟩
  wakeUp := fun h => absurd rfl h

omit [DecidableEq ι] in
theorem enqueue_cases (h : w.Sound) (b : Budgets) (payload : List UInt8) (tag : τ) (now : ℤ) :
    ((w.queue.admission b payload.length).isSome = false ∧
      (w.queue.enqueue b payload tag now).1 = w.queue ∧
      (w.queue.closed = true ∨ payload.length > w.queue.maxBytes ∨
        ∃ n, LeastDrop cap w.queue.maxBytes payload.length w.queue.contents n ∧
          (b.replace? w.queue.budget (heldBytes (w.queue.contents.take n) : ℕ) payload.length).2
            = false)) ∨
    (∃ n, LeastDrop cap w.queue.maxBytes payload.length w.queue.contents n ∧
      w.queue.closed = false ∧ (w.queue.admission b payload.length).isSome = true ∧
      (w.queue.enqueue b payload tag now).1.contents
        = w.queue.contents.drop n ++ [⟨payload, now, tag⟩] ∧
      (w.queue.enqueue b payload tag now).1.toQueue
        = w.queue.toQueue.accept n ⟨payload, now, tag⟩ ∧
      (w.queue.enqueue b payload tag now).1.ready = true) := by
  have hrefines := (FxpUDPRing.toQueue_enqueue h.size b payload tag now h.ok).1
  rw [FxpUDPQueue.enqueue_eq] at hrefines
  obtain ⟨hnone, hwhy⟩ | ⟨n, hleast, hopen, hsome⟩ :=
    FxpUDPQueue.admission_spec h.ok (Nat.pos_of_neZero cap) b payload.length
  · have hadmission : w.queue.admission b payload.length = none :=
      (FxpUDPRing.admission_eq w.queue b payload.length).trans hnone
    refine .inl ⟨by rw [hadmission]; rfl, ?_, hwhy⟩
    rw [FxpUDPRing.enqueue, hadmission]
  · have hadmission := (FxpUDPRing.admission_eq w.queue b payload.length).trans hsome
    rw [hsome] at hrefines
    refine .inr ⟨n, hleast, hopen, by rw [hadmission]; rfl, ?_, hrefines, ?_⟩
    · exact (congrArg FxpUDPQueue.packets hrefines).trans (FxpUDPQueue.accept_packets _ _ _)
    · rw [FxpUDPRing.enqueue, hadmission]
      exact FxpUDPRing.ready_signal (Nat.succ_ne_zero _)

theorem Sound.enqueue (h : w.Sound) (b : Budgets) (payload : List UInt8) (tag : τ) (now : ℤ) :
    (w.step (.enqueue b payload tag now)).Sound := by
  obtain ⟨gone, haccepted, hdelivered⟩ := h.fifo
  obtain ⟨hrefused, hsame, -⟩ | ⟨n, -, hopen, hgranted, hcontents, hqueue, hready⟩ :=
    enqueue_cases h b payload tag now
  · have hw : w.step (.enqueue b payload tag now) = w := by
      rw [step, hsame, if_neg (by rw [hrefused]; exact Bool.false_ne_true)]
    rw [hw]
    exact h
  · refine ⟨(FxpUDPRing.toQueue_enqueue h.size b payload tag now h.ok).2.2, ?_, ?_, ?_⟩
    · show ((w.queue.enqueue b payload tag now).1.toQueue).Ok
      rw [hqueue]
      exact FxpUDPQueue.accept_ok h.ok hopen n _
    · refine ⟨gone ++ w.queue.contents.take n, ?_, hdelivered.trans (sublist_append_left _ _)⟩
      show (if (w.queue.admission b payload.length).isSome
        then w.accepted ++ [⟨payload, now, tag⟩] else w.accepted) = _ ++
          (w.queue.enqueue b payload tag now).1.contents
      rw [if_pos hgranted, hcontents, haccepted]
      simp only [append_assoc]
      rw [← append_assoc (w.queue.contents.take n), take_append_drop]
    · exact fun _ _ => .inl hready

theorem Sound.wake (h : w.Sound) (c : ι) : (w.step (.wake c)).Sound := by
  unfold step
  dsimp only
  split
  · refine ⟨h.size, h.ok, h.fifo, fun _ _ => .inr ⟨c, ?_⟩⟩
    exact Function.update_self c true w.awake
  · exact h

theorem Sound.next (h : w.Sound) (c : ι) : (w.step (.next c)).Sound := by
  obtain ⟨gone, haccepted, hdelivered⟩ := h.fifo
  unfold step
  dsimp only
  split
  swap
  · exact h
  obtain ⟨hnone, hempty⟩ | ⟨p, q', hsome, hqueue, hcontents, hsize, hq'⟩ :=
    FxpUDPRing.toQueue_nextTracked h.size
  · rw [hnone]
    refine ⟨h.size, h.ok, h.fifo, fun hne => absurd ?_ hne⟩
    rw [← FxpUDPRing.length_contents, hempty]
    rfl
  · rw [hsome]
    refine ⟨hsize, (FxpUDPQueue.nextTracked_spec h.ok hqueue).1, ⟨gone ++ [p], ?_, ?_⟩, ?_⟩
    · show w.accepted = gone ++ [p] ++ q'.contents
      rw [haccepted, hcontents, append_assoc]
      rfl
    · exact hdelivered.append (List.Sublist.refl _)
    · intro hne _
      refine .inl ?_
      -- what is left over is signalled before the queue is unlocked
      show q'.ready = true
      rw [hq']
      refine FxpUDPRing.ready_signal fun hzero => hne ?_
      show q'.size = 0
      rw [hq', FxpUDPRing.size_signal, hzero]

omit [DecidableEq ι] in
theorem Sound.dropAll (h : w.Sound) {q : FxpUDPRing τ cap} (hsize : q.size = w.queue.size)
    (hcounted : q.queuedBytes = heldBytes q.contents) (b : Budgets) :
    ({ w with queue := (q.dropAll b).1 } : QueueWorld ι τ cap).Sound := by
  obtain ⟨gone, haccepted, hdelivered⟩ := h.fifo
  obtain ⟨hqueue, -, hzero⟩ := FxpUDPRing.toQueue_dropAll (hsize.trans_le h.size) b
  have hempty : (q.dropAll b).1.contents = [] :=
    length_eq_zero_iff.mp (FxpUDPRing.length_contents.trans hzero)
  refine ⟨hzero.trans_le (Nat.zero_le _), ?_, ⟨w.accepted, ?_, ?_⟩, fun hne => absurd hzero hne⟩
  · show ((q.dropAll b).1.toQueue).Ok
    rw [hqueue]
    exact FxpUDPQueue.dropAll_ok hcounted b
  · show w.accepted = w.accepted ++ (q.dropAll b).1.contents
    rw [hempty, append_nil]
  · rw [haccepted]
    exact hdelivered.trans (sublist_append_left _ _)

theorem Sound.step (h : w.Sound) (e : QueueEvent ι τ) : (w.step e).Sound := by
  cases e with
  | enqueue b payload tag now => exact h.enqueue b payload tag now
  | wake c => exact h.wake c
  | next c => exact h.next c
  | clear b => exact h.dropAll rfl h.ok.counted b
  | close b => exact h.dropAll (q := { w.queue with closed := true }) rfl h.ok.counted b

end QueueWorld

/-! ## What no operation changes -/

section

variable {ι τ : Type} [DecidableEq ι] [Inhabited τ] {cap : ℕ} [NeZero cap]

namespace FxpUDPRing

variable (q : FxpUDPRing τ cap)

theorem iterate_popOldest_settings (n : ℕ) : ∀ q : FxpUDPRing τ cap,
    (popOldest^[n] q).maxBytes = q.maxBytes ∧ (popOldest^[n] q).closed = q.closed := by
  induction n with
  | zero => exact fun _ => ⟨rfl, rfl⟩
  | succ n ih => exact fun q => ih q.popOldest

omit [Inhabited τ] [NeZero cap] in
theorem signal_settings : q.signal.maxBytes = q.maxBytes ∧ q.signal.closed = q.closed := by
  unfold signal
  split <;> exact ⟨rfl, rfl⟩

theorem enqueue_settings (b : Budgets) (payload : List UInt8) (tag : τ) (now : ℤ) :
    (q.enqueue b payload tag now).1.maxBytes = q.maxBytes ∧
      (q.enqueue b payload tag now).1.closed = q.closed := by
  unfold enqueue
  cases q.admission b payload.length with
  | none => exact ⟨rfl, rfl⟩
  | some admitted =>
    obtain ⟨hmax, hclosed⟩ := signal_settings ((popOldest^[admitted.1] q).push ⟨payload, now, tag⟩)
    exact ⟨hmax.trans (iterate_popOldest_settings _ q).1, hclosed.trans (iterate_popOldest_settings _ q).2⟩

theorem dropAll_settings (b : Budgets) :
    (q.dropAll b).1.maxBytes = q.maxBytes ∧ (q.dropAll b).1.closed = q.closed := by
  have hiterate : ∀ (n : ℕ) (s : FxpUDPRing τ cap × Budgets),
      (dropOldest^[n] s).1.maxBytes = s.1.maxBytes ∧ (dropOldest^[n] s).1.closed = s.1.closed := by
    intro n
    induction n with
    | zero => exact fun _ => ⟨rfl, rfl⟩
    | succ n ih => exact fun s => ih (dropOldest s)
  exact hiterate q.size (q, b)

end FxpUDPRing

/-- The bound is the one that the queue was made with, and only `close` closes it. -/
theorem QueueWorld.settings_run (es : List (QueueEvent ι τ)) : ∀ w : QueueWorld ι τ cap,
    (run step w es).queue.maxBytes = w.queue.maxBytes ∧
      ((run step w es).queue.closed = true ↔ w.queue.closed = true ∨ ∃ b, .close b ∈ es) := by
  induction es with
  | nil => simp
  | cons e es ih =>
    intro w
    have hstep : (w.step e).queue.maxBytes = w.queue.maxBytes ∧
        ((w.step e).queue.closed = true ↔ w.queue.closed = true ∨ ∃ b, QueueEvent.close b = e) := by
      cases e with
      | enqueue b payload tag now =>
        obtain ⟨hmax, hclosed⟩ := w.queue.enqueue_settings b payload tag now
        exact ⟨hmax, by simp [step, hclosed]⟩
      | wake c =>
        rw [step]
        split <;> simp
      | next c =>
        obtain ⟨hmax, hsame⟩ := FxpUDPRing.signal_settings w.queue.popOldest
        have hclosed : w.queue.popOldest.signal.closed = w.queue.closed := hsame
        rw [step]
        unfold FxpUDPRing.nextTracked
        split_ifs
        · simp
        · exact ⟨hmax, by simp [hclosed]⟩
        · simp
      | clear b =>
        obtain ⟨hmax, hclosed⟩ := w.queue.dropAll_settings b
        exact ⟨hmax, by simp [step, FxpUDPRing.clear, hclosed]⟩
      | close b =>
        obtain ⟨hmax, hclosed⟩ := FxpUDPRing.dropAll_settings { w.queue with closed := true } b
        exact ⟨hmax, by simp [step, FxpUDPRing.close, hclosed]⟩
    obtain ⟨hmax, hclosed⟩ := ih (w.step e)
    refine ⟨hmax.trans hstep.1, hclosed.trans ?_⟩
    rw [hstep.2]
    simp [exists_or, or_assoc]

end

end ForwardX.Fxp
