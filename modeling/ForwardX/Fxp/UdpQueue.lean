/-
`fxpUDPQueue` of `forwardx-fxp/udp_tuning.go`: the bounded packet queue in front of every UDP
socket, which drops its oldest packets to make room and charges what it holds to a rule budget.
-/
import ForwardX.Fxp.UdpBudget

namespace ForwardX.Fxp

open List

variable {τ : Type*}

/-! ## The queue -/

def fxpUDPDirectQueueSize : ℕ := 64
def fxpUDPQueueMaxBytes : ℕ := 512 * 1024

structure FxpUDPQueuedPacket (τ : Type*) where
  payload : List UInt8
  queuedAt : ℤ
  tag : τ

structure FxpUDPQueue (τ : Type*) where
  packets : List (FxpUDPQueuedPacket τ)
  capacity : ℕ
  queuedBytes : ℤ
  maxBytes : ℕ
  budget : Option ℕ
  closed : Bool

def newFXPUDPQueueWithBudget (maxPackets maxBytes : ℤ) (budget : Option ℕ) : FxpUDPQueue τ where
  packets := []
  capacity := if maxPackets ≤ 0 then 1 else maxPackets.toNat
  queuedBytes := 0
  maxBytes := if maxBytes ≤ 0 then 1 else maxBytes.toNat
  budget := budget
  closed := false

/-- The first loop of `enqueue`: how many packets would have to go, their bytes,
and the bytes that would remain. -/
def dropPlan (capacity maxBytes packetBytes : ℕ) :
    List (FxpUDPQueuedPacket τ) → ℤ → ℕ × ℤ × ℤ
  | [], remainingBytes => (0, 0, remainingBytes)
  | p :: ps, remainingBytes =>
    if (p :: ps).length ≥ capacity ∨ remainingBytes + packetBytes > maxBytes then
      let (dropCount, releaseBytes, rest) :=
        dropPlan capacity maxBytes packetBytes ps (remainingBytes - p.payload.length)
      (dropCount + 1, releaseBytes + p.payload.length, rest)
    else (0, 0, remainingBytes)

/-- `popOldestLocked(false)`; on an empty queue the callers never call it. -/
def FxpUDPQueue.popOldest (q : FxpUDPQueue τ) : FxpUDPQueue τ :=
  match q.packets with
  | [] => q
  | p :: ps =>
    let queuedBytes := q.queuedBytes - p.payload.length
    { q with packets := ps, queuedBytes := if queuedBytes < 0 then 0 else queuedBytes }

/-- `enqueue` at time `now`: the queue, the budgets, and whether anything was
dropped, the packet itself included. -/
def FxpUDPQueue.enqueue (q : FxpUDPQueue τ) (b : Budgets) (payload : List UInt8) (tag : τ)
    (now : ℤ) : FxpUDPQueue τ × Budgets × Bool :=
  let packetBytes := payload.length
  if q.closed then (q, b, true)
  else if packetBytes > q.maxBytes then (q, b, true)
  else
    let (dropCount, releaseBytes, remainingBytes) :=
      dropPlan q.capacity q.maxBytes packetBytes q.packets q.queuedBytes
    if q.packets.length - dropCount ≥ q.capacity ∨ remainingBytes + packetBytes > q.maxBytes then
      (q, b, true)
    else
      let (b, admitted) := b.replace? q.budget releaseBytes packetBytes
      if admitted = false then (q, b, true)
      else
        let q := FxpUDPQueue.popOldest^[dropCount] q
        ({ q with
            packets := q.packets ++ [⟨payload, now, tag⟩]
            queuedBytes := q.queuedBytes + packetBytes }, b, decide (dropCount > 0))

/-- `nextTracked` once a packet is there: the packet, leased to the caller. -/
def FxpUDPQueue.nextTracked (q : FxpUDPQueue τ) : Option (FxpUDPQueuedPacket τ × FxpUDPQueue τ) :=
  match q.packets with
  | [] => none
  | p :: _ => some (p, q.popOldest)

/-- The loop of `clear` and `close`: `dropOldestLocked(true)` until empty. -/
def FxpUDPQueue.dropAll (q : FxpUDPQueue τ) (b : Budgets) : FxpUDPQueue τ × Budgets :=
  (FxpUDPQueue.popOldest^[q.packets.length] q,
    b.releaseAll q.budget (q.packets.map fun p => p.payload.length))

def FxpUDPQueue.clear (q : FxpUDPQueue τ) (b : Budgets) : FxpUDPQueue τ × Budgets := q.dropAll b

def FxpUDPQueue.close (q : FxpUDPQueue τ) (b : Budgets) : FxpUDPQueue τ × Budgets :=
  { q with closed := true }.dropAll b

def fxpUDPMaxQueueDelay : ℤ := 75 * 1000000

/-- `superseded`: the packet has waited too long and newer ones are pending. -/
def FxpUDPQueuedPacket.superseded (packet : FxpUDPQueuedPacket τ) (now : ℤ) (pendingNewer : ℕ) : Bool :=
  decide (pendingNewer > 0 ∧ packet.queuedAt ≠ 0 ∧ now - packet.queuedAt ≥ fxpUDPMaxQueueDelay)

/-! ## What a queue holds -/

def heldBytes (ps : List (FxpUDPQueuedPacket τ)) : ℕ := (ps.map fun p => p.payload.length).sum

/-- The byte counter is right, and a closed queue is empty. -/
structure FxpUDPQueue.Ok (q : FxpUDPQueue τ) : Prop where
  counted : q.queuedBytes = heldBytes q.packets
  empty : q.closed = true → q.packets = []

/-- Dropping the first `n` packets, as `popOldest` does it. -/
def FxpUDPQueue.dropped (q : FxpUDPQueue τ) (n : ℕ) : FxpUDPQueue τ :=
  { q with packets := q.packets.drop n, queuedBytes := heldBytes (q.packets.drop n) }

theorem heldBytes_cons (p : FxpUDPQueuedPacket τ) (ps : List (FxpUDPQueuedPacket τ)) :
    heldBytes (p :: ps) = p.payload.length + heldBytes ps := by
  rw [heldBytes, map_cons, sum_cons, heldBytes]

theorem heldBytes_append (ps ps' : List (FxpUDPQueuedPacket τ)) :
    heldBytes (ps ++ ps') = heldBytes ps + heldBytes ps' := by
  rw [heldBytes, map_append, sum_append, heldBytes, heldBytes]

variable {q : FxpUDPQueue τ}

open FxpUDPQueue

theorem popOldest_eq (h : q.queuedBytes = heldBytes q.packets) : q.popOldest = q.dropped 1 := by
  unfold popOldest dropped
  rcases hp : q.packets with _ | ⟨p, ps⟩
  · rw [hp] at h
    cases q
    simp_all
  · rw [hp, heldBytes_cons] at h
    have hnot : ¬ q.queuedBytes - p.payload.length < 0 := by rw [h]; push_cast; omega
    simp only [drop_succ_cons, drop_zero]
    rw [if_neg hnot, h]
    congr 1
    push_cast
    ring

theorem dropped_dropped (q : FxpUDPQueue τ) (n m : ℕ) : (q.dropped n).dropped m = q.dropped (n + m) := by
  simp only [dropped, drop_drop]

theorem popOldest_iterate (n : ℕ) (h : q.queuedBytes = heldBytes q.packets) :
    popOldest^[n] q = q.dropped n := by
  induction n with
  | zero =>
    show q = { q with packets := q.packets.drop 0, queuedBytes := heldBytes (q.packets.drop 0) }
    rw [drop_zero, ← h]
  | succ n ih =>
    rw [Function.iterate_succ_apply', ih, popOldest_eq (q := q.dropped n) rfl, dropped_dropped]

theorem dropPlan_spec (capacity maxBytes packetBytes : ℕ) (ps : List (FxpUDPQueuedPacket τ)) :
    ∀ rest : ℤ, ∃ n ≤ ps.length, dropPlan capacity maxBytes packetBytes ps rest
      = (n, (heldBytes (ps.take n) : ℤ), rest - heldBytes (ps.take n)) := by
  -- the plan is a prefix: it stops at the first packet that may stay
  induction ps with
  | nil => intro rest; exact ⟨0, le_refl 0, by simp [dropPlan, heldBytes]⟩
  | cons p ps ih =>
    intro rest
    unfold dropPlan
    by_cases hfull : (p :: ps).length ≥ capacity ∨ rest + packetBytes > maxBytes
    · obtain ⟨n, hn, hplan⟩ := ih (rest - p.payload.length)
      refine ⟨n + 1, Nat.succ_le_succ hn, ?_⟩
      rw [if_pos hfull, hplan, take_succ_cons, heldBytes_cons]
      simp only [Prod.mk.injEq, true_and]
      push_cast
      constructor <;> ring
    · rw [if_neg hfull]
      exact ⟨0, Nat.zero_le _, by simp [heldBytes]⟩

theorem heldBytes_take_add_drop (ps : List (FxpUDPQueuedPacket τ)) (n : ℕ) :
    heldBytes (ps.take n) + heldBytes (ps.drop n) = heldBytes ps := by
  rw [← heldBytes_append, take_append_drop]

/-! ## Where packets come from and go -/

theorem popOldest_packets (q : FxpUDPQueue τ) : q.popOldest.packets = q.packets.tail := by
  unfold popOldest
  rcases hp : q.packets with _ | ⟨p, ps⟩
  · exact hp
  · rfl

theorem popOldest_iterate_packets (n : ℕ) (q : FxpUDPQueue τ) :
    (popOldest^[n] q).packets = q.packets.drop n := by
  induction n generalizing q with
  | zero => rfl
  | succ n ih => rw [Function.iterate_succ_apply, ih, popOldest_packets, drop_tail]

theorem FxpUDPQueue.enqueue_sublist (q : FxpUDPQueue τ) (b : Budgets) (payload : List UInt8)
    (tag : τ) (now : ℤ) :
    (q.enqueue b payload tag now).1.packets.Sublist (q.packets ++ [⟨payload, now, tag⟩]) := by
  have hsame : q.packets.Sublist (q.packets ++ [⟨payload, now, tag⟩]) :=
    sublist_append_left _ _
  unfold FxpUDPQueue.enqueue
  dsimp only
  split_ifs
  · exact hsame
  · exact hsame
  · exact hsame
  · exact hsame
  · dsimp only
    rw [popOldest_iterate_packets]
    exact (drop_sublist _ _).append_right _

theorem FxpUDPQueue.nextTracked_packets {q q' : FxpUDPQueue τ} {p : FxpUDPQueuedPacket τ}
    (h : q.nextTracked = some (p, q')) : q.packets = p :: q'.packets := by
  unfold FxpUDPQueue.nextTracked at h
  rcases hp : q.packets with _ | ⟨p₀, ps⟩
  · rw [hp] at h; cases h
  · rw [hp] at h
    cases h
    rw [popOldest_packets, hp, tail_cons]

theorem FxpUDPQueue.close_packets (q : FxpUDPQueue τ) (b : Budgets) : (q.close b).1.packets = [] := by
  show (FxpUDPQueue.popOldest^[q.packets.length] { q with closed := true }).packets = []
  rw [popOldest_iterate_packets]
  exact drop_length

/-! ## The operations -/

theorem FxpUDPQueue.enqueue_spec (hq : q.Ok) {b : Budgets} {f : ℕ → ℤ}
    (hb : b.Balanced f) (payload : List UInt8) (tag : τ) (now : ℤ) :
    (q.enqueue b payload tag now).1.Ok ∧
    (q.enqueue b payload tag now).1.budget = q.budget ∧
    b.SameRules (q.enqueue b payload tag now).2.1 ∧
    (q.enqueue b payload tag now).2.1.Balanced fun i => f i
      + share q.budget ((heldBytes (q.enqueue b payload tag now).1.packets : ℤ)
        - heldBytes q.packets) i := by
  have hsame : q.Ok ∧ q.budget = q.budget ∧ b.SameRules b ∧ b.Balanced fun i =>
      f i + share q.budget ((heldBytes q.packets : ℤ) - heldBytes q.packets) i :=
    ⟨hq, rfl, .refl b, hb.congr fun i _ => by rw [sub_self, share_zero, add_zero]⟩
  obtain ⟨n, hn, hplan⟩ := dropPlan_spec q.capacity q.maxBytes payload.length q.packets q.queuedBytes
  unfold FxpUDPQueue.enqueue
  dsimp only
  rw [hplan]
  dsimp only
  by_cases hclosed : q.closed = true
  · rw [if_pos hclosed]; exact hsame
  rw [if_neg hclosed]
  by_cases hbig : payload.length > q.maxBytes
  · rw [if_pos hbig]; exact hsame
  rw [if_neg hbig]
  -- no room, no budget, or the plan is carried out
  split_ifs with hroom hadmit
  · exact hsame
  · obtain ⟨hrules, ⟨-, hunchanged⟩ | ⟨hok, -⟩⟩ :=
      b.replace?_spec hb q.budget (heldBytes (q.packets.take n)) payload.length
    · rw [hunchanged]; exact hsame
    · rw [hok] at hadmit; cases hadmit
  · obtain ⟨hrules, ⟨hfail, -⟩ | ⟨-, hbal⟩⟩ :=
      b.replace?_spec hb q.budget (heldBytes (q.packets.take n)) payload.length
    · exact absurd hfail hadmit
    · rw [popOldest_iterate n hq.counted]
      -- `replace` moved the budget by the new bytes less the dropped ones, and so did the queue
      have hsplit := heldBytes_take_add_drop q.packets n
      have hnew : heldBytes ((q.dropped n).packets ++ [⟨payload, now, tag⟩])
          = heldBytes (q.packets.drop n) + payload.length := by
        rw [heldBytes_append]; simp [heldBytes, FxpUDPQueue.dropped]
      refine ⟨⟨?_, fun hbad => absurd hbad hclosed⟩, rfl, hrules, hbal.congr fun i _ => ?_⟩
      · rw [hnew]; push_cast; rfl
      · rw [hnew, ← hsplit]
        congr 2
        push_cast
        ring

theorem FxpUDPQueue.nextTracked_spec {q q' : FxpUDPQueue τ} (hq : q.Ok)
    {p : FxpUDPQueuedPacket τ} (h : q.nextTracked = some (p, q')) :
    q'.Ok ∧ q'.budget = q.budget ∧ q.packets = p :: q'.packets := by
  unfold FxpUDPQueue.nextTracked at h
  rcases hp : q.packets with _ | ⟨p₀, ps⟩
  · rw [hp] at h; cases h
  · rw [hp] at h
    cases h
    rw [popOldest_eq hq.counted]
    refine ⟨⟨rfl, fun hclosed => ?_⟩, rfl, ?_⟩
    · have := hq.empty hclosed
      rw [hp] at this
      cases this
    · simp [FxpUDPQueue.dropped, hp]

theorem FxpUDPQueue.dropAll_spec (hq : q.queuedBytes = heldBytes q.packets)
    {b : Budgets} {f : ℕ → ℤ} (hb : b.Balanced f) (hknows : b.Knows q.budget)
    (hcharged : ∀ i, share q.budget (heldBytes q.packets) i ≤ f i) :
    (q.dropAll b).1 = { q with packets := [], queuedBytes := 0 } ∧
    b.SameRules (q.dropAll b).2 ∧
    (q.dropAll b).2.Balanced fun i => f i - share q.budget (heldBytes q.packets) i := by
  unfold FxpUDPQueue.dropAll
  refine ⟨?_, Budgets.releaseAll_spec q.budget _ hb hknows hcharged⟩
  rw [popOldest_iterate _ hq]
  simp [FxpUDPQueue.dropped, heldBytes]

end ForwardX.Fxp
