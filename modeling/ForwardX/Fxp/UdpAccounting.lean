/-
All owners of budgeted bytes together: any number of queues, leased packets and reassemblers that
share rule budgets and one process budget.

The budgets are counters that the owners move by what they take and give back. The invariant is one
equation for each counter: it is the sum over all owners of what they hold, so that clamping at zero
never has an effect.
-/
import ForwardX.Lib.Run
import ForwardX.Fxp.UdpQueue
import ForwardX.Fxp.UdpFragment
import Mathlib.Algebra.Order.BigOperators.Group.List

namespace ForwardX.Fxp

open Run List

variable {τ : Type*}

/-! ## The owners -/

/-- A packet handed out by `nextTracked`, until its `done`. -/
structure Lease where
  leaseBudget : Option ℕ
  leaseBytes : ℕ
  leaseDone : Bool

/-- A reassembler and whether a `close` of it has returned. -/
structure ReassemblerSlot where
  r : UdpFragmentReassembler
  closeReturned : Bool

structure Accounts (τ : Type*) where
  budgets : Budgets
  queues : GoMap ℕ (FxpUDPQueue τ)
  leases : GoMap ℕ Lease
  reassemblers : GoMap ℕ ReassemblerSlot

def Accounts.new (limit : ℤ) : Accounts τ :=
  ⟨⟨newFXPUDPQueueProcessBudget limit, ∅, 0⟩, ∅, ∅, ∅⟩

inductive AccountEvent (τ : Type*) where
  | newRule (id : ℕ) (limit : ℤ)
  | newQueue (id : ℕ) (maxPackets maxBytes : ℤ) (budget : Option ℕ)
  | newReassembler (id : ℕ)
  | enqueue (id : ℕ) (payload : List UInt8) (tag : τ) (now : ℤ)
  | nextTracked (id lease : ℕ)
  | done (lease : ℕ)
  | clear (id : ℕ)
  | close (id : ℕ)
  | accept (id : ℕ) (w : UdpReplayWindow) (packet : FxpUDPPacket) (now : ℤ)
  | expire (id : ℕ) (now : ℤ)
  | evict (id : ℕ)
  | setBudget (id : ℕ) (budget : Option ℕ)
  | clearFragments (id : ℕ)
  | closeStore (id : ℕ)
  | closeClear (id : ℕ)

/-- A pointer a caller can hold: nil, or the address of an allocated budget. -/
def Accounts.canPoint (s : Accounts τ) : Option ℕ → Bool
  | none => true
  | some rule => decide (rule ∈ s.budgets.rules)

def Accounts.onQueue (s : Accounts τ) (id : ℕ)
    (op : FxpUDPQueue τ → Budgets → FxpUDPQueue τ × Budgets) : Accounts τ :=
  match s.queues.lookup id with
  | none => s
  | some q =>
    { s with queues := s.queues.insert id (op q s.budgets).1, budgets := (op q s.budgets).2 }

def Accounts.onReassembler (s : Accounts τ) (id : ℕ)
    (op : UdpFragmentReassembler → Budgets → UdpFragmentReassembler × Budgets) : Accounts τ :=
  match s.reassemblers.lookup id with
  | none => s
  | some x =>
    { s with
      reassemblers := s.reassemblers.insert id { x with r := (op x.r s.budgets).1 }
      budgets := (op x.r s.budgets).2 }

/-- One call. Allocations use free addresses; a call on no object does nothing. -/
def Accounts.step (s : Accounts τ) : AccountEvent τ → Accounts τ
  | .newRule id limit =>
    if id ∈ s.budgets.rules then s
    else { s with budgets :=
      { s.budgets with rules := s.budgets.rules.insert id (newFXPUDPQueueRuleBudget limit) } }
  | .newQueue id maxPackets maxBytes budget =>
    if id ∈ s.queues ∨ s.canPoint budget = false then s
    else { s with queues :=
      s.queues.insert id (newFXPUDPQueueWithBudget maxPackets maxBytes budget) }
  | .newReassembler id =>
    if id ∈ s.reassemblers then s
    else { s with reassemblers := s.reassemblers.insert id ⟨.new, false⟩ }
  | .enqueue id payload tag now =>
    s.onQueue id fun q b => ((q.enqueue b payload tag now).1, (q.enqueue b payload tag now).2.1)
  | .nextTracked id lease =>
    match s.queues.lookup id with
    | none => s
    | some q =>
      match q.nextTracked with
      | none => s
      | some (p, q') =>
        if lease ∈ s.leases then s
        else { s with
          queues := s.queues.insert id q'
          leases := s.leases.insert lease ⟨q.budget, p.payload.length, false⟩ }
  | .done lease =>
    match s.leases.lookup lease with
    | none => s
    | some l =>
      if l.leaseDone then s
      else { s with
        leases := s.leases.insert lease { l with leaseDone := true }
        budgets := s.budgets.release? l.leaseBudget l.leaseBytes }
  | .clear id => s.onQueue id FxpUDPQueue.clear
  | .close id => s.onQueue id FxpUDPQueue.close
  | .accept id w packet now =>
    s.onReassembler id fun r b => ((r.accept b w packet now).r, (r.accept b w packet now).b)
  | .expire id now => s.onReassembler id fun r b => r.expire b now
  | .evict id => s.onReassembler id fun r b => r.evictOldestLocked b
  | .setBudget id budget =>
    if s.canPoint budget = false then s
    else s.onReassembler id fun r b => r.setBudget b budget
  | .clearFragments id => s.onReassembler id fun r b => r.clearLocked b
  | .closeStore id => s.onReassembler id fun r b => ({ r with closed := true }, b)
  | .closeClear id =>
    match s.reassemblers.lookup id with
    | none => s
    | some x =>
      if x.r.closed = false then s
      else { s with
        reassemblers := s.reassemblers.insert id ⟨(x.r.clearLocked s.budgets).1, true⟩
        budgets := (x.r.clearLocked s.budgets).2 }

/-! ## Charges -/

/-- What a queue, a lease and a reassembler charge to rule budget `i`. -/
def queueShare (i : ℕ) (q : FxpUDPQueue τ) : ℤ := share q.budget (heldBytes q.packets) i
@[inherit_doc queueShare] def leaseShare (i : ℕ) (l : Lease) : ℤ :=
  if l.leaseDone then 0 else share l.leaseBudget l.leaseBytes i
@[inherit_doc queueShare] def fragmentShare (i : ℕ) (x : ReassemblerSlot) : ℤ :=
  share x.r.budget x.r.held i

/-- The bytes queued, leased and held in pending fragments of a rule. -/
def Accounts.queued (s : Accounts τ) (i : ℕ) : ℤ := GoMap.sumOver (fun _ => queueShare i) s.queues
@[inherit_doc Accounts.queued] def Accounts.leased (s : Accounts τ) (i : ℕ) : ℤ :=
  GoMap.sumOver (fun _ => leaseShare i) s.leases
@[inherit_doc Accounts.queued] def Accounts.fragments (s : Accounts τ) (i : ℕ) : ℤ :=
  GoMap.sumOver (fun _ => fragmentShare i) s.reassemblers

def Accounts.charge (s : Accounts τ) (i : ℕ) : ℤ := s.queued i + s.leased i + s.fragments i

theorem sumOver_nonneg {β : Type*} {f : ℕ → β → ℤ} (h : ∀ k v, 0 ≤ f k v) (m : GoMap ℕ β) :
    0 ≤ GoMap.sumOver f m := by
  refine sum_nonneg fun x hx => ?_
  obtain ⟨e, -, rfl⟩ := mem_map.mp hx
  exact h e.1 e.2

theorem queueShare_nonneg (i : ℕ) (q : FxpUDPQueue τ) : 0 ≤ queueShare i q :=
  share_nonneg _ (Int.natCast_nonneg _) i

theorem leaseShare_nonneg (i : ℕ) (l : Lease) : 0 ≤ leaseShare i l := by
  unfold leaseShare
  split_ifs
  · exact le_refl 0
  · exact share_nonneg _ (Int.natCast_nonneg _) i

theorem fragmentShare_nonneg (i : ℕ) (x : ReassemblerSlot) : 0 ≤ fragmentShare i x :=
  share_nonneg _ (Int.natCast_nonneg _) i

def Accounts.butQueue (s : Accounts τ) (id i : ℕ) : ℤ :=
  GoMap.sumOver (fun _ => queueShare i) (s.queues.erase id) + s.leased i + s.fragments i
def Accounts.butLease (s : Accounts τ) (id i : ℕ) : ℤ :=
  s.queued i + GoMap.sumOver (fun _ => leaseShare i) (s.leases.erase id) + s.fragments i
def Accounts.butReassembler (s : Accounts τ) (id i : ℕ) : ℤ :=
  s.queued i + s.leased i + GoMap.sumOver (fun _ => fragmentShare i) (s.reassemblers.erase id)

theorem butQueue_nonneg (s : Accounts τ) (id i : ℕ) : 0 ≤ s.butQueue id i :=
  add_nonneg (add_nonneg (sumOver_nonneg (fun _ => queueShare_nonneg i) _)
    (sumOver_nonneg (fun _ => leaseShare_nonneg i) _))
    (sumOver_nonneg (fun _ => fragmentShare_nonneg i) _)

theorem butLease_nonneg (s : Accounts τ) (id i : ℕ) : 0 ≤ s.butLease id i :=
  add_nonneg (add_nonneg (sumOver_nonneg (fun _ => queueShare_nonneg i) _)
    (sumOver_nonneg (fun _ => leaseShare_nonneg i) _))
    (sumOver_nonneg (fun _ => fragmentShare_nonneg i) _)

theorem butReassembler_nonneg (s : Accounts τ) (id i : ℕ) : 0 ≤ s.butReassembler id i :=
  add_nonneg (add_nonneg (sumOver_nonneg (fun _ => queueShare_nonneg i) _)
    (sumOver_nonneg (fun _ => leaseShare_nonneg i) _))
    (sumOver_nonneg (fun _ => fragmentShare_nonneg i) _)

variable {s : Accounts τ} {id : ℕ}

open Accounts

theorem charge_of_queue {q : FxpUDPQueue τ}
    (h : s.queues.lookup id = some q) (i : ℕ) : s.charge i = s.butQueue id i + queueShare i q := by
  unfold charge butQueue queued
  rw [GoMap.sumOver_of_lookup _ h]
  ring

theorem charge_of_lease {l : Lease} (h : s.leases.lookup id = some l)
    (i : ℕ) : s.charge i = s.butLease id i + leaseShare i l := by
  unfold charge butLease leased
  rw [GoMap.sumOver_of_lookup _ h]
  ring

variable {x : ReassemblerSlot}

theorem charge_of_reassembler (h : s.reassemblers.lookup id = some x) (i : ℕ) :
    s.charge i = s.butReassembler id i + fragmentShare i x := by
  unfold charge butReassembler fragments
  rw [GoMap.sumOver_of_lookup _ h]
  ring

theorem charge_insert_queue (s : Accounts τ) (b : Budgets) (id : ℕ) (q : FxpUDPQueue τ) (i : ℕ) :
    charge { s with queues := s.queues.insert id q, budgets := b } i
      = s.butQueue id i + queueShare i q := by
  unfold charge butQueue queued
  rw [GoMap.sumOver_insert]
  show queueShare i q + _ + s.leased i + s.fragments i = _
  ring

theorem charge_insert_lease (s : Accounts τ) (b : Budgets) (id : ℕ) (l : Lease) (i : ℕ) :
    charge { s with leases := s.leases.insert id l, budgets := b } i
      = s.butLease id i + leaseShare i l := by
  unfold charge butLease leased
  rw [GoMap.sumOver_insert]
  show s.queued i + (leaseShare i l + _) + s.fragments i = _
  ring

theorem charge_insert_reassembler (s : Accounts τ) (b : Budgets) (id : ℕ) (x : ReassemblerSlot)
    (i : ℕ) : charge { s with reassemblers := s.reassemblers.insert id x, budgets := b } i
      = s.butReassembler id i + fragmentShare i x := by
  unfold charge butReassembler fragments
  rw [GoMap.sumOver_insert]
  show s.queued i + s.leased i + (fragmentShare i x + _) = _
  ring

/-! ## The invariant -/

structure Accounts.Inv (s : Accounts τ) : Prop where
  balanced : s.budgets.Balanced s.charge
  queues : ∀ id q, s.queues.lookup id = some q → q.Ok ∧ s.budgets.Knows q.budget
  leases : ∀ id l, s.leases.lookup id = some l → s.budgets.Knows l.leaseBudget
  reassemblers : ∀ id x, s.reassemblers.lookup id = some x → s.budgets.Knows x.r.budget ∧
    (x.closeReturned = true → x.r.closed = true ∧ x.r.pending = ∅)

theorem Accounts.inv_new (limit : ℤ) : (Accounts.new limit : Accounts τ).Inv where
  balanced :=
    { rule := fun _ _ h => by cases h
      rule_limit := fun _ _ h => by cases h
      process := rfl
      process_limit := by
        show (0 : ℤ) ≤ if limit < 0 then 0 else limit
        split_ifs <;> omega
      unclamped := rfl }
  queues := fun _ _ h => by cases h
  leases := fun _ _ h => by cases h
  reassemblers := fun _ _ h => by cases h

/-! ## One owner works -/

theorem inv_insert_queue (hs : s.Inv) {q : FxpUDPQueue τ} {b : Budgets}
    (hq : q.Ok) (hknows : b.Knows q.budget) (hrules : s.budgets.SameRules b)
    (hb : b.Balanced fun i => s.butQueue id i + queueShare i q) :
    Accounts.Inv { s with queues := s.queues.insert id q, budgets := b } where
  balanced := hb.congr fun i _ => (charge_insert_queue s b id q i).symm
  queues id' q' hq' := by
    obtain ⟨-, rfl⟩ | ⟨-, hold⟩ := GoMap.lookup_insert_eq_some hq'
    · exact ⟨hq, hknows⟩
    · exact ⟨(hs.queues id' q' hold).1, (hs.queues id' q' hold).2.mono hrules⟩
  leases id l hl := (hs.leases id l hl).mono hrules
  reassemblers id x hx :=
    ⟨(hs.reassemblers id x hx).1.mono hrules, (hs.reassemblers id x hx).2⟩

theorem inv_onQueue (hs : s.Inv) (id : ℕ) {op : FxpUDPQueue τ → Budgets → FxpUDPQueue τ × Budgets}
    (hop : ∀ (q : FxpUDPQueue τ) (b : Budgets) (g : ℕ → ℤ), q.Ok → b.Knows q.budget →
      (∀ i, 0 ≤ g i) → b.Balanced (fun i => g i + queueShare i q) →
      (op q b).1.Ok ∧ (op q b).1.budget = q.budget ∧ b.SameRules (op q b).2 ∧
        (op q b).2.Balanced fun i => g i + queueShare i (op q b).1) :
    (s.onQueue id op).Inv := by
  unfold onQueue
  rcases hq : s.queues.lookup id with _ | q
  · exact hs
  · obtain ⟨hok, hknows⟩ := hs.queues id q hq
    obtain ⟨hok', hbudget, hrules, hbal⟩ := hop q s.budgets (s.butQueue id) hok hknows
      (butQueue_nonneg s id) (hs.balanced.congr fun i _ => charge_of_queue hq i)
    exact inv_insert_queue hs hok' (hbudget ▸ hknows.mono hrules) hrules hbal

theorem inv_insert_reassembler (hs : s.Inv)
    {b : Budgets} (hx : x.r.Charged b (s.butReassembler id)) (hrules : s.budgets.SameRules b)
    (hclosed : x.closeReturned = true → x.r.closed = true ∧ x.r.pending = ∅) :
    Accounts.Inv { s with reassemblers := s.reassemblers.insert id x, budgets := b } where
  balanced := hx.balanced.congr fun i _ => (charge_insert_reassembler s b id x i).symm
  queues id q hq := ⟨(hs.queues id q hq).1, (hs.queues id q hq).2.mono hrules⟩
  leases id l hl := (hs.leases id l hl).mono hrules
  reassemblers id' x' hx' := by
    obtain ⟨-, rfl⟩ | ⟨-, hold⟩ := GoMap.lookup_insert_eq_some hx'
    · exact ⟨hx.knows, hclosed⟩
    · exact ⟨(hs.reassemblers id' x' hold).1.mono hrules, (hs.reassemblers id' x' hold).2⟩

theorem charged_of_inv (hs : s.Inv)
    (hx : s.reassemblers.lookup id = some x) : x.r.Charged s.budgets (s.butReassembler id) :=
  ⟨(hs.reassemblers id x hx).1, hs.balanced.congr fun i _ => charge_of_reassembler hx i⟩

theorem inv_onReassembler (hs : s.Inv) (id : ℕ)
    {op : UdpFragmentReassembler → Budgets → UdpFragmentReassembler × Budgets}
    (hop : ∀ (r : UdpFragmentReassembler) (g : ℕ → ℤ), (∀ i, 0 ≤ g i) → r.Charged s.budgets g →
      (op r s.budgets).1.Charged (op r s.budgets).2 g ∧ s.budgets.SameRules (op r s.budgets).2)
    (hempty : ∀ r : UdpFragmentReassembler, r.closed = true ∧ r.pending = ∅ →
      (op r s.budgets).1.closed = true ∧ (op r s.budgets).1.pending = ∅) :
    (s.onReassembler id op).Inv := by
  unfold onReassembler
  rcases hx : s.reassemblers.lookup id with _ | x
  · exact hs
  · obtain ⟨hcharged, hrules⟩ := hop x.r _ (butReassembler_nonneg s id) (charged_of_inv hs hx)
    exact inv_insert_reassembler hs hcharged hrules fun hret =>
      hempty x.r ((hs.reassemblers id x hx).2 hret)

theorem share_sub (rule : Option ℕ) (m n : ℤ) (i : ℕ) :
    share rule (m - n) i = share rule m i - share rule n i := by
  unfold share; split_ifs <;> simp

theorem inv_enqueue (hs : s.Inv) (id : ℕ) (payload : List UInt8) (tag : τ)
    (now : ℤ) : (s.onQueue id fun q b =>
      ((q.enqueue b payload tag now).1, (q.enqueue b payload tag now).2.1)).Inv := by
  refine inv_onQueue hs id fun q b g hq _ _ hb => ?_
  obtain ⟨hok, hbudget, hrules, hbal⟩ := FxpUDPQueue.enqueue_spec hq hb payload tag now
  refine ⟨hok, hbudget, hrules, hbal.congr fun i _ => ?_⟩
  dsimp only
  rw [queueShare, queueShare, hbudget, share_sub]
  ring

theorem inv_dropAll (hs : s.Inv) (id : ℕ) (closed : Bool → Bool) :
    (s.onQueue id fun q b => { q with closed := closed q.closed }.dropAll b).Inv := by
  refine inv_onQueue hs id fun q b g hq hknows hg hb => ?_
  obtain ⟨hempty, hrules, hbal⟩ :=
    FxpUDPQueue.dropAll_spec (q := { q with closed := closed q.closed }) hq.counted hb hknows
      fun i => le_add_of_nonneg_left (hg i)
  rw [hempty]
  refine ⟨⟨rfl, fun _ => rfl⟩, rfl, hrules, hbal.congr fun i _ => ?_⟩
  show g i + share q.budget (heldBytes q.packets) i - share q.budget (heldBytes q.packets) i
    = g i + share q.budget (0 : ℕ) i
  rw [Nat.cast_zero, share_zero]
  ring

theorem inv_done (hs : s.Inv) {lease : ℕ} {l : Lease}
    (hl : s.leases.lookup lease = some l) (hopen : l.leaseDone = false) :
    Accounts.Inv { s with
      leases := s.leases.insert lease { l with leaseDone := true }
      budgets := s.budgets.release? l.leaseBudget l.leaseBytes } := by
  -- the lease is open, so its share is still in the charge
  have hcharge : ∀ i, s.charge i = s.butLease lease i + share l.leaseBudget l.leaseBytes i := by
    intro i
    rw [charge_of_lease hl, leaseShare, hopen, if_neg (by decide)]
  obtain ⟨hrules, hbal⟩ := Budgets.release?_spec hs.balanced (hs.leases lease l hl)
    (Int.natCast_nonneg l.leaseBytes) fun i => by
      rw [hcharge]
      exact le_add_of_nonneg_left (butLease_nonneg s lease i)
  refine ⟨hbal.congr fun i _ => ?_, ?_, ?_, ?_⟩
  · rw [charge_insert_lease, hcharge, leaseShare, if_pos rfl]
    ring
  · exact fun id q hq => ⟨(hs.queues id q hq).1, (hs.queues id q hq).2.mono hrules⟩
  · intro id l' hl'
    obtain ⟨-, rfl⟩ | ⟨-, hold⟩ := GoMap.lookup_insert_eq_some hl'
    · exact (hs.leases lease l hl).mono hrules
    · exact (hs.leases id l' hold).mono hrules
  · exact fun id x hx =>
      ⟨(hs.reassemblers id x hx).1.mono hrules, (hs.reassemblers id x hx).2⟩

theorem inv_nextTracked (hs : s.Inv) {id lease : ℕ} {q q' : FxpUDPQueue τ}
    (hq : s.queues.lookup id = some q) {p : FxpUDPQueuedPacket τ}
    (hnext : q.nextTracked = some (p, q')) (hfresh : lease ∉ s.leases) :
    Accounts.Inv { s with
      queues := s.queues.insert id q'
      leases := s.leases.insert lease ⟨q.budget, p.payload.length, false⟩ } := by
  obtain ⟨hok, hknows⟩ := hs.queues id q hq
  obtain ⟨hok', hbudget, hpackets⟩ := FxpUDPQueue.nextTracked_spec hok hnext
  have hlease : s.leases.erase lease = s.leases :=
    GoMap.erase_of_lookup_none (AList.lookup_eq_none.mpr hfresh)
  refine ⟨hs.balanced.congr fun i _ => ?_, ?_, ?_, hs.reassemblers⟩
  · have hshare : queueShare i q = share q.budget p.payload.length i + queueShare i q' := by
      rw [queueShare, queueShare, hbudget, hpackets, heldBytes_cons, Nat.cast_add, share_add]
    rw [charge_of_queue hq, hshare]
    unfold charge butQueue queued leased
    dsimp only
    rw [GoMap.sumOver_insert, GoMap.sumOver_insert, hlease, leaseShare,
      if_neg Bool.false_ne_true]
    show _ = _ + _ + s.fragments i
    ring
  · intro id' q'' hq''
    obtain ⟨-, rfl⟩ | ⟨-, hold⟩ := GoMap.lookup_insert_eq_some hq''
    · exact ⟨hok', hbudget ▸ hknows⟩
    · exact hs.queues id' q'' hold
  · intro id' l hl
    obtain ⟨-, rfl⟩ | ⟨-, hold⟩ := GoMap.lookup_insert_eq_some hl
    · exact hknows
    · exact hs.leases id' l hold

/-! ## Allocation -/

theorem share_of_not_knows {b : Budgets} {rule : Option ℕ} (h : b.Knows rule) {i : ℕ}
    (hi : i ∉ b.rules) (n : ℤ) : share rule n i = 0 :=
  if_neg fun heq => hi (h i heq)

theorem sumOver_eq_zero {β : Type*} {f : ℕ → β → ℤ} {m : GoMap ℕ β}
    (h : ∀ k v, m.lookup k = some v → f k v = 0) : GoMap.sumOver f m = 0 := by
  refine sum_eq_zero fun x hx => ?_
  obtain ⟨e, he, rfl⟩ := mem_map.mp hx
  exact h e.1 e.2 (GoMap.lookup_eq_some_iff.mpr he)

theorem charge_of_fresh (hs : s.Inv) {i : ℕ} (hi : i ∉ s.budgets.rules) : s.charge i = 0 := by
  have hq : s.queued i = 0 := sumOver_eq_zero fun id q hq =>
    share_of_not_knows (hs.queues id q hq).2 hi _
  have hl : s.leased i = 0 := sumOver_eq_zero fun id l hl => by
    rw [leaseShare, share_of_not_knows (hs.leases id l hl) hi, ite_self]
  have hf : s.fragments i = 0 := sumOver_eq_zero fun id x hx =>
    share_of_not_knows (hs.reassemblers id x hx).1 hi _
  rw [charge, hq, hl, hf, add_zero, add_zero]

theorem inv_newRule (hs : s.Inv) (hfresh : id ∉ s.budgets.rules)
    (limit : ℤ) : Accounts.Inv { s with budgets := { s.budgets with
      rules := s.budgets.rules.insert id (newFXPUDPQueueRuleBudget limit) } } := by
  -- who knew its budget before knows it now
  have hgrow : ∀ rule, s.budgets.Knows rule → Budgets.Knows
      { s.budgets with rules := s.budgets.rules.insert id (newFXPUDPQueueRuleBudget limit) } rule :=
    fun rule h i hi => (AList.mem_insert _).mpr (.inr (h i hi))
  refine ⟨⟨fun i r hr => ?_, fun i r hr => ?_, ?_, hs.balanced.process_limit,
    hs.balanced.unclamped⟩, ?_, ?_, ?_⟩
  · obtain ⟨rfl, rfl⟩ | ⟨-, hold⟩ := GoMap.lookup_insert_eq_some hr
    · exact (charge_of_fresh hs hfresh).symm
    · exact hs.balanced.rule i r hold
  · obtain ⟨rfl, rfl⟩ | ⟨-, hold⟩ := GoMap.lookup_insert_eq_some hr
    · unfold newFXPUDPQueueRuleBudget
      dsimp only
      split_ifs <;> omega
    · exact hs.balanced.rule_limit i r hold
  · show s.budgets.process.used = _
    rw [GoMap.sumOver_insert, GoMap.erase_of_lookup_none (AList.lookup_eq_none.mpr hfresh),
      hs.balanced.process]
    exact (zero_add _).symm
  · exact fun id q hq => ⟨(hs.queues id q hq).1, hgrow _ (hs.queues id q hq).2⟩
  · exact fun id l hl => hgrow _ (hs.leases id l hl)
  · exact fun id x hx => ⟨hgrow _ (hs.reassemblers id x hx).1, (hs.reassemblers id x hx).2⟩

theorem inv_newQueue (hs : s.Inv) (hfresh : id ∉ s.queues)
    {maxPackets maxBytes : ℤ} {budget : Option ℕ} (hknows : s.budgets.Knows budget) :
    Accounts.Inv { s with
      queues := s.queues.insert id (newFXPUDPQueueWithBudget maxPackets maxBytes budget) } := by
  have herase : s.queues.erase id = s.queues :=
    GoMap.erase_of_lookup_none (AList.lookup_eq_none.mpr hfresh)
  refine inv_insert_queue hs ⟨rfl, fun h => by cases h⟩ hknows (.refl _)
    (hs.balanced.congr fun i _ => ?_)
  show s.charge i = s.butQueue id i + share budget (0 : ℕ) i
  rw [Nat.cast_zero, share_zero, add_zero, butQueue, herase]
  rfl

theorem inv_newReassembler (hs : s.Inv) (hfresh : id ∉ s.reassemblers) :
    Accounts.Inv { s with reassemblers := s.reassemblers.insert id ⟨.new, false⟩ } := by
  have herase : s.reassemblers.erase id = s.reassemblers :=
    GoMap.erase_of_lookup_none (AList.lookup_eq_none.mpr hfresh)
  refine inv_insert_reassembler hs ⟨nofun, hs.balanced.congr fun i _ => ?_⟩ (.refl _) nofun
  show s.charge i = s.butReassembler id i + share none (0 : ℕ) i
  rw [Nat.cast_zero, share_zero, add_zero, butReassembler, herase]
  rfl

theorem knows_of_canPoint {budget : Option ℕ} (h : ¬ s.canPoint budget = false) : s.budgets.Knows budget := by
  rintro i rfl
  simpa [canPoint] using h

/-! ## Whole runs -/

theorem Accounts.inv_step (s : Accounts τ) (e : AccountEvent τ) (hs : s.Inv) : (s.step e).Inv := by
  cases e with
  | newRule id limit =>
    unfold Accounts.step
    dsimp only
    split_ifs with hin
    · exact hs
    · exact inv_newRule hs hin limit
  | newQueue id maxPackets maxBytes budget =>
    unfold Accounts.step
    dsimp only
    split_ifs with hno
    · exact hs
    · rw [not_or] at hno
      exact inv_newQueue hs hno.1 (knows_of_canPoint hno.2)
  | newReassembler id =>
    unfold Accounts.step
    dsimp only
    split_ifs with hin
    · exact hs
    · exact inv_newReassembler hs hin
  | enqueue id payload tag now => exact inv_enqueue hs id payload tag now
  | nextTracked id lease =>
    unfold Accounts.step
    dsimp only
    rcases hq : s.queues.lookup id with _ | q
    · exact hs
    · dsimp only
      rcases hnext : q.nextTracked with _ | ⟨p, q'⟩
      · exact hs
      · dsimp only
        split_ifs with hin
        · exact hs
        · exact inv_nextTracked hs hq hnext hin
  | done lease =>
    unfold Accounts.step
    dsimp only
    rcases hl : s.leases.lookup lease with _ | l
    · exact hs
    · dsimp only
      split_ifs with hdone
      · exact hs
      · exact inv_done hs hl (by simpa using hdone)
  | clear id => exact inv_dropAll hs id fun closed => closed
  | close id => exact inv_dropAll hs id fun _ => true
  | accept id w packet now =>
    unfold Accounts.step
    refine inv_onReassembler hs id (fun r g hg hr => ?_) fun r hr => ?_
    · have hstep := accept_step hg hr w packet now
      exact ⟨hstep.charged, hstep.rules⟩
    -- a closed reassembler ignores every packet
    · have hskip : r.accept s.budgets w packet now = ⟨r, s.budgets, w, none⟩ := if_pos (.inl hr.1)
      dsimp only
      rw [hskip]; exact hr
  | expire id now =>
    unfold Accounts.step
    refine inv_onReassembler hs id (fun r g hg hr => ?_) fun r hr => ?_
    · unfold UdpFragmentReassembler.expire
      split_ifs
      · exact ⟨hr, .refl _⟩
      · exact ⟨(expireLocked_step hg hr now).charged, (expireLocked_step hg hr now).rules⟩
    · unfold UdpFragmentReassembler.expire
      rw [if_pos hr.1]; exact hr
  | evict id =>
    unfold Accounts.step
    refine inv_onReassembler hs id (fun r g hg hr => ?_) fun r hr => ?_
    · exact ⟨(evictOldestLocked_step hg hr).charged, (evictOldestLocked_step hg hr).rules⟩
    · have hnone : r.evictOldestLocked s.budgets = (r, s.budgets) := by
        unfold UdpFragmentReassembler.evictOldestLocked
        rw [hr.2]
        rfl
      rw [hnone]; exact hr
  | setBudget id budget =>
    unfold Accounts.step
    dsimp only
    split_ifs with hno
    · exact hs
    · refine inv_onReassembler hs id (fun r g hg hr => ?_) fun r hr => ?_
      · exact setBudget_step hg hr (knows_of_canPoint hno)
      · unfold UdpFragmentReassembler.setBudget
        split_ifs
        · exact hr
        · exact ⟨hr.1, rfl⟩
  | clearFragments id =>
    unfold Accounts.step
    refine inv_onReassembler hs id (fun r g hg hr => ?_) fun r hr => ⟨hr.1, rfl⟩
    exact ⟨(clearLocked_step hg hr).charged, (clearLocked_step hg hr).rules⟩
  | closeStore id =>
    unfold Accounts.step
    exact inv_onReassembler hs id (fun r g _ hr => ⟨⟨hr.knows, hr.balanced⟩, .refl _⟩)
      fun r hr => ⟨rfl, hr.2⟩
  -- the only call after which a reassembler must be closed and empty
  | closeClear id =>
    unfold Accounts.step
    dsimp only
    rcases hx : s.reassemblers.lookup id with _ | x
    · exact hs
    · dsimp only
      split_ifs with hopen
      · exact hs
      · have hstep := clearLocked_step (butReassembler_nonneg s id) (charged_of_inv hs hx)
        exact inv_insert_reassembler hs hstep.charged hstep.rules fun _ =>
          ⟨Bool.eq_true_of_not_eq_false hopen, rfl⟩

/-- Every queue is closed, every `close` of a reassembler has returned, every
lease is done. -/
def Accounts.AllClosed (s : Accounts τ) : Prop :=
  (∀ id q, s.queues.lookup id = some q → q.closed = true) ∧
  (∀ id l, s.leases.lookup id = some l → l.leaseDone = true) ∧
  (∀ id x, s.reassemblers.lookup id = some x → x.closeReturned = true)

/-- What the budgets promise about the bytes in the process. -/
structure Accounts.Accounted (s : Accounts τ) : Prop where
  rule : ∀ i r, s.budgets.rules.lookup i = some r →
    r.used = s.queued i + s.leased i + s.fragments i
  process : s.budgets.process.used = GoMap.sumOver (fun _ r => r.used) s.budgets.rules
  rule_limit : ∀ i r, s.budgets.rules.lookup i = some r → r.used ≤ r.limit
  process_limit : s.budgets.process.used ≤ s.budgets.process.limit
  never_clamped : s.budgets.clamped = 0
  drained : s.AllClosed → s.budgets.process.used = 0 ∧
    ∀ i r, s.budgets.rules.lookup i = some r → r.used = 0

theorem charge_of_allClosed (hs : s.Inv) (hclosed : s.AllClosed) (i : ℕ) : s.charge i = 0 := by
  obtain ⟨hqueues, hleases, hreassemblers⟩ := hclosed
  have hq : s.queued i = 0 := sumOver_eq_zero fun id q hq => by
    rw [queueShare, (hs.queues id q hq).1.empty (hqueues id q hq)]
    exact share_zero _ _
  have hl : s.leased i = 0 := sumOver_eq_zero fun id l hl => if_pos (hleases id l hl)
  have hf : s.fragments i = 0 := sumOver_eq_zero fun id x hx => by
    rw [fragmentShare, UdpFragmentReassembler.held,
      ((hs.reassemblers id x hx).2 (hreassemblers id x hx)).2]
    exact share_zero _ _
  rw [charge, hq, hl, hf, add_zero, add_zero]

theorem accounted_of_inv (hs : s.Inv) : s.Accounted where
  rule := hs.balanced.rule
  process := hs.balanced.process
  rule_limit := hs.balanced.rule_limit
  process_limit := hs.balanced.process_limit
  never_clamped := hs.balanced.unclamped
  drained hclosed := by
    have hzero : ∀ i r, s.budgets.rules.lookup i = some r → r.used = 0 := fun i r hr =>
      (hs.balanced.rule i r hr).trans (charge_of_allClosed hs hclosed i)
    exact ⟨hs.balanced.process.trans (sumOver_eq_zero hzero), hzero⟩

/-- **Byte-budget accounting.** After every sequence of calls on any number of
queues, leases and reassemblers, from any process limit. -/
theorem udpBudgets_accounted (limit : ℤ) (es : List (AccountEvent τ)) :
    (run Accounts.step (Accounts.new limit) es).Accounted :=
  accounted_of_inv (run_invariant Accounts.inv_step es _ (Accounts.inv_new limit))

end ForwardX.Fxp
