/-
The gate of agent heartbeats: `AgentHeartbeatGate` of `server/agentHeartbeatGate.ts`.

A lease is ended by its release, or by a `clear` of its host. So the count of a host is that of the
leases held, until a lease of an older generation is released late.
-/
import ForwardX.Lib.Chain
import ForwardX.Lib.JsMap
import ForwardX.Lib.Run
import ForwardX.Panel.JsValues
import Mathlib.Data.Finset.Card

namespace ForwardX.Panel.HeartbeatGate

open Chain Run List

/-! ## The gate -/

structure GateOptions where
  coalesceMs : ℤ := 5000
  maxConcurrent : ℤ := 8
  waitingTimeoutMs : ℤ := 30000

/-- `released` is the flag of the closure; `ended`, that the lease was released or its host
cleared. -/
structure Lease where
  hostId : ℕ
  released : Bool := false
  ended : Bool := false

structure AgentHeartbeatGate where
  active : Finset ℕ := ∅
  completedAt : JsMap ℕ ℤ := ∅
  waiting : List ℕ := []
  waitingSince : JsMap ℕ ℤ := ∅
  leases : List Lease := []

namespace AgentHeartbeatGate

section

variable (options : GateOptions)

/-- The loop of `pruneWaiting`, on the line and the table. -/
def pruneLoop (currentTime : ℤ) : List ℕ → JsMap ℕ ℤ → List ℕ × JsMap ℕ ℤ
  | [], waitingSince => ([], waitingSince)
  | hostId :: rest, waitingSince =>
    if ∃ queuedAt ∈ waitingSince.get hostId, currentTime - queuedAt ≤ options.waitingTimeoutMs then
      (hostId :: rest, waitingSince)
    else pruneLoop currentTime rest (waitingSince.delete hostId)

def pruneWaiting (g : AgentHeartbeatGate) (currentTime : ℤ) : AgentHeartbeatGate :=
  let (waiting, waitingSince) := pruneLoop options currentTime g.waiting g.waitingSince
  { g with waiting, waitingSince }

def enqueue (g : AgentHeartbeatGate) (hostId : ℕ) (currentTime : ℤ) : AgentHeartbeatGate :=
  if g.waitingSince.has hostId then { g with waitingSince := g.waitingSince.set hostId currentTime }
  else { g with waiting := g.waiting ++ [hostId], waitingSince := g.waitingSince.set hostId currentTime }

def removeWaiting (g : AgentHeartbeatGate) (hostId : ℕ) : AgentHeartbeatGate :=
  if g.waitingSince.has hostId then
    { g with waiting := g.waiting.erase hostId, waitingSince := g.waitingSince.delete hostId }
  else g

def grant (g : AgentHeartbeatGate) (hostId : ℕ) : AgentHeartbeatGate :=
  { g with active := insert hostId g.active, leases := g.leases ++ [⟨hostId, false, false⟩] }

/-- After `pruneWaiting`, for a host that may be let in. -/
def letIn (g : AgentHeartbeatGate) (hostId : ℕ) (currentTime : ℤ) : AgentHeartbeatGate :=
  if max 1 options.maxConcurrent ≤ g.active.card then g.enqueue hostId currentTime
  else
    match g.waiting with
    | [] => g.grant hostId
    | first :: rest =>
      if ¬ g.waitingSince.has hostId then g.enqueue hostId currentTime
      else if first ≠ hostId then { g with waitingSince := g.waitingSince.set hostId currentTime }
      else grant { g with waiting := rest, waitingSince := g.waitingSince.delete hostId } hostId

def tryAcquire (g : AgentHeartbeatGate) (hostIdValue : JsNumber) (force : Bool) (currentTime : ℤ) :
    AgentHeartbeatGate :=
  let hostId := positiveInteger hostIdValue
  if hostId = 0 then g
  else
    let g := g.pruneWaiting options currentTime
    let recentlyCompleted := currentTime - (g.completedAt.get hostId).getD 0 < options.coalesceMs
    if hostId ∈ g.active ∨ (force = false ∧ recentlyCompleted) then g
    else g.letIn options hostId currentTime

def release (g : AgentHeartbeatGate) (l : ℕ) (now : ℤ) : AgentHeartbeatGate :=
  match g.leases[l]? with
  | none => g
  | some lease =>
    if lease.released then g
    else { g with
      leases := g.leases.modify l fun lease => { lease with released := true, ended := true }
      active := g.active.erase lease.hostId
      completedAt := g.completedAt.set lease.hostId now }

/-- Of the host, or of everything. No table has a key that is not a positive integer. -/
def clear (g : AgentHeartbeatGate) (hostIdValue : Option JsNumber) : AgentHeartbeatGate :=
  match hostIdValue with
  | none => { leases := g.leases.map fun lease => { lease with ended := true } }
  | some value =>
    let hostId := positiveInteger value
    removeWaiting { g with
      active := g.active.erase hostId
      completedAt := g.completedAt.delete hostId
      leases := g.leases.map fun lease => { lease with ended := lease.ended || lease.hostId = hostId } } hostId

end

/-- Granted, and neither released nor cleared. -/
def outstanding (g : AgentHeartbeatGate) : List ℕ := (g.leases.filter fun lease => !lease.ended).map Lease.hostId

end AgentHeartbeatGate

inductive GateEvent where
  | tryAcquire (hostIdValue : JsNumber) (force : Bool) (currentTime : ℤ)
  | release (l : ℕ) (now : ℤ)
  | clear (hostIdValue : Option JsNumber)

def stepGate (options : GateOptions) (g : AgentHeartbeatGate) : GateEvent → AgentHeartbeatGate
  | .tryAcquire hostIdValue force currentTime => g.tryAcquire options hostIdValue force currentTime
  | .release l now => g.release l now
  | .clear hostIdValue => g.clear hostIdValue

/-- No lease is released whose host was cleared since its grant and has a newer one. -/
def NoStaleRelease (g : AgentHeartbeatGate) : GateEvent → Prop
  | .release l _ => ∀ lease ∈ g.leases[l]?, lease.released = false → lease.ended →
      lease.hostId ∉ g.outstanding
  | _ => True

instance (g : AgentHeartbeatGate) : (e : GateEvent) → Decidable (NoStaleRelease g e)
  | .tryAcquire _ _ _ => .isTrue trivial
  | .release l _ => inferInstanceAs (Decidable (∀ lease ∈ g.leases[l]?, lease.released = false →
      lease.ended → lease.hostId ∉ g.outstanding))
  | .clear _ => .isTrue trivial

/-! ## The line and the table -/

namespace AgentHeartbeatGate

structure SameHosts (waiting : List ℕ) (waitingSince : JsMap ℕ ℤ) : Prop where
  nodup : waiting.Nodup
  has_iff : ∀ h, waitingSince.has h ↔ h ∈ waiting

variable {waitingSince : JsMap ℕ ℤ}

theorem SameHosts.tail {first : ℕ} {rest : List ℕ}
    (h : SameHosts (first :: rest) waitingSince) : SameHosts rest (waitingSince.delete first) where
  nodup := (nodup_cons.mp h.nodup).2
  has_iff := by
    intro host
    have hfirst := (nodup_cons.mp h.nodup).1
    rw [JsMap.has_delete_iff, h.has_iff, mem_cons]
    constructor
    · rintro ⟨hne, heq | hmem⟩
      · exact absurd heq hne
      · exact hmem
    · intro hmem
      refine ⟨?_, .inr hmem⟩
      rintro rfl
      exact hfirst hmem

section

variable {waiting : List ℕ} {hostId : ℕ} (now : ℤ) (h : SameHosts waiting waitingSince)

include now h

theorem SameHosts.append (hnew : ¬ waitingSince.has hostId) :
    SameHosts (waiting ++ [hostId]) (waitingSince.set hostId now) where
  nodup := by
    rw [h.has_iff] at hnew
    rw [nodup_append]
    refine ⟨h.nodup, nodup_singleton _, ?_⟩
    intro a ha b hb heq
    rw [mem_singleton] at hb
    exact hnew (hb ▸ heq ▸ ha)
  has_iff := by
    intro host
    rw [JsMap.has_set_iff, h.has_iff, mem_append, mem_singleton, or_comm]

theorem SameHosts.touch (hhas : waitingSince.has hostId) :
    SameHosts waiting (waitingSince.set hostId now) where
  nodup := h.nodup
  has_iff := by
    intro host
    rw [JsMap.has_set_iff, h.has_iff]
    constructor
    · rintro (rfl | hmem)
      · exact (h.has_iff host).mp hhas
      · exact hmem
    · exact .inr

end

theorem SameHosts.erase {waiting : List ℕ} (hostId : ℕ)
    (h : SameHosts waiting waitingSince) : SameHosts (waiting.erase hostId) (waitingSince.delete hostId) where
  nodup := h.nodup.erase hostId
  has_iff := by
    intro host
    rw [JsMap.has_delete_iff, h.has_iff, h.nodup.mem_erase_iff]

theorem pruneLoop_spec (options : GateOptions) (currentTime : ℤ) (waiting : List ℕ) :
    ∀ waitingSince, SameHosts waiting waitingSince →
      let pruned := pruneLoop options currentTime waiting waitingSince
      SameHosts pruned.1 pruned.2 ∧ ∀ h ∈ pruned.1, h ∈ waiting := by
  induction waiting with
  | nil =>
    intro waitingSince h
    exact ⟨h, fun _ hmem => hmem⟩
  | cons first rest ih =>
    intro waitingSince h
    dsimp only
    rw [pruneLoop]
    split
    · exact ⟨h, fun _ hmem => hmem⟩
    · obtain ⟨hsame, hsub⟩ := ih _ h.tail
      exact ⟨hsame, fun host hmem => mem_cons_of_mem _ (hsub host hmem)⟩

/-! ## The leases -/

section

variable {f : Lease → Lease} (hf : ∀ lease, (f lease).ended) {leases : List Lease} {l : ℕ} {lease : Lease}
  (hl : leases[l]? = some lease)

include hf hl

theorem perm_outstanding_modify (hended : lease.ended = false) :
    (lease.hostId :: ((leases.modify l f).filter fun lease => !lease.ended).map Lease.hostId).Perm
      ((leases.filter fun lease => !lease.ended).map Lease.hostId) := by
  induction leases generalizing l with
  | nil => cases hl
  | cons first rest ih =>
    cases l with
    | zero =>
      obtain rfl := Option.some.inj hl
      simp [modify_zero_cons, hf, hended]
    | succ l =>
      have hrest := ih (l := l) hl
      rw [modify_succ_cons, filter_cons, filter_cons]
      split
      · rw [map_cons, map_cons]
        exact (List.Perm.swap _ _ _).trans (hrest.cons _)
      · exact hrest

theorem outstanding_modify_of_ended (hended : lease.ended) :
    (leases.modify l f).filter (fun lease => !lease.ended) = leases.filter fun lease => !lease.ended := by
  induction leases generalizing l with
  | nil => cases hl
  | cons first rest ih =>
    cases l with
    | zero =>
      obtain rfl := Option.some.inj hl
      simp [modify_zero_cons, hf, hended]
    | succ l =>
      rw [modify_succ_cons, filter_cons, filter_cons, ih (l := l) hl]

end

theorem outstanding_map (leases : List Lease) (hostId : ℕ) :
    ((leases.map fun lease => { lease with ended := lease.ended || lease.hostId = hostId }).filter
        fun lease => !lease.ended).map Lease.hostId
      = ((leases.filter fun lease => !lease.ended).map Lease.hostId).filter (· ≠ hostId) := by
  induction leases with
  | nil => rfl
  | cons lease rest ih =>
    rw [map_cons, filter_cons, filter_cons]
    cases hended : lease.ended
    · by_cases hhost : lease.hostId = hostId
      · simp [hhost, ih]
      · simp [hhost, ih]
    · simp [ih]

end AgentHeartbeatGate

open AgentHeartbeatGate

/-! ## What every step keeps -/

section

variable {options : GateOptions}

/-- `held` counts leases: no host has two. -/
structure Kept (options : GateOptions) (g : AgentHeartbeatGate) : Prop where
  line : AgentHeartbeatGate.SameHosts g.waiting g.waitingSince
  apart : ∀ h ∈ g.active, h ∉ g.waiting
  held : g.outstanding.Nodup
  active_iff : ∀ h, h ∈ g.active ↔ h ∈ g.outstanding
  room : (g.active.card : ℤ) ≤ max 1 options.maxConcurrent

theorem Kept.start : Kept options {} where
  line := ⟨nodup_nil, by simp⟩
  apart := by simp
  held := nodup_nil
  active_iff := by simp [outstanding]
  room := by simp

variable {g : AgentHeartbeatGate}

section

variable (h : Kept options g)

include h

theorem Kept.line_changes {waiting : List ℕ}
    {waitingSince : JsMap ℕ ℤ} (hline : AgentHeartbeatGate.SameHosts waiting waitingSince)
    (hsub : ∀ host ∈ waiting, host ∈ g.waiting ∨ host ∉ g.active) : Kept options { g with waiting, waitingSince } where
  line := hline
  apart := by
    intro host hactive hmem
    rcases hsub host hmem with hold | hfree
    · exact h.apart host hactive hold
    · exact hfree hactive
  held := h.held
  active_iff := h.active_iff
  room := h.room

theorem Kept.pruneWaiting (currentTime : ℤ) : Kept options (g.pruneWaiting options currentTime) := by
  obtain ⟨hline, hsub⟩ := pruneLoop_spec options currentTime g.waiting g.waitingSince h.line
  exact h.line_changes hline fun host hmem => .inl (hsub host hmem)

theorem Kept.enqueue {hostId : ℕ} (currentTime : ℤ)
    (hfree : hostId ∉ g.active) : Kept options (g.enqueue hostId currentTime) := by
  rw [AgentHeartbeatGate.enqueue]
  split
  · rename_i hhas
    exact h.line_changes (h.line.touch currentTime hhas) fun host hmem => .inl hmem
  · rename_i hnew
    refine h.line_changes (h.line.append currentTime hnew) ?_
    intro host hmem
    rw [mem_append, mem_singleton] at hmem
    rcases hmem with hmem | rfl
    · exact .inl hmem
    · exact .inr hfree

theorem Kept.removeWaiting (hostId : ℕ) : Kept options (g.removeWaiting hostId) := by
  rw [AgentHeartbeatGate.removeWaiting]
  split
  · exact h.line_changes (h.line.erase hostId) fun host hmem => .inl (mem_of_mem_erase hmem)
  · exact h

theorem Kept.grant {hostId : ℕ} (hfree : hostId ∉ g.active)
    (hwaiting : hostId ∉ g.waiting) (hroom : (g.active.card : ℤ) < max 1 options.maxConcurrent) :
    Kept options (g.grant hostId) := by
  have houtstanding : (g.grant hostId).outstanding = g.outstanding ++ [hostId] := by
    simp [AgentHeartbeatGate.grant, outstanding]
  constructor
  · exact h.line
  · intro host hactive
    rcases Finset.mem_insert.mp hactive with rfl | hold
    · exact hwaiting
    · exact h.apart host hold
  · rw [houtstanding, nodup_append]
    refine ⟨h.held, nodup_singleton _, ?_⟩
    intro a ha b hb heq
    rw [mem_singleton] at hb
    exact hfree ((h.active_iff hostId).mpr (hb ▸ heq ▸ ha))
  · intro host
    rw [houtstanding, mem_append, mem_singleton, ← h.active_iff, or_comm]
    exact Finset.mem_insert
  · have hcard : (g.grant hostId).active.card = g.active.card + 1 := Finset.card_insert_of_notMem hfree
    rw [hcard]
    omega

theorem Kept.letIn {hostId : ℕ} (currentTime : ℤ)
    (hfree : hostId ∉ g.active) : Kept options (g.letIn options hostId currentTime) := by
  rw [AgentHeartbeatGate.letIn]
  split
  · exact h.enqueue currentTime hfree
  · rename_i hroom
    split
    · rename_i hnil
      exact h.grant hfree (by simp [hnil]) (by omega)
    · rename_i first rest hline
      split
      · exact h.enqueue currentTime hfree
      · rename_i hhas
        split
        · exact h.line_changes (h.line.touch currentTime (not_not.mp hhas)) fun host hmem => .inl hmem
        · rename_i hfirst
          obtain rfl := not_not.mp hfirst
          have hsame : AgentHeartbeatGate.SameHosts (first :: rest) g.waitingSince := hline ▸ h.line
          have htail : Kept options { g with waiting := rest, waitingSince := g.waitingSince.delete first } :=
            h.line_changes hsame.tail fun host hmem => .inl (hline ▸ mem_cons_of_mem _ hmem)
          exact htail.grant hfree (nodup_cons.mp hsame.nodup).1 (not_le.mp hroom)

theorem Kept.tryAcquire (hostIdValue : JsNumber) (force : Bool)
    (currentTime : ℤ) : Kept options (g.tryAcquire options hostIdValue force currentTime) := by
  rw [AgentHeartbeatGate.tryAcquire]
  dsimp only
  split
  · exact h
  · split
    · exact h.pruneWaiting currentTime
    · rename_i hskip
      exact (h.pruneWaiting currentTime).letIn currentTime fun hactive => hskip (.inl hactive)

theorem Kept.fewer {active : Finset ℕ} {completedAt : JsMap ℕ ℤ}
    {leases : List Lease} (hsub : active ⊆ g.active)
    (hheld : ((leases.filter fun lease => !lease.ended).map Lease.hostId).Nodup)
    (hiff : ∀ host, host ∈ active ↔ host ∈ (leases.filter fun lease => !lease.ended).map Lease.hostId) :
    Kept options { g with active, completedAt, leases } where
  line := h.line
  apart host hactive := h.apart host (hsub hactive)
  held := hheld
  active_iff := hiff
  room := by
    have hcard := Finset.card_le_card hsub
    have hroom := h.room
    dsimp only
    omega

/-- **A release.** If its lease was ended by a `clear`, the guard says that no lease of the
host is outstanding, so the host is not active and nothing is taken away. -/
theorem Kept.release {l : ℕ} {now : ℤ}
    (hok : NoStaleRelease g (.release l now)) : Kept options (g.release l now) := by
  rw [AgentHeartbeatGate.release]
  split
  · exact h
  · rename_i lease hl
    split
    · exact h
    · rename_i hreleased
      cases hended : lease.ended with
      | false =>
        have hperm := perm_outstanding_modify
          (f := fun lease => { lease with released := true, ended := true }) (fun _ => rfl) hl hended
        have hcons := hperm.nodup_iff.mpr h.held
        refine h.fewer (Finset.erase_subset _ _) (nodup_cons.mp hcons).2 ?_
        intro host
        have hmem := hperm.mem_iff (a := host)
        rw [mem_cons] at hmem
        rw [Finset.mem_erase, h.active_iff, outstanding, ← hmem]
        constructor
        · rintro ⟨hne, heq | hrest⟩
          · exact absurd heq hne
          · exact hrest
        · intro hrest
          refine ⟨?_, .inr hrest⟩
          rintro rfl
          exact (nodup_cons.mp hcons).1 hrest
      | true =>
        have hgone := hok lease hl (Bool.eq_false_iff.mpr hreleased) hended
        have hsame := outstanding_modify_of_ended
          (f := fun lease => { lease with released := true, ended := true }) (fun _ => rfl) hl hended
        refine h.fewer (Finset.erase_subset _ _) ?_ ?_
        · rw [hsame]
          exact h.held
        · intro host
          rw [hsame, Finset.erase_eq_of_notMem (fun hactive => hgone ((h.active_iff _).mp hactive))]
          exact h.active_iff host

theorem Kept.clear (hostIdValue : Option JsNumber) : Kept options (g.clear hostIdValue) := by
  cases hostIdValue with
  | none =>
    have hnone : ((g.leases.map fun lease => { lease with ended := true }).filter fun lease => !lease.ended) = [] := by
      simp
    refine ⟨⟨nodup_nil, ?_⟩, ?_, ?_, ?_, ?_⟩
    · simp [AgentHeartbeatGate.clear]
    · simp [AgentHeartbeatGate.clear]
    · rw [outstanding, AgentHeartbeatGate.clear, hnone]
      exact nodup_nil
    · rw [outstanding, AgentHeartbeatGate.clear, hnone]
      simp
    · simp [AgentHeartbeatGate.clear]
  | some value =>
    refine Kept.removeWaiting (h.fewer (Finset.erase_subset _ _) ?_ ?_) _
    · rw [outstanding_map]
      exact h.held.filter _
    · intro host
      rw [outstanding_map, Finset.mem_erase, mem_filter, h.active_iff, and_comm]
      simp [outstanding]

end

theorem Kept.step {e : GateEvent} (hok : NoStaleRelease g e) (h : Kept options g) :
    Kept options (stepGate options g e) := by
  cases e with
  | tryAcquire hostIdValue force currentTime => exact h.tryAcquire hostIdValue force currentTime
  | release l now => exact h.release hok
  | clear hostIdValue => exact h.clear hostIdValue

theorem kept_of_run {events : List GateEvent} (h : Admissible NoStaleRelease (stepGate options) {} events) :
    Kept options (run (stepGate options) {} events) :=
  run_invariant_of_admissible (I := Kept options) (fun _ _ hok hkept => hkept.step hok) events _ h Kept.start

theorem Kept.length_outstanding (h : Kept options g) : g.outstanding.length = g.active.card := by
  have hactive : g.active = g.outstanding.toFinset := by
    ext host
    rw [mem_toFinset, h.active_iff]
  rw [hactive, toFinset_card_of_nodup h.held]

theorem Kept.active_of_release (h : Kept options g) {l : ℕ} {now : ℤ}
    (hok : NoStaleRelease g (.release l now)) {k : ℕ} {lease : Lease} (hk : k ≠ l)
    (hlease : g.leases[k]? = some lease) (hended : lease.ended = false) :
    (g.release l now).leases[k]? = some lease ∧ lease.hostId ∈ (g.release l now).active := by
  have hsame : (g.release l now).leases[k]? = some lease := by
    rw [AgentHeartbeatGate.release]
    split
    · exact hlease
    · split
      · exact hlease
      · exact getElem?_modify_iff.mpr ⟨lease, hlease, (if_neg hk).symm⟩
  refine ⟨hsame, ((h.release hok).active_iff _).mpr ?_⟩
  rw [outstanding, mem_map]
  refine ⟨lease, mem_filter.mpr ⟨mem_of_getElem? hsame, ?_⟩, rfl⟩
  rw [hended]
  rfl

end

/-- **One lease a host, and no more than the limit**, in every run without a stale release. -/
theorem gate_keeps (options : GateOptions) (events : List GateEvent)
    (h : Admissible NoStaleRelease (stepGate options) {} events) :
    let g := run (stepGate options) {} events
    (g.outstanding.Nodup ∧ (g.outstanding.length : ℤ) ≤ max 1 options.maxConcurrent) ∧
    (∀ host, host ∈ g.active ↔ host ∈ g.outstanding) ∧
    (∀ host ∈ g.active, host ∉ g.waiting) ∧
    (g.waiting.Nodup ∧ ∀ host, g.waitingSince.has host ↔ host ∈ g.waiting) ∧
    ∀ l now, NoStaleRelease g (.release l now) → ∀ (k : ℕ) (lease : Lease), k ≠ l →
      g.leases[k]? = some lease → lease.ended = false →
      (g.release l now).leases[k]? = some lease ∧ lease.hostId ∈ (g.release l now).active := by
  have hkept := kept_of_run h
  refine ⟨⟨hkept.held, ?_⟩, hkept.active_iff, hkept.apart, ⟨hkept.line.nodup, hkept.line.has_iff⟩, ?_⟩
  · rw [hkept.length_outstanding]
    exact hkept.room
  · intro l now hok k lease hk hlease hended
    exact hkept.active_of_release hok hk hlease hended

/-- Host 5 is let in, cleared and let in again, beside host 6, whose lease is released. -/
def clearedOnce : List GateEvent :=
  [.tryAcquire (.finite 5) true 10000, .tryAcquire (.finite 6) false 10000, .clear (some (.finite 5)),
    .tryAcquire (.finite 5) true 10001, .release 1 10002]

theorem gate_keeps_cleared : (run (stepGate {}) {} clearedOnce).outstanding = [5] ∧
    (∀ host, host ∈ (run (stepGate {}) {} clearedOnce).active ↔ host ∈ [5]) := by
  have hkeeps := gate_keeps {} clearedOnce (by decide +kernel)
  have hheld : (run (stepGate {}) {} clearedOnce).outstanding = [5] := by decide +kernel
  refine ⟨hheld, ?_⟩
  rw [← hheld]
  exact hkeeps.2.1

/-- The first lease of host 5 is released after the second was granted, and a third is granted
while the second is outstanding. -/
theorem stale_release_frees :
    ¬ (let g := run (stepGate {}) {} (clearedOnce ++ [.release 0 10003, .tryAcquire (.finite 5) true 10004])
      g.outstanding.Nodup) ∧
    ¬ (let g := run (stepGate {}) {} (clearedOnce ++ [.release 0 10003])
      ∀ host ∈ g.outstanding, host ∈ g.active) := by
  decide +kernel

end ForwardX.Panel.HeartbeatGate
