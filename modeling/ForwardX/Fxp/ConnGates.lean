/-
The connection gates of `forwardx-fxp/main.go`.

A token holds one place of its gate and one of its address until it is released, once. So the counts
are sums over the tokens that are held, and a release that comes twice finds its token gone.
-/
import ForwardX.Lib.Chain
import ForwardX.Lib.GoMap
import ForwardX.Lib.Run
import Mathlib.Algebra.Order.Group.Int

namespace ForwardX.Fxp.ConnGates

open List

open Chain (getElem?_concat_iff getElem?_modify_iff countP_modify)
open Run (run run_invariant)

/-! ## One gate -/

structure ConnGate where
  maxConnections : ℤ
  maxPerIP : ℤ
  active : ℤ := 0
  ips : GoMap String ℤ := ∅

def newConnGate (maxConnections maxIPs : ℤ) : ConnGate where
  maxConnections := maxConnections
  maxPerIP := maxIPs

/-- The closure of a granted `acquire`. `released` when its `once.Do` has run. -/
structure Token where
  ip : String
  trackIP : Bool
  released : Bool := false

/-- `g.ips[ip]`. -/
def ConnGate.countFor (g : ConnGate) (ip : String) : ℤ := (g.ips.lookup ip).getD 0

/-- `ip` is the `remoteIP` of the address. -/
def ConnGate.acquire (g : ConnGate) (ip : String) : ConnGate × Option Token × String :=
  let trackIP := decide (0 < g.maxPerIP) && ip != ""
  if 0 < g.maxConnections ∧ g.maxConnections ≤ g.active then (g, none, "maxConnections")
  else if trackIP ∧ g.maxPerIP ≤ g.countFor ip then (g, none, "maxIPs")
  else
    ({ g with
        active := g.active + 1
        ips := if trackIP then g.ips.insert ip (g.countFor ip + 1) else g.ips },
      some ⟨ip, trackIP, false⟩, "")

def ConnGate.release (g : ConnGate) (token : Token) : ConnGate :=
  if token.released then g
  else
    { g with
        active := if 0 < g.active then g.active - 1 else g.active
        ips :=
          if token.trackIP then
            if g.countFor token.ip ≤ 1 then g.ips.erase token.ip
            else g.ips.insert token.ip (g.countFor token.ip - 1)
          else g.ips }

def Token.spend (token : Token) : Token := { token with released := true }

def Token.held (token : Token) : Bool := !token.released

def Token.heldFor (ip : String) (token : Token) : Bool := token.held && token.trackIP && token.ip == ip

/-- A gate and the tokens it has granted so far. -/
structure Granted where
  gate : ConnGate
  tokens : List Token := []

def Granted.acquire (b : Granted) (ip : String) : Granted × Option ℕ × String :=
  match b.gate.acquire ip with
  | (gate, some token, reason) => (⟨gate, b.tokens ++ [token]⟩, some b.tokens.length, reason)
  | (gate, none, reason) => ({ b with gate }, none, reason)

def Granted.release (b : Granted) (i : ℕ) : Granted :=
  match b.tokens[i]? with
  | some token => ⟨b.gate.release token, b.tokens.modify i Token.spend⟩
  | none => b

inductive GateEvent where
  | acquire (ip : String)
  | release (i : ℕ)

def Granted.step (b : Granted) : GateEvent → Granted
  | .acquire ip => (b.acquire ip).1
  | .release i => b.release i

/-! ## Exact counts -/

/-- The counts are those of the tokens held, and within the limits. -/
structure Exact (b : Granted) : Prop where
  counted : b.gate.active = b.tokens.countP Token.held
  countedFor : ∀ ip, b.gate.countFor ip = b.tokens.countP (Token.heldFor ip)
  nonneg : 0 ≤ b.gate.active
  nonnegFor : ∀ ip, 0 ≤ b.gate.countFor ip
  limit : 0 < b.gate.maxConnections → b.gate.active ≤ b.gate.maxConnections
  limitFor : 0 < b.gate.maxPerIP → ∀ ip, b.gate.countFor ip ≤ b.gate.maxPerIP
  listed : ∀ ip n, b.gate.ips.lookup ip = some n → 0 < n

open Token

theorem Exact.of_counts {b : Granted} (hcounted : b.gate.active = b.tokens.countP held)
    (hcountedFor : ∀ ip, b.gate.countFor ip = b.tokens.countP (heldFor ip))
    (hlimit : 0 < b.gate.maxConnections → b.gate.active ≤ b.gate.maxConnections)
    (hlimitFor : 0 < b.gate.maxPerIP → ∀ ip, b.gate.countFor ip ≤ b.gate.maxPerIP)
    (hlisted : ∀ ip n, b.gate.ips.lookup ip = some n → 0 < n) : Exact b where
  counted := hcounted
  countedFor := hcountedFor
  nonneg := by rw [hcounted]; omega
  nonnegFor := fun ip => by rw [hcountedFor]; omega
  limit := hlimit
  limitFor := hlimitFor
  listed := hlisted

theorem exact_new (maxConnections maxIPs : ℤ) : Exact ⟨newConnGate maxConnections maxIPs, []⟩ :=
  Exact.of_counts rfl (fun _ => rfl) (fun h => h.le) (fun h _ => h.le) fun _ _ h => by cases h

/-! ## What an acquisition does -/

section

variable {g : ConnGate} {ip : String}

theorem ConnGate.acquire_cases (g : ConnGate) (ip : String) :
    (∃ reason, g.acquire ip = (g, none, reason)) ∨
    ∃ token g', g.acquire ip = (g', some token, "") ∧ token.released = false ∧ token.ip = ip ∧
      (0 < g.maxConnections → g.active < g.maxConnections) ∧
      (token.trackIP = true → 0 < g.maxPerIP ∧ g.countFor ip < g.maxPerIP) ∧
      g' = { g with
        active := g.active + 1
        ips := if token.trackIP then g.ips.insert ip (g.countFor ip + 1) else g.ips } := by
  unfold ConnGate.acquire
  dsimp only
  by_cases hfull : 0 < g.maxConnections ∧ g.maxConnections ≤ g.active
  · rw [if_pos hfull]
    exact .inl ⟨_, rfl⟩
  · rw [if_neg hfull]
    split
    · exact .inl ⟨_, rfl⟩
    · rename_i hroom
      refine .inr ⟨_, _, rfl, rfl, rfl, by omega, ?_, rfl⟩
      intro htrack
      have hmax : 0 < g.maxPerIP := by
        simp only [Bool.and_eq_true, decide_eq_true_eq] at htrack
        exact htrack.1
      refine ⟨hmax, ?_⟩
      by_contra hge
      exact hroom ⟨htrack, by omega⟩

end

/-! ## The counts of one address -/

/-- One connection more or less, when the token is counted for the address. -/
def Token.share (token : Token) (ip : String) : ℤ := if token.trackIP = true ∧ token.ip = ip then 1 else 0

theorem countFor_insert (g : ConnGate) (ip ip' : String) (n active : ℤ) :
    ConnGate.countFor { g with active := active, ips := g.ips.insert ip n } ip' =
      if ip' = ip then n else g.countFor ip' := by
  unfold ConnGate.countFor
  split
  · rename_i heq
    rw [heq, AList.lookup_insert, Option.getD_some]
  · rename_i hne
    rw [AList.lookup_insert_ne hne]

theorem countFor_erase (g : ConnGate) (ip ip' : String) (active : ℤ) :
    ConnGate.countFor { g with active := active, ips := g.ips.erase ip } ip' =
      if ip' = ip then 0 else g.countFor ip' := by
  unfold ConnGate.countFor
  split
  · rename_i heq
    rw [heq, AList.lookup_erase, Option.getD_none]
  · rename_i hne
    rw [AList.lookup_erase_ne hne]

theorem countFor_granted (g : ConnGate) (token : Token) (ip : String) :
    ConnGate.countFor
        { g with
          active := g.active + 1
          ips := if token.trackIP then g.ips.insert token.ip (g.countFor token.ip + 1) else g.ips } ip =
      g.countFor ip + token.share ip := by
  unfold Token.share
  by_cases htrack : token.trackIP = true
  · simp only [htrack, if_true, true_and]
    rw [countFor_insert]
    by_cases hip : ip = token.ip
    · rw [if_pos hip, if_pos hip.symm, hip]
    · rw [if_neg hip, if_neg (Ne.symm hip), add_zero]
  · rw [if_neg htrack, if_neg fun h => htrack h.1, add_zero]
    rfl

variable {token : Token}

theorem countFor_release (g : ConnGate) (hheld : token.released = false) (ip : String)
    (hpos : token.trackIP = true → 1 ≤ g.countFor token.ip) :
    (g.release token).countFor ip = g.countFor ip - token.share ip := by
  unfold ConnGate.release Token.share
  rw [hheld, if_neg Bool.false_ne_true]
  by_cases htrack : token.trackIP = true
  · have hone := hpos htrack
    simp only [htrack, if_true, true_and]
    by_cases hlast : g.countFor token.ip ≤ 1
    · simp only [hlast, if_true]
      rw [countFor_erase]
      by_cases hip : ip = token.ip
      · rw [if_pos hip, if_pos hip.symm, hip]
        omega
      · rw [if_neg hip, if_neg (Ne.symm hip), sub_zero]
    · simp only [hlast, if_false]
      rw [countFor_insert]
      by_cases hip : ip = token.ip
      · rw [if_pos hip, if_pos hip.symm, hip]
      · rw [if_neg hip, if_neg (Ne.symm hip), sub_zero]
  · simp only [htrack, Bool.false_eq_true, if_false, false_and, sub_zero]
    rfl

theorem heldFor_eq (ip : String) (token : Token) (hheld : token.released = false) :
    ((if token.heldFor ip then 1 else 0 : ℕ) : ℤ) = token.share ip := by
  unfold heldFor held Token.share
  rw [hheld]
  by_cases htrack : token.trackIP = true
  · by_cases hip : token.ip = ip
    · simp [htrack, hip]
    · simp [htrack, hip]
  · simp [htrack]

/-! ## Every step keeps the counts exact -/

variable {b : Granted}

theorem Exact.acquire (h : Exact b) (ip : String) : Exact (b.acquire ip).1 := by
  unfold Granted.acquire
  obtain ⟨reason, hrefused⟩ | ⟨token, g', hgranted, hheld, rfl, hmax, hper, rfl⟩ := b.gate.acquire_cases ip
  · rw [hrefused]
    exact h
  · rw [hgranted]
    have hshare : ∀ ip, token.share ip = 1 → 0 < b.gate.maxPerIP ∧ b.gate.countFor ip < b.gate.maxPerIP := by
      intro ip hone
      unfold Token.share at hone
      split at hone
      · rename_i hcounts
        rw [← hcounts.2]
        exact hper hcounts.1
      · omega
    refine Exact.of_counts ?_ ?_ ?_ ?_ ?_
    · rw [countP_append, countP_singleton, held, hheld]
      have hcounted := h.counted
      simp only [Bool.not_false, if_true]
      omega
    · intro ip
      show ConnGate.countFor _ ip = _
      rw [countFor_granted, countP_append, countP_singleton, Int.natCast_add,
        heldFor_eq ip token hheld, h.countedFor ip]
    · intro hlimited
      have hroom := hmax hlimited
      show b.gate.active + 1 ≤ b.gate.maxConnections
      omega
    · intro hlimited ip
      show ConnGate.countFor _ ip ≤ b.gate.maxPerIP
      rw [countFor_granted]
      have hbefore := h.limitFor hlimited ip
      by_cases hone : token.share ip = 1
      · have hroom := hshare ip hone
        omega
      · have hzero : token.share ip = 0 := by
          unfold Token.share at hone ⊢
          split
          · rename_i hcounts
            exact absurd (if_pos hcounts) hone
          · rfl
        omega
    · intro ip n hlisted
      show 0 < n
      by_cases htrack : token.trackIP = true
      · simp only [htrack, if_true] at hlisted
        obtain ⟨rfl, rfl⟩ | ⟨-, hold⟩ := GoMap.lookup_insert_eq_some hlisted
        · have hnonneg := h.nonnegFor token.ip
          omega
        · exact h.listed ip n hold
      · simp only [htrack] at hlisted
        exact h.listed ip n hlisted

theorem Exact.counts_held (h : Exact b) {i : ℕ} (ht : b.tokens[i]? = some token)
    (hheld : token.released = false) :
    1 ≤ b.gate.active ∧ (token.trackIP = true → 1 ≤ b.gate.countFor token.ip) := by
  have hmem := mem_of_getElem? ht
  constructor
  · have hpos : 0 < b.tokens.countP held :=
      countP_pos_iff.mpr ⟨token, hmem, by rw [held, hheld]; rfl⟩
    rw [h.counted]
    omega
  · intro htrack
    have hpos : 0 < b.tokens.countP (heldFor token.ip) :=
      countP_pos_iff.mpr ⟨token, hmem, by simp [heldFor, held, hheld, htrack]⟩
    rw [h.countedFor]
    omega

theorem spend_eq_self {tokens : List Token} {i : ℕ} (ht : tokens[i]? = some token)
    (hreleased : token.released = true) : tokens.modify i spend = tokens := by
  refine ext_getElem? fun j => Option.ext fun t => ?_
  rw [getElem?_modify_iff]
  constructor
  · rintro ⟨old, hold, rfl⟩
    split
    · rename_i hji
      rw [hji, ht] at hold
      obtain rfl := Option.some.inj hold
      rw [hji, ht]
      unfold spend
      rw [← hreleased]
    · exact hold
  · intro hold
    refine ⟨t, hold, ?_⟩
    split
    · rename_i hji
      rw [hji, ht] at hold
      obtain rfl := Option.some.inj hold
      unfold spend
      rw [← hreleased]
    · rfl

theorem Granted.release_released {i : ℕ} (ht : b.tokens[i]? = some token)
    (hreleased : token.released = true) : b.release i = b := by
  unfold Granted.release ConnGate.release
  rw [ht]
  simp only [hreleased, if_true]
  rw [spend_eq_self ht hreleased]

theorem Exact.release (h : Exact b) (i : ℕ) : Exact (b.release i) := by
  cases ht : b.tokens[i]? with
  | none =>
    unfold Granted.release
    rw [ht]
    exact h
  | some token =>
    by_cases hreleased : token.released = true
    · rw [Granted.release_released ht hreleased]
      exact h
    · have hheld : token.released = false := Bool.eq_false_iff.mpr hreleased
      obtain ⟨hone, honeFor⟩ := h.counts_held ht hheld
      have hstep : b.release i = ⟨b.gate.release token, b.tokens.modify i spend⟩ := by
        unfold Granted.release
        rw [ht]
      rw [hstep]
      have hactive : (b.gate.release token).active = b.gate.active - 1 := by
        unfold ConnGate.release
        rw [if_neg hreleased]
        exact if_pos (by omega)
      have hlimits : (b.gate.release token).maxConnections = b.gate.maxConnections ∧
          (b.gate.release token).maxPerIP = b.gate.maxPerIP := by
        unfold ConnGate.release
        rw [if_neg hreleased]
        exact ⟨rfl, rfl⟩
      refine Exact.of_counts ?_ ?_ ?_ ?_ ?_
      · have hcount := countP_modify held (f := spend) ht
        rw [show token.spend.held = false from rfl, held, hheld] at hcount
        have hcounted := h.counted
        show (b.gate.release token).active = ((b.tokens.modify i spend).countP held : ℤ)
        simp only [Bool.not_false, if_true, Bool.false_eq_true, if_false] at hcount
        omega
      · intro ip
        have hcount := countP_modify (heldFor ip) (f := spend) ht
        rw [show token.spend.heldFor ip = false from rfl, if_neg Bool.false_ne_true] at hcount
        have hcounted := h.countedFor ip
        have hshare := heldFor_eq ip token hheld
        show (b.gate.release token).countFor ip = ((b.tokens.modify i spend).countP (heldFor ip) : ℤ)
        rw [countFor_release b.gate hheld ip honeFor]
        omega
      · show _ → (b.gate.release token).active ≤ _
        rw [hactive, hlimits.1]
        intro hlimited
        have hbefore := h.limit hlimited
        omega
      · show _ → ∀ ip, (b.gate.release token).countFor ip ≤ _
        rw [hlimits.2]
        intro hlimited ip
        rw [countFor_release b.gate hheld ip honeFor]
        have hbefore := h.limitFor hlimited ip
        have hshare := heldFor_eq ip token hheld
        omega
      · show ∀ ip n, (b.gate.release token).ips.lookup ip = some n → 0 < n
        unfold ConnGate.release
        rw [if_neg hreleased]
        dsimp only
        intro ip n
        split
        · split
          · intro hlisted
            exact h.listed ip n (GoMap.lookup_erase_eq_some hlisted).2
          · rename_i hmany
            intro hlisted
            obtain ⟨rfl, rfl⟩ | ⟨-, hold⟩ := GoMap.lookup_insert_eq_some hlisted
            · omega
            · exact h.listed ip n hold
        · exact h.listed ip n

theorem Exact.step (h : Exact b) (e : GateEvent) : Exact (b.step e) := by
  cases e with
  | acquire ip => exact h.acquire ip
  | release i => exact h.release i

/-! ## The gates of a listener -/

def fxpListenerMaxConnections : ℤ := 8192
def fxpListenerMaxPendingConnections : ℤ := 512
def fxpListenerMaxPendingPerIP : ℤ := 256

/-- A call of `listenerConnGates.acquire`, with the tokens it holds. `releasing` counts the calls of
its `release` that are between `releasePending()` and `releaseActive()`. -/
inductive Call where
  | pending (ip : String) (pending : ℕ)
  | refusing (pending : ℕ) (reason : String)
  | refused (pending : Option ℕ) (reason : String)
  | granted (pending active releasing : ℕ)

/-- Both gates, and the calls so far. -/
structure ListenerConnGates where
  pending : Granted
  active : Granted
  calls : List Call := []

/-- `maxConnections` is the field of the configuration. -/
def newListenerConnGates (maxConnections : ℤ) : ListenerConnGates :=
  let maxConnections :=
    if maxConnections ≤ 0 ∨ fxpListenerMaxConnections < maxConnections then fxpListenerMaxConnections
    else maxConnections
  -- the address is that of the hop before, so only the pending gate looks at it
  let maxPerIP := 0
  let pendingConnections := min maxConnections fxpListenerMaxPendingConnections
  let pendingPerIP := min pendingConnections fxpListenerMaxPendingPerIP
  { pending := ⟨newConnGate pendingConnections pendingPerIP, []⟩
    active := ⟨newConnGate maxConnections maxPerIP, []⟩ }

inductive ListenerEvent where
  /-- A new call, up to `g.pending.acquire`. -/
  | acquire (ip : String)
  /-- `g.active.acquire` of a call. -/
  | activate (c : ℕ)
  /-- `releasePending()` after `g.active` has refused. -/
  | rollBack (c : ℕ)
  /-- The first closure of a granted call. -/
  | startupComplete (c : ℕ)
  /-- The second one, up to `releasePending()`. -/
  | release (c : ℕ)
  /-- The rest of it. -/
  | releaseActive (c : ℕ)

def ListenerConnGates.setCall (g : ListenerConnGates) (c : ℕ) (call : Call) : ListenerConnGates :=
  { g with calls := g.calls.modify c fun _ => call }

def ListenerConnGates.step (g : ListenerConnGates) : ListenerEvent → ListenerConnGates
  | .acquire ip =>
    match g.pending.acquire ip with
    | (pending, some p, _) => { g with pending, calls := g.calls ++ [.pending ip p] }
    | (pending, none, reason) => { g with pending, calls := g.calls ++ [.refused none ("pending/" ++ reason)] }
  | .activate c =>
    match g.calls[c]? with
    | some (.pending ip p) =>
      match g.active.acquire ip with
      | (active, some a, _) => { g with active }.setCall c (.granted p a 0)
      | (active, none, reason) => { g with active }.setCall c (.refusing p reason)
    | _ => g
  | .rollBack c =>
    match g.calls[c]? with
    | some (.refusing p reason) =>
      { g with pending := g.pending.release p }.setCall c (.refused (some p) ("active/" ++ reason))
    | _ => g
  | .startupComplete c =>
    match g.calls[c]? with
    | some (.granted p _ _) => { g with pending := g.pending.release p }
    | _ => g
  | .release c =>
    match g.calls[c]? with
    | some (.granted p a releasing) =>
      { g with pending := g.pending.release p }.setCall c (.granted p a (releasing + 1))
    | _ => g
  | .releaseActive c =>
    match g.calls[c]? with
    | some (.granted p a (releasing + 1)) =>
      { g with active := g.active.release a }.setCall c (.granted p a releasing)
    | _ => g

/-! ## The tokens of the calls -/

def Call.pendingToken : Call → Option ℕ
  | .pending _ p => some p
  | .refusing p _ => some p
  | .refused _ _ => none
  | .granted p _ _ => some p

def Call.activeToken : Call → Option ℕ
  | .granted _ a _ => some a
  | _ => none

/-- Token `i` has been given back. -/
def Granted.Returned (b : Granted) (i : ℕ) : Prop := ∃ token, b.tokens[i]? = some token ∧ token.released = true

/-- Every token held is that of a call that is under way or was granted. -/
def Granted.Answered (b : Granted) (calls : List Call) (tokenOf : Call → Option ℕ) : Prop :=
  ∀ (i : ℕ) (token : Token), b.tokens[i]? = some token → token.released = false →
    ∃ call ∈ calls, tokenOf call = some i

/-- A call knows tokens that exist, and a refused one holds none. -/
def Call.Sound (g : ListenerConnGates) : Call → Prop
  | .pending _ p | .refusing p _ => p < g.pending.tokens.length
  | .refused none _ => True
  | .refused (some p) _ => g.pending.Returned p
  | .granted p a _ => p < g.pending.tokens.length ∧ a < g.active.tokens.length

structure Kept (g : ListenerConnGates) : Prop where
  pending : Exact g.pending
  active : Exact g.active
  sound : ∀ call ∈ g.calls, call.Sound g
  pendingAnswered : g.pending.Answered g.calls Call.pendingToken
  activeAnswered : g.active.Answered g.calls Call.activeToken

/-! ## What a step does to the tokens -/

section

variable {b b' : Granted}

/-- No token is forgotten, and none comes back. -/
def Granted.Grows (b b' : Granted) : Prop :=
  b.tokens.length ≤ b'.tokens.length ∧ ∀ i, b.Returned i → b'.Returned i

theorem Granted.Grows.refl (b : Granted) : b.Grows b := ⟨le_refl _, fun _ h => h⟩

theorem Granted.acquire_cases (b : Granted) (ip : String) :
    (∃ reason, b.acquire ip = (b, none, reason)) ∨
    ∃ b' token, b.acquire ip = (b', some b.tokens.length, "") ∧ b'.tokens = b.tokens ++ [token] := by
  unfold Granted.acquire
  obtain ⟨reason, hrefused⟩ | ⟨token, g', hgranted, -⟩ := b.gate.acquire_cases ip
  · rw [hrefused]
    exact .inl ⟨reason, rfl⟩
  · rw [hgranted]
    exact .inr ⟨_, token, rfl, rfl⟩

theorem Granted.Grows.concat {token : Token} (h : b'.tokens = b.tokens ++ [token]) : b.Grows b' := by
  constructor
  · rw [h, length_append]
    omega
  · rintro i ⟨old, hold, hreleased⟩
    refine ⟨old, ?_, hreleased⟩
    rw [h]
    exact getElem?_concat_iff.mpr (.inl hold)

theorem Granted.tokens_release (b : Granted) (i : ℕ) : (b.release i).tokens = b.tokens.modify i spend := by
  unfold Granted.release
  cases ht : b.tokens[i]? with
  | some token => rfl
  | none =>
    rw [List.getElem?_eq_none_iff] at ht
    exact (modify_eq_self ht).symm

theorem Granted.Grows.release (b : Granted) (i : ℕ) : b.Grows (b.release i) := by
  constructor
  · rw [b.tokens_release, length_modify]
  · rintro j ⟨old, hold, hreleased⟩
    refine ⟨if j = i then old.spend else old, ?_, ?_⟩
    · rw [b.tokens_release]
      exact getElem?_modify_iff.mpr ⟨old, hold, rfl⟩
    · split
      · rfl
      · exact hreleased

theorem Granted.returned_release {i : ℕ} (hi : i < b.tokens.length) : (b.release i).Returned i := by
  refine ⟨b.tokens[i].spend, ?_, rfl⟩
  rw [b.tokens_release]
  exact getElem?_modify_iff.mpr ⟨b.tokens[i], getElem?_eq_getElem hi, (if_pos rfl).symm⟩

theorem Granted.held_of_release {i j : ℕ} {token : Token} (ht : (b.release i).tokens[j]? = some token)
    (hheld : token.released = false) : b.tokens[j]? = some token ∧ j ≠ i := by
  rw [b.tokens_release] at ht
  obtain ⟨old, hold, heq⟩ := getElem?_modify_iff.mp ht
  by_cases hji : j = i
  · rw [if_pos hji] at heq
    rw [heq] at hheld
    cases hheld
  · rw [if_neg hji] at heq
    rw [heq]
    exact ⟨hold, hji⟩

end

section

variable {b b' : Granted} {calls : List Call} {tokenOf : Call → Option ℕ} {old new : Call} {c : ℕ}

theorem Granted.Answered.same (h : b.Answered calls tokenOf)
    (hheld : ∀ (i : ℕ) (token : Token), b'.tokens[i]? = some token → token.released = false →
      b.tokens[i]? = some token) : b'.Answered calls tokenOf :=
  fun i token ht hreleased => h i token (hheld i token ht hreleased) hreleased

theorem Granted.Answered.concat (h : b.Answered calls tokenOf)
    (hheld : ∀ (i : ℕ) (token : Token), b'.tokens[i]? = some token → token.released = false →
      b.tokens[i]? = some token ∨ tokenOf new = some i) : b'.Answered (calls ++ [new]) tokenOf := by
  intro i token ht hreleased
  obtain hold | hnew := hheld i token ht hreleased
  · obtain ⟨call, hmem, hcall⟩ := h i token hold hreleased
    exact ⟨call, mem_append_left _ hmem, hcall⟩
  · exact ⟨new, mem_append_right _ (mem_singleton.mpr rfl), hnew⟩

theorem Granted.Answered.modify (h : b.Answered calls tokenOf) (hc : calls[c]? = some old)
    (hheld : ∀ (i : ℕ) (token : Token), b'.tokens[i]? = some token → token.released = false →
      tokenOf new = some i ∨ (b.tokens[i]? = some token ∧ tokenOf old ≠ some i)) :
    b'.Answered (calls.modify c fun _ => new) tokenOf := by
  intro i token ht hreleased
  obtain hnew | ⟨hold, hother⟩ := hheld i token ht hreleased
  · exact ⟨new, mem_of_getElem? (getElem?_modify_iff.mpr ⟨old, hc, (if_pos rfl).symm⟩), hnew⟩
  · obtain ⟨call, hmem, hcall⟩ := h i token hold hreleased
    obtain ⟨j, hj⟩ := mem_iff_getElem?.mp hmem
    have hjc : j ≠ c := by
      intro hjc
      rw [hjc, hc] at hj
      rw [Option.some.inj hj] at hother
      exact hother hcall
    exact ⟨call, mem_of_getElem? (getElem?_modify_iff.mpr ⟨call, hj, (if_neg hjc).symm⟩), hcall⟩

end

theorem Call.Sound.mono {g g' : ListenerConnGates} {call : Call} (h : call.Sound g)
    (hpending : g.pending.Grows g'.pending) (hactive : g.active.Grows g'.active) : call.Sound g' := by
  cases call with
  | pending ip p => exact lt_of_lt_of_le h hpending.1
  | refusing p reason => exact lt_of_lt_of_le h hpending.1
  | refused p reason =>
    cases p with
    | none => trivial
    | some p => exact hpending.2 p h
  | granted p a releasing => exact ⟨lt_of_lt_of_le h.1 hpending.1, lt_of_lt_of_le h.2 hactive.1⟩

/-! ## Every step of a listener keeps both gates exact -/

section

variable {g g' : ListenerConnGates} {c : ℕ} {old : Call}

section

variable (h : Kept g)

include h

theorem Kept.move (new : Call) (hc : g.calls[c]? = some old) (hcalls : g'.calls = g.calls.modify c fun _ => new)
    (hexactPending : Exact g'.pending) (hexactActive : Exact g'.active)
    (hpending : g.pending.Grows g'.pending) (hactive : g.active.Grows g'.active) (hsound : new.Sound g')
    (hanswerPending : g'.pending.Answered g'.calls Call.pendingToken)
    (hanswerActive : g'.active.Answered g'.calls Call.activeToken) : Kept g' where
  pending := hexactPending
  active := hexactActive
  sound := by
    rw [hcalls]
    exact ForwardX.Chain.forall_mem_modify hc (fun call hmem => (h.sound call hmem).mono hpending hactive) hsound
  pendingAnswered := hanswerPending
  activeAnswered := hanswerActive

theorem Kept.acquire (ip : String) : Kept (g.step (.acquire ip)) := by
  have hexact := h.pending.acquire ip
  unfold ListenerConnGates.step
  dsimp only
  obtain ⟨reason, hrefused⟩ | ⟨b', token, hgranted, htokens⟩ := g.pending.acquire_cases ip
  · rw [hrefused]
    refine ⟨h.pending, h.active, ?_, h.pendingAnswered.concat fun _ _ ht _ => .inl ht,
      h.activeAnswered.concat fun _ _ ht _ => .inl ht⟩
    intro call hmem
    obtain hold | hnew := mem_append.mp hmem
    · exact (h.sound call hold).mono (.refl _) (.refl _)
    · rw [mem_singleton.mp hnew]
      trivial
  · rw [hgranted] at hexact ⊢
    refine ⟨hexact, h.active, ?_, h.pendingAnswered.concat ?_, h.activeAnswered.concat fun _ _ ht _ => .inl ht⟩
    · intro call hmem
      obtain hold | hnew := mem_append.mp hmem
      · exact (h.sound call hold).mono (.concat htokens) (.refl _)
      · rw [mem_singleton.mp hnew]
        show g.pending.tokens.length < b'.tokens.length
        rw [htokens, length_append]
        exact Nat.lt_succ_self _
    · intro i token' ht _
      rw [htokens] at ht
      obtain hold | ⟨rfl, -⟩ := getElem?_concat_iff.mp ht
      · exact .inl hold
      · exact .inr rfl

theorem Kept.activate (c : ℕ) : Kept (g.step (.activate c)) := by
  unfold ListenerConnGates.step
  dsimp only
  split
  · rename_i ip p hc
    have hexact := h.active.acquire ip
    have hp : p < g.pending.tokens.length := h.sound _ (mem_of_getElem? hc)
    have hkeep : ∀ (i : ℕ) (token : Token), g.pending.tokens[i]? = some token → token.released = false →
        some p = some i ∨ (g.pending.tokens[i]? = some token ∧ some p ≠ some i) := by
      intro i token ht _
      by_cases hpi : some p = some i
      · exact .inl hpi
      · exact .inr ⟨ht, hpi⟩
    obtain ⟨reason, hrefused⟩ | ⟨b', token, hgranted, htokens⟩ := g.active.acquire_cases ip
    · rw [hrefused]
      exact h.move (.refusing p reason) hc rfl h.pending h.active (.refl _) (.refl _) hp
        (h.pendingAnswered.modify hc hkeep)
        (h.activeAnswered.modify hc fun i token ht _ => .inr ⟨ht, (Option.some_ne_none i).symm⟩)
    · rw [hgranted] at hexact ⊢
      refine h.move (.granted p g.active.tokens.length 0) hc rfl h.pending hexact (.refl _)
        (.concat htokens) ⟨hp, ?_⟩ (h.pendingAnswered.modify hc hkeep) (h.activeAnswered.modify hc ?_)
      · show g.active.tokens.length < b'.tokens.length
        rw [htokens, length_append]
        exact Nat.lt_succ_self _
      · intro i token' ht _
        have ht' : (g.active.tokens ++ [token])[i]? = some token' := htokens ▸ ht
        obtain hold | ⟨rfl, -⟩ := getElem?_concat_iff.mp ht'
        · exact .inr ⟨hold, (Option.some_ne_none i).symm⟩
        · exact .inl rfl
  · exact h

theorem Kept.rollBack (c : ℕ) : Kept (g.step (.rollBack c)) := by
  unfold ListenerConnGates.step
  dsimp only
  split
  · rename_i p reason hc
    have hp : p < g.pending.tokens.length := h.sound _ (mem_of_getElem? hc)
    refine h.move (.refused (some p) _) hc rfl (h.pending.release p) h.active (.release _ p) (.refl _)
      (Granted.returned_release hp) (h.pendingAnswered.modify hc ?_)
      (h.activeAnswered.modify hc fun i token ht _ => .inr ⟨ht, (Option.some_ne_none i).symm⟩)
    intro i token ht hheld
    obtain ⟨hold, hip⟩ := Granted.held_of_release ht hheld
    exact .inr ⟨hold, fun heq => hip (Option.some.inj heq).symm⟩
  · exact h

theorem Kept.startupComplete (c : ℕ) : Kept (g.step (.startupComplete c)) := by
  unfold ListenerConnGates.step
  dsimp only
  split
  · rename_i p a releasing hc
    exact ⟨h.pending.release p, h.active,
      fun call hmem => (h.sound call hmem).mono (.release _ p) (.refl _),
      h.pendingAnswered.same fun i token ht hheld => (Granted.held_of_release ht hheld).1, h.activeAnswered⟩
  · exact h

theorem Kept.release (c : ℕ) : Kept (g.step (.release c)) := by
  unfold ListenerConnGates.step
  dsimp only
  split
  · rename_i p a releasing hc
    obtain ⟨hp, ha⟩ : p < g.pending.tokens.length ∧ a < g.active.tokens.length :=
      h.sound _ (mem_of_getElem? hc)
    refine h.move (.granted p a (releasing + 1)) hc rfl (h.pending.release p) h.active (.release _ p)
      (.refl _) ⟨lt_of_lt_of_le hp (Granted.Grows.release _ p).1, ha⟩ (h.pendingAnswered.modify hc ?_)
      (h.activeAnswered.modify hc ?_)
    · intro i token ht hheld
      obtain ⟨hold, hip⟩ := Granted.held_of_release ht hheld
      exact .inr ⟨hold, fun heq => hip (Option.some.inj heq).symm⟩
    · intro i token ht _
      by_cases hai : some a = some i
      · exact .inl hai
      · exact .inr ⟨ht, hai⟩
  · exact h

theorem Kept.releaseActive (c : ℕ) : Kept (g.step (.releaseActive c)) := by
  unfold ListenerConnGates.step
  dsimp only
  split
  · rename_i p a releasing hc
    obtain ⟨hp, ha⟩ : p < g.pending.tokens.length ∧ a < g.active.tokens.length :=
      h.sound _ (mem_of_getElem? hc)
    refine h.move (.granted p a releasing) hc rfl h.pending (h.active.release a) (.refl _)
      (.release _ a) ⟨hp, lt_of_lt_of_le ha (Granted.Grows.release _ a).1⟩ (h.pendingAnswered.modify hc ?_)
      (h.activeAnswered.modify hc ?_)
    · intro i token ht _
      by_cases hpi : some p = some i
      · exact .inl hpi
      · exact .inr ⟨ht, hpi⟩
    · intro i token ht hheld
      obtain ⟨hold, hia⟩ := Granted.held_of_release ht hheld
      exact .inr ⟨hold, fun heq => hia (Option.some.inj heq).symm⟩
  · exact h

theorem Kept.step (e : ListenerEvent) : Kept (g.step e) := by
  cases e with
  | acquire ip => exact h.acquire ip
  | activate c => exact h.activate c
  | rollBack c => exact h.rollBack c
  | startupComplete c => exact h.startupComplete c
  | release c => exact h.release c
  | releaseActive c => exact h.releaseActive c

end

end

theorem kept_new (maxConnections : ℤ) : Kept (newListenerConnGates maxConnections) where
  pending := exact_new _ _
  active := exact_new _ _
  sound := fun _ hmem => by cases hmem
  pendingAnswered := fun _ _ ht => by cases ht
  activeAnswered := fun _ _ ht => by cases ht

/-! ## The limits stay -/

def Granted.limits (b : Granted) : ℤ × ℤ := (b.gate.maxConnections, b.gate.maxPerIP)

theorem Granted.limits_acquire (b : Granted) (ip : String) : (b.acquire ip).1.limits = b.limits := by
  unfold Granted.acquire
  obtain ⟨reason, hrefused⟩ | ⟨token, g', hgranted, -, -, -, -, rfl⟩ := b.gate.acquire_cases ip
  · rw [hrefused]
  · rw [hgranted]
    rfl

theorem Granted.limits_release (b : Granted) (i : ℕ) : (b.release i).limits = b.limits := by
  unfold Granted.release ConnGate.release
  split
  · split
    · rfl
    · rfl
  · rfl

theorem Granted.limits_step (b : Granted) (e : GateEvent) : (b.step e).limits = b.limits := by
  cases e with
  | acquire ip => exact b.limits_acquire ip
  | release i => exact b.limits_release i

theorem ListenerConnGates.limits_step (g : ListenerConnGates) (e : ListenerEvent) :
    (g.step e).pending.limits = g.pending.limits ∧ (g.step e).active.limits = g.active.limits := by
  unfold ListenerConnGates.step
  cases e with
  | acquire ip =>
    have hlimits := g.pending.limits_acquire ip
    dsimp only
    split
    · rename_i heq
      rw [heq] at hlimits
      exact ⟨hlimits, rfl⟩
    · rename_i heq
      rw [heq] at hlimits
      exact ⟨hlimits, rfl⟩
  | activate c =>
    dsimp only
    split
    · rename_i ip p hc
      have hlimits := g.active.limits_acquire ip
      split
      · rename_i heq
        rw [heq] at hlimits
        exact ⟨rfl, hlimits⟩
      · rename_i heq
        rw [heq] at hlimits
        exact ⟨rfl, hlimits⟩
    · exact ⟨rfl, rfl⟩
  | rollBack c | startupComplete c | release c =>
    dsimp only
    split
    · exact ⟨Granted.limits_release _ _, rfl⟩
    · exact ⟨rfl, rfl⟩
  | releaseActive c =>
    dsimp only
    split
    · exact ⟨rfl, Granted.limits_release _ _⟩
    · exact ⟨rfl, rfl⟩

/-! ## A refusal -/

structure Same (g g' : ConnGate) : Prop where
  maxConnections : g'.maxConnections = g.maxConnections
  maxPerIP : g'.maxPerIP = g.maxPerIP
  active : g'.active = g.active
  ips : ∀ ip, g'.ips.lookup ip = g.ips.lookup ip

theorem Same.refl (g : ConnGate) : Same g g := ⟨rfl, rfl, rfl, fun _ => rfl⟩

theorem Exact.lookup_restored {b : Granted} (h : Exact b) (ip ip' : String) :
    (if b.gate.countFor ip + 1 ≤ 1 then (b.gate.ips.insert ip (b.gate.countFor ip + 1)).erase ip
      else (b.gate.ips.insert ip (b.gate.countFor ip + 1)).insert ip (b.gate.countFor ip)).lookup ip' =
      b.gate.ips.lookup ip' := by
  have hnonneg := h.nonnegFor ip
  by_cases hip : ip' = ip
  · subst hip
    cases hentry : b.gate.ips.lookup ip' with
    | none =>
      have hcount : b.gate.countFor ip' = 0 := by rw [ConnGate.countFor, hentry, Option.getD_none]
      rw [if_pos (by omega), AList.lookup_erase]
    | some n =>
      have hpos := h.listed ip' n hentry
      have hcount : b.gate.countFor ip' = n := by rw [ConnGate.countFor, hentry, Option.getD_some]
      rw [if_neg (by omega), AList.lookup_insert, hcount]
  · split
    · rw [AList.lookup_erase_ne hip, AList.lookup_insert_ne hip]
    · rw [AList.lookup_insert_ne hip, AList.lookup_insert_ne hip]

theorem Exact.same_release {b : Granted} (h : Exact b) {token : Token} (hheld : token.released = false) :
    Same b.gate (ConnGate.release
      { b.gate with
        active := b.gate.active + 1
        ips := if token.trackIP then b.gate.ips.insert token.ip (b.gate.countFor token.ip + 1) else b.gate.ips }
      token) := by
  have hnonneg := h.nonneg
  unfold ConnGate.release
  rw [if_neg (by rw [hheld]; exact Bool.false_ne_true)]
  refine ⟨rfl, rfl, ?_, ?_⟩
  · show (if 0 < b.gate.active + 1 then b.gate.active + 1 - 1 else b.gate.active + 1) = b.gate.active
    rw [if_pos (by omega)]
    omega
  · intro ip
    by_cases htrack : token.trackIP = true
    · simp only [htrack, if_true]
      rw [countFor_insert, if_pos rfl, add_sub_cancel_right]
      exact h.lookup_restored token.ip ip
    · simp only [htrack, Bool.false_eq_true, if_false]

theorem Exact.release_acquire {b b' : Granted} {ip : String} {i : ℕ} {reason : String} (h : Exact b)
    (hacquire : b.acquire ip = (b', some i, reason)) : Same b.gate (b'.release i).gate := by
  unfold Granted.acquire at hacquire
  obtain ⟨reason', hrefused⟩ | ⟨token, g', hgranted, hheld, rfl, -, -, rfl⟩ := b.gate.acquire_cases ip
  · rw [hrefused] at hacquire
    cases hacquire
  · rw [hgranted] at hacquire
    simp only [Prod.mk.injEq, Option.some.injEq] at hacquire
    obtain ⟨rfl, rfl, -⟩ := hacquire
    have hlast : (b.tokens ++ [token])[b.tokens.length]? = some token :=
      getElem?_concat_iff.mpr (.inr ⟨rfl, rfl⟩)
    unfold Granted.release
    dsimp only
    rw [hlast]
    exact h.same_release hheld

def ListenerConnGates.acquire (g : ListenerConnGates) (ip : String) : ListenerConnGates :=
  run ListenerConnGates.step g [.acquire ip, .activate g.calls.length, .rollBack g.calls.length]

def ListenerConnGates.Refused (g : ListenerConnGates) (c : ℕ) : Prop :=
  ∃ p reason, g.calls[c]? = some (.refused p reason)

theorem Kept.same_of_refused {g : ListenerConnGates} (h : Kept g) {ip : String}
    (hrefused : (g.acquire ip).Refused g.calls.length) :
    Same g.pending.gate (g.acquire ip).pending.gate ∧ Same g.active.gate (g.acquire ip).active.gate := by
  have hlast : ∀ call, (g.calls ++ [call])[g.calls.length]? = some call := fun call =>
    getElem?_concat_iff.mpr (.inr ⟨rfl, rfl⟩)
  have hmoved : ∀ call call', ((g.calls ++ [call]).modify g.calls.length fun _ => call')[g.calls.length]? =
      some call' := fun call call' => getElem?_modify_iff.mpr ⟨call, hlast call, (if_pos rfl).symm⟩
  obtain ⟨reason, hpending⟩ | ⟨b', token, hpending, -⟩ := g.pending.acquire_cases ip
  · have hcall : g.acquire ip = { g with calls := g.calls ++ [.refused none ("pending/" ++ reason)] } := by
      simp only [ListenerConnGates.acquire, run, foldl_cons, foldl_nil, ListenerConnGates.step,
        hpending, hlast]
    rw [hcall]
    exact ⟨.refl _, .refl _⟩
  · obtain ⟨reason, hactive⟩ | ⟨b'', token', hactive, -⟩ := g.active.acquire_cases ip
    · have hcall : (g.acquire ip).pending = b'.release g.pending.tokens.length ∧
          (g.acquire ip).active = g.active := by
        simp only [ListenerConnGates.acquire, run, foldl_cons, foldl_nil, ListenerConnGates.step,
          hpending, hlast, hactive, ListenerConnGates.setCall, hmoved, and_self]
      rw [hcall.1, hcall.2]
      exact ⟨h.pending.release_acquire hpending, .refl _⟩
    · have hcall : (g.acquire ip).calls[g.calls.length]? =
          some (.granted g.pending.tokens.length g.active.tokens.length 0) := by
        simp only [ListenerConnGates.acquire, run, foldl_cons, foldl_nil, ListenerConnGates.step,
          hpending, hlast, hactive, ListenerConnGates.setCall, hmoved]
      obtain ⟨p, reason, hnot⟩ := hrefused
      rw [hcall] at hnot
      cases hnot

/-! ## Every run -/

theorem run_gate (maxConnections maxIPs : ℤ) (events : List GateEvent) :
    Exact (run Granted.step ⟨newConnGate maxConnections maxIPs, []⟩ events) ∧
      (run Granted.step ⟨newConnGate maxConnections maxIPs, []⟩ events).limits = (maxConnections, maxIPs) :=
  ⟨run_invariant (fun _ e h => h.step e) events _ (exact_new _ _),
    run_invariant (I := fun b : Granted => b.limits = (maxConnections, maxIPs))
      (fun b e h => (b.limits_step e).trans h) events _ rfl⟩

def ListenerConnGates.after (maxConnections : ℤ) (events : List ListenerEvent) : ListenerConnGates :=
  run ListenerConnGates.step (newListenerConnGates maxConnections) events

theorem kept_after (maxConnections : ℤ) (events : List ListenerEvent) :
    Kept (ListenerConnGates.after maxConnections events) :=
  run_invariant (fun _ e h => h.step e) events _ (kept_new maxConnections)

theorem limits_after (maxConnections : ℤ) (events : List ListenerEvent) :
    (ListenerConnGates.after maxConnections events).pending.limits =
        (newListenerConnGates maxConnections).pending.limits ∧
      (ListenerConnGates.after maxConnections events).active.limits =
        (newListenerConnGates maxConnections).active.limits :=
  run_invariant
    (I := fun g : ListenerConnGates => g.pending.limits = (newListenerConnGates maxConnections).pending.limits ∧
      g.active.limits = (newListenerConnGates maxConnections).active.limits)
    (fun g e h => ⟨(g.limits_step e).1.trans h.1, (g.limits_step e).2.trans h.2⟩) events _ ⟨rfl, rfl⟩

/-- **Connection limits are exact.** On one gate and on the two of a listener, in whatever order
acquisitions and releases come, the counts are those of the tokens held and stay within the limits the
gate was made with. -/
theorem conn_limits_exact :
    (∀ (maxConnections maxIPs : ℤ) (events : List GateEvent),
      let b := run Granted.step ⟨newConnGate maxConnections maxIPs, []⟩ events
      Exact b ∧ b.limits = (maxConnections, maxIPs) ∧
        ∀ ip, (b.acquire ip).2.1 = none → (b.acquire ip).1 = b) ∧
    ∀ (maxConnections : ℤ) (events : List ListenerEvent),
      let g := ListenerConnGates.after maxConnections events
      Exact g.pending ∧ Exact g.active ∧
        g.pending.limits = (newListenerConnGates maxConnections).pending.limits ∧
        g.active.limits = (newListenerConnGates maxConnections).active.limits ∧
        (∀ p reason, .refused (some p) reason ∈ g.calls → g.pending.Returned p) ∧
        g.pending.Answered g.calls Call.pendingToken ∧ g.active.Answered g.calls Call.activeToken ∧
        ∀ ip, (g.acquire ip).Refused g.calls.length →
          Same g.pending.gate (g.acquire ip).pending.gate ∧ Same g.active.gate (g.acquire ip).active.gate := by
  constructor
  · intro maxConnections maxIPs events b
    obtain ⟨hexact, hlimits⟩ := run_gate maxConnections maxIPs events
    refine ⟨hexact, hlimits, fun ip hnone => ?_⟩
    obtain ⟨reason, hrefused⟩ | ⟨b', token, hgranted, -⟩ := b.acquire_cases ip
    · rw [hrefused]
    · rw [hgranted] at hnone
      cases hnone
  · intro maxConnections events g
    have hkept := kept_after maxConnections events
    obtain ⟨hpending, hactive⟩ := limits_after maxConnections events
    exact ⟨hkept.pending, hkept.active, hpending, hactive, fun p reason hmem => hkept.sound _ hmem,
      hkept.pendingAnswered, hkept.activeAnswered, fun ip hrefused => hkept.same_of_refused hrefused⟩

/-- Two releases of the same closure count once, and a call that the active gate refuses gives its
pending token back. -/
example :
    let g := run ListenerConnGates.step (newListenerConnGates 1)
      [.acquire "a", .activate 0, .acquire "a", .startupComplete 0, .acquire "a", .activate 2, .rollBack 2,
        .release 0, .release 0, .releaseActive 0, .releaseActive 0]
    g.pending.gate.active = 0 ∧ g.active.gate.active = 0 ∧ g.pending.tokens.length = 2 := by
  decide +kernel

end ForwardX.Fxp.ConnGates
