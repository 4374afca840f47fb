/-
The session tables of direct UDP, `forwardx-fxp/udp_direct.go`.

A session is listed under the key of its client and under its id. Both tables are changed at several
places of the loop and of the sweep; the invariant is that they are inverse to one another.
-/
import ForwardX.Lib.Run
import ForwardX.Lib.GoMap
import Mathlib.Data.List.Sort
import Mathlib.Data.String.Basic

namespace ForwardX.Fxp

open Run

/-! ## Capacity -/

structure FxpUDPSessionPolicy where
  softSessions : ℤ
  hardSessions : ℤ
  softPerIP : ℤ
  hardPerIP : ℤ
  reclaimAfter : ℤ

def fxpUDPReclaimAfter : ℤ := 30 * 1000000000

def defaultFXPUDPSessionPolicy : FxpUDPSessionPolicy where
  softSessions := 512
  hardSessions := 1024
  softPerIP := 48
  hardPerIP := 64
  reclaimAfter := fxpUDPReclaimAfter

inductive FxpUDPAdmissionReason
  | belowLimit
  | rejectActivePerIP
  | rejectActiveGlobal

structure FxpUDPAdmission where
  allow : Bool
  reason : FxpUDPAdmissionReason
  total : ℤ
  perIP : ℤ

def checkFXPUDPSessionCapacity (total perIP : ℤ) (incomingIP : String)
    (policy : FxpUDPSessionPolicy) : FxpUDPAdmission :=
  if incomingIP ≠ "" ∧ policy.hardPerIP > 0 ∧ perIP ≥ policy.hardPerIP then
    ⟨false, .rejectActivePerIP, total, perIP⟩
  else if policy.hardSessions > 0 ∧ total ≥ policy.hardSessions then
    ⟨false, .rejectActiveGlobal, total, perIP⟩
  else ⟨true, .belowLimit, total, perIP⟩

structure FxpUDPSessionSnapshot where
  sourceIP : String
  lastActivity : ℤ
  pending : ℤ

def fxpUDPIdleTimeout : ℤ := 5 * 60 * 1000000000

def fxpUDPStalledTimeout : ℤ := 2 * fxpUDPIdleTimeout

def fxpUDPSessionExpiredAt (now lastActivity pending : ℤ) : Bool :=
  if lastActivity ≤ 0 then false
  else
    let idle := now - lastActivity
    decide (idle ≥ fxpUDPStalledTimeout ∨ (pending ≤ 0 ∧ idle ≥ fxpUDPIdleTimeout))

section

variable {T : Type} (snapshot : T → FxpUDPSessionSnapshot)

/-- A session that has idled long enough to be given up. -/
def reclaimable (cutoff : ℤ) (session : T) : Bool :=
  let state := snapshot session
  decide (state.lastActivity > 0 ∧ state.lastActivity ≤ cutoff ∧ state.pending ≤ 0)

/-- The order candidates are sorted in: longest idle first, then by key. -/
def candidateBefore (a b : String × T) : Bool :=
  if (snapshot a.2).lastActivity = (snapshot b.2).lastActivity then decide (a.1 ≤ b.1)
  else decide ((snapshot a.2).lastActivity < (snapshot b.2).lastActivity)

/-- The last loop of `planFXPUDPPressureReclamation`: take a candidate while there
is pressure, overall or on its address. -/
def reclaimLoop (policy : FxpUDPSessionPolicy) :
    List (String × T) → ℤ → (String → ℤ) → List (String × T)
  | [], _, _ => []
  | (key, session) :: rest, total, perIP =>
    let sourceIP := (snapshot session).sourceIP
    let globalPressure := policy.softSessions > 0 ∧ total ≥ policy.softSessions
    let perIPPressure := sourceIP ≠ "" ∧ policy.softPerIP > 0 ∧ perIP sourceIP ≥ policy.softPerIP
    if ¬ globalPressure ∧ ¬ perIPPressure then reclaimLoop policy rest total perIP
    else (key, session) :: reclaimLoop policy rest (total - 1)
      (if sourceIP ≠ "" then Function.update perIP sourceIP (perIP sourceIP - 1) else perIP)

def planFXPUDPPressureReclamation (now : ℤ) (sessions : List (String × T))
    (policy : FxpUDPSessionPolicy) : List (String × T) :=
  let reclaimAfter := if policy.reclaimAfter ≤ 0 then fxpUDPReclaimAfter else policy.reclaimAfter
  let cutoff := now - reclaimAfter
  let perIP : String → ℤ := fun ip => sessions.countP fun e => (snapshot e.2).sourceIP == ip
  let candidates := sessions.filter fun e => reclaimable snapshot cutoff e.2
  reclaimLoop snapshot policy (candidates.mergeSort (candidateBefore snapshot))
    sessions.length perIP

end

/-! ## Tables -/

/-- The text of a client's address; `net.IP.String` never returns an empty one. -/
structure SourceIP where
  text : String
  nonempty : text ≠ ""

/-- A pointer to a session, with the fields of it that never change. A relay
session has no client address to count. -/
structure UdpSession where
  ptr : ℕ
  key : String
  sessionID : UInt64
  clientAddr : Option String
  deriving DecidableEq

/-- Where the receive loop stands between two of its critical sections. -/
inductive UdpReceiveLoop
  | reading
  | creating (key : String) (addr : Option SourceIP)
  | created (session : UdpSession) (addr : Option SourceIP)
  | stopped

structure SessionTables where
  sessionsByClient : GoMap String UdpSession
  sessionsByID : GoMap UInt64 UdpSession
  sessionsPerIP : GoMap String ℤ
  /-- The sessions whose `closeOnce` has run. -/
  closed : List ℕ
  allocated : ℕ
  loop : UdpReceiveLoop

def SessionTables.new : SessionTables := ⟨∅, ∅, ∅, [], 0, .reading⟩

def SessionTables.perIPCount (s : SessionTables) (ip : String) : ℤ :=
  (s.sessionsPerIP.lookup ip).getD 0

def SessionTables.total (s : SessionTables) : ℕ := s.sessionsByClient.entries.length

def SessionTables.detachSessionLocked (s : SessionTables) (session : UdpSession) : SessionTables × Bool :=
  if s.sessionsByClient.lookup session.key ≠ some session then (s, false)
  else
    let byClient := s.sessionsByClient.erase session.key
    let byID := if s.sessionsByID.lookup session.sessionID = some session
      then s.sessionsByID.erase session.sessionID else s.sessionsByID
    let perIP := match session.clientAddr with
      | none => s.sessionsPerIP
      | some sourceIP =>
        if s.perIPCount sourceIP ≤ 1 then s.sessionsPerIP.erase sourceIP
        else s.sessionsPerIP.insert sourceIP (s.perIPCount sourceIP - 1)
    ({ s with sessionsByClient := byClient, sessionsByID := byID, sessionsPerIP := perIP }, true)

/-- `checkFXPUDPSessionCapacity` as the receive loops call it: the relay passes no
address and a count of zero. -/
def SessionTables.checkCapacity (s : SessionTables) (policy : FxpUDPSessionPolicy)
    (addr : Option SourceIP) : FxpUDPAdmission :=
  match addr with
  | none => checkFXPUDPSessionCapacity s.total 0 "" policy
  | some ip => checkFXPUDPSessionCapacity s.total (s.perIPCount ip.text) ip.text policy

/-- A packet of a client: known clients are touched, for a new one the loop goes
on to create a session if there is room. -/
def SessionTables.preflight (s : SessionTables) (policy : FxpUDPSessionPolicy) (key : String)
    (addr : Option SourceIP) : SessionTables :=
  match s.sessionsByClient.lookup key with
  | some _ => s
  | none => if (s.checkCapacity policy addr).allow then { s with loop := .creating key addr } else s

/-- The critical section that lists a created session. On every other outcome the
created session is closed next, which finds nothing to detach. -/
def SessionTables.register (s : SessionTables) (policy : FxpUDPSessionPolicy) (created : UdpSession)
    (addr : Option SourceIP) : SessionTables :=
  if (s.sessionsByClient.lookup created.key).isSome then { s with loop := .reading }
  else if (s.sessionsByID.lookup created.sessionID).isSome then { s with loop := .reading }
  else if (s.checkCapacity policy addr).allow = false then { s with loop := .reading }
  else { s with
    sessionsByClient := s.sessionsByClient.insert created.key created
    sessionsByID := s.sessionsByID.insert created.sessionID created
    sessionsPerIP := match addr with
      | none => s.sessionsPerIP
      | some ip => s.sessionsPerIP.insert ip.text (s.perIPCount ip.text + 1)
    loop := .reading }

/-- `close`, which runs once for each session. -/
def SessionTables.close (s : SessionTables) (session : UdpSession) : SessionTables :=
  if session.ptr ∈ s.closed then s
  else ({ s with closed := session.ptr :: s.closed } : SessionTables).detachSessionLocked session |>.1

/-! ## The sweeper -/

/-- `udpDirectEntrySessionSnapshot`; `activity` is the time of the last activity
and the work that is pending, whatever they are when the sweeper looks. -/
def UdpSession.snapshot (activity : UdpSession → ℤ × ℤ) (session : UdpSession) : FxpUDPSessionSnapshot :=
  ⟨session.clientAddr.getD "", (activity session).1, (activity session).2⟩

/-- The body of the loop over `sessionsByClient`. -/
def SessionTables.sweepOne (now : ℤ) (activity : UdpSession → ℤ × ℤ) (s : SessionTables)
    (key : String) : SessionTables :=
  match s.sessionsByClient.lookup key with
  | none => s
  | some session =>
    if fxpUDPSessionExpiredAt now (session.snapshot activity).lastActivity
        (session.snapshot activity).pending then (s.detachSessionLocked session).1
    else s

def SessionTables.reclaimOne (s : SessionTables) (victim : String × UdpSession) : SessionTables :=
  if s.sessionsByClient.lookup victim.1 = some victim.2 then (s.detachSessionLocked victim.2).1 else s

/-- The sweep, with the order in which `range` produces the keys. -/
def SessionTables.sweep (s : SessionTables) (policy : FxpUDPSessionPolicy) (now : ℤ)
    (order : List String) (activity : UdpSession → ℤ × ℤ) : SessionTables :=
  let s := order.foldl (SessionTables.sweepOne now activity) s
  (planFXPUDPPressureReclamation (UdpSession.snapshot activity) now
    (s.sessionsByClient.entries.map fun e => (e.1, e.2)) policy).foldl SessionTables.reclaimOne s

/-! ## Steps -/

inductive TableEvent
  /-- The receive loop reads a packet that opens no session by its id. -/
  | packet (key : String) (addr : Option SourceIP)
  /-- The session constructor returns, with a session id or an error. -/
  | construct (sessionID : Option UInt64)
  | register
  | close (session : UdpSession)
  | sweep (now : ℤ) (order : List String) (activity : UdpSession → ℤ × ℤ)
  /-- The socket reports an error; the loop ends and its sessions are closed. -/
  | stop

def SessionTables.step (policy : FxpUDPSessionPolicy) (s : SessionTables) :
    TableEvent → SessionTables
  | .packet key addr =>
    match s.loop with
    | .reading => s.preflight policy key addr
    | _ => s
  | .construct none =>
    match s.loop with
    | .creating _ _ => { s with loop := .reading }
    | _ => s
  | .construct (some sessionID) =>
    match s.loop with
    | .creating key addr =>
      { s with
        allocated := s.allocated + 1
        loop := .created ⟨s.allocated, key, sessionID, addr.map SourceIP.text⟩ addr }
    | _ => s
  | .register =>
    match s.loop with
    | .created session addr => s.register policy session addr
    | _ => s
  | .close session => s.close session
  | .sweep now order activity => s.sweep policy now order activity
  | .stop =>
    match s.loop with
    | .reading => { s with loop := .stopped }
    | _ => s

/-! ## What holds between critical sections -/

def SessionTables.live (s : SessionTables) (ip : String) : ℕ :=
  GoMap.sumOver (fun _ session => if session.clientAddr = some ip then 1 else 0) s.sessionsByClient

structure SessionTables.Consistent (policy : FxpUDPSessionPolicy) (s : SessionTables) : Prop where
  client : ∀ k x, s.sessionsByClient.lookup k = some x →
    x.key = k ∧ s.sessionsByID.lookup x.sessionID = some x
  id : ∀ i x, s.sessionsByID.lookup i = some x →
    x.sessionID = i ∧ s.sessionsByClient.lookup x.key = some x
  counts : ∀ ip, s.sessionsPerIP.lookup ip = if s.live ip = 0 then none else some (s.live ip : ℤ)
  total : policy.hardSessions > 0 → (s.total : ℤ) ≤ policy.hardSessions
  perIP : policy.hardPerIP > 0 → ∀ ip, (s.live ip : ℤ) ≤ policy.hardPerIP
  /-- A created session carries the address the loop will count it under. -/
  created : ∀ x addr, s.loop = .created x addr → x.clientAddr = addr.map SourceIP.text

variable {policy : FxpUDPSessionPolicy} {s : SessionTables}

open SessionTables

theorem perIPCount_eq (h : s.Consistent policy) (ip : String) : s.perIPCount ip = s.live ip := by
  rw [perIPCount, h.counts ip]
  by_cases hzero : s.live ip = 0
  · rw [if_pos hzero, hzero]; rfl
  · rw [if_neg hzero]; rfl

theorem SessionTables.Consistent.congr (h : s.Consistent policy) {s' : SessionTables}
    (hclient : s'.sessionsByClient = s.sessionsByClient) (hid : s'.sessionsByID = s.sessionsByID)
    (hip : s'.sessionsPerIP = s.sessionsPerIP)
    (hloop : ∀ x addr, s'.loop = .created x addr → x.clientAddr = addr.map SourceIP.text) :
    s'.Consistent policy := by
  have hlive : ∀ ip, s'.live ip = s.live ip := by
    intro ip
    unfold SessionTables.live
    rw [hclient]
  refine ⟨?_, ?_, ?_, ?_, ?_, hloop⟩
  · rw [hclient, hid]; exact h.client
  · rw [hclient, hid]; exact h.id
  · intro ip
    rw [hip, hlive]; exact h.counts ip
  · unfold SessionTables.total
    rw [hclient]; exact h.total
  · intro hpos ip
    rw [hlive]; exact h.perIP hpos ip

theorem new_consistent : new.Consistent policy where
  client := by intro k x h; rw [new, AList.lookup_empty] at h; cases h
  id := by intro i x h; rw [new, AList.lookup_empty] at h; cases h
  counts := fun _ => rfl
  total := fun h => h.le
  perIP := fun h _ => h.le
  created := by intro x addr h; cases h

/-! ## Detaching -/

theorem lookup_decrement {counts : GoMap String ℤ} {ip : String} {n : ℕ}
    (hread : counts.lookup ip = some ((n + 1 : ℕ) : ℤ)) :
    (if (counts.lookup ip).getD 0 ≤ 1 then counts.erase ip
      else counts.insert ip ((counts.lookup ip).getD 0 - 1)).lookup ip
      = if n = 0 then none else some (n : ℤ) := by
  rw [hread, Option.getD_some]
  by_cases hn : n = 0
  · rw [if_pos hn, if_pos (by rw [hn]; decide), AList.lookup_erase]
  · rw [if_neg hn, if_neg (by push_cast; omega), AList.lookup_insert]
    congr 1
    push_cast
    omega

theorem lookup_decrement_ne {counts : GoMap String ℤ} {ip ip' : String} (hne : ip' ≠ ip) :
    (if (counts.lookup ip).getD 0 ≤ 1 then counts.erase ip
      else counts.insert ip ((counts.lookup ip).getD 0 - 1)).lookup ip' = counts.lookup ip' := by
  split_ifs
  · exact AList.lookup_erase_ne hne
  · exact AList.lookup_insert_ne hne

theorem counts_detach (h : s.Consistent policy) {x : UdpSession} {n : ℕ} {ip : String}
    (hlive : s.live ip = (if x.clientAddr = some ip then 1 else 0) + n) :
    (match x.clientAddr with
      | none => s.sessionsPerIP
      | some sourceIP =>
        if (s.sessionsPerIP.lookup sourceIP).getD 0 ≤ 1 then s.sessionsPerIP.erase sourceIP
        else s.sessionsPerIP.insert sourceIP ((s.sessionsPerIP.lookup sourceIP).getD 0 - 1)).lookup ip
      = if n = 0 then none else some (n : ℤ) := by
  have hcount := h.counts ip
  by_cases hip : x.clientAddr = some ip
  · rw [hlive, if_pos hip, if_neg (by omega), Nat.add_comm] at hcount
    rw [hip]
    exact lookup_decrement hcount
  -- another address, or a session that no address counts
  · rw [hlive, if_neg hip, Nat.zero_add] at hcount
    rcases hx : x.clientAddr with _ | sourceIP
    · exact hcount
    · have hne : ip ≠ sourceIP := by
        rintro rfl
        exact hip hx
      exact (lookup_decrement_ne hne).trans hcount

theorem detach_consistent (h : s.Consistent policy) (x : UdpSession) :
    (s.detachSessionLocked x).1.Consistent policy := by
  unfold detachSessionLocked
  by_cases hlisted : s.sessionsByClient.lookup x.key = some x
  · rw [if_neg (not_not.mpr hlisted)]
    have hid := (h.client _ _ hlisted).2
    have hsum : ∀ ip, s.live ip = (if x.clientAddr = some ip then 1 else 0) +
        GoMap.sumOver (fun _ session => if session.clientAddr = some ip then 1 else 0)
          (s.sessionsByClient.erase x.key) :=
      fun ip => GoMap.sumOver_of_lookup _ hlisted
    dsimp only
    rw [if_pos hid]
    refine ⟨GoMap.index_erase h.client hid, GoMap.index_erase h.id hlisted,
      fun ip => counts_detach h (hsum ip), ?_, ?_, h.created⟩
    · intro hpos
      have hlen : s.total = 1 + (s.sessionsByClient.erase x.key).entries.length := by
        rw [total, (GoMap.entries_perm_of_lookup hlisted).length_eq, List.length_cons,
          Nat.add_comm]
      have := h.total hpos
      show ((s.sessionsByClient.erase x.key).entries.length : ℤ) ≤ _
      omega
    · intro hpos ip
      have := h.perIP hpos ip
      rw [hsum ip] at this
      show ((GoMap.sumOver _ (s.sessionsByClient.erase x.key) : ℕ) : ℤ) ≤ _
      omega
  · rw [if_pos hlisted]; exact h

theorem close_consistent (h : s.Consistent policy) (x : UdpSession) : (s.close x).Consistent policy := by
  unfold close
  split_ifs
  · exact h
  · refine detach_consistent (s := { s with closed := x.ptr :: s.closed }) ?_ x
    exact h.congr rfl rfl rfl h.created

/-! ## Sweeping -/

theorem foldl_consistent {α : Type} {f : SessionTables → α → SessionTables}
    (hf : ∀ s a, s.Consistent policy → (f s a).Consistent policy) (as : List α)
    (h : s.Consistent policy) : (as.foldl f s).Consistent policy :=
  run_invariant hf as s h

theorem sweep_consistent (h : s.Consistent policy) (now : ℤ) (order : List String)
    (activity : UdpSession → ℤ × ℤ) : (s.sweep policy now order activity).Consistent policy := by
  unfold sweep
  refine foldl_consistent (fun s victim hs => ?_) _ (foldl_consistent (fun s key hs => ?_) _ h)
  · unfold reclaimOne
    split_ifs
    · exact detach_consistent hs _
    · exact hs
  · unfold sweepOne
    split
    · exact hs
    · split_ifs
      · exact detach_consistent hs _
      · exact hs

/-! ## Admission -/

theorem checkFXPUDPSessionCapacity_allow {total perIP : ℤ} {incomingIP : String}
    (h : (checkFXPUDPSessionCapacity total perIP incomingIP policy).allow = true) :
    (policy.hardSessions > 0 → total < policy.hardSessions) ∧
      (incomingIP ≠ "" → policy.hardPerIP > 0 → perIP < policy.hardPerIP) := by
  unfold checkFXPUDPSessionCapacity at h
  split_ifs at h with hip hall
  refine ⟨fun hpos => ?_, fun hne hpos => ?_⟩
  · exact Int.not_le.mp fun hfull => hall ⟨hpos, hfull⟩
  · exact Int.not_le.mp fun hfull => hip ⟨hne, hpos, hfull⟩

variable {addr : Option SourceIP}

theorem checkCapacity_allow (h : (s.checkCapacity policy addr).allow = true) :
    (policy.hardSessions > 0 → (s.total : ℤ) < policy.hardSessions) ∧
      ∀ ip, addr = some ip → policy.hardPerIP > 0 → s.perIPCount ip.text < policy.hardPerIP := by
  rcases addr with _ | ip
  · exact ⟨(checkFXPUDPSessionCapacity_allow h).1, fun _ hbad => nomatch hbad⟩
  · refine ⟨(checkFXPUDPSessionCapacity_allow h).1, ?_⟩
    rintro ip' hip
    cases hip
    exact (checkFXPUDPSessionCapacity_allow h).2 ip.nonempty

section

variable (h : s.Consistent policy) {x : UdpSession} (haddr : x.clientAddr = addr.map SourceIP.text)

include h haddr

theorem counts_register {n : ℕ} {ip : String}
    (hlive : n = (if x.clientAddr = some ip then 1 else 0) + s.live ip) :
    (match addr with
      | none => s.sessionsPerIP
      | some ip => s.sessionsPerIP.insert ip.text (s.perIPCount ip.text + 1)).lookup ip
      = if n = 0 then none else some (n : ℤ) := by
  rw [hlive]
  by_cases hip : x.clientAddr = some ip
  · obtain ⟨a, rfl, rfl⟩ := Option.map_eq_some_iff.mp (haddr.symm.trans hip)
    dsimp only
    rw [if_pos hip, if_neg (by omega), AList.lookup_insert, perIPCount_eq h]
    congr 1
    push_cast
    omega
  · rw [if_neg hip, Nat.zero_add]
    rcases addr with _ | a
    · exact h.counts ip
    · have hne : ip ≠ a.text := by
        rintro rfl
        exact hip haddr
      exact (AList.lookup_insert_ne hne).trans (h.counts ip)

theorem perIP_register
    (hroom : ∀ ip, addr = some ip → policy.hardPerIP > 0 →
      s.perIPCount ip.text < policy.hardPerIP)
    (hpos : policy.hardPerIP > 0) (ip : String) :
    (((if x.clientAddr = some ip then 1 else 0) + s.live ip : ℕ) : ℤ) ≤ policy.hardPerIP := by
  by_cases hip : x.clientAddr = some ip
  · obtain ⟨a, rfl, rfl⟩ := Option.map_eq_some_iff.mp (haddr.symm.trans hip)
    have hless := hroom a rfl hpos
    rw [perIPCount_eq h] at hless
    rw [if_pos hip]
    push_cast
    omega
  · rw [if_neg hip, Nat.zero_add]
    exact h.perIP hpos ip

theorem register_consistent : (s.register policy x addr).Consistent policy := by
  have hback : ({ s with loop := .reading } : SessionTables).Consistent policy :=
    h.congr rfl rfl rfl fun _ _ hbad => nomatch hbad
  unfold register
  by_cases hkey : (s.sessionsByClient.lookup x.key).isSome = true
  · rw [if_pos hkey]; exact hback
  rw [if_neg hkey]
  by_cases hid : (s.sessionsByID.lookup x.sessionID).isSome = true
  · rw [if_pos hid]; exact hback
  rw [if_neg hid]
  by_cases hroom : (s.checkCapacity policy addr).allow = false
  · rw [if_pos hroom]; exact hback
  rw [if_neg hroom]
  obtain ⟨htotal, hperIP⟩ := checkCapacity_allow (Bool.not_eq_false _ ▸ hroom)
  have hkey : s.sessionsByClient.lookup x.key = none := by simpa using hkey
  have hid : s.sessionsByID.lookup x.sessionID = none := by simpa using hid
  have hlive : ∀ ip, GoMap.sumOver (fun _ session => if session.clientAddr = some ip then 1 else 0)
      (s.sessionsByClient.insert x.key x) = (if x.clientAddr = some ip then 1 else 0) + s.live ip := by
    intro ip
    rw [GoMap.sumOver_insert, GoMap.erase_of_lookup_none hkey]
    rfl
  refine ⟨GoMap.index_insert h.client hid, GoMap.index_insert h.id hkey,
    fun ip => counts_register h haddr (hlive ip), ?_, ?_, fun _ _ hbad => nomatch hbad⟩
  · intro hpos
    have hlen : (s.sessionsByClient.insert x.key x).entries.length = s.total + 1 := by
      show ((s.sessionsByClient.erase x.key).entries.length + 1) = _
      rw [GoMap.erase_of_lookup_none hkey]
      rfl
    have := htotal hpos
    show ((s.sessionsByClient.insert x.key x).entries.length : ℤ) ≤ _
    rw [hlen]
    push_cast
    omega
  · intro hpos ip
    show ((GoMap.sumOver _ (s.sessionsByClient.insert x.key x) : ℕ) : ℤ) ≤ _
    rw [hlive]
    exact perIP_register h haddr hperIP hpos ip

end

/-! ## Runs -/

theorem step_consistent (h : s.Consistent policy) (e : TableEvent) : (s.step policy e).Consistent policy := by
  cases e with
  | packet key addr =>
    unfold step
    dsimp only
    split
    · unfold preflight
      split
      · exact h
      · split_ifs
        · exact h.congr rfl rfl rfl fun _ _ hbad => nomatch hbad
        · exact h
    · exact h
  | construct sessionID =>
    rcases sessionID with _ | i <;> unfold step <;> dsimp only <;> split
    · exact h.congr rfl rfl rfl fun _ _ hbad => nomatch hbad
    · exact h
    · refine h.congr rfl rfl rfl fun x addr hx => ?_
      cases hx
      rfl
    · exact h
  | register =>
    unfold step
    dsimp only
    split
    · rename_i hloop
      -- between construction and registration any other event may have run; `created` is
      -- all that the loop remembers
      exact register_consistent h (h.created _ _ hloop)
    · exact h
  | close x => exact close_consistent h x
  | sweep now order activity => exact sweep_consistent h now order activity
  | stop =>
    unfold step
    dsimp only
    split
    · exact h.congr rfl rfl rfl fun _ _ hbad => nomatch hbad
    · exact h

/-- **The session tables agree in every run.** After any interleaving of packets, admissions, sweeps,
closes and the end of the loop: the two tables list the same sessions, each under its own key and its
own id. -/
theorem sessionTables_consistent (es : List TableEvent) :
    let s := run (SessionTables.step defaultFXPUDPSessionPolicy) SessionTables.new es
    (∀ x, (∃ k, s.sessionsByClient.lookup k = some x) ↔ ∃ i, s.sessionsByID.lookup i = some x) ∧
    (∀ k x, s.sessionsByClient.lookup k = some x → x.key = k) ∧
    (∀ i x, s.sessionsByID.lookup i = some x → x.sessionID = i) ∧
    (∀ ip, s.sessionsPerIP.lookup ip = if s.live ip = 0 then none else some (s.live ip : ℤ)) ∧
    s.total ≤ 1024 ∧ ∀ ip, s.live ip ≤ 64 := by
  have h : (run (SessionTables.step defaultFXPUDPSessionPolicy) SessionTables.new es).Consistent
      defaultFXPUDPSessionPolicy :=
    run_invariant (I := SessionTables.Consistent defaultFXPUDPSessionPolicy)
      (fun _ e hs => step_consistent hs e) es _ new_consistent
  refine ⟨fun x => ⟨?_, ?_⟩, fun k x hx => (h.client k x hx).1, fun i x hx => (h.id i x hx).1,
    h.counts, ?_, fun ip => ?_⟩
  · rintro ⟨k, hk⟩
    exact ⟨_, (h.client k x hk).2⟩
  · rintro ⟨i, hi⟩
    exact ⟨_, (h.id i x hi).2⟩
  · exact Int.ofNat_le.mp (h.total (by decide))
  · exact Int.ofNat_le.mp (h.perIP (by decide) ip)

end ForwardX.Fxp
