/-
`serveExitUDPDirect` of `forwardx-fxp/udp_direct.go`: datagrams from the tunnel on their way to a
target socket.

What is proved is how often one datagram gets to its target. The receive loop, the sweeper, the
worker of each session and `close` take their steps in any order. The replay window is a field of
the session object, so the bound is one copy for each session: between the window and the socket a
session has at most one copy, in the hands of the loop, in its queue, with its worker or written.
Sessions are listed by rule, peer address and session id, and only `register` starts one, when none
is listed; so the bound for one peer is one as long as its session is not taken out. A second
address gets a second session, and with it a second copy (`exit_replayed_from_other_peer`).
-/
import ForwardX.Fxp.UdpQueue
import ForwardX.Fxp.UdpReassembly
import ForwardX.Fxp.UdpSessions

namespace ForwardX.Fxp

open Run

/-! ## Sessions -/

structure Datagram where
  ruleID : ℤ
  sessionID : UInt64
  sequence : UInt64
  deriving DecidableEq

def FxpUDPPacket.datagram (p : FxpUDPPacket) : Datagram := ⟨p.ruleID, p.sessionID, p.sequence⟩

/-- `udpRuleSessionKey`; the source joins the three into one string. -/
structure UdpRuleSessionKey where
  ruleID : ℤ
  peerAddr : String
  sessionID : UInt64
  deriving DecidableEq

structure UdpTarget where
  RuleID : ℤ
  TargetIP : String
  TargetPort : ℤ

/-- The fields of `config` the exit reads. -/
structure ExitConfig where
  TunnelID : ℤ
  RuleID : ℤ
  Key : List UInt8
  UDPTargets : List UdpTarget

/-- `targetForRule`: the first target of a rule counts. -/
def ExitConfig.targetForRule (cfg : ExitConfig) (ruleID : ℤ) : Option UdpTarget :=
  cfg.UDPTargets.find? fun target => target.RuleID == ruleID

def packetMatchesConfig (packet : FxpUDPPacket) (cfg : ExitConfig) : Bool :=
  if packet.tunnelID ≠ cfg.TunnelID then false
  else decide (cfg.RuleID ≤ 0 ∨ packet.ruleID = cfg.RuleID)

def ExitConfig.wants (cfg : ExitConfig) (packet : FxpUDPPacket) : Bool :=
  packet.packetType == fxpUDPTypeData && packetMatchesConfig packet cfg

structure UdpDirectExitSession where
  key : UdpRuleSessionKey
  targetIP : String
  targetPort : ℤ
  dataOpener : FxpUDPCodec
  dataReplay : UdpReplayWindow
  dataFragments : UdpFragmentReassembler
  send : FxpUDPQueue Datagram
  /-- The packet `writeTargetLoop` has in hand. -/
  writing : Option (FxpUDPQueuedPacket Datagram)
  done : Bool
  started : Bool

/-- `newUDPDirectExitSession`, once the target is dialed. The return sealer is
made from the same fields as the opener, and fails when that does. -/
def newUDPDirectExitSession (hmac : List UInt8 → List UInt8 → List UInt8) (cfg : ExitConfig)
    (peerAddr : String) (packet : FxpUDPPacket) (target : UdpTarget) :
    Except String UdpDirectExitSession :=
  match newFXPUDPCodec hmac cfg.Key
      ⟨fxpUDPTypeData, cfg.TunnelID, packet.ruleID, packet.sessionID, 0, 0, 0, []⟩ with
  | .error e => .error e
  | .ok dataOpener =>
    let queueBudget := some packet.ruleID.toNat
    .ok {
      key := ⟨packet.ruleID, peerAddr, packet.sessionID⟩
      targetIP := target.TargetIP
      targetPort := target.TargetPort
      dataOpener := dataOpener
      dataReplay := .new
      dataFragments := { UdpFragmentReassembler.new with budget := queueBudget }
      send := newFXPUDPQueueWithBudget fxpUDPDirectQueueSize fxpUDPQueueMaxBytes queueBudget
      writing := none
      done := false
      started := false }

/-! ## The server -/

inductive ExitLoop
  | reading
  /-- A session was found for the packet's key. -/
  | claimed (session : ℕ) (raw : List UInt8) (header : FxpUDPPacket) (key : UdpRuleSessionKey)
  /-- None was found, and there is room for one. -/
  | opening (raw : List UInt8) (peerAddr : String)
  | created (session : ℕ) (packet : FxpUDPPacket) (key : UdpRuleSessionKey)
  | accepting (session : ℕ) (packet : FxpUDPPacket)
  | forwarding (session : ℕ) (datagram : Datagram) (payload : List UInt8)
  | stopped

structure TargetWrite where
  session : ℕ
  datagram : Datagram
  payload : List UInt8

/-- The session objects in the order of their creation, the table of those that
are listed, the receive loop, and what went to the targets. -/
structure ExitServer where
  objects : List UdpDirectExitSession
  sessions : GoMap UdpRuleSessionKey ℕ
  loop : ExitLoop
  written : List TargetWrite

def ExitServer.new : ExitServer := ⟨[], ∅, .reading, []⟩

def ExitServer.update (s : ExitServer) (p : ℕ) (f : UdpDirectExitSession → UdpDirectExitSession) : ExitServer :=
  { s with objects := s.objects.modify p f }

def ExitServer.detachSessionLocked (s : ExitServer) (p : ℕ) : ExitServer :=
  match s.objects[p]? with
  | none => s
  | some session =>
    if s.sessions.lookup session.key = some p then
      { s with sessions := s.sessions.erase session.key } else s

def ExitServer.hasRoom (s : ExitServer) : Bool :=
  (checkFXPUDPSessionCapacity s.sessions.entries.length 0 "" defaultFXPUDPSessionPolicy).allow

/-! ## The receive loop -/

variable (A : Aead) (hmac : List UInt8 → List UInt8 → List UInt8) (cfg : ExitConfig)

def ExitServer.read (s : ExitServer) (raw : List UInt8) (peerAddr : String) : ExitServer :=
  match parseFXPUDPHeader raw with
  | .error _ => s
  | .ok header =>
    if cfg.wants header = false then s
    else
      let key : UdpRuleSessionKey := ⟨header.ruleID, peerAddr, header.sessionID⟩
      match s.sessions.lookup key with
      | some p => { s with loop := .claimed p raw header key }
      | none => if s.hasRoom then { s with loop := .opening raw peerAddr } else s

/-- A packet of a known session: open it, and make sure that the session is still
listed and still goes to the target of its rule. -/
def ExitServer.checkCurrent (s : ExitServer) (p : ℕ) (raw : List UInt8) (header : FxpUDPPacket)
    (key : UdpRuleSessionKey) : ExitLoop :=
  match s.objects[p]? with
  | none => .reading
  | some session =>
    match session.dataOpener.openParsedPacket A raw header with
    | .error _ => .reading
    | .ok packet =>
      if cfg.wants packet = false then .reading
      else
        match cfg.targetForRule packet.ruleID with
        | none => .reading
        | some target =>
          if s.sessions.lookup key ≠ some p then .reading
          else if session.targetIP ≠ target.TargetIP ∨ session.targetPort ≠ target.TargetPort then
            .reading
          else .accepting p packet

def ExitServer.create (s : ExitServer) (raw : List UInt8) (peerAddr : String) (dialed : Bool) : ExitServer :=
  match openFXPUDPPacket A hmac raw cfg.Key with
  | .error _ => { s with loop := .reading }
  | .ok packet =>
    if cfg.wants packet = false then { s with loop := .reading }
    else
      match cfg.targetForRule packet.ruleID with
      | none => { s with loop := .reading }
      | some target =>
        match newUDPDirectExitSession hmac cfg peerAddr packet target with
        | .error _ => { s with loop := .reading }
        | .ok session =>
          if dialed = false then { s with loop := .reading }
          else { s with
            objects := s.objects ++ [session]
            loop := .created s.objects.length packet ⟨packet.ruleID, peerAddr, packet.sessionID⟩ }

/-- The created session is listed and started, unless another one is there. -/
def ExitServer.register (s : ExitServer) (p : ℕ) (packet : FxpUDPPacket) (key : UdpRuleSessionKey) :
    ExitServer :=
  match s.sessions.lookup key with
  | some existing => { s with loop := .accepting existing packet }
  | none =>
    if s.hasRoom = false then { s with loop := .reading }
    else { s.update p fun session => { session with started := true } with
      sessions := s.sessions.insert key p
      loop := .accepting p packet }

def ExitServer.accept (s : ExitServer) (p : ℕ) (packet : FxpUDPPacket) (budgets : Budgets)
    (now : ℤ) : ExitServer :=
  match s.objects[p]? with
  | none => { s with loop := .reading }
  | some session =>
    let res := session.dataFragments.accept budgets session.dataReplay packet now
    { s.update p fun session => { session with dataReplay := res.w, dataFragments := res.r } with
      loop := match res.datagram with
        | none => .reading
        | some payload => .forwarding p packet.datagram payload }

def ExitServer.forward (s : ExitServer) (p : ℕ) (datagram : Datagram) (payload : List UInt8)
    (budgets : Budgets) (now : ℤ) : ExitServer :=
  { s.update p fun session => if session.done then session
      else { session with send := (session.send.enqueue budgets payload datagram now).1 } with
    loop := .reading }

/-! ## The other goroutines -/

/-- `writeTargetLoop` takes a packet. -/
def UdpDirectExitSession.take (session : UdpDirectExitSession) : UdpDirectExitSession :=
  match session.writing, session.send.nextTracked with
  | none, some (packet, send) => { session with writing := some packet, send := send }
  | _, _ => session

/-- `writeTargetLoop` writes the packet it has, or drops it if it is stale. -/
def ExitServer.write (s : ExitServer) (p : ℕ) (now : ℤ) : ExitServer :=
  match s.objects[p]? with
  | none => s
  | some session =>
    match session.writing with
    | none => s
    | some packet =>
      { s.update p fun session => { session with writing := none } with
        written := if packet.superseded now session.send.packets.length then s.written
          else s.written ++ [⟨p, packet.tag, packet.payload⟩] }

/-- The body of the sweeper's loop; `activity` is what the snapshot of a session
reads. -/
def ExitServer.sweepOne (now : ℤ) (activity : ℕ → ℤ × ℤ) (budgets : Budgets) (s : ExitServer)
    (key : UdpRuleSessionKey) : ExitServer :=
  match s.sessions.lookup key with
  | none => s
  | some p =>
    let s := s.update p fun session =>
      { session with dataFragments := (session.dataFragments.expire budgets now).1 }
    if fxpUDPSessionExpiredAt now (activity p).1 (activity p).2 then s.detachSessionLocked p else s

def ExitServer.reclaimOne (s : ExitServer) (victim : String × ℕ) : ExitServer :=
  s.detachSessionLocked victim.2

/-- The sweep, over the keys in the order of `range`. The plan sorts by the text
of the keys. -/
def ExitServer.sweep (s : ExitServer) (now : ℤ) (order : List (UdpRuleSessionKey × String))
    (activity : ℕ → ℤ × ℤ) (budgets : Budgets) : ExitServer :=
  let s := (order.map Prod.fst).foldl (ExitServer.sweepOne now activity budgets) s
  let listed := order.filterMap fun e => (s.sessions.lookup e.1).map fun p => (e.2, p)
  (planFXPUDPPressureReclamation (fun p => ⟨"", (activity p).1, (activity p).2⟩) now listed
    defaultFXPUDPSessionPolicy).foldl ExitServer.reclaimOne s

/-! ## Steps -/

inductive ExitEvent
  | read (raw : List UInt8) (peerAddr : String)
  | checkCurrent
  | create (dialed : Bool)
  | register
  | accept (budgets : Budgets) (now : ℤ)
  | forward (budgets : Budgets) (now : ℤ)
  | take (session : ℕ)
  | write (session : ℕ) (now : ℤ)
  | sweep (now : ℤ) (order : List (UdpRuleSessionKey × String)) (activity : ℕ → ℤ × ℤ)
      (budgets : Budgets)
  /-- The parts of `close`, each of which finds the others done or not. -/
  | closeDone (session : ℕ)
  | closeSend (session : ℕ) (budgets : Budgets)
  | closeFragments (session : ℕ) (budgets : Budgets)
  | remove (session : ℕ)
  | stop

def ExitServer.step (s : ExitServer) : ExitEvent → ExitServer
  | .read raw peerAddr =>
    match s.loop with
    | .reading => s.read cfg raw peerAddr
    | _ => s
  | .checkCurrent =>
    match s.loop with
    | .claimed p raw header key => { s with loop := s.checkCurrent A cfg p raw header key }
    | _ => s
  | .create dialed =>
    match s.loop with
    | .opening raw peerAddr => s.create A hmac cfg raw peerAddr dialed
    | _ => s
  | .register =>
    match s.loop with
    | .created p packet key => s.register p packet key
    | _ => s
  | .accept budgets now =>
    match s.loop with
    | .accepting p packet => s.accept p packet budgets now
    | _ => s
  | .forward budgets now =>
    match s.loop with
    | .forwarding p datagram payload => s.forward p datagram payload budgets now
    | _ => s
  | .take p => s.update p UdpDirectExitSession.take
  | .write p now => s.write p now
  | .sweep now order activity budgets => s.sweep now order activity budgets
  | .closeDone p => s.update p fun session => { session with done := true }
  | .closeSend p budgets => s.update p fun session =>
      { session with send := (session.send.close budgets).1 }
  | .closeFragments p budgets => s.update p fun session =>
      { session with dataFragments :=
        { (session.dataFragments.clearLocked budgets).1 with closed := true } }
  | .remove p => s.detachSessionLocked p
  | .stop =>
    match s.loop with
    | .reading => { s with loop := .stopped }
    | _ => s

/-! ## The copies of a datagram

Between the replay window and the target there is at most one copy of a datagram
in a session: in the hands of the receive loop, in the queue, with the worker, or
written. -/

def ExitLoop.inHand (l : ExitLoop) (p : ℕ) (d : Datagram) : ℕ :=
  match l with
  | .forwarding p' d' _ => if p' = p ∧ d' = d then 1 else 0
  | _ => 0

def UdpDirectExitSession.inside (o : UdpDirectExitSession) (d : Datagram) : ℕ :=
  o.send.packets.countP (fun packet => packet.tag == d) +
    o.writing.toList.countP fun packet => packet.tag == d

def writtenBy (written : List TargetWrite) (p : ℕ) (d : Datagram) : ℕ :=
  written.countP fun w => w.session == p && w.datagram == d

def ExitServer.outside (s : ExitServer) (p : ℕ) (d : Datagram) : ℕ :=
  s.loop.inHand p d + writtenBy s.written p d

/-- `copies` are those of a session whose window has admitted each of them once. -/
def UdpDirectExitSession.Sound (o : UdpDirectExitSession) (copies : Datagram → ℕ) : Prop :=
  ∃ acc : Set ℕ, o.dataReplay.Rep acc ∧ ∀ d, copies d ≤ 1 ∧ (0 < copies d → o.started = true ∧
    d.ruleID = o.key.ruleID ∧ d.sessionID = o.key.sessionID ∧ d.sequence.toNat ∈ acc)

variable {o o' : UdpDirectExitSession}

theorem UdpDirectExitSession.Sound.mono {copies copies' : Datagram → ℕ}
    (h : o.Sound copies) (hle : ∀ d, copies' d ≤ copies d) (hreplay : o'.dataReplay = o.dataReplay)
    (hkey : o'.key = o.key) (hstarted : o.started = true → o'.started = true) :
    o'.Sound copies' := by
  obtain ⟨acc, hrep, hall⟩ := h
  refine ⟨acc, hreplay ▸ hrep, fun d => ⟨(hle d).trans (hall d).1, fun hpos => ?_⟩⟩
  obtain ⟨hst, hrule, hid, hseq⟩ := (hall d).2 (lt_of_lt_of_le hpos (hle d))
  exact ⟨hstarted hst, hkey ▸ hrule, hkey ▸ hid, hseq⟩

theorem UdpDirectExitSession.Sound.accepted {copies : Datagram → ℕ}
    {d₀ : Datagram} (h : o.Sound copies)
    (hw : o.dataReplay.accept d₀.sequence = (o'.dataReplay, true)) (hkey : o'.key = o.key)
    (hstarted : o'.started = true) (hrule : d₀.ruleID = o'.key.ruleID) (hid : d₀.sessionID = o'.key.sessionID) :
    o'.Sound fun d => (if d₀ = d then 1 else 0) + copies d := by
  obtain ⟨acc, hrep, hall⟩ := h
  obtain ⟨hadmits, hrep'⟩ := UdpReplayWindow.accept_spec hrep d₀.sequence
  rw [hw] at hadmits hrep'
  have hfresh : d₀.sequence.toNat ∉ acc := (hadmits.mp rfl).2.1
  refine ⟨insert d₀.sequence.toNat acc, hrep', fun d => ?_⟩
  by_cases hd : d₀ = d
  · have hzero : copies d = 0 := by
      by_contra hpos
      exact hfresh (hd ▸ ((hall d).2 (Nat.pos_of_ne_zero hpos)).2.2.2)
    subst hd
    dsimp only
    rw [if_pos rfl, hzero]
    exact ⟨le_refl _, fun _ => ⟨hstarted, hrule, hid, Set.mem_insert _ _⟩⟩
  · dsimp only
    rw [if_neg hd, Nat.zero_add]
    refine ⟨(hall d).1, fun hpos => ?_⟩
    obtain ⟨-, h₂, h₃, h₄⟩ := (hall d).2 hpos
    exact ⟨hstarted, hkey ▸ h₂, hkey ▸ h₃, Set.mem_insert_of_mem _ h₄⟩

/-! ## Objects stay what they are -/

/-- Every object of `objs` is still there in `objs'`, with its key, and started if
it was. -/
def Extends (objs objs' : List UdpDirectExitSession) : Prop :=
  ∀ (p : ℕ) o, objs[p]? = some o →
    ∃ o', objs'[p]? = some o' ∧ o'.key = o.key ∧ (o.started = true → o'.started = true)

theorem extends_append (objs new : List UdpDirectExitSession) : Extends objs (objs ++ new) := by
  intro p o ho
  refine ⟨o, ?_, rfl, id⟩
  rw [List.getElem?_append_left (List.getElem?_eq_some_iff.mp ho).1]
  exact ho

variable {f : UdpDirectExitSession → UdpDirectExitSession}

theorem extends_modify (objs : List UdpDirectExitSession) (p : ℕ) (hkey : ∀ o, (f o).key = o.key)
    (hstarted : ∀ o, o.started = true → (f o).started = true) : Extends objs (objs.modify p f) := by
  intro q o ho
  rw [List.getElem?_modify, ho]
  by_cases hq : p = q
  · exact ⟨f o, by simp [hq], hkey o, hstarted o⟩
  · exact ⟨o, by simp [hq], rfl, id⟩

/-- What the receive loop relies on at each of its stations. -/
def LoopOk (objs : List UdpDirectExitSession) : ExitLoop → Prop
  | .claimed p _ header key => header.ruleID = key.ruleID ∧ header.sessionID = key.sessionID ∧
      ∃ o, objs[p]? = some o ∧ o.key = key ∧ o.started = true
  | .created p packet key => packet.ruleID = key.ruleID ∧ packet.sessionID = key.sessionID ∧
      ∃ o, objs[p]? = some o ∧ o.key = key
  | .accepting p packet => ∃ o, objs[p]? = some o ∧ o.started = true ∧
      packet.ruleID = o.key.ruleID ∧ packet.sessionID = o.key.sessionID
  | _ => True

theorem LoopOk.mono {objs objs' : List UdpDirectExitSession} (hext : Extends objs objs')
    {l : ExitLoop} (h : LoopOk objs l) : LoopOk objs' l := by
  cases l with
  | claimed p raw header key =>
    obtain ⟨hrule, hid, o, ho, hkey, hst⟩ := h
    obtain ⟨o', ho', hkey', hst'⟩ := hext p o ho
    exact ⟨hrule, hid, o', ho', hkey'.trans hkey, hst' hst⟩
  | created p packet key =>
    obtain ⟨hrule, hid, o, ho, hkey⟩ := h
    obtain ⟨o', ho', hkey', -⟩ := hext p o ho
    exact ⟨hrule, hid, o', ho', hkey'.trans hkey⟩
  | accepting p packet =>
    obtain ⟨o, ho, hst, hrule, hid⟩ := h
    obtain ⟨o', ho', hkey', hst'⟩ := hext p o ho
    exact ⟨o', ho', hst' hst, hkey' ▸ hrule, hkey' ▸ hid⟩
  | _ => trivial

/-! ## The invariant -/

structure ExitServer.Inv (s : ExitServer) : Prop where
  sound : ∀ (p : ℕ) o, s.objects[p]? = some o → o.Sound fun d => s.outside p d + o.inside d
  known : ∀ w ∈ s.written, w.session < s.objects.length
  listed : ∀ k p, s.sessions.lookup k = some p →
    ∃ o, s.objects[p]? = some o ∧ o.key = k ∧ o.started = true
  loop : LoopOk s.objects s.loop

theorem ExitServer.inv_new : ExitServer.new.Inv where
  sound := by intro p o ho; simp [ExitServer.new] at ho
  known := by intro w hw; cases hw
  listed := by intro k p hp; rw [ExitServer.new, AList.lookup_empty] at hp; cases hp
  loop := trivial

variable {s : ExitServer}

theorem inv_loop (h : s.Inv) (l : ExitLoop) (hl : LoopOk s.objects l)
    (hhand : ∀ p d, l.inHand p d = 0) : ({ s with loop := l } : ExitServer).Inv where
  sound := by
    intro p o ho
    refine (h.sound p o ho).mono (fun d => ?_) rfl rfl id
    show l.inHand p d + writtenBy s.written p d + o.inside d
      ≤ s.loop.inHand p d + writtenBy s.written p d + o.inside d
    rw [hhand]
    omega
  known := h.known
  listed := h.listed
  loop := hl

theorem inv_reading (h : s.Inv) : ({ s with loop := .reading } : ExitServer).Inv :=
  inv_loop h .reading trivial fun _ _ => rfl

open ExitServer

theorem inv_detach (h : s.Inv) (p : ℕ) : (s.detachSessionLocked p).Inv := by
  unfold detachSessionLocked
  rcases s.objects[p]? with _ | o
  · exact h
  dsimp only
  split_ifs
  · exact ⟨h.sound, h.known,
      fun k q hq => h.listed k q (GoMap.lookup_erase_eq_some hq).2, h.loop⟩
  · exact h

section

variable (h : s.Inv) {p : ℕ} (hkey : ∀ o, (f o).key = o.key)
  (hstarted : ∀ o, o.started = true → (f o).started = true)

include h hkey hstarted

theorem inv_update {l : ExitLoop} {written : List TargetWrite} (hl : LoopOk (s.objects.modify p f) l)
    (hknown : ∀ w ∈ written, w.session < s.objects.length) (hself : ∀ o, s.objects[p]? = some o →
      (f o).Sound fun d => l.inHand p d + writtenBy written p d + (f o).inside d)
    (hother : ∀ q ≠ p, ∀ d, l.inHand q d + writtenBy written q d ≤ s.outside q d) :
    ({ s with objects := s.objects.modify p f, loop := l, written := written } : ExitServer).Inv where
  sound := by
    intro q o ho
    have ho : (s.objects.modify p f)[q]? = some o := ho
    rw [List.getElem?_modify] at ho
    obtain ⟨o₀, ho₀, rfl⟩ := Option.map_eq_some_iff.mp ho
    by_cases hq : p = q
    · subst hq
      rw [if_pos rfl]
      exact hself o₀ ho₀
    · rw [if_neg hq] at ho ⊢
      refine (h.sound q o₀ ho₀).mono (fun d => ?_) rfl rfl id
      exact Nat.add_le_add_right (hother q (Ne.symm hq) d) _
  known := by
    intro w hw
    show w.session < (s.objects.modify p f).length
    rw [List.length_modify]
    exact hknown w hw
  listed := by
    intro k q hq
    obtain ⟨o, ho, hk, hst⟩ := h.listed k q hq
    obtain ⟨o', ho', hk', hst'⟩ := extends_modify s.objects p hkey hstarted q o ho
    exact ⟨o', ho', hk'.trans hk, hst' hst⟩
  loop := hl

theorem inv_shrink (hreplay : ∀ o, (f o).dataReplay = o.dataReplay)
    (hinside : ∀ o d, (f o).inside d ≤ o.inside d) : (s.update p f).Inv :=
  inv_update h hkey hstarted (h.loop.mono (extends_modify s.objects p hkey hstarted)) h.known
    (fun o ho => (h.sound p o ho).mono (fun d => Nat.add_le_add_left (hinside o d) _)
      (hreplay o) (hkey o) (hstarted o))
    fun _ _ _ => le_refl _

end

/-! ## The receive loop keeps it -/

theorem openParsedPacket_ids {codec : FxpUDPCodec} {raw : List UInt8} {header packet : FxpUDPPacket}
    (h : codec.openParsedPacket A raw header = .ok packet) :
    packet.ruleID = header.ruleID ∧ packet.sessionID = header.sessionID := by
  unfold FxpUDPCodec.openParsedPacket at h
  split_ifs at h
  rcases hopen : A.Open codec.aead (fxpUDPNonce header.sequence header.fragment)
      (raw.drop fxpUDPHeaderSize) (raw.take fxpUDPHeaderSize) with _ | payload
  · rw [hopen] at h; cases h
  · rw [hopen] at h; cases h; exact ⟨rfl, rfl⟩

theorem inv_read (h : s.Inv) (raw : List UInt8) (peerAddr : String) : (s.read cfg raw peerAddr).Inv := by
  unfold ExitServer.read
  rcases parseFXPUDPHeader raw with e | header
  · exact h
  dsimp only
  by_cases hwants : cfg.wants header = false
  · rw [if_pos hwants]; exact h
  rw [if_neg hwants]
  rcases hlookup : s.sessions.lookup ⟨header.ruleID, peerAddr, header.sessionID⟩ with _ | p
  all_goals rw [hlookup]; dsimp only
  · by_cases hroom : s.hasRoom = true
    · rw [if_pos hroom]
      exact inv_loop h (.opening raw peerAddr) trivial fun _ _ => rfl
    · rw [if_neg hroom]; exact h
  · exact inv_loop h (.claimed p raw header ⟨header.ruleID, peerAddr, header.sessionID⟩)
      ⟨rfl, rfl, h.listed _ _ hlookup⟩ fun _ _ => rfl

variable {p : ℕ}

theorem checkCurrent_cases {raw : List UInt8} {header : FxpUDPPacket}
    {key : UdpRuleSessionKey} (hok : LoopOk s.objects (.claimed p raw header key)) :
    s.checkCurrent A cfg p raw header key = .reading ∨
      ∃ packet, s.checkCurrent A cfg p raw header key = .accepting p packet ∧
        LoopOk s.objects (.accepting p packet) := by
  obtain ⟨hrule, hid, o, ho, hkey, hst⟩ := hok
  unfold checkCurrent
  rw [ho]
  dsimp only
  rcases hopen : o.dataOpener.openParsedPacket A raw header with e | packet
  · exact .inl rfl
  dsimp only
  by_cases hwants : cfg.wants packet = false
  · rw [if_pos hwants]; exact .inl rfl
  rw [if_neg hwants]
  rcases cfg.targetForRule packet.ruleID with _ | target
  · exact .inl rfl
  dsimp only
  split_ifs
  · exact .inl rfl
  · exact .inl rfl
  · obtain ⟨hrule', hid'⟩ := openParsedPacket_ids A hopen
    exact .inr ⟨packet, rfl, o, ho, hst, hkey ▸ hrule'.trans hrule, hkey ▸ hid'.trans hid⟩

theorem writtenBy_fresh (h : s.Inv) (d : Datagram) : writtenBy s.written s.objects.length d = 0 := by
  refine List.countP_eq_zero.mpr fun w hw hbad => ?_
  have hlt := h.known w hw
  simp at hbad
  omega

theorem inv_append (h : s.Inv) {o : UdpDirectExitSession} (hreplay : o.dataReplay.Rep ∅)
    (hinside : ∀ d, o.inside d = 0) {l : ExitLoop} (hl : LoopOk (s.objects ++ [o]) l)
    (hhand : ∀ q d, l.inHand q d = 0) :
    ({ s with objects := s.objects ++ [o], loop := l } : ExitServer).Inv := by
  refine ⟨?_, ?_, ?_, hl⟩
  · intro p o' ho'
    have ho' : (s.objects ++ [o])[p]? = some o' := ho'
    rw [List.getElem?_append] at ho'
    by_cases hp : p < s.objects.length
    · rw [if_pos hp] at ho'
      refine (h.sound p o' ho').mono (fun d => ?_) rfl rfl id
      refine Nat.add_le_add_right (Nat.add_le_add_right ?_ _) _
      rw [hhand]
      exact Nat.zero_le _
    · rw [if_neg hp, List.getElem?_singleton] at ho'
      split_ifs at ho' with hlast
      cases ho'
      obtain rfl : p = s.objects.length := by omega
      refine ⟨∅, hreplay, fun d => ?_⟩
      have hnone : l.inHand s.objects.length d + writtenBy s.written s.objects.length d
          + o.inside d = 0 := by
        rw [hhand, writtenBy_fresh h, hinside]
      exact ⟨(le_of_eq hnone).trans (Nat.zero_le 1), fun hpos => absurd hnone (Nat.ne_of_gt hpos)⟩
  · intro w hw
    rw [List.length_append]
    exact Nat.lt_add_right _ (h.known w hw)
  · intro k p hp
    obtain ⟨o₁, ho₁, hk, hst⟩ := h.listed k p hp
    obtain ⟨o₂, ho₂, hk', hst'⟩ := extends_append s.objects [o] p o₁ ho₁
    exact ⟨o₂, ho₂, hk'.trans hk, hst' hst⟩

theorem inv_createSession (h : s.Inv) (raw : List UInt8) (peerAddr : String) (dialed : Bool) :
    (s.create A hmac cfg raw peerAddr dialed).Inv := by
  have hback := inv_reading h
  unfold create
  rcases openFXPUDPPacket A hmac raw cfg.Key with e | packet
  · exact hback
  dsimp only
  by_cases hwants : cfg.wants packet = false
  · rw [if_pos hwants]; exact hback
  rw [if_neg hwants]
  rcases cfg.targetForRule packet.ruleID with _ | target
  · exact hback
  dsimp only
  unfold newUDPDirectExitSession
  rcases newFXPUDPCodec hmac cfg.Key _ with e | codec
  · exact hback
  dsimp only
  by_cases hdialed : dialed = false
  · rw [if_pos hdialed]; exact hback
  rw [if_neg hdialed]
  exact inv_append h UdpReplayWindow.rep_new (fun _ => rfl)
    ⟨rfl, rfl, _, List.getElem?_concat_length, rfl⟩ fun _ _ => rfl

theorem inv_register (h : s.Inv) {packet : FxpUDPPacket} {key : UdpRuleSessionKey}
    (hok : LoopOk s.objects (.created p packet key)) : (s.register p packet key).Inv := by
  obtain ⟨hrule, hid, o, ho, hkey⟩ := hok
  unfold register
  rcases hlookup : s.sessions.lookup key with _ | existing
  · dsimp only
    by_cases hroom : s.hasRoom = false
    · rw [if_pos hroom]; exact inv_reading h
    rw [if_neg hroom]
    have hkeys : ∀ o : UdpDirectExitSession, ({ o with started := true } : UdpDirectExitSession).key
        = o.key := fun _ => rfl
    have hext := extends_modify s.objects p hkeys fun _ _ => rfl
    obtain ⟨o', ho', hkey', -⟩ := hext p o ho
    have hstarted : o'.started = true := by
      rw [List.getElem?_modify, ho] at ho'
      simp at ho'
      rw [← ho']
    have hbase := inv_update h (p := p) (l := .accepting p packet) hkeys
      (fun _ _ => rfl)
      ⟨o', ho', hstarted, by rw [hkey', hkey]; exact hrule, by rw [hkey', hkey]; exact hid⟩ h.known
      (fun o ho => (h.sound p o ho).mono
        (fun d => Nat.add_le_add_right (Nat.add_le_add_right (Nat.zero_le _) _) _)
        rfl rfl fun _ => rfl)
      (fun q _ d => Nat.add_le_add_right (Nat.zero_le _) _)
    refine ⟨hbase.sound, hbase.known, fun k q hq => ?_, hbase.loop⟩
    -- the new entry names the object that was just started
    obtain ⟨rfl, rfl⟩ | ⟨-, hold⟩ := GoMap.lookup_insert_eq_some hq
    · exact ⟨o', ho', hkey'.trans hkey, hstarted⟩
    · exact hbase.listed k q hold
  · obtain ⟨o₁, ho₁, hkey₁, hst₁⟩ := h.listed key existing hlookup
    exact inv_loop h (.accepting existing packet)
      ⟨o₁, ho₁, hst₁, by rw [hkey₁]; exact hrule, by rw [hkey₁]; exact hid⟩ fun _ _ => rfl

theorem inv_accept (h : s.Inv) {packet : FxpUDPPacket} (budgets : Budgets) (now : ℤ)
    (hok : LoopOk s.objects (.accepting p packet)) : (s.accept p packet budgets now).Inv := by
  obtain ⟨o, ho, hst, hrule, hid⟩ := hok
  unfold accept
  rw [ho]
  dsimp only
  rcases accept_window o.dataFragments budgets o.dataReplay packet now with ⟨hnone, hw⟩ | ⟨hsome, hw⟩
  -- nothing comes out
  · rw [hnone, hw]
    refine inv_update h ?_ ?_ ?_ h.known ?_ ?_
    · exact fun _ => rfl
    · exact fun _ => id
    · trivial
    · intro o₁ ho₁
      obtain rfl : o = o₁ := Option.some.inj (ho.symm.trans ho₁)
      exact (h.sound p o ho).mono
        (fun d => Nat.add_le_add_right (Nat.add_le_add_right (Nat.zero_le _) _) _) rfl rfl id
    · exact fun q _ d => Nat.add_le_add_right (Nat.zero_le _) _
  · obtain ⟨payload, hpayload⟩ := Option.isSome_iff_exists.mp hsome
    rw [hpayload]
    refine inv_update h ?_ ?_ ?_ h.known ?_ ?_
    · exact fun _ => rfl
    · exact fun _ => id
    · trivial
    · intro o₁ ho₁
      obtain rfl : o = o₁ := Option.some.inj (ho.symm.trans ho₁)
      have haccepted : ({ o with
          dataReplay := (o.dataFragments.accept budgets o.dataReplay packet now).w
          dataFragments := (o.dataFragments.accept budgets o.dataReplay packet now).r } :
            UdpDirectExitSession).Sound fun d =>
              (if packet.datagram = d then 1 else 0) + (s.outside p d + o.inside d) :=
        (h.sound p o ho).accepted hw rfl hst hrule hid
      refine haccepted.mono (fun d => ?_) rfl rfl id
      show (if p = p ∧ packet.datagram = d then 1 else 0) + writtenBy s.written p d + o.inside d
        ≤ (if packet.datagram = d then 1 else 0) + (s.outside p d + o.inside d)
      have hout : writtenBy s.written p d ≤ s.outside p d := Nat.le_add_left _ _
      simp only [true_and]
      omega
    · intro q hq d
      show (if p = q ∧ packet.datagram = d then 1 else 0) + writtenBy s.written q d ≤ _
      rw [if_neg fun hbad => hq hbad.1.symm, Nat.zero_add]
      exact Nat.le_add_left _ _

open UdpDirectExitSession

theorem inv_forward (h : s.Inv) {datagram : Datagram} {payload : List UInt8}
    (hloop : s.loop = .forwarding p datagram payload) (budgets : Budgets) (now : ℤ) :
    (s.forward p datagram payload budgets now).Inv := by
  unfold forward
  refine inv_update h ?_ ?_ ?_ h.known ?_ ?_
  · intro o
    split_ifs <;> rfl
  · intro o hst
    split_ifs <;> exact hst
  · trivial
  · intro o ho
    refine (h.sound p o ho).mono (fun d => ?_) (by split_ifs <;> rfl) (by split_ifs <;> rfl)
      (by split_ifs <;> exact id)
    have hhand : s.outside p d = (if datagram = d then 1 else 0) + writtenBy s.written p d := by
      rw [outside, hloop]
      simp [ExitLoop.inHand]
    show 0 + writtenBy s.written p d + _ ≤ s.outside p d + o.inside d
    rw [hhand]
    by_cases hdone : o.done = true
    · rw [if_pos hdone]
      omega
    · rw [if_neg hdone]
      have hcount := (o.send.enqueue_sublist budgets payload datagram now).countP_le
        (p := fun packet => packet.tag == d)
      rw [List.countP_append, List.countP_singleton] at hcount
      simp only [beq_iff_eq] at hcount
      unfold inside
      dsimp only
      omega
  · exact fun q _ d => Nat.add_le_add_right (Nat.zero_le _) _

/-! ## The other goroutines keep it -/

theorem take_inside (o : UdpDirectExitSession) (d : Datagram) : o.take.inside d = o.inside d := by
  unfold take
  rcases hw : o.writing with _ | packet
  · rcases hn : o.send.nextTracked with _ | ⟨packet, send⟩
    · rfl
    · unfold inside
      dsimp only
      rw [hw, FxpUDPQueue.nextTracked_packets hn, List.countP_cons]
      simp
  · rfl

theorem inv_take (h : s.Inv) (p : ℕ) : (s.update p take).Inv := by
  have hsame : ∀ o : UdpDirectExitSession, o.take.key = o.key ∧ o.take.started = o.started ∧
      o.take.dataReplay = o.dataReplay := by
    intro o
    unfold take
    split <;> exact ⟨rfl, rfl, rfl⟩
  exact inv_shrink h (fun o => (hsame o).1) (fun o hst => (hsame o).2.1.trans hst)
    (fun o => (hsame o).2.2) fun o d => (take_inside o d).le

theorem writtenBy_write_le (written : List TargetWrite) (p : ℕ) (packet : FxpUDPQueuedPacket Datagram)
    (dropped : Bool) (q : ℕ) (d : Datagram) :
    writtenBy (if dropped then written else written ++ [⟨p, packet.tag, packet.payload⟩]) q d
      ≤ writtenBy written q d + if p = q ∧ packet.tag = d then 1 else 0 := by
  cases dropped with
  | true => exact Nat.le_add_right _ _
  | false =>
    rw [if_neg Bool.false_ne_true, writtenBy, List.countP_append, List.countP_singleton]
    simp [writtenBy]

theorem inv_write (h : s.Inv) (p : ℕ) (now : ℤ) : (s.write p now).Inv := by
  unfold write
  rcases ho : s.objects[p]? with _ | o
  · exact h
  dsimp only
  rcases hw : o.writing with _ | packet
  · exact h
  dsimp only
  have hcount := writtenBy_write_le s.written p packet (packet.superseded now o.send.packets.length)
  refine inv_update h ?_ ?_ ?_ ?_ ?_ ?_
  · exact fun _ => rfl
  · exact fun _ => id
  · exact h.loop.mono (extends_modify s.objects p
      (f := fun session => { session with writing := none }) (fun _ => rfl) fun _ => id)
  · intro w hmem
    split_ifs at hmem
    · exact h.known w hmem
    · rcases List.mem_append.mp hmem with hmem | hmem
      · exact h.known w hmem
      · rw [List.mem_singleton.mp hmem]
        exact (List.getElem?_eq_some_iff.mp ho).1
  · intro o₁ ho₁
    obtain rfl : o = o₁ := Option.some.inj (ho.symm.trans ho₁)
    refine (h.sound p o ho).mono (fun d => ?_) rfl rfl id
    have hc := hcount p d
    have hin : o.inside d = o.send.packets.countP (fun packet => packet.tag == d) +
        if packet.tag = d then 1 else 0 := by
      unfold inside
      rw [hw, Option.toList_some, List.countP_singleton]
      simp
    simp only [true_and] at hc
    show s.loop.inHand p d + _ + (o.send.packets.countP (fun packet => packet.tag == d) + 0)
      ≤ s.loop.inHand p d + writtenBy s.written p d + o.inside d
    rw [hin]
    omega
  · intro q hq d
    have hc := hcount q d
    have hne : ¬ (p = q ∧ packet.tag = d) := fun hbad => hq hbad.1.symm
    rw [if_neg hne] at hc
    exact Nat.add_le_add_left hc _

theorem inv_sweep (h : s.Inv) (now : ℤ) (order : List (UdpRuleSessionKey × String))
    (activity : ℕ → ℤ × ℤ) (budgets : Budgets) : (s.sweep now order activity budgets).Inv := by
  unfold sweep
  refine run_invariant (I := ExitServer.Inv) (fun s victim hs => inv_detach hs victim.2) _ _ ?_
  refine run_invariant (I := ExitServer.Inv) (fun s key hs => ?_) _ _ h
  unfold sweepOne
  rcases s.sessions.lookup key with _ | p
  · exact hs
  · have hexpired := inv_shrink hs (p := p) (f := fun session =>
      { session with dataFragments := (session.dataFragments.expire budgets now).1 })
      (fun _ => rfl) (fun _ => id) (fun _ => rfl) fun _ _ => le_refl _
    dsimp only
    split_ifs
    · exact inv_detach hexpired p
    · exact hexpired

theorem ExitServer.inv_step (s : ExitServer) (e : ExitEvent) (h : s.Inv) : (s.step A hmac cfg e).Inv := by
  have hloop := h.loop
  cases e with
  | read raw peerAddr =>
    unfold ExitServer.step
    dsimp only
    split
    · exact inv_read cfg h raw peerAddr
    · exact h
  | checkCurrent =>
    unfold ExitServer.step
    dsimp only
    split
    · rename_i p raw header key hl
      rw [hl] at hloop
      rcases checkCurrent_cases A cfg hloop with hread | ⟨packet, hacc, hok⟩
      · rw [hread]; exact inv_reading h
      · rw [hacc]; exact inv_loop h _ hok fun _ _ => rfl
    · exact h
  | create dialed =>
    unfold ExitServer.step
    dsimp only
    split
    · exact inv_createSession A hmac cfg h _ _ dialed
    · exact h
  | register =>
    unfold ExitServer.step
    dsimp only
    split
    · rename_i hl
      rw [hl] at hloop
      exact inv_register h hloop
    · exact h
  | accept budgets now =>
    unfold ExitServer.step
    dsimp only
    split
    · rename_i hl
      rw [hl] at hloop
      exact inv_accept h budgets now hloop
    · exact h
  | forward budgets now =>
    unfold ExitServer.step
    dsimp only
    split
    · rename_i hl
      exact inv_forward h hl budgets now
    · exact h
  | take p => exact inv_take h p
  | write p now => exact inv_write h p now
  | sweep now order activity budgets => exact inv_sweep h now order activity budgets
  | closeDone p => exact inv_shrink h (fun _ => rfl) (fun _ => id) (fun _ => rfl) fun _ _ => le_refl _
  | closeSend p budgets =>
    -- closing the queue drops what was in it, and nothing else moves
    refine inv_shrink h (fun _ => rfl) (fun _ => id) (fun _ => rfl) fun o d => ?_
    unfold inside
    dsimp only
    rw [FxpUDPQueue.close_packets, List.countP_nil]
    omega
  | closeFragments p budgets =>
    exact inv_shrink h (fun _ => rfl) (fun _ => id) (fun _ => rfl) fun _ _ => le_refl _
  | remove p => exact inv_detach h p
  | stop =>
    unfold ExitServer.step
    dsimp only
    split
    · exact inv_loop h .stopped trivial fun _ _ => rfl
    · exact h

/-! ## At most once for each session -/

theorem countP_written (written : List TargetWrite) (n : ℕ) (d : Datagram)
    (hknown : ∀ w ∈ written, w.session < n) :
    written.countP (fun w => w.datagram == d) = ∑ p ∈ Finset.range n, writtenBy written p d := by
  induction written with
  | nil => simp [writtenBy]
  | cons w written ih =>
    have hsplit : ∀ p, writtenBy (w :: written) p d
        = writtenBy written p d + if w.session = p then (if w.datagram = d then 1 else 0) else 0 := by
      intro p
      rw [writtenBy, List.countP_cons]
      by_cases hp : w.session = p <;> by_cases hd : w.datagram = d <;> simp [hp, hd, writtenBy]
    have hmem : w.session ∈ Finset.range n := Finset.mem_range.mpr (hknown w List.mem_cons_self)
    rw [List.countP_cons, ih fun w' hw' => hknown w' (List.mem_cons_of_mem _ hw')]
    simp only [hsplit, Finset.sum_add_distrib, Finset.sum_ite_eq, hmem, if_true, beq_iff_eq]

theorem countP_eq_sum {α : Type} (f : α → Bool) (l : List α) :
    l.countP f = ∑ p ∈ Finset.range l.length, if (l[p]?.any f) then 1 else 0 := by
  induction l with
  | nil => rfl
  | cons a l ih =>
    rw [List.countP_cons, List.length_cons, Finset.sum_range_succ', ih]
    simp

/-- The session was started for the rule and session id of `d`. -/
def UdpDirectExitSession.serves (d : Datagram) (o : UdpDirectExitSession) : Bool :=
  o.started && o.key.ruleID == d.ruleID && o.key.sessionID == d.sessionID

/-! ## One session for each key

Only `register` starts a session, and only when none is listed under its key; then it lists the
one it starts. So as long as the listed session of a key stays, it is the only one of that key
whose copies reach the target. -/

/-- The session object `p` was started under `k`. -/
def ExitServer.startedFor (s : ExitServer) (k : UdpRuleSessionKey) (p : ℕ) : Prop :=
  ∃ o, s.objects[p]? = some o ∧ o.started = true ∧ o.key = k

/-- The step takes no session of `k` out of the table. -/
def ExitServer.Stays (k : UdpRuleSessionKey) (s : ExitServer) (e : ExitEvent) : Prop :=
  (s.sessions.lookup k).isSome → ((s.step A hmac cfg e).sessions.lookup k).isSome

/-- Nothing is started or listed on the way from `s` to `s'`. -/
structure ExitServer.Quiet (s s' : ExitServer) : Prop where
  started : ∀ k p, s'.startedFor k p → s.startedFor k p
  listed : ∀ k p, s'.sessions.lookup k = some p → s.sessions.lookup k = some p

theorem quiet_refl (s : ExitServer) : s.Quiet s := ⟨fun _ _ => id, fun _ _ => id⟩

theorem ExitServer.Quiet.trans {s s' s'' : ExitServer} (h : s.Quiet s') (h' : s'.Quiet s'') :
    s.Quiet s'' :=
  ⟨fun k p hp => h.started k p (h'.started k p hp), fun k p hp => h.listed k p (h'.listed k p hp)⟩

theorem quiet_update (s : ExitServer) (p : ℕ) (hkey : ∀ o, (f o).key = o.key)
    (hstarted : ∀ o, (f o).started = o.started) : s.Quiet (s.update p f) := by
  refine ⟨fun k q ⟨o', ho', hst, hk⟩ => ?_, fun _ _ => id⟩
  have ho' : (s.objects.modify p f)[q]? = some o' := ho'
  rw [List.getElem?_modify] at ho'
  obtain ⟨o, ho, rfl⟩ := Option.map_eq_some_iff.mp ho'
  refine ⟨o, ho, ?_⟩
  by_cases hq : p = q
  · rw [if_pos hq] at hst hk
    exact ⟨(hstarted o).symm.trans hst, (hkey o).symm.trans hk⟩
  · rw [if_neg hq] at hst hk
    exact ⟨hst, hk⟩

theorem quiet_detach (s : ExitServer) (p : ℕ) : s.Quiet (s.detachSessionLocked p) := by
  unfold detachSessionLocked
  rcases s.objects[p]? with _ | o
  · exact quiet_refl s
  dsimp only
  split_ifs
  · exact ⟨fun _ _ => id, fun _ _ hq => (GoMap.lookup_erase_eq_some hq).2⟩
  · exact quiet_refl s

theorem quiet_read (s : ExitServer) (raw : List UInt8) (peerAddr : String) :
    s.Quiet (s.read cfg raw peerAddr) := by
  unfold ExitServer.read
  rcases parseFXPUDPHeader raw with e | header
  · exact quiet_refl s
  dsimp only
  by_cases hwants : cfg.wants header = false
  · rw [if_pos hwants]; exact quiet_refl s
  rw [if_neg hwants]
  rcases hlookup : s.sessions.lookup ⟨header.ruleID, peerAddr, header.sessionID⟩ with _ | p
  all_goals rw [hlookup]; dsimp only
  · split_ifs
    · exact ⟨fun _ _ => id, fun _ _ => id⟩
    · exact quiet_refl s
  · exact ⟨fun _ _ => id, fun _ _ => id⟩

/-- A session object that is only created is not started yet. -/
theorem quiet_create (s : ExitServer) (raw : List UInt8) (peerAddr : String) (dialed : Bool) :
    s.Quiet (s.create A hmac cfg raw peerAddr dialed) := by
  unfold create newUDPDirectExitSession
  rcases openFXPUDPPacket A hmac raw cfg.Key with e | packet
  · exact ⟨fun _ _ => id, fun _ _ => id⟩
  dsimp only
  by_cases hwants : cfg.wants packet = false
  · rw [if_pos hwants]; exact ⟨fun _ _ => id, fun _ _ => id⟩
  rw [if_neg hwants]
  rcases cfg.targetForRule packet.ruleID with _ | target
  · exact ⟨fun _ _ => id, fun _ _ => id⟩
  dsimp only
  rcases newFXPUDPCodec hmac cfg.Key _ with e | codec
  · exact ⟨fun _ _ => id, fun _ _ => id⟩
  dsimp only
  by_cases hdialed : dialed = false
  · rw [if_pos hdialed]; exact ⟨fun _ _ => id, fun _ _ => id⟩
  rw [if_neg hdialed]
  refine ⟨fun k q ⟨o, ho, hst, hk⟩ => ?_, fun _ _ => id⟩
  rw [List.getElem?_append] at ho
  by_cases hq : q < s.objects.length
  · rw [if_pos hq] at ho
    exact ⟨o, ho, hst, hk⟩
  · rw [if_neg hq, List.getElem?_singleton] at ho
    split_ifs at ho with hlast
    cases ho
    exact absurd hst Bool.false_ne_true

theorem quiet_accept (s : ExitServer) (p : ℕ) (packet : FxpUDPPacket) (budgets : Budgets) (now : ℤ) :
    s.Quiet (s.accept p packet budgets now) := by
  unfold accept
  rcases s.objects[p]? with _ | o
  · exact ⟨fun _ _ => id, fun _ _ => id⟩
  · have hupdate := quiet_update s p (f := fun session => { session with
      dataReplay := (o.dataFragments.accept budgets o.dataReplay packet now).w
      dataFragments := (o.dataFragments.accept budgets o.dataReplay packet now).r })
      (fun _ => rfl) fun _ => rfl
    exact ⟨hupdate.started, hupdate.listed⟩

theorem quiet_write (s : ExitServer) (p : ℕ) (now : ℤ) : s.Quiet (s.write p now) := by
  unfold write
  rcases s.objects[p]? with _ | o
  · exact quiet_refl s
  dsimp only
  rcases o.writing with _ | packet
  · exact quiet_refl s
  · have hupdate := quiet_update s p (f := fun session => { session with writing := none })
      (fun _ => rfl) fun _ => rfl
    exact ⟨hupdate.started, hupdate.listed⟩

theorem quiet_sweep (s : ExitServer) (now : ℤ) (order : List (UdpRuleSessionKey × String))
    (activity : ℕ → ℤ × ℤ) (budgets : Budgets) : s.Quiet (s.sweep now order activity budgets) := by
  unfold sweep
  refine run_invariant (I := fun s' => s.Quiet s')
    (fun s' victim hs => hs.trans (quiet_detach s' victim.2)) _ _ ?_
  refine run_invariant (I := fun s' => s.Quiet s') (fun s' key hs => hs.trans ?_) _ _ (quiet_refl s)
  unfold sweepOne
  rcases s'.sessions.lookup key with _ | p
  · exact quiet_refl s'
  · have hexpired := quiet_update s' p (f := fun session =>
      { session with dataFragments := (session.dataFragments.expire budgets now).1 })
      (fun _ => rfl) fun _ => rfl
    dsimp only
    split_ifs
    · exact hexpired.trans (quiet_detach _ p)
    · exact hexpired

/-- A step starts and lists nothing, or it starts the session that it lists under a key under
which none was. -/
def ExitServer.StartsOne (s s' : ExitServer) : Prop :=
  s.Quiet s' ∨ ∃ key p, s.sessions.lookup key = none ∧ s'.sessions = s.sessions.insert key p ∧
    ∀ k q, s'.startedFor k q → s.startedFor k q ∨ k = key ∧ q = p

theorem register_starts {packet : FxpUDPPacket} {key : UdpRuleSessionKey}
    (hok : LoopOk s.objects (.created p packet key)) : s.StartsOne (s.register p packet key) := by
  obtain ⟨-, -, o, ho, hkey⟩ := hok
  unfold register
  rcases hlookup : s.sessions.lookup key with _ | existing
  · dsimp only
    by_cases hroom : s.hasRoom = false
    · rw [if_pos hroom]; exact .inl ⟨fun _ _ => id, fun _ _ => id⟩
    rw [if_neg hroom]
    refine .inr ⟨key, p, hlookup, rfl, fun k q ⟨o', ho', hst, hk⟩ => ?_⟩
    have ho' : (s.objects.modify p fun session => { session with started := true })[q]? = some o' :=
      ho'
    rw [List.getElem?_modify] at ho'
    obtain ⟨o₀, ho₀, rfl⟩ := Option.map_eq_some_iff.mp ho'
    by_cases hq : p = q
    -- the object that is started was created under the key
    · subst hq
      obtain rfl : o = o₀ := Option.some.inj (ho.symm.trans ho₀)
      rw [if_pos rfl] at hk
      exact .inr ⟨hk.symm.trans hkey, rfl⟩
    · rw [if_neg hq] at hst hk
      exact .inl ⟨o₀, ho₀, hst, hk⟩
  · exact .inl ⟨fun _ _ => id, fun _ _ => id⟩

theorem step_starts (s : ExitServer) (e : ExitEvent) (h : s.Inv) :
    s.StartsOne (s.step A hmac cfg e) := by
  have hloop := h.loop
  cases e with
  | register =>
    unfold ExitServer.step
    dsimp only
    split
    · rename_i hl
      rw [hl] at hloop
      exact register_starts hloop
    · exact .inl (quiet_refl s)
  | read raw peerAddr =>
    refine .inl ?_
    unfold ExitServer.step
    dsimp only
    split
    · exact quiet_read cfg s raw peerAddr
    · exact quiet_refl s
  | checkCurrent =>
    refine .inl ?_
    unfold ExitServer.step
    dsimp only
    split <;> exact ⟨fun _ _ => id, fun _ _ => id⟩
  | create dialed =>
    refine .inl ?_
    unfold ExitServer.step
    dsimp only
    split
    · exact quiet_create A hmac cfg s _ _ dialed
    · exact quiet_refl s
  | accept budgets now =>
    refine .inl ?_
    unfold ExitServer.step
    dsimp only
    split
    · exact quiet_accept s _ _ budgets now
    · exact quiet_refl s
  | forward budgets now =>
    refine .inl ?_
    unfold ExitServer.step
    dsimp only
    split
    · rename_i p datagram payload hl
      have hupdate := quiet_update s p (f := fun session => if session.done then session
        else { session with send := (session.send.enqueue budgets payload datagram now).1 })
        (fun _ => by split_ifs <;> rfl) fun _ => by split_ifs <;> rfl
      exact ⟨hupdate.started, hupdate.listed⟩
    · exact quiet_refl s
  | take p =>
    refine .inl (quiet_update s p (fun o => ?_) fun o => ?_) <;> unfold take <;> split <;> rfl
  | write p now => exact .inl (quiet_write s p now)
  | sweep now order activity budgets => exact .inl (quiet_sweep s now order activity budgets)
  | closeDone p => exact .inl (quiet_update s p (fun _ => rfl) fun _ => rfl)
  | closeSend p budgets => exact .inl (quiet_update s p (fun _ => rfl) fun _ => rfl)
  | closeFragments p budgets => exact .inl (quiet_update s p (fun _ => rfl) fun _ => rfl)
  | remove p => exact .inl (quiet_detach s p)
  | stop =>
    refine .inl ?_
    unfold ExitServer.step
    dsimp only
    split <;> exact ⟨fun _ _ => id, fun _ _ => id⟩

theorem step_startedFor {e : ExitEvent} (h : s.Inv) {k : UdpRuleSessionKey}
    (hp : (s.step A hmac cfg e).startedFor k p) : s.startedFor k p ∨
      s.sessions.lookup k = none ∧ (s.step A hmac cfg e).sessions.lookup k = some p := by
  rcases step_starts A hmac cfg s e h with hquiet | ⟨key, q, hnone, hsessions, hstarted⟩
  · exact .inl (hquiet.started k p hp)
  · rcases hstarted k p hp with hold | ⟨rfl, rfl⟩
    · exact .inl hold
    · exact .inr ⟨hnone, hsessions ▸ AList.lookup_insert _⟩

/-- A listed session that stays is the same one. -/
theorem step_lookup {e : ExitEvent} (h : s.Inv) {k : UdpRuleSessionKey}
    (hp : s.sessions.lookup k = some p) (hstays : s.Stays A hmac cfg k e) :
    (s.step A hmac cfg e).sessions.lookup k = some p := by
  obtain ⟨q, hq⟩ := Option.isSome_iff_exists.mp (hstays (Option.isSome_of_eq_some hp))
  rcases step_starts A hmac cfg s e h with hquiet | ⟨key, r, hnone, hsessions, -⟩
  · have hold := hquiet.listed k q hq
    rw [hp] at hold
    rw [hq, hold]
  · have hne : k ≠ key := fun hk => by rw [← hk, hp] at hnone; cases hnone
    rw [hsessions, AList.lookup_insert_ne hne]
    exact hp

/-- While the session that is listed under `k` stays, it stays the same one, and no other is
started under `k`. -/
theorem stays_run {k : UdpRuleSessionKey} (h : s.Inv) (hp : s.sessions.lookup k = some p)
    (fs : List ExitEvent) (hstays : Admissible (ExitServer.Stays A hmac cfg k)
      (ExitServer.step A hmac cfg) s fs) :
    (run (ExitServer.step A hmac cfg) s fs).sessions.lookup k = some p ∧
      ∀ q, (run (ExitServer.step A hmac cfg) s fs).startedFor k q → s.startedFor k q := by
  refine (run_invariant_of_admissible (I := fun s' => s'.Inv ∧ s'.sessions.lookup k = some p ∧
    ∀ q, s'.startedFor k q → s.startedFor k q) (fun s' e hok ⟨hinv, hlisted, hstarted⟩ => ?_)
    fs s hstays ⟨h, hp, fun _ => id⟩).2
  refine ⟨ExitServer.inv_step A hmac cfg s' e hinv, step_lookup A hmac cfg hinv hlisted hok,
    fun q hq => ?_⟩
  rcases step_startedFor A hmac cfg hinv hq with hold | ⟨hnone, -⟩
  · exact hstarted q hold
  · rw [hlisted] at hnone
    cases hnone

/-- What was started under `k` is what is listed under it. -/
def ExitServer.OnlyListed (k : UdpRuleSessionKey) (s : ExitServer) : Prop :=
  ∀ p, s.startedFor k p → s.sessions.lookup k = some p

theorem onlyListed_step {k : UdpRuleSessionKey} {e : ExitEvent} (h : s.Inv)
    (honly : s.OnlyListed k) (hstays : s.Stays A hmac cfg k e) :
    (s.step A hmac cfg e).OnlyListed k := by
  intro p hp
  rcases step_startedFor A hmac cfg h hp with hold | ⟨-, hlisted⟩
  · exact step_lookup A hmac cfg h (honly p hold) hstays
  · exact hlisted

/-- The writes of `d` by the sessions of the key `k`. -/
def ExitServer.writtenFor (s : ExitServer) (k : UdpRuleSessionKey) (d : Datagram) : ℕ :=
  s.written.countP fun w => w.datagram == d && (s.objects[w.session]?.any fun o => o.key == k)

/-- A copy is written by a session that was started, and by no session twice. -/
theorem writtenBy_of_started (h : s.Inv) (d : Datagram) (p : ℕ) :
    writtenBy s.written p d ≤ 1 ∧ (0 < writtenBy s.written p d →
      ∃ o, s.objects[p]? = some o ∧ o.started = true ∧ d.ruleID = o.key.ruleID ∧
        d.sessionID = o.key.sessionID) := by
  by_cases hp : p < s.objects.length
  · have ho := List.getElem?_eq_getElem hp
    obtain ⟨acc, -, hall⟩ := h.sound p _ ho
    have hle : writtenBy s.written p d ≤ s.outside p d + s.objects[p].inside d := by
      unfold ExitServer.outside
      omega
    refine ⟨hle.trans (hall d).1, fun hpos => ⟨_, ho, ?_⟩⟩
    obtain ⟨hst, hrule, hid, -⟩ := (hall d).2 (lt_of_lt_of_le hpos hle)
    exact ⟨hst, hrule, hid⟩
  -- no such session, so no such write
  · have hzero : writtenBy s.written p d = 0 := by
      refine List.countP_eq_zero.mpr fun w hw hbad => ?_
      have hlt := h.known w hw
      simp only [Bool.and_eq_true, beq_iff_eq] at hbad
      omega
    exact ⟨hzero ▸ Nat.zero_le 1, fun hpos => absurd hzero (Nat.ne_of_gt hpos)⟩

theorem writtenFor_le {k : UdpRuleSessionKey} (h : s.Inv) (honly : s.OnlyListed k) (d : Datagram) :
    s.writtenFor k d ≤ 1 := by
  have hlisted : ∀ w ∈ s.written, w.datagram = d → (∃ o, s.objects[w.session]? = some o ∧ o.key = k) →
      s.sessions.lookup k = some w.session := by
    rintro w hw rfl ⟨o, ho, hkey⟩
    have hpos : 0 < writtenBy s.written w.session w.datagram :=
      List.countP_pos_iff.mpr ⟨w, hw, by simp⟩
    obtain ⟨o', ho', hst, -⟩ := (writtenBy_of_started h w.datagram w.session).2 hpos
    obtain rfl : o = o' := Option.some.inj (ho.symm.trans ho')
    exact honly w.session ⟨o, ho, hst, hkey⟩
  rcases hk : s.sessions.lookup k with _ | p
  · refine (List.countP_eq_zero.mpr fun w hw hbad => ?_).le.trans (Nat.zero_le 1)
    simp only [Bool.and_eq_true, beq_iff_eq, Option.any_eq_true] at hbad
    have hsome := hlisted w hw hbad.1 hbad.2
    rw [hk] at hsome
    cases hsome
  · refine (List.countP_mono_left fun w hw hwrites => ?_).trans (writtenBy_of_started h d p).1
    simp only [Bool.and_eq_true, beq_iff_eq, Option.any_eq_true] at hwrites ⊢
    have hsome := hlisted w hw hwrites.1 hwrites.2
    rw [hk] at hsome
    exact ⟨(Option.some.inj hsome).symm, hwrites.1⟩

/-- **At most once for each session**: a session hands a datagram to its target at
most once, and all sessions together at most as many times as sessions were started
for its rule and session id. While the session listed for a rule, a peer address and a
session id stays, no other is started for them; so where none of them is ever taken out, a
datagram from that peer is handed over at most once. -/
theorem exit_at_most_once (es : List ExitEvent) (d : Datagram) :
    let s := run (ExitServer.step A hmac cfg) ExitServer.new es
    (∀ p, writtenBy s.written p d ≤ 1) ∧
      s.written.countP (fun w => w.datagram == d)
        ≤ s.objects.countP (UdpDirectExitSession.serves d) ∧
      (∀ k p, s.sessions.lookup k = some p → ∀ fs, Admissible (ExitServer.Stays A hmac cfg k)
          (ExitServer.step A hmac cfg) s fs →
        let s' := run (ExitServer.step A hmac cfg) s fs
        s'.sessions.lookup k = some p ∧ ∀ q, s'.startedFor k q → s.startedFor k q) ∧
      ∀ k, Admissible (ExitServer.Stays A hmac cfg k) (ExitServer.step A hmac cfg)
        ExitServer.new es → s.writtenFor k d ≤ 1 := by
  have h : (run (ExitServer.step A hmac cfg) ExitServer.new es).Inv :=
    run_invariant (I := ExitServer.Inv) (ExitServer.inv_step A hmac cfg) es _ ExitServer.inv_new
  refine ⟨fun p => (writtenBy_of_started h d p).1, ?_,
    fun k p hp fs hstays => stays_run A hmac cfg h hp fs hstays, fun k hstays => ?_⟩
  · generalize run (ExitServer.step A hmac cfg) ExitServer.new es = s at h
    have hbound : ∀ p, writtenBy s.written p d
        ≤ if s.objects[p]?.any (UdpDirectExitSession.serves d) then 1 else 0 := by
      intro p
      obtain ⟨hone, hstarted⟩ := writtenBy_of_started h d p
      by_cases hpos : 0 < writtenBy s.written p d
      · obtain ⟨o, ho, hst, hrule, hid⟩ := hstarted hpos
        rw [ho, Option.any_some, UdpDirectExitSession.serves, hst, ← hrule, ← hid]
        simpa using hone
      · omega
    rw [countP_written s.written s.objects.length d h.known, countP_eq_sum]
    exact Finset.sum_le_sum fun p _ => hbound p
  · have honly := run_invariant_of_admissible (I := fun s => s.Inv ∧ s.OnlyListed k)
      (fun s e hok hs => ⟨ExitServer.inv_step A hmac cfg s e hs.1,
        onlyListed_step A hmac cfg hs.1 hs.2 hok⟩) es ExitServer.new hstays
      ⟨ExitServer.inv_new, fun p ⟨o, ho, _⟩ => by simp [ExitServer.new] at ho⟩
    exact writtenFor_le honly.1 honly.2 d

/-! ### A replay from another address -/

def replayConfig : ExitConfig := ⟨1, 0, [1], [⟨1, "10.0.0.1", 53⟩]⟩

/-- A datagram as an entry of the tunnel seals it: rule 1, session 1, sequence 1. -/
def replayedFrame : List UInt8 :=
  match newFXPUDPCodec (fun key _ => key) [1] ⟨fxpUDPTypeData, 1, 1, 1, 0, 0, 0, []⟩ with
  | .error _ => []
  | .ok codec =>
    match (sealFXPUDPDatagramsWithCodec tagAead ⟨fxpUDPTypeData, 1, 1, 1, 0, 0, 0, [7]⟩ codec
        0).frames with
    | .ok [frame] => frame
    | _ => []

def roomyBudgets : Budgets :=
  ⟨newFXPUDPQueueProcessBudget 1000, (∅ : GoMap ℕ FxpUDPQueueRuleBudget).insert 1
    (newFXPUDPQueueRuleBudget 1000), 0⟩

/-- The way of a frame from `peerAddr` through a new session `p` to the target. -/
def frameFrom (peerAddr : String) (p : ℕ) : List ExitEvent :=
  [.read replayedFrame peerAddr, .create true, .register, .accept roomyBudgets 1,
    .forward roomyBudgets 1, .take p, .write p 2]

instance (k : UdpRuleSessionKey) (s : ExitServer) (e : ExitEvent) :
    Decidable (s.Stays A hmac cfg k e) :=
  inferInstanceAs (Decidable (_ → _))

-- the frame comes twice from one address, and its session stays
example :
    let es := frameFrom "192.0.2.1:4000" 0 ++ [.read replayedFrame "192.0.2.1:4000", .checkCurrent,
      .accept roomyBudgets 3]
    let step := ExitServer.step tagAead (fun key _ => key) replayConfig
    let k : UdpRuleSessionKey := ⟨1, "192.0.2.1:4000", 1⟩
    Admissible (ExitServer.Stays tagAead (fun key _ => key) replayConfig k) step ExitServer.new es ∧
      (run step ExitServer.new es).writtenFor k ⟨1, 1, 1⟩ = 1 := by
  decide +kernel

/-- The same frame from two addresses is handed to the target twice. -/
theorem exit_replayed_from_other_peer :
    ¬ ∀ (es : List ExitEvent) (d : Datagram),
      (run (ExitServer.step tagAead (fun key _ => key) replayConfig) ExitServer.new
        es).written.countP (fun w => w.datagram == d) ≤ 1 := by
  intro h
  have hbad := h (frameFrom "192.0.2.1:4000" 0 ++ frameFrom "192.0.2.2:4000" 1) ⟨1, 1, 1⟩
  revert hbad
  decide +kernel

end ForwardX.Fxp
