/-
Port reservations in memory: `server/portReservations.ts`.

A reservation is held from before the first `await` until its release, and the database is asked in
between. So two calls never hold one port, whatever the answers are and in whatever order they come.
-/
import ForwardX.Lib.JsMap
import ForwardX.Lib.Run
import ForwardX.Panel.JsValues
import Mathlib.Data.List.Pairwise

namespace ForwardX.Panel.Ports

open Run Table Option List

/-! ## Protocols -/

inductive Network where
  | tcp
  | udp
  deriving DecidableEq

inductive ForwardRuleProtocol where
  | tcp
  | udp
  | both
  deriving DecidableEq

/-- White space, `_`, `+`, `/` and `-`. -/
def isSeparator (u : UInt16) : Bool :=
  isJsSpace u || u == 0x5F || u == 0x2B || u == 0x2F || u == 0x2D

/-- `null` and `undefined` are the empty text. -/
def normalizeForwardRuleProtocol (protocol : Option JsString) (fallback : ForwardRuleProtocol) :
    ForwardRuleProtocol :=
  let raw := toLowerCase (trim (protocol.getD []))
  if raw = [] then fallback
  else if raw = js "tcp" then .tcp
  else if raw = js "udp" then .udp
  else if raw = js "both" then .both
  else
    let compact := raw.filter fun u => !isSeparator u
    if compact = js "tcpudp" ∨ compact = js "udptcp" ∨ compact = js "tcpandudp" ∨
      compact = js "udpandtcp" then .both
    else fallback

def forwardRuleProtocols : ForwardRuleProtocol → List Network
  | .udp => [.udp]
  | .both => [.tcp, .udp]
  | .tcp => [.tcp]

def protocolsConflict (left right : ForwardRuleProtocol) : Bool :=
  (forwardRuleProtocols left).any fun network => network ∈ forwardRuleProtocols right

theorem protocolsConflict_comm (left right : ForwardRuleProtocol) :
    protocolsConflict left right = protocolsConflict right left := by
  cases left <;> cases right <;> rfl

/-! ## The map -/

structure ReservationEntry where
  token : ℕ
  protocol : ForwardRuleProtocol

abbrev HostReservations := JsMap ℕ (List ReservationEntry)

abbrev Reservations := JsMap ℕ HostReservations

/-- A reservation with the variable `released` of its closure. -/
structure HostPortReservation where
  token : ℕ
  hostId : ℕ
  port : ℕ
  protocol : ForwardRuleProtocol
  released : Bool := false
  deriving DecidableEq

def HostPortReservation.entry (r : HostPortReservation) : ReservationEntry := ⟨r.token, r.protocol⟩

def normalizedHostId (value : JsNumber) : ℕ := positiveInteger value

def normalizedPort (value : JsNumber) : ℕ :=
  if positiveInteger value ≤ 65535 then positiveInteger value else 0

def reservedHostPorts (t : Reservations) (hostIdValue : JsNumber) (protocolValue : Option JsString) : List ℕ :=
  let protocol := normalizeForwardRuleProtocol protocolValue .both
  match t.get (normalizedHostId hostIdValue) with
  | none => []
  | some hostReservations =>
    (hostReservations.entries.filter fun e =>
      e.2.any fun entry => protocolsConflict entry.protocol protocol).map Prod.fst

/-- The part of `tryReserveHostPort` that changes the map, with whether it made the entry. -/
def addEntry (t : Reservations) (hostId port : ℕ) (entry : ReservationEntry) : Bool × Reservations :=
  let hostReservations := (t.get hostId).getD ∅
  let t := if (t.get hostId).isNone then t.set hostId hostReservations else t
  let entries := (hostReservations.get port).getD []
  if entries.any fun e => protocolsConflict e.protocol entry.protocol then (false, t)
  else (true, t.set hostId (hostReservations.set port (entries ++ [entry])))

/-- What a closure does with the map the first time it runs. -/
def removeEntry (t : Reservations) (hostId port token : ℕ) : Reservations :=
  match t.get hostId with
  | none => t
  | some currentHost =>
    match currentHost.get port with
    | none => t
    | some currentEntries =>
      let remaining := currentEntries.filter fun entry => entry.token ≠ token
      let currentHost := if 0 < remaining.length then currentHost.set port remaining
        else currentHost.delete port
      if currentHost.size = 0 then t.delete hostId else t.set hostId currentHost

/-! ## Calls -/

structure SpecificOptions where
  hostId : JsNumber
  port : JsNumber
  protocol : Option JsString
  /-- Whether there is an `isUsed`. -/
  isUsed : Bool

structure AvailableOptions where
  hostId : JsNumber
  protocol : Option JsString
  isUsed : Bool
  maxAttempts : Option JsNumber

/-- `Math.max(1, Math.min(256, Number(options.maxAttempts) || 64))`. -/
def AvailableOptions.attempts (o : AvailableOptions) : ℚ :=
  match o.maxAttempts.getD .nan with
  | .nan => 64
  | .infinity negative => if negative then 1 else 256
  | .finite q => max 1 (min 256 (if q = 0 then 64 else q))

/-- Where a call is. A reservation that it has in hand is given by its token. -/
inductive CallState where
  | findPort (o : AvailableOptions) (attempt : ℕ) (reservedPorts : List ℕ)
  | isUsed (o : AvailableOptions) (attempt : ℕ) (token : ℕ)
  | isUsedSpecific (token : ℕ)
  | returned (reservation : Option ℕ)
  | threw

/-- A call, and the tokens of all entries that it ever made. -/
structure ReserveCall where
  state : CallState
  made : List ℕ := []

/-- The map, the reservations made so far, and the calls. -/
structure World where
  reservations : Reservations := ∅
  granted : List HostPortReservation := []
  calls : List ReserveCall := []

/-- The reservation that a call made, if it made one, and the map after it. -/
def tryReserveHostPort (s : World) (hostIdValue portValue : JsNumber)
    (protocolValue : Option JsString) : Option HostPortReservation × World :=
  let hostId := normalizedHostId hostIdValue
  let port := normalizedPort portValue
  let protocol := normalizeForwardRuleProtocol protocolValue .both
  if hostId = 0 ∨ port = 0 then (none, s)
  else
    let r : HostPortReservation := { token := s.granted.length, hostId, port, protocol }
    match addEntry s.reservations hostId port r.entry with
    | (false, t) => (none, { s with reservations := t })
    | (true, t) => (some r, { s with reservations := t, granted := s.granted ++ [r] })

def release (s : World) (token : ℕ) : World :=
  match byKey HostPortReservation.token token s.granted with
  | none => s
  | some r =>
    if r.released then s
    else
      { s with
        granted := updateWhere (fun r => r.token = token) (fun r => { r with released := true }) s.granted
        reservations := removeEntry s.reservations r.hostId r.port token }

def releaseHostPortReservations (s : World) (items : List ℕ) : World := items.foldl release s

def ReserveCall.start (state : CallState) (made : Option HostPortReservation) : ReserveCall :=
  ⟨state, (made.map HostPortReservation.token).toList⟩

/-- A call takes its next state, with the entry it made on the way. -/
def ReserveCall.moveTo (c : ReserveCall) (state : CallState) (made : Option HostPortReservation) :
    ReserveCall :=
  ⟨state, c.made ++ (made.map HostPortReservation.token).toList⟩

def reserveSpecificHostPort (s : World) (o : SpecificOptions) : World :=
  let (reservation, s) := tryReserveHostPort s o.hostId o.port o.protocol
  let state := match reservation with
    | none => .returned none
    | some r => if o.isUsed then .isUsedSpecific r.token else .returned (some r.token)
  { s with calls := s.calls ++ [.start state reservation] }

/-- The head of the loop of `reserveAvailableHostPort`. -/
def loopHead (t : Reservations) (o : AvailableOptions) (attempt : ℕ) : CallState :=
  if (attempt : ℚ) < o.attempts then .findPort o attempt (reservedHostPorts t o.hostId o.protocol)
  else .returned none

/-- What a call waits for: `findPort` gives a number or `null`, `isUsed` says yes or no,
and each of them can throw. -/
inductive Answer where
  | port (n : Option JsNumber)
  | used (b : Bool)
  | throws

/-- A call goes on after its wait, to the next one or to its end. An answer to another
question than the one that was asked is not one. -/
def resume (s : World) (c : ReserveCall) (answer : Answer) : ReserveCall × World :=
  match c.state, answer with
  | .findPort o attempt _, .port n =>
    match n with
    | none => (c.moveTo (.returned none) none, s)
    | some port =>
      if port.falsy then (c.moveTo (.returned none) none, s)
      else
        match tryReserveHostPort s o.hostId port o.protocol with
        | (none, s) => (c.moveTo (loopHead s.reservations o (attempt + 1)) none, s)
        | (some r, s) =>
          (c.moveTo (if o.isUsed then .isUsed o attempt r.token else .returned (some r.token)) (some r), s)
  | .findPort .., .throws => (c.moveTo .threw none, s)
  | .isUsed o attempt token, .used b =>
    if b then
      let s := release s token
      (c.moveTo (loopHead s.reservations o (attempt + 1)) none, s)
    else (c.moveTo (.returned (some token)) none, s)
  | .isUsed _ _ token, .throws => (c.moveTo .threw none, release s token)
  | .isUsedSpecific token, .used b =>
    if b then (c.moveTo (.returned none) none, release s token)
    else (c.moveTo (.returned (some token)) none, s)
  | .isUsedSpecific token, .throws => (c.moveTo .threw none, release s token)
  | _, _ => (c, s)

/-! ## Events -/

/-- What may happen next. A release may be of any reservation at any time, though only
one that was returned can be in the hands of a caller. -/
inductive PortEvent where
  | tryReserve (hostId port : JsNumber) (protocol : Option JsString)
  | reserveSpecific (o : SpecificOptions)
  | reserveAvailable (o : AvailableOptions)
  | resume (call : ℕ) (answer : Answer)
  | release (tokens : List ℕ)

def stepPorts (s : World) : PortEvent → World
  | .tryReserve hostId port protocol =>
    let (reservation, s) := tryReserveHostPort s hostId port protocol
    let state := .returned (reservation.map HostPortReservation.token)
    { s with calls := s.calls ++ [.start state reservation] }
  | .reserveSpecific o => reserveSpecificHostPort s o
  | .reserveAvailable o => { s with calls := s.calls ++ [.start (loopHead s.reservations o 0) none] }
  | .resume call answer =>
    match s.calls[call]? with
    | none => s
    | some c =>
      let (c, s) := resume s c answer
      { s with calls := s.calls.set call c }
  | .release tokens => releaseHostPortReservations s tokens

/-! ## The map at a host and a port -/

def entriesAt (t : Reservations) (hostId port : ℕ) : List ReservationEntry :=
  ((t.get hostId).bind fun m => m.get port).getD []

theorem entriesAt_set (t : Reservations) (hostId : ℕ) (m : HostReservations) (hostId' port' : ℕ) :
    entriesAt (t.set hostId m) hostId' port'
      = if hostId' = hostId then (m.get port').getD [] else entriesAt t hostId' port' := by
  unfold entriesAt
  rw [JsMap.get_set]
  split <;> rfl

theorem entriesAt_delete (t : Reservations) (hostId hostId' port' : ℕ) :
    entriesAt (t.delete hostId) hostId' port'
      = if hostId' = hostId then [] else entriesAt t hostId' port' := by
  unfold entriesAt
  rw [JsMap.get_delete]
  split <;> rfl

structure Tidy (t : Reservations) : Prop where
  hosts : ∀ hostId m, t.get hostId = some m → m.size ≠ 0
  ports : ∀ hostId m, t.get hostId = some m → ∀ port es, m.get port = some es → es ≠ []

variable {t : Reservations}

theorem Tidy.set (h : Tidy t) {hostId : ℕ} {m : HostReservations}
    (hsize : m.size ≠ 0) (hports : ∀ port es, m.get port = some es → es ≠ []) :
    Tidy (t.set hostId m) := by
  have hread : ∀ hostId' m', (t.set hostId m).get hostId' = some m' →
      m' = m ∨ t.get hostId' = some m' := by
    intro hostId' m' hm'
    rw [JsMap.get_set] at hm'
    split at hm'
    · exact .inl (Option.some.inj hm').symm
    · exact .inr hm'
  constructor
  · intro hostId' m' hm'
    rcases hread hostId' m' hm' with rfl | hold
    · exact hsize
    · exact h.hosts hostId' m' hold
  · intro hostId' m' hm'
    rcases hread hostId' m' hm' with rfl | hold
    · exact hports
    · exact h.ports hostId' m' hold

theorem Tidy.delete (h : Tidy t) (hostId : ℕ) : Tidy (t.delete hostId) := by
  have hread : ∀ hostId' m', (t.delete hostId).get hostId' = some m' → t.get hostId' = some m' := by
    intro hostId' m' hm'
    rw [JsMap.get_delete] at hm'
    split at hm'
    · cases hm'
    · exact hm'
  exact ⟨fun hostId' m' hm' => h.hosts hostId' m' (hread hostId' m' hm'),
    fun hostId' m' hm' => h.ports hostId' m' (hread hostId' m' hm')⟩

theorem Tidy.eq_empty (h : Tidy t) (hnone : ∀ hostId port, entriesAt t hostId port = []) :
    t.size = 0 := by
  rw [JsMap.size_eq_zero_iff]
  intro hostId
  rw [eq_none_iff_forall_ne_some]
  intro m hm
  apply h.hosts hostId m hm
  rw [JsMap.size_eq_zero_iff]
  intro port
  rw [eq_none_iff_forall_ne_some]
  intro es hes
  have hempty := hnone hostId port
  rw [entriesAt, hm, bind_some, hes] at hempty
  exact h.ports hostId m hm port es hes hempty

section

variable {t : Reservations} {hostId port : ℕ} {entry : ReservationEntry}

theorem getD_getD_eq (t : Reservations) (hostId port : ℕ) :
    (((t.get hostId).getD ∅).get port).getD [] = entriesAt t hostId port := by
  unfold entriesAt
  cases t.get hostId <;> rfl

theorem addEntry_conflict
    (h : ((entriesAt t hostId port).any fun e => protocolsConflict e.protocol entry.protocol) = true) :
    addEntry t hostId port entry = (false, t) := by
  have hhost : (t.get hostId).isNone = false := by
    rw [Bool.eq_false_iff]
    intro hnone
    rw [isNone_iff_eq_none] at hnone
    simp [entriesAt, hnone] at h
  unfold addEntry
  simp only [getD_getD_eq, h, hhost, if_true, Bool.false_eq_true, if_false]

section

variable (h : ((entriesAt t hostId port).any fun e => protocolsConflict e.protocol entry.protocol) = false)

include h

theorem addEntry_fst : (addEntry t hostId port entry).1 = true := by
  unfold addEntry
  simp only [getD_getD_eq, h, Bool.false_eq_true, if_false]

theorem entriesAt_addEntry (hostId' port' : ℕ) :
    entriesAt (addEntry t hostId port entry).2 hostId' port'
      = if hostId' = hostId ∧ port' = port then entriesAt t hostId port ++ [entry]
        else entriesAt t hostId' port' := by
  unfold addEntry
  simp only [getD_getD_eq, h, Bool.false_eq_true, if_false]
  rw [entriesAt_set]
  by_cases hhost : hostId' = hostId
  · rw [if_pos hhost, JsMap.get_set]
    by_cases hport : port' = port
    · simp [hhost, hport]
    · simp [hhost, hport, getD_getD_eq]
  · have hboth : ¬ (hostId' = hostId ∧ port' = port) := fun hboth => hhost hboth.1
    rw [if_neg hhost, if_neg hboth]
    split
    · rw [entriesAt_set, if_neg hhost]
    · rfl

end

theorem tidy_addEntry (htidy : Tidy t) (h : ((entriesAt t hostId port).any fun e =>
    protocolsConflict e.protocol entry.protocol) = false) : Tidy (addEntry t hostId port entry).2 := by
  unfold addEntry
  simp only [getD_getD_eq, h, Bool.false_eq_true, if_false]
  -- the map of the host may be new, and then it is empty for a moment
  have hold : ∀ port' es, ((t.get hostId).getD ∅).get port' = some es → es ≠ [] := by
    intro port' es hes
    cases hm : t.get hostId with
    | none =>
      rw [hm] at hes
      cases hes
    | some m =>
      rw [hm] at hes
      exact htidy.ports hostId m hm port' es hes
  have hnew : ∀ port' es, (((t.get hostId).getD ∅).set port (entriesAt t hostId port ++ [entry])).get port'
      = some es → es ≠ [] := by
    intro port' es hes
    rw [JsMap.get_set] at hes
    split at hes
    · obtain rfl := Option.some.inj hes
      simp
    · exact hold port' es hes
  have hsize : (((t.get hostId).getD ∅).set port (entriesAt t hostId port ++ [entry])).size ≠ 0 := by
    rw [Ne, JsMap.size_eq_zero_iff]
    intro hnone
    have hread := hnone port
    rw [JsMap.get_set, if_pos rfl] at hread
    cases hread
  by_cases hhost : (t.get hostId).isNone = true
  · rw [if_pos hhost]
    -- the second `set` hides the first
    have hread : ∀ hostId' m, ((t.set hostId ((t.get hostId).getD ∅)).set hostId
        (((t.get hostId).getD ∅).set port (entriesAt t hostId port ++ [entry]))).get hostId' = some m →
        m.size ≠ 0 ∧ ∀ port' es, m.get port' = some es → es ≠ [] := by
      intro hostId' m hm
      rw [JsMap.get_set, JsMap.get_set] at hm
      split at hm
      · obtain rfl := Option.some.inj hm
        exact ⟨hsize, hnew⟩
      · exact ⟨htidy.hosts hostId' m hm, htidy.ports hostId' m hm⟩
    exact ⟨fun hostId' m hm => (hread hostId' m hm).1, fun hostId' m hm => (hread hostId' m hm).2⟩
  · rw [if_neg hhost]
    exact htidy.set hsize hnew

theorem entriesAt_removeEntry (t : Reservations) (hostId port token hostId' port' : ℕ) :
    entriesAt (removeEntry t hostId port token) hostId' port'
      = if hostId' = hostId ∧ port' = port
        then (entriesAt t hostId port).filter fun entry => entry.token ≠ token
        else entriesAt t hostId' port' := by
  unfold removeEntry
  cases hm : t.get hostId with
  | none =>
    have hempty : entriesAt t hostId port = [] := by simp [entriesAt, hm]
    simp only [hempty, filter_nil]
    split
    · rename_i hboth
      rw [hboth.1, hboth.2, hempty]
    · rfl
  | some m =>
    cases hes : m.get port with
    | none =>
      have hempty : entriesAt t hostId port = [] := by simp [entriesAt, hm, hes]
      simp only [hes, hempty, filter_nil]
      split
      · rename_i hboth
        rw [hboth.1, hboth.2, hempty]
      · rfl
    | some es =>
      have hread : entriesAt t hostId port = es := by simp [entriesAt, hm, hes]
      have hother : ∀ port', port' ≠ port → entriesAt t hostId port' = (m.get port').getD [] := by
        intro port' _
        simp [entriesAt, hm]
      simp only [hes, hread]
      generalize hrem : (es.filter fun entry => decide (entry.token ≠ token)) = remaining
      -- the map of the host after the change
      have hhost : ∀ port', ((if 0 < remaining.length then m.set port remaining
          else m.delete port).get port').getD []
            = if port' = port then remaining else (m.get port').getD [] := by
        intro port'
        split
        · rw [JsMap.get_set]
          split <;> rfl
        · rename_i hlen
          have hnil : remaining = [] := length_eq_zero_iff.mp (by omega)
          rw [JsMap.get_delete, hnil]
          split <;> rfl
      generalize (if 0 < remaining.length then m.set port remaining else m.delete port) = current at hhost
      split
      · rename_i hsize
        rw [JsMap.size_eq_zero_iff] at hsize
        rw [entriesAt_delete]
        by_cases hh : hostId' = hostId
        · have hnil := hhost port'
          rw [hsize port'] at hnil
          by_cases hp : port' = port
          · simpa [hh, hp] using hnil
          · simpa [hh, hp, hother port' hp] using hnil
        · simp [hh]
      · rw [entriesAt_set]
        by_cases hh : hostId' = hostId
        · rw [if_pos hh, hhost]
          by_cases hp : port' = port
          · simp [hh, hp]
          · simp [hh, hp, hother port' hp]
        · simp [hh]

theorem tidy_removeEntry (htidy : Tidy t) (hostId port token : ℕ) : Tidy (removeEntry t hostId port token) := by
  unfold removeEntry
  cases hm : t.get hostId with
  | none => exact htidy
  | some m =>
    cases hes : m.get port with
    | none => simpa only [hes] using htidy
    | some es =>
      simp only [hes]
      generalize (es.filter fun entry => decide (entry.token ≠ token)) = remaining
      have hports : ∀ port' es', (if 0 < remaining.length then m.set port remaining
          else m.delete port).get port' = some es' → es' ≠ [] := by
        intro port' es' hes'
        split at hes'
        · rename_i hlen
          rw [JsMap.get_set] at hes'
          split at hes'
          · obtain rfl := Option.some.inj hes'
            exact ne_nil_of_length_pos hlen
          · exact htidy.ports hostId m hm port' es' hes'
        · rw [JsMap.get_delete] at hes'
          split at hes'
          · cases hes'
          · exact htidy.ports hostId m hm port' es' hes'
      generalize (if 0 < remaining.length then m.set port remaining else m.delete port) = current
        at hports
      split
      · exact htidy.delete hostId
      · rename_i hsize
        exact htidy.set hsize hports

end

/-! ## The entries and the reservations -/

def liveAt (granted : List HostPortReservation) (hostId port : ℕ) : List HostPortReservation :=
  granted.filter fun r => r.released = false ∧ r.hostId = hostId ∧ r.port = port

def markReleased (token : ℕ) : List HostPortReservation → List HostPortReservation :=
  updateWhere (fun r => r.token = token) fun r => { r with released := true }

/-- The map lists what is not released, in the order in which it was made. -/
structure TableKept (t : Reservations) (granted : List HostPortReservation) : Prop where
  tidy : Tidy t
  tokens : granted.map HostPortReservation.token = List.range granted.length
  live : ∀ hostId port,
    entriesAt t hostId port = (liveAt granted hostId port).map HostPortReservation.entry
  apart : ∀ hostId port, (entriesAt t hostId port).Pairwise fun e e' =>
    protocolsConflict e.protocol e'.protocol = false

theorem tableKept_empty : TableKept ∅ [] where
  tidy := ⟨(fun _ _ h => nomatch h), (fun _ _ h => nomatch h)⟩
  tokens := rfl
  live := fun _ _ => rfl
  apart := fun _ _ => List.Pairwise.nil

namespace TableKept

variable {t : Reservations} {granted : List HostPortReservation} {r : HostPortReservation}

theorem token_lt (h : TableKept t granted) (hr : r ∈ granted) :
    r.token < granted.length := by
  have hmem : r.token ∈ granted.map HostPortReservation.token := mem_map_of_mem hr
  rwa [h.tokens, mem_range] at hmem

theorem nodup (h : TableKept t granted) : (granted.map HostPortReservation.token).Nodup := by
  rw [h.tokens]
  exact nodup_range

theorem add (h : TableKept t granted) (htoken : r.token = granted.length)
    (hlive : r.released = false)
    (hfree : ((entriesAt t r.hostId r.port).any fun e => protocolsConflict e.protocol r.protocol) = false) :
    TableKept (addEntry t r.hostId r.port r.entry).2 (granted ++ [r]) where
  tidy := tidy_addEntry h.tidy hfree
  tokens := by
    rw [map_append, h.tokens, length_append, length_singleton, range_succ,
      map_singleton, htoken]
  live := by
    intro hostId port
    have hnew : liveAt (granted ++ [r]) hostId port
        = liveAt granted hostId port ++ if r.hostId = hostId ∧ r.port = port then [r] else [] := by
      simp only [liveAt, filter_append, filter_cons, filter_nil, hlive, true_and,
        decide_eq_true_eq]
    rw [entriesAt_addEntry hfree, hnew, map_append, ← h.live]
    by_cases hplace : hostId = r.hostId ∧ port = r.port
    · rw [hplace.1, hplace.2]
      simp
    · have hplace' : ¬ (r.hostId = hostId ∧ r.port = port) := fun hsame =>
        hplace ⟨hsame.1.symm, hsame.2.symm⟩
      simp [hplace, hplace']
  apart := by
    intro hostId port
    rw [entriesAt_addEntry hfree]
    split
    · rw [pairwise_append]
      refine ⟨h.apart _ _, pairwise_singleton _ _, ?_⟩
      intro e he e' he'
      rw [mem_singleton] at he'
      rw [List.any_eq_false] at hfree
      rw [he', ← Bool.not_eq_true]
      exact hfree e he
    · exact h.apart hostId port

theorem liveAt_markReleased (token : ℕ) (granted : List HostPortReservation) (hostId port : ℕ) :
    liveAt (markReleased token granted) hostId port
      = (liveAt granted hostId port).filter fun r => r.token ≠ token := by
  unfold liveAt markReleased updateWhere
  induction granted with
  | nil => rfl
  | cons r granted ih =>
    rw [map_cons, filter_cons, filter_cons, ih]
    by_cases hr : r.token = token
    · rw [if_pos (decide_eq_true hr), if_neg (by simp)]
      split
      · rw [filter_cons, if_neg (by simp [hr])]
      · rfl
    · have hthis : decide (r.token = token) = false := decide_eq_false hr
      simp only [hthis, Bool.false_eq_true, if_false]
      split
      · rw [filter_cons, if_pos (by simp [hr])]
      · rfl

theorem remove (h : TableKept t granted) (hr : r ∈ granted) :
    TableKept (removeEntry t r.hostId r.port r.token) (markReleased r.token granted) where
  tidy := tidy_removeEntry h.tidy _ _ _
  tokens := by
    have hsame : (markReleased r.token granted).map HostPortReservation.token
        = granted.map HostPortReservation.token := by
      apply map_updateWhere
      intro x _
      rfl
    rw [hsame, h.tokens, markReleased, updateWhere, length_map]
  live := by
    intro hostId port
    have hfilter : ∀ l : List HostPortReservation,
        (l.filter fun x => x.token ≠ r.token).map HostPortReservation.entry
          = (l.map HostPortReservation.entry).filter fun e => e.token ≠ r.token := by
      intro l
      rw [List.filter_map]
      rfl
    rw [entriesAt_removeEntry, liveAt_markReleased, hfilter, ← h.live]
    split
    · rename_i hplace
      rw [hplace.1, hplace.2]
    · rename_i hplace
      -- the reservation with this token lies elsewhere
      symm
      rw [filter_eq_self, h.live]
      intro e he
      obtain ⟨r', hr', rfl⟩ := mem_map.mp he
      rw [liveAt, mem_filter, decide_eq_true_eq] at hr'
      rw [decide_eq_true_eq]
      intro htoken
      have hsame : r' = r := eq_of_key_eq h.nodup hr'.1 hr htoken
      rw [hsame] at hr'
      exact hplace ⟨hr'.2.2.1.symm, hr'.2.2.2.symm⟩
  apart := by
    intro hostId port
    rw [entriesAt_removeEntry]
    split
    · exact (h.apart _ _).filter _
    · exact h.apart hostId port

end TableKept

/-! ## The calls and their reservations -/

def CallState.holding : CallState → Option ℕ
  | .findPort .. | .threw => none
  | .isUsed _ _ token | .isUsedSpecific token => some token
  | .returned reservation => reservation

/-- The call returned `null`, or threw. -/
def CallState.failed : CallState → Bool
  | .returned none | .threw => true
  | _ => false

theorem CallState.holding_of_failed {state : CallState} (h : state.failed = true) : state.holding = none := by
  cases state with
  | returned reservation =>
    cases reservation with
    | none => rfl
    | some token => cases h
  | threw => rfl
  | findPort o attempt ports => cases h
  | isUsed o attempt token => cases h
  | isUsedSpecific token => cases h

/-- Every reservation was made by a call, which still has it or released it. -/
structure CallsKept (granted : List HostPortReservation) (calls : List ReserveCall) : Prop where
  bound : ∀ c ∈ calls, ∀ token ∈ c.made, token < granted.length
  traced : ∀ r ∈ granted, ∃ c ∈ calls, r.token ∈ c.made
  held : ∀ c ∈ calls, ∀ r ∈ granted, r.token ∈ c.made →
    r.released = true ∨ c.state.holding = some r.token

theorem mem_markReleased {token : ℕ} {granted : List HostPortReservation} {r' : HostPortReservation}
    (h : r' ∈ markReleased token granted) :
    ∃ r ∈ granted, r'.token = r.token ∧ (r.released = true → r'.released = true) ∧
      (r'.token = token → r'.released = true) := by
  obtain ⟨r, hr, rfl⟩ := mem_updateWhere.mp h
  refine ⟨r, hr, ?_⟩
  by_cases htoken : r.token = token
  · simp [htoken]
  · simp [htoken]

namespace CallsKept

variable {granted : List HostPortReservation} {calls : List ReserveCall}

theorem release (h : CallsKept granted calls) (token : ℕ) : CallsKept (markReleased token granted) calls where
  bound := by
    intro c hc token' htoken'
    rw [markReleased, updateWhere, length_map]
    exact h.bound c hc token' htoken'
  traced := by
    intro r' hr'
    obtain ⟨r, hr, htoken, -⟩ := mem_markReleased hr'
    rw [htoken]
    exact h.traced r hr
  held := by
    intro c hc r' hr' hmade
    obtain ⟨r, hr, htoken, hkeep, -⟩ := mem_markReleased hr'
    rw [htoken] at hmade ⊢
    exact (h.held c hc r hr hmade).imp_left hkeep

variable {made : Option HostPortReservation} {state : CallState}
  (hlt : ∀ r ∈ granted, r.token < granted.length) (htoken : ∀ r, made = some r → r.token = granted.length)
  (hhold : ∀ r, made = some r → state.holding = some r.token)

include htoken hhold in
theorem append (h : CallsKept granted calls) :
    CallsKept (granted ++ made.toList) (calls ++ [.start state made]) where
  bound := by
    intro c hc token hmem
    rw [length_append]
    rcases mem_append.mp hc with hc | hc
    · have hold := h.bound c hc token hmem
      omega
    · rw [mem_singleton] at hc
      subst hc
      cases made with
      | none => cases hmem
      | some r =>
        have hr := htoken r rfl
        simp only [ReserveCall.start, map_some, toList_some, mem_singleton] at hmem
        simp only [toList_some, length_singleton]
        omega
  traced := by
    intro r hr
    rcases mem_append.mp hr with hr | hr
    · obtain ⟨c, hc, hmem⟩ := h.traced r hr
      exact ⟨c, mem_append_left _ hc, hmem⟩
    · rw [mem_toList] at hr
      refine ⟨.start state made, by simp, ?_⟩
      simp [ReserveCall.start, hr]
  held := by
    intro c hc r hr hmem
    rcases mem_append.mp hc with hc | hc
    · have hold := h.bound c hc r.token hmem
      rcases mem_append.mp hr with hr | hr
      · exact h.held c hc r hr hmem
      · rw [mem_toList] at hr
        have hnew := htoken r hr
        omega
    · rw [mem_singleton] at hc
      subst hc
      simp only [ReserveCall.start, mem_toList, map_eq_some_iff] at hmem ⊢
      obtain ⟨r', hr', heq⟩ := hmem
      exact .inr (heq ▸ hhold r' hr')

include hlt htoken hhold in
theorem set (h : CallsKept granted calls) {i : ℕ} {c : ReserveCall} (hc : calls[i]? = some c)
    (hkeep : ∀ r ∈ granted, c.state.holding = some r.token →
      r.released = true ∨ state.holding = some r.token) :
    CallsKept (granted ++ made.toList) (calls.set i (c.moveTo state made)) := by
  have hcmem : c ∈ calls := mem_of_getElem? hc
  have hi : i < calls.length := (List.getElem?_eq_some_iff.mp hc).1
  have hmade : ∀ token, token ∈ (c.moveTo state made).made ↔
      token ∈ c.made ∨ ∃ r, made = some r ∧ r.token = token := by
    intro token
    simp [ReserveCall.moveTo]
  have hcases : ∀ c' ∈ calls.set i (c.moveTo state made), c' = c.moveTo state made ∨ c' ∈ calls :=
    fun c' hc' => (mem_or_eq_of_mem_set hc').symm
  constructor
  · intro c' hc' token hmem
    rw [length_append]
    rcases hcases c' hc' with rfl | hc'
    · rcases (hmade token).mp hmem with hmem | ⟨r, hr, rfl⟩
      · have hold := h.bound c hcmem token hmem
        omega
      · have hnew := htoken r hr
        simp [hr, hnew]
    · have hold := h.bound c' hc' token hmem
      omega
  · intro r hr
    have hthis : c.moveTo state made ∈ calls.set i (c.moveTo state made) := mem_set hi _
    rcases mem_append.mp hr with hr | hr
    · obtain ⟨c', hc', hmem⟩ := h.traced r hr
      obtain ⟨j, hj, rfl⟩ := mem_iff_getElem.mp hc'
      by_cases hij : i = j
      · subst hij
        rw [getElem?_eq_getElem hj, Option.some.injEq] at hc
        rw [hc] at hmem
        exact ⟨_, hthis, (hmade r.token).mpr (.inl hmem)⟩
      · refine ⟨calls[j], ?_, hmem⟩
        rw [mem_iff_getElem]
        exact ⟨j, by rwa [length_set], getElem_set_ne hij _⟩
    · rw [mem_toList] at hr
      exact ⟨_, hthis, (hmade r.token).mpr (.inr ⟨r, hr, rfl⟩)⟩
  · intro c' hc' r hr hmem
    rcases mem_append.mp hr with hr | hr
    · rcases hcases c' hc' with rfl | hc'
      · rcases (hmade r.token).mp hmem with hmem | ⟨r', hr', heq⟩
        · rcases h.held c hcmem r hr hmem with hrel | hhas
          · exact .inl hrel
          · exact hkeep r hr hhas
        · have hold := hlt r hr
          have hnew := htoken r' hr'
          omega
      · exact h.held c' hc' r hr hmem
    · rw [mem_toList] at hr
      rcases hcases c' hc' with rfl | hc'
      · exact .inr (hhold r hr)
      · have hold := h.bound c' hc' r.token hmem
        have hnew := htoken r hr
        omega

end CallsKept

/-! ## What an event does -/

structure Kept (s : World) : Prop where
  table : TableKept s.reservations s.granted
  calls : CallsKept s.granted s.calls

variable {s : World}

theorem tryReserveHostPort_spec (h : TableKept s.reservations s.granted)
    (hostId port : JsNumber) (protocol : Option JsString) :
    ∃ made t, tryReserveHostPort s hostId port protocol
        = (made, { s with reservations := t, granted := s.granted ++ made.toList }) ∧
      (∀ r, made = some r → r.token = s.granted.length) ∧ TableKept t (s.granted ++ made.toList) := by
  have hnothing : ∀ made t, made = none → t = s.reservations →
      (∀ r, made = some r → r.token = s.granted.length) ∧ TableKept t (s.granted ++ made.toList) := by
    rintro made t rfl rfl
    refine ⟨fun r hr => (nomatch hr), ?_⟩
    rwa [toList_none, append_nil]
  unfold tryReserveHostPort
  simp only
  split
  · refine ⟨none, s.reservations, ?_, hnothing _ _ rfl rfl⟩
    simp
  · generalize hr : (HostPortReservation.mk s.granted.length (normalizedHostId hostId)
      (normalizedPort port) (normalizeForwardRuleProtocol protocol .both) false) = r
    have hhost : normalizedHostId hostId = r.hostId := by rw [← hr]
    have hport : normalizedPort port = r.port := by rw [← hr]
    have htoken : r.token = s.granted.length := by rw [← hr]
    have hlive : r.released = false := by rw [← hr]
    rw [hhost, hport]
    by_cases hconflict : ((entriesAt s.reservations r.hostId r.port).any fun e =>
        protocolsConflict e.protocol r.entry.protocol) = true
    · rw [addEntry_conflict hconflict]
      refine ⟨none, s.reservations, ?_, hnothing _ _ rfl rfl⟩
      simp
    · rw [Bool.not_eq_true] at hconflict
      have hpair : addEntry s.reservations r.hostId r.port r.entry
          = (true, (addEntry s.reservations r.hostId r.port r.entry).2) :=
        Prod.ext (addEntry_fst hconflict) rfl
      rw [hpair]
      refine ⟨some r, _, rfl, ?_, h.add htoken hlive hconflict⟩
      rintro r' ⟨⟩
      exact htoken

theorem release_spec (h : Kept s) (token : ℕ) :
    Kept (release s token) ∧ (release s token).calls = s.calls ∧
      ∀ r ∈ (release s token).granted, r.token = token → r.released = true := by
  unfold release
  cases hread : byKey HostPortReservation.token token s.granted with
  | none =>
    refine ⟨h, rfl, ?_⟩
    intro r hr htoken
    rw [← htoken, byKey_of_mem h.table.nodup hr] at hread
    cases hread
  | some r =>
    have hmem := byKey_mem hread
    have htoken := byKey_key hread
    simp only
    split
    · rename_i hreleased
      refine ⟨h, rfl, ?_⟩
      intro r' hr' htoken'
      rw [eq_of_key_eq h.table.nodup hr' hmem (htoken'.trans htoken.symm), hreleased]
    · subst htoken
      refine ⟨⟨h.table.remove hmem, h.calls.release r.token⟩, rfl, ?_⟩
      intro r' hr' htoken'
      obtain ⟨-, -, -, -, hdone⟩ := mem_markReleased hr'
      exact hdone htoken'

theorem kept_releaseAll (h : Kept s) (tokens : List ℕ) : Kept (releaseHostPortReservations s tokens) := by
  unfold releaseHostPortReservations
  induction tokens generalizing s with
  | nil => exact h
  | cons token tokens ih => exact ih (release_spec h token).1

theorem kept_start {s s' : World} (h : Kept s) {made : Option HostPortReservation} {t : Reservations}
    (hs' : s' = { s with reservations := t, granted := s.granted ++ made.toList })
    (htoken : ∀ r, made = some r → r.token = s.granted.length)
    (htable : TableKept t (s.granted ++ made.toList)) {state : CallState}
    (hhold : ∀ r, made = some r → state.holding = some r.token) :
    Kept { s' with calls := s'.calls ++ [.start state made] } := by
  subst hs'
  exact ⟨htable, h.calls.append htoken hhold⟩

section

variable (h : Kept s) {i : ℕ} {c : ReserveCall} (hc : s.calls[i]? = some c)

include h hc

theorem kept_set
    {state : CallState} (hkeep : ∀ r ∈ s.granted, c.state.holding = some r.token →
      r.released = true ∨ state.holding = some r.token) :
    Kept { s with calls := s.calls.set i (c.moveTo state none) } := by
  have hlt : ∀ r ∈ s.granted, r.token < s.granted.length := fun r hr => h.table.token_lt hr
  have hset : CallsKept (s.granted ++ (none : Option HostPortReservation).toList)
      (s.calls.set i (c.moveTo state none)) :=
    h.calls.set hlt (by rintro r ⟨⟩) (by rintro r ⟨⟩) hc hkeep
  rw [toList_none, append_nil] at hset
  exact ⟨h.table, hset⟩

theorem kept_release_set {token : ℕ} (hhas : c.state.holding = some token) (state : CallState) :
    Kept { release s token with calls := (release s token).calls.set i (c.moveTo state none) } := by
  obtain ⟨hkept, hcalls, hreleased⟩ := release_spec h token
  have hc' : (release s token).calls[i]? = some c := by rw [hcalls, hc]
  refine kept_set hkept hc' ?_
  intro r hr hr'
  rw [hhas, Option.some.injEq] at hr'
  exact .inl (hreleased r hr hr'.symm)

theorem kept_resume (answer : Answer) :
    Kept { (resume s c answer).2 with
      calls := (resume s c answer).2.calls.set i (resume s c answer).1 } := by
  have hsame : Kept { s with calls := s.calls.set i c } := by
    have hi := List.getElem?_eq_some_iff.mp hc
    rw [← hi.2, set_getElem_self]
    exact h
  obtain ⟨state, made⟩ := c
  cases state with
  | findPort o attempt ports =>
    cases answer with
    | port n =>
      cases n with
      | none => exact kept_set h hc fun r _ hr => nomatch hr
      | some port =>
        simp only [resume]
        split
        · exact kept_set h hc fun r _ hr => nomatch hr
        · obtain ⟨new, t, htry, htoken, htable⟩ := tryReserveHostPort_spec h.table o.hostId port o.protocol
          rw [htry]
          have hlt : ∀ r ∈ s.granted, r.token < s.granted.length := fun r hr => h.table.token_lt hr
          cases new with
          | none =>
            have hset : CallsKept (s.granted ++ (none : Option HostPortReservation).toList)
                (s.calls.set i ((ReserveCall.mk (.findPort o attempt ports) made).moveTo
                  (loopHead t o (attempt + 1)) none)) :=
              h.calls.set hlt (by rintro r ⟨⟩) (by rintro r ⟨⟩) hc (fun r _ hr => nomatch hr)
            exact ⟨htable, hset⟩
          | some r =>
            have hset : CallsKept (s.granted ++ (some r).toList)
                (s.calls.set i ((ReserveCall.mk (.findPort o attempt ports) made).moveTo
                  (if o.isUsed then .isUsed o attempt r.token else .returned (some r.token))
                  (some r))) := by
              refine h.calls.set hlt htoken ?_ hc (fun r _ hr => nomatch hr)
              rintro r' ⟨⟩
              split <;> rfl
            exact ⟨htable, hset⟩
    | used b => exact hsame
    | throws => exact kept_set h hc fun r _ hr => nomatch hr
  | isUsed o attempt token =>
    cases answer with
    | port n => exact hsame
    | used b =>
      cases b with
      | true => exact kept_release_set h hc rfl _
      | false => exact kept_set h hc fun r _ hr => .inr hr
    | throws => exact kept_release_set h hc rfl _
  | isUsedSpecific token =>
    cases answer with
    | port n => exact hsame
    | used b =>
      cases b with
      | true => exact kept_release_set h hc rfl _
      | false => exact kept_set h hc fun r _ hr => .inr hr
    | throws => exact kept_release_set h hc rfl _
  | returned reservation => exact hsame
  | threw => exact hsame

end

theorem Kept.step (h : Kept s) (e : PortEvent) : Kept (stepPorts s e) := by
  cases e with
  | tryReserve hostId port protocol =>
    obtain ⟨made, t, htry, htoken, htable⟩ := tryReserveHostPort_spec h.table hostId port protocol
    simp only [stepPorts, htry]
    refine kept_start h rfl htoken htable ?_
    rintro r rfl
    rfl
  | reserveSpecific o =>
    obtain ⟨made, t, htry, htoken, htable⟩ := tryReserveHostPort_spec h.table o.hostId o.port o.protocol
    simp only [stepPorts, reserveSpecificHostPort, htry]
    refine kept_start h rfl htoken htable ?_
    rintro r rfl
    simp only
    split <;> rfl
  | reserveAvailable o =>
    have hnone : TableKept s.reservations (s.granted ++ (none : Option HostPortReservation).toList) := by
      rw [toList_none, append_nil]
      exact h.table
    have hno : ∀ P : HostPortReservation → Prop, ∀ r, (none : Option HostPortReservation) = some r → P r :=
      fun P r hr => nomatch hr
    refine kept_start h ?_ (hno _) hnone (hno _)
    rw [toList_none, append_nil]
  | resume call answer =>
    simp only [stepPorts]
    cases hc : s.calls[call]? with
    | none => exact h
    | some c => exact kept_resume h hc answer
  | release tokens => exact kept_releaseAll h tokens

/-! ## The theorem -/

structure Exclusive (s : World) : Prop where
  /-- The entries are those of the reservations that are not released. -/
  live : ∀ hostId port, entriesAt s.reservations hostId port
    = (liveAt s.granted hostId port).map HostPortReservation.entry
  /-- Two of them do not overlap. -/
  apart : ∀ r ∈ s.granted, ∀ r' ∈ s.granted, r.released = false → r'.released = false →
    r.hostId = r'.hostId → r.port = r'.port → protocolsConflict r.protocol r'.protocol = true → r = r'
  /-- A reservation is made by a call. -/
  traced : ∀ r ∈ s.granted, ∃ c ∈ s.calls, r.token ∈ c.made
  /-- A call that ends without a reservation has no entry in the map. -/
  ended : ∀ c ∈ s.calls, c.state.failed = true →
    ∀ hostId port, ∀ e ∈ entriesAt s.reservations hostId port, e.token ∉ c.made
  /-- Everything released is an empty map. -/
  emptied : (∀ r ∈ s.granted, r.released = true) → s.reservations.size = 0

theorem Kept.exclusive (h : Kept s) : Exclusive s where
  live := h.table.live
  apart := by
    intro r hr r' hr' hlive hlive' hhost hport hconflict
    by_contra hne
    -- both are in the list of their host and port, and the list has no conflict
    have hmem : r ∈ liveAt s.granted r.hostId r.port := mem_filter.mpr ⟨hr, by simp [hlive]⟩
    have hmem' : r' ∈ liveAt s.granted r.hostId r.port :=
      mem_filter.mpr ⟨hr', by simp [hlive', hhost, hport]⟩
    have hpair := h.table.apart r.hostId r.port
    rw [h.table.live, pairwise_map] at hpair
    have hsymm : Std.Symm fun a b : HostPortReservation =>
        protocolsConflict a.entry.protocol b.entry.protocol = false :=
      ⟨fun a b hab => (protocolsConflict_comm _ _).trans hab⟩
    have hnone := hpair.forall hmem hmem' hne
    rw [HostPortReservation.entry, HostPortReservation.entry, hconflict] at hnone
    cases hnone
  traced := h.calls.traced
  ended := by
    intro c hc hended hostId port e he hmade
    rw [h.table.live] at he
    obtain ⟨r, hr, rfl⟩ := mem_map.mp he
    rw [liveAt, mem_filter, decide_eq_true_eq] at hr
    rcases h.calls.held c hc r hr.1 hmade with hreleased | hhas
    · rw [hr.2.1] at hreleased
      cases hreleased
    · rw [CallState.holding_of_failed hended] at hhas
      cases hhas
  emptied := by
    intro hall
    apply h.table.tidy.eq_empty
    intro hostId port
    rw [h.table.live, map_eq_nil_iff, liveAt, filter_eq_nil_iff]
    intro r hr hlive
    rw [decide_eq_true_eq, hall r hr] at hlive
    cases hlive.1

/-- **Reservations are exclusive, in every order of calls, answers and releases.** -/
theorem reservations_exclusive (es : List PortEvent) : Exclusive (run stepPorts {} es) := by
  apply Kept.exclusive
  refine run_invariant (I := Kept) (fun s e hs => hs.step e) es _ ?_
  refine ⟨tableKept_empty, ?_, ?_, ?_⟩
  · intro c hc
    cases hc
  · intro r hr
    cases hr
  · intro c hc
    cases hc

end ForwardX.Panel.Ports
