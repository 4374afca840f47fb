/-
The listen lanes of an entry group: `validateConfig`, `validateEntryGroupConfig` and the registry of
`forwardx-fxp/config.go`.
-/
import ForwardX.Fxp.Traffic
import Mathlib

namespace ForwardX.Fxp

open List
open GoText.Runes (itoa trimSpace)

/-! ## Lanes and their keys -/

inductive Network where
  | tcp
  | udp
  deriving DecidableEq

def Network.name : Network → GoString
  | .tcp => ['t', 'c', 'p']
  | .udp => ['u', 'd', 'p']

structure EntryListenLane where
  network : Network
  host : GoString
  port : ℤ
  index : ℕ
  deriving DecidableEq

/-- `lane.network + ":" + strconv.Itoa(lane.port)`. -/
def EntryListenLane.key (lane : EntryListenLane) : GoString :=
  lane.network.name ++ ':' :: itoa lane.port

/-- `key + "\x00" + lane.host`. -/
def EntryListenLane.exactKey (lane : EntryListenLane) : GoString :=
  lane.key ++ '\x00' :: lane.host

def EntryListenLane.trimmed (lane : EntryListenLane) : EntryListenLane :=
  { lane with host := trimSpace lane.host }

/-! ## Configurations -/

structure ExitEndpoint where
  Host : GoString
  Port : ℤ
  UDPPort : ℤ := 0
  Key : GoString := []

/-- The fields of `config` that `validateConfig` reads, less the nested entries. -/
structure ConfigFields where
  Role : GoString
  TunnelID : ℤ
  ListenPort : ℤ
  UDPListenPort : ℤ := 0
  ListenHost : GoString := []
  Protocol : GoString
  ExitHost : GoString := []
  ExitPort : ℤ := 0
  UDPExitPort : ℤ := 0
  Exits : List ExitEndpoint := []
  TargetIP : GoString := []
  TargetPort : ℤ := 0
  Key : GoString
  ProxyProtocolReceive : Bool := false
  ProxyProtocolSend : Bool := false
  ProxyProtocolExitReceive : Bool := false
  ProxyProtocolExitSend : Bool := false
  RelayExitHost : GoString := []
  RelayExitPort : ℤ := 0
  UDPRelayExitPort : ℤ := 0
  RelayKey : GoString := []

inductive Config where
  | mk (own : ConfigFields) (Entries : List Config)

def Config.own : Config → ConfigFields
  | .mk own _ => own

def Config.Entries : Config → List Config
  | .mk _ entries => entries

def roleEntry : GoString := ['e', 'n', 't', 'r', 'y']
def roleEntryGroup : GoString := roleEntry ++ ['-', 'g', 'r', 'o', 'u', 'p']
def roleRelay : GoString := ['r', 'e', 'l', 'a', 'y']
def protocolBoth : GoString := ['b', 'o', 't', 'h']
def loopback4 : GoString := ['1', '2', '7', '.', '0', '.', '0', '.', '1']
def loopback6 : GoString := [':', ':', '1']

def protocolHas (cfg : ConfigFields) (network : Network) : Bool :=
  cfg.Protocol = protocolBoth || cfg.Protocol = network.name

def udpListenPort (cfg : ConfigFields) : ℤ :=
  if cfg.UDPListenPort > 0 then cfg.UDPListenPort else cfg.ListenPort

/-! ## Errors -/

inductive ConfigError where
  | emptyKey
  | badListenPort (port : ℤ)
  | badUDPListenPort (port : ℤ)
  | unsupportedListenHost (host : GoString)
  | entryExit
  | entryExits
  | entryUDPExit
  | entryTarget
  | proxyProtocol
  | relayExit
  | relayUDPExit
  | noEntries
  | entryRole (index : ℕ)
  | entryTunnel (index : ℕ) (tunnel group : ℤ)
  | entry (index : ℕ) (cause : ConfigError)
  | conflict (existing : ℕ) (lane : EntryListenLane)

/-- `net.JoinHostPort(host, strconv.Itoa(port))` for a trimmed host. -/
def listenAddress (host : GoString) (port : ℤ) : String :=
  if ':' ∈ host then "[" ++ String.ofList host ++ "]:" ++ toString port
  else String.ofList host ++ ":" ++ toString port

/-- The text of an error, with `quote` for the verb `%q`. -/
def ConfigError.message (quote : GoString → String) : ConfigError → String
  | .emptyKey => "empty key"
  | .badListenPort port => "bad listen port " ++ toString port
  | .badUDPListenPort port => "bad udp listen port " ++ toString port
  | .unsupportedListenHost host => "unsupported listen host " ++ quote host
  | .entryExit => "entry requires exit host and port"
  | .entryExits => "entry exits require host and port"
  | .entryUDPExit => "entry requires a valid udp exit port"
  | .entryTarget => "entry requires target host and port"
  | .proxyProtocol => "proxy protocol requires tcp protocol"
  | .relayExit => "relay requires relay exit host, port, and key"
  | .relayUDPExit => "relay requires a valid udp relay exit port"
  | .noEntries => "entry-group requires at least one entry"
  | .entryRole i => "entry-group entry " ++ toString i ++ " requires role entry"
  | .entryTunnel i tunnel group =>
    "entry-group entry " ++ toString i ++ " tunnel " ++ toString tunnel
      ++ " does not match group tunnel " ++ toString group
  | .entry i cause => "entry-group entry " ++ toString i ++ ": " ++ cause.message quote
  | .conflict existing lane =>
    "entry-group entries " ++ toString existing ++ " and " ++ toString lane.index
      ++ " conflict on " ++ String.ofList lane.network.name ++ " listen "
      ++ listenAddress lane.host lane.port

/-! ## The registry -/

structure EntryListenLaneRegistry where
  first : GoMap GoString EntryListenLane
  wildcard : GoMap GoString EntryListenLane
  exact : GoMap GoString EntryListenLane

def newEntryListenLaneRegistry : EntryListenLaneRegistry := ⟨∅, ∅, ∅⟩

namespace EntryListenLaneRegistry

/-- The lane `add` finds in the way of a trimmed lane. -/
def existing (registry : EntryListenLaneRegistry) (lane : EntryListenLane) : Option EntryListenLane :=
  if lane.host = [] then registry.first.lookup lane.key
  else (registry.wildcard.lookup lane.key).or (registry.exact.lookup lane.exactKey)

/-- The assignments of `add` for a trimmed lane. -/
def record (registry : EntryListenLaneRegistry) (lane : EntryListenLane) :
    EntryListenLaneRegistry where
  first := if (registry.first.lookup lane.key).isSome then registry.first
    else registry.first.insert lane.key lane
  wildcard := if lane.host = [] then registry.wildcard.insert lane.key lane else registry.wildcard
  exact := if lane.host = [] then registry.exact else registry.exact.insert lane.exactKey lane

def add (registry : EntryListenLaneRegistry) (lane : EntryListenLane) :
    Except ConfigError EntryListenLaneRegistry :=
  match registry.existing lane.trimmed with
  | some other => .error (.conflict other.index lane.trimmed)
  | none => .ok (registry.record lane.trimmed)

end EntryListenLaneRegistry

/-! ## Validation -/

/-- What `validateConfig` checks of a configuration that is not a group. -/
def validateFields (cfg : ConfigFields) : Except ConfigError Unit :=
  if cfg.Key = [] then .error .emptyKey
  else if cfg.ListenPort ≤ 0 ∨ cfg.ListenPort > 65535 then .error (.badListenPort cfg.ListenPort)
  else if cfg.UDPListenPort < 0 ∨ cfg.UDPListenPort > 65535 then
    .error (.badUDPListenPort cfg.UDPListenPort)
  else if cfg.ListenHost ≠ [] ∧ cfg.ListenHost ≠ loopback4 ∧ cfg.ListenHost ≠ loopback6 then
    .error (.unsupportedListenHost cfg.ListenHost)
  else if cfg.Role = roleEntry ∧ (cfg.ExitHost = [] ∨ cfg.ExitPort ≤ 0 ∨ cfg.ExitPort > 65535) then
    .error .entryExit
  else if cfg.Role = roleEntry ∧ cfg.Exits.any (fun exit => exit.Host = [] || exit.Port ≤ 0 ||
      exit.Port > 65535 || exit.UDPPort ≤ 0 || exit.UDPPort > 65535) then
    .error .entryExits
  else if cfg.Role = roleEntry ∧ (cfg.UDPExitPort < 0 ∨ cfg.UDPExitPort > 65535) then
    .error .entryUDPExit
  else if cfg.Role = roleEntry ∧
      (cfg.TargetIP = [] ∨ cfg.TargetPort ≤ 0 ∨ cfg.TargetPort > 65535) then
    .error .entryTarget
  else if (cfg.ProxyProtocolReceive || cfg.ProxyProtocolSend || cfg.ProxyProtocolExitReceive ||
      cfg.ProxyProtocolExitSend) ∧ cfg.Protocol = Network.udp.name then
    .error .proxyProtocol
  else if cfg.Role = roleRelay ∧ (cfg.RelayExitHost = [] ∨ cfg.RelayExitPort ≤ 0 ∨
      cfg.RelayExitPort > 65535 ∨ cfg.RelayKey = []) then
    .error .relayExit
  else if cfg.Role = roleRelay ∧ (cfg.UDPRelayExitPort < 0 ∨ cfg.UDPRelayExitPort > 65535) then
    .error .relayUDPExit
  else .ok ()

def EntryListenLaneRegistry.addWhen (has : Bool) (lane : EntryListenLane)
    (lanes : EntryListenLaneRegistry) : Except ConfigError EntryListenLaneRegistry :=
  if has then lanes.add lane else .ok lanes

def addEntry (lanes : EntryListenLaneRegistry) (entry : ConfigFields) (i : ℕ) :
    Except ConfigError EntryListenLaneRegistry :=
  lanes.addWhen (protocolHas entry .tcp) ⟨.tcp, entry.ListenHost, entry.ListenPort, i⟩ >>=
    EntryListenLaneRegistry.addWhen (protocolHas entry .udp) ⟨.udp, entry.ListenHost, udpListenPort entry, i⟩

mutual

def validateConfig : Config → Except ConfigError Unit
  | .mk cfg entries =>
    if cfg.Role = roleEntryGroup then
      if entries.isEmpty then .error .noEntries
      else validateEntries cfg.TunnelID entries 0 newEntryListenLaneRegistry
    else validateFields cfg

/-- The loop of `validateEntryGroupConfig`, from entry `i` on. -/
def validateEntries (tunnel : ℤ) : List Config → ℕ → EntryListenLaneRegistry →
    Except ConfigError Unit
  | [], _, _ => .ok ()
  | entry :: rest, i, lanes =>
    if entry.own.Role ≠ roleEntry then .error (.entryRole i)
    else if entry.own.TunnelID ≠ tunnel then .error (.entryTunnel i entry.own.TunnelID tunnel)
    else match validateConfig entry with
      | .error cause => .error (.entry i cause)
      | .ok () => match addEntry lanes entry.own i with
        | .error e => .error e
        | .ok lanes' => validateEntries tunnel rest (i + 1) lanes'

end

def validateEntryGroupConfig (cfg : Config) : Except ConfigError Unit :=
  if cfg.Entries.isEmpty then .error .noEntries
  else validateEntries cfg.own.TunnelID cfg.Entries 0 newEntryListenLaneRegistry

theorem validateConfig_of_ne {cfg : Config} (h : cfg.own.Role ≠ roleEntryGroup) :
    validateConfig cfg = validateFields cfg.own := by
  obtain ⟨own, entries⟩ := cfg
  rw [validateConfig]
  exact if_neg h

/-! ## What the keys separate -/

theorem append_cons_inj_of_notMem_left {α : Type*} {c : α} {a a' b b' : List α} (ha : c ∉ a)
    (ha' : c ∉ a') (h : a ++ c :: b = a' ++ c :: b') : a = a' ∧ b = b' := by
  induction a generalizing a' with
  | nil =>
    cases a' with
    | nil => exact ⟨rfl, (List.cons.inj h).2⟩
    | cons x a' => exact absurd (by rw [(List.cons.inj h).1]; exact mem_cons_self) ha'
  | cons x a ih =>
    cases a' with
    | nil => exact absurd (by rw [← (List.cons.inj h).1]; exact mem_cons_self) ha
    | cons x' a' =>
      obtain ⟨hx, hrest⟩ := List.cons.inj h
      obtain ⟨heq, hb⟩ := ih (fun hc => ha (mem_cons_of_mem _ hc))
        (fun hc => ha' (mem_cons_of_mem _ hc)) hrest
      exact ⟨by rw [hx, heq], hb⟩

theorem mem_itoa {n : ℤ} {c : Char} (h : c ∈ itoa n) : c = '-' ∨ c.isDigit = true := by
  have hdigit : ∀ m : ℕ, c ∈ m.repr.toList → c.isDigit = true := fun m hm =>
    Nat.isDigit_of_mem_toDigits (by decide) (by decide) (Nat.toList_repr ▸ hm)
  cases n with
  | ofNat m => exact .inr (hdigit m h)
  | negSucc m =>
    have h' : c ∈ ("-" ++ (m.succ).repr).toList := h
    rw [String.toList_append, mem_append] at h'
    obtain hsign | hrest := h'
    · exact .inl (mem_singleton.mp hsign)
    · exact .inr (hdigit _ hrest)

theorem itoa_injective : Function.Injective itoa := fun _ _ h =>
  Int.repr_inj.mp (String.toList_injective h)

open EntryListenLane

theorem nul_notMem_key (lane : EntryListenLane) : '\x00' ∉ lane.key := by
  intro h
  rw [key, mem_append, mem_cons] at h
  obtain hname | hcolon | hport := h
  · cases hn : lane.network <;> rw [hn] at hname <;> revert hname <;> decide
  · exact absurd hcolon (by decide)
  · obtain hsign | hdigit := mem_itoa hport
    · exact absurd hsign (by decide)
    · exact absurd hdigit (by decide)

theorem Network.name_injective : Function.Injective Network.name := by
  intro a b h
  cases a <;> cases b <;> first | rfl | exact absurd h (by decide)

theorem Network.length_name (n : Network) : n.name.length = 3 := by
  cases n <;> rfl

theorem key_eq_key_iff {a b : EntryListenLane} : a.key = b.key ↔ a.network = b.network ∧ a.port = b.port := by
  constructor
  · intro h
    obtain ⟨hname, hrest⟩ := append_inj h
      ((Network.length_name a.network).trans (Network.length_name b.network).symm)
    exact ⟨Network.name_injective hname, itoa_injective (List.cons.inj hrest).2⟩
  · rintro ⟨hnetwork, hport⟩
    rw [key, key, hnetwork, hport]

theorem exactKey_eq_exactKey_iff {a b : EntryListenLane} :
    a.exactKey = b.exactKey ↔ a.network = b.network ∧ a.port = b.port ∧ a.host = b.host := by
  constructor
  · intro h
    obtain ⟨hkey, hhost⟩ :=
      append_cons_inj_of_notMem_left (nul_notMem_key a) (nul_notMem_key b) h
    exact ⟨(key_eq_key_iff.mp hkey).1, (key_eq_key_iff.mp hkey).2, hhost⟩
  · rintro ⟨hnetwork, hport, hhost⟩
    rw [exactKey, exactKey,
      key_eq_key_iff.mpr ⟨hnetwork, hport⟩, hhost]

/-! ## Overlap -/

structure ListenSpot where
  network : Network
  host : GoString
  port : ℤ

/-- Two places overlap: one network and port, and a host that is empty or the same. -/
def ListenSpot.Overlaps (a b : ListenSpot) : Prop :=
  a.network = b.network ∧ a.port = b.port ∧ (a.host = [] ∨ b.host = [] ∨ a.host = b.host)

instance (a b : ListenSpot) : Decidable (a.Overlaps b) :=
  inferInstanceAs (Decidable (_ ∧ _ ∧ (_ ∨ _ ∨ _)))

theorem ListenSpot.Overlaps.symm {a b : ListenSpot} (h : a.Overlaps b) : b.Overlaps a :=
  ⟨h.1.symm, h.2.1.symm, h.2.2.elim (fun ha => .inr (.inl ha))
    fun hb => hb.elim .inl fun hab => .inr (.inr hab.symm)⟩

def EntryListenLane.spot (lane : EntryListenLane) : ListenSpot :=
  ⟨lane.network, trimSpace lane.host, lane.port⟩

namespace EntryListenLaneRegistry

/-- The three maps index the lanes taken in so far, which are `lanes` with their hosts trimmed. -/
structure Holds (registry : EntryListenLaneRegistry) (lanes : List EntryListenLane) : Prop where
  first : registry.first.Indexes EntryListenLane.key (fun l => ∃ o ∈ lanes, o.trimmed = l)
  wildcard : registry.wildcard.Indexes EntryListenLane.key
    (fun l => (∃ o ∈ lanes, o.trimmed = l) ∧ l.host = [])
  exact : registry.exact.Indexes EntryListenLane.exactKey
    (fun l => (∃ o ∈ lanes, o.trimmed = l) ∧ l.host ≠ [])

variable {registry : EntryListenLaneRegistry} {lanes : List EntryListenLane}
  {lane : EntryListenLane}

theorem holds_new : newEntryListenLaneRegistry.Holds [] where
  first := (GoMap.indexes_empty _).congr (by simp)
  wildcard := (GoMap.indexes_empty _).congr (by simp)
  exact := (GoMap.indexes_empty _).congr (by simp)

section

variable (h : registry.Holds lanes)

include h

theorem Holds.existing_some {l : EntryListenLane} (hl : registry.existing lane.trimmed = some l) :
    ∃ o ∈ lanes, o.trimmed = l ∧ o.spot.Overlaps lane.spot := by
  unfold existing at hl
  by_cases hhost : lane.trimmed.host = []
  · rw [if_pos hhost] at hl
    obtain ⟨⟨o, ho, rfl⟩, hkey⟩ := h.first.sound hl
    obtain ⟨hnetwork, hport⟩ := key_eq_key_iff.mp hkey
    exact ⟨o, ho, rfl, hnetwork, hport, .inr (.inl hhost)⟩
  · rw [if_neg hhost, Option.or_eq_some_iff] at hl
    obtain hwild | ⟨-, hexact⟩ := hl
    · obtain ⟨⟨⟨o, ho, rfl⟩, hempty⟩, hkey⟩ := h.wildcard.sound hwild
      obtain ⟨hnetwork, hport⟩ := key_eq_key_iff.mp hkey
      exact ⟨o, ho, rfl, hnetwork, hport, .inl hempty⟩
    · obtain ⟨⟨⟨o, ho, rfl⟩, -⟩, hkey⟩ := h.exact.sound hexact
      obtain ⟨hnetwork, hport, hsame⟩ := exactKey_eq_exactKey_iff.mp hkey
      exact ⟨o, ho, rfl, hnetwork, hport, .inr (.inr hsame)⟩

theorem Holds.existing_none
    (hnone : registry.existing lane.trimmed = none) {o : EntryListenLane} (ho : o ∈ lanes) :
    ¬o.spot.Overlaps lane.spot := by
  rintro ⟨hnetwork, hport, hhosts⟩
  have hkey : o.trimmed.key = lane.trimmed.key := key_eq_key_iff.mpr ⟨hnetwork, hport⟩
  unfold existing at hnone
  by_cases hhost : lane.trimmed.host = []
  · rw [if_pos hhost] at hnone
    have hfound := h.first.complete ⟨o, ho, rfl⟩
    rw [hkey, hnone] at hfound
    cases hfound
  · rw [if_neg hhost, Option.or_eq_none_iff] at hnone
    by_cases hempty : o.trimmed.host = []
    · have hfound := h.wildcard.complete ⟨⟨o, ho, rfl⟩, hempty⟩
      rw [hkey, hnone.1] at hfound
      cases hfound
    · have hsame : o.trimmed.host = lane.trimmed.host :=
        (hhosts.resolve_left hempty).resolve_left hhost
      have hfound := h.exact.complete ⟨⟨o, ho, rfl⟩, hempty⟩
      have hkeys : o.trimmed.exactKey = lane.trimmed.exactKey :=
        exactKey_eq_exactKey_iff.mpr ⟨hnetwork, hport, hsame⟩
      rw [hkeys, hnone.2] at hfound
      cases hfound

theorem Holds.record (lane : EntryListenLane) : (registry.record lane.trimmed).Holds (lanes ++ [lane]) := by
  have hlanes : ∀ l, ((∃ o ∈ lanes, o.trimmed = l) ∨ l = lane.trimmed) ↔
      ∃ o ∈ lanes ++ [lane], o.trimmed = l := by
    intro l
    simp only [mem_append, mem_singleton, or_and_right, exists_or, exists_eq_left]
    exact or_congr_right eq_comm
  constructor
  · unfold EntryListenLaneRegistry.record
    dsimp only
    split
    · next hfound => exact (h.first.represented hfound).congr hlanes
    · exact (h.first.insert _).congr hlanes
  · unfold EntryListenLaneRegistry.record
    dsimp only
    split
    · next hhost =>
      refine (h.wildcard.insert _).congr fun l => ?_
      rw [← hlanes l, or_and_right]
      exact or_congr_right (iff_self_and.mpr fun heq => heq ▸ hhost)
    · next hhost =>
      refine h.wildcard.congr fun l => ?_
      rw [← hlanes l, or_and_right]
      exact (or_iff_left fun (hl : l = lane.trimmed ∧ l.host = []) => hhost (hl.1 ▸ hl.2)).symm
  · unfold EntryListenLaneRegistry.record
    dsimp only
    split
    · next hhost =>
      refine h.exact.congr fun l => ?_
      rw [← hlanes l, or_and_right]
      exact (or_iff_left fun (hl : l = lane.trimmed ∧ l.host ≠ []) => hl.2 (hl.1 ▸ hhost)).symm
    · next hhost =>
      refine (h.exact.insert _).congr fun l => ?_
      rw [← hlanes l, or_and_right]
      exact or_congr_right (iff_self_and.mpr fun heq => heq ▸ hhost)

theorem Holds.add_ok (lane : EntryListenLane) :
    (∃ next, registry.add lane = .ok next ∧ next.Holds (lanes ++ [lane])) ∧
        (∀ o ∈ lanes, ¬o.spot.Overlaps lane.spot) ∨
      (∃ o ∈ lanes, registry.add lane = .error (.conflict o.index lane.trimmed) ∧
        o.spot.Overlaps lane.spot) := by
  unfold add
  cases hexisting : registry.existing lane.trimmed with
  | none => exact .inl ⟨⟨_, rfl, h.record lane⟩, fun o => h.existing_none hexisting⟩
  | some l =>
    obtain ⟨o, ho, rfl, hover⟩ := h.existing_some hexisting
    exact .inr ⟨o, ho, rfl, hover⟩

theorem Holds.accepts_iff :
    (∃ next, registry.add lane = .ok next) ↔ ∀ o ∈ lanes, ¬o.spot.Overlaps lane.spot := by
  obtain ⟨⟨next, hnext, -⟩, hfree⟩ | ⟨o, ho, herror, hover⟩ := h.add_ok lane
  · exact ⟨fun _ => hfree, fun _ => ⟨next, hnext⟩⟩
  · refine ⟨fun ⟨next, hnext⟩ => ?_, fun hfree => absurd hover (hfree o ho)⟩
    rw [herror] at hnext
    cases hnext

end

/-! ## Sequences of lanes -/

/-- A lane is offered: the registry after it, and the lanes accepted so far. -/
def offer (s : EntryListenLaneRegistry × List EntryListenLane) (lane : EntryListenLane) :
    EntryListenLaneRegistry × List EntryListenLane :=
  match s.1.add lane with
  | .ok next => (next, s.2 ++ [lane])
  | .error _ => s

def offerAll (lanes : List EntryListenLane) : EntryListenLaneRegistry × List EntryListenLane :=
  lanes.foldl offer (newEntryListenLaneRegistry, [])

theorem offer_holds {s : EntryListenLaneRegistry × List EntryListenLane} (h : s.1.Holds s.2)
    (lane : EntryListenLane) : (offer s lane).1.Holds (offer s lane).2 := by
  unfold offer
  obtain ⟨⟨next, hnext, hholds⟩, -⟩ | ⟨o, -, herror, -⟩ := h.add_ok lane
  · rw [hnext]
    exact hholds
  · rw [herror]
    exact h

theorem offerAll_holds (lanes : List EntryListenLane) : (offerAll lanes).1.Holds (offerAll lanes).2 :=
  List.foldlRecOn lanes offer (motive := fun s => s.1.Holds s.2) holds_new
    fun _ h lane _ => offer_holds h lane

theorem Holds.foldlM_ok (h : registry.Holds lanes) (more : List EntryListenLane) :
    (∃ next, more.foldlM add registry = .ok next) ↔
      (∀ o ∈ lanes, ∀ l ∈ more, ¬o.spot.Overlaps l.spot) ∧
        more.Pairwise fun a b => ¬a.spot.Overlaps b.spot := by
  induction more generalizing registry lanes with
  | nil => simp [pure, Except.pure]
  | cons lane more ih =>
    rw [foldlM_cons, pairwise_cons]
    obtain ⟨⟨next, hnext, hholds⟩, hfree⟩ | ⟨o, ho, herror, hover⟩ := h.add_ok lane
    · rw [hnext]
      refine (ih hholds).trans ?_
      simp only [forall_mem_append, forall_mem_singleton, forall_mem_cons,
        forall_and]
      exact ⟨fun ⟨⟨hold, hnew⟩, hpair⟩ => ⟨⟨hfree, hold⟩, hnew, hpair⟩,
        fun ⟨⟨_, hold⟩, hnew, hpair⟩ => ⟨⟨hold, hnew⟩, hpair⟩⟩
    · rw [herror]
      refine ⟨nofun, fun ⟨hall, _⟩ => absurd hover (hall o ho lane mem_cons_self)⟩

end EntryListenLaneRegistry

/-! ## Groups -/

def ConfigFields.lanes (entry : ConfigFields) (i : ℕ) : List EntryListenLane :=
  (if protocolHas entry .tcp then [⟨.tcp, entry.ListenHost, entry.ListenPort, i⟩] else []) ++
    if protocolHas entry .udp then [⟨.udp, entry.ListenHost, udpListenPort entry, i⟩] else []

/-- The lanes of the entries from index `i` on. -/
def lanesFrom : ℕ → List Config → List EntryListenLane
  | _, [] => []
  | i, entry :: rest => entry.own.lanes i ++ lanesFrom (i + 1) rest

def ConfigFields.spots (entry : ConfigFields) : List ListenSpot := (entry.lanes 0).map (·.spot)

theorem addWhen_eq (has : Bool) (lane : EntryListenLane) (lanes : EntryListenLaneRegistry) :
    lanes.addWhen has lane
      = (if has then [lane] else []).foldlM EntryListenLaneRegistry.add lanes := by
  unfold EntryListenLaneRegistry.addWhen
  cases has with
  | false => rfl
  | true =>
    rw [if_pos rfl, if_pos rfl, foldlM_cons]
    exact (bind_pure _).symm

theorem addEntry_eq (lanes : EntryListenLaneRegistry) (entry : ConfigFields) (i : ℕ) :
    addEntry lanes entry i = (entry.lanes i).foldlM EntryListenLaneRegistry.add lanes := by
  rw [ConfigFields.lanes, foldlM_append, ← addWhen_eq, addEntry]
  exact congrArg _ (funext fun next => addWhen_eq _ _ next)

theorem lanesFrom_spots (i : ℕ) (entries : List Config) :
    (lanesFrom i entries).map (·.spot) = entries.flatMap (·.own.spots) := by
  induction entries generalizing i with
  | nil => rfl
  | cons entry rest ih =>
    have hindex : (entry.own.lanes i).map (·.spot) = entry.own.spots := by
      unfold ConfigFields.spots ConfigFields.lanes
      split <;> split <;> rfl
    rw [lanesFrom, map_append, ih, hindex, flatMap_cons]

def Config.Admissible (tunnel : ℤ) (entry : Config) : Prop :=
  entry.own.Role = roleEntry ∧ entry.own.TunnelID = tunnel ∧ validateConfig entry = .ok ()

theorem validateEntries_ok (tunnel : ℤ) (entries : List Config) (i : ℕ) (lanes : EntryListenLaneRegistry) :
    validateEntries tunnel entries i lanes = .ok () ↔
      (∀ entry ∈ entries, entry.Admissible tunnel) ∧
        ∃ next, (lanesFrom i entries).foldlM EntryListenLaneRegistry.add lanes = .ok next := by
  induction entries generalizing i lanes with
  | nil =>
    rw [validateEntries]
    exact ⟨fun _ => ⟨nofun, lanes, rfl⟩, fun _ => rfl⟩
  | cons entry rest ih =>
    rw [validateEntries, forall_mem_cons, lanesFrom, foldlM_append, ← addEntry_eq]
    by_cases hrole : entry.own.Role = roleEntry
    swap
    · rw [if_pos hrole]
      exact ⟨nofun, fun h => absurd h.1.1.1 hrole⟩
    rw [if_neg (not_not.mpr hrole)]
    by_cases htunnel : entry.own.TunnelID = tunnel
    swap
    · rw [if_pos htunnel]
      exact ⟨nofun, fun h => absurd h.1.1.2.1 htunnel⟩
    rw [if_neg (not_not.mpr htunnel)]
    cases hvalid : validateConfig entry with
    | error cause => exact ⟨nofun, fun h => nomatch hvalid.symm.trans h.1.1.2.2⟩
    | ok =>
      have hadmissible : entry.Admissible tunnel := ⟨hrole, htunnel, hvalid⟩
      cases hadd : addEntry lanes entry.own i with
      | error e => exact ⟨nofun, nofun⟩
      | ok lanes' =>
        have hrest := ih (i + 1) lanes'
        exact ⟨fun h => ⟨⟨hadmissible, (hrest.mp h).1⟩, (hrest.mp h).2⟩,
          fun h => hrest.mpr ⟨h.1.2, h.2⟩⟩

theorem validateEntryGroupConfig_ok (own : ConfigFields) (entries : List Config) :
    validateEntryGroupConfig (.mk own entries) = .ok () ↔
      entries ≠ [] ∧ (∀ entry ∈ entries, entry.Admissible own.TunnelID) ∧
        (entries.flatMap (·.own.spots)).Pairwise fun a b => ¬a.Overlaps b := by
  cases entries with
  | nil => exact ⟨nofun, fun h => absurd rfl h.1⟩
  | cons entry rest =>
    show validateEntries own.TunnelID (entry :: rest) 0 newEntryListenLaneRegistry = .ok () ↔ _
    rw [validateEntries_ok, EntryListenLaneRegistry.holds_new.foldlM_ok, ← lanesFrom_spots 0,
      pairwise_map]
    exact ⟨fun h => ⟨cons_ne_nil _ _, h.1, h.2.2⟩, fun h => ⟨h.2.1, nofun, h.2.2⟩⟩

theorem validateEntryGroupConfig_perm (own : ConfigFields) {entries entries' : List Config}
    (h : entries.Perm entries') :
    validateEntryGroupConfig (.mk own entries) = .ok () ↔
      validateEntryGroupConfig (.mk own entries') = .ok () := by
  rw [validateEntryGroupConfig_ok, validateEntryGroupConfig_ok]
  have hnil : entries ≠ [] ↔ entries' ≠ [] :=
    not_congr ⟨fun he => (he ▸ h).nil_eq.symm, fun he => (he ▸ h).eq_nil⟩
  exact and_congr hnil (and_congr (forall_congr' fun e => by rw [h.mem_iff])
    ((h.flatMap_right _).pairwise_iff fun hab hba => hab hba.symm))

/-! ## Wildcards and addresses -/

def listenHosts : List GoString := [[], loopback4, loopback6]

/-- The three spellings of a host that listens on every address. -/
def wildcardHosts : List GoString := [[], ['0', '.', '0', '.', '0', '.', '0'], [':', ':']]

/-- Two places that no two sockets can share: a wildcard host on one side, or one address. -/
def ListenSpot.Collides {A : Type} (address : GoString → A) (a b : ListenSpot) : Prop :=
  a.network = b.network ∧ a.port = b.port ∧
    (a.host ∈ wildcardHosts ∨ b.host ∈ wildcardHosts ∨ address a.host = address b.host)

theorem listenHost_of_validateFields {cfg : ConfigFields} (h : validateFields cfg = .ok ()) :
    cfg.ListenHost ∈ listenHosts := by
  unfold validateFields at h
  by_contra hhost
  rw [listenHosts, mem_cons, mem_cons, mem_singleton, not_or, not_or] at hhost
  by_cases hkey : cfg.Key = []
  · exact nomatch (if_pos hkey).symm.trans h
  rw [if_neg hkey] at h
  by_cases hport : cfg.ListenPort ≤ 0 ∨ cfg.ListenPort > 65535
  · exact nomatch (if_pos hport).symm.trans h
  rw [if_neg hport] at h
  by_cases hudp : cfg.UDPListenPort < 0 ∨ cfg.UDPListenPort > 65535
  · exact nomatch (if_pos hudp).symm.trans h
  rw [if_neg hudp] at h
  exact nomatch (if_pos hhost).symm.trans h

theorem trimSpace_of_listenHost {host : GoString} (h : host ∈ listenHosts) : trimSpace host = host := by
  rw [listenHosts, mem_cons, mem_cons, mem_singleton] at h
  obtain rfl | rfl | rfl := h <;> decide

theorem overlaps_iff_collides {A : Type} {address : GoString → A}
    (hne : address loopback4 ≠ address loopback6) {a b : ListenSpot} (ha : a.host ∈ listenHosts)
    (hb : b.host ∈ listenHosts) : a.Overlaps b ↔ a.Collides address b := by
  have hempty : ∀ host ∈ listenHosts, host ∈ wildcardHosts ↔ host = [] := by decide
  have hloop : ∀ host ∈ listenHosts, host ≠ [] → host = loopback4 ∨ host = loopback6 := by decide
  refine and_congr_right fun _ => and_congr_right fun _ => ?_
  rw [hempty _ ha, hempty _ hb]
  by_cases hae : a.host = []
  · exact iff_of_true (.inl hae) (.inl hae)
  by_cases hbe : b.host = []
  · exact iff_of_true (.inr (.inl hbe)) (.inr (.inl hbe))
  rw [or_iff_right hae, or_iff_right hae, or_iff_right hbe, or_iff_right hbe]
  obtain ha4 | ha6 := hloop _ ha hae <;> obtain hb4 | hb6 := hloop _ hb hbe
  · rw [ha4, hb4]
    exact iff_of_true rfl rfl
  · rw [ha4, hb6]
    exact iff_of_false (by decide) hne
  · rw [ha6, hb4]
    exact iff_of_false (by decide) hne.symm
  · rw [ha6, hb6]
    exact iff_of_true rfl rfl

theorem host_of_mem_lanes {entry : ConfigFields} {i : ℕ} {lane : EntryListenLane}
    (h : lane ∈ entry.lanes i) : lane.host = entry.ListenHost := by
  rw [ConfigFields.lanes, mem_append] at h
  obtain h | h := h <;> split at h
  · rw [mem_singleton.mp h]
  · cases h
  · rw [mem_singleton.mp h]
  · cases h

theorem lanes_overlap_iff_collides {A : Type} {address : GoString → A}
    (hne : address loopback4 ≠ address loopback6) {tunnel : ℤ} {a b : Config}
    (ha : a.Admissible tunnel) (hb : b.Admissible tunnel) {i j : ℕ} {la lb : EntryListenLane}
    (hla : la ∈ a.own.lanes i) (hlb : lb ∈ b.own.lanes j) :
    la.spot.Overlaps lb.spot ↔ la.spot.Collides address lb.spot := by
  have hhost : ∀ {c : Config} {k : ℕ} {l : EntryListenLane}, c.Admissible tunnel →
      l ∈ c.own.lanes k → l.spot.host ∈ listenHosts := by
    intro c k l hc hl
    obtain ⟨hrole, -, hvalid⟩ := hc
    have hgroup : c.own.Role ≠ roleEntryGroup := by
      rw [hrole]
      decide
    rw [validateConfig_of_ne hgroup] at hvalid
    have hmem := listenHost_of_validateFields hvalid
    rw [spot, host_of_mem_lanes hl, trimSpace_of_listenHost hmem]
    exact hmem
  exact overlaps_iff_collides hne (hhost ha hla) (hhost hb hlb)

/-- After any sequence of lanes the registry takes in the next one exactly when it overlaps none of
those taken in. -/
theorem listenLanes_validated {A : Type} (address : GoString → A)
    (hne : address loopback4 ≠ address loopback6) :
    (∀ (lanes : List EntryListenLane) (lane : EntryListenLane),
      (∃ next, (EntryListenLaneRegistry.offerAll lanes).1.add lane = .ok next) ↔
        ∀ o ∈ (EntryListenLaneRegistry.offerAll lanes).2, ¬o.spot.Overlaps lane.spot) ∧
    (∀ (tunnel : ℤ) (a b : Config), a.Admissible tunnel → b.Admissible tunnel →
      ∀ i j, ∀ la ∈ a.own.lanes i, ∀ lb ∈ b.own.lanes j,
        (la.spot.Overlaps lb.spot ↔ la.spot.Collides address lb.spot)) ∧
    (∀ (own : ConfigFields) (entries entries' : List Config), entries.Perm entries' →
      (validateEntryGroupConfig (.mk own entries) = .ok () ↔
        validateEntryGroupConfig (.mk own entries') = .ok ())) :=
  ⟨fun lanes _ => (EntryListenLaneRegistry.offerAll_holds lanes).accepts_iff,
    fun _ _ _ ha hb _ _ _ hla _ hlb => lanes_overlap_iff_collides hne ha hb hla hlb,
    fun own _ _ h => validateEntryGroupConfig_perm own h⟩

/-- A lane on each loopback address, with one port, told apart by their texts. -/
theorem listenLanes_validated_loopbacks :
    ∃ next, (EntryListenLaneRegistry.offerAll [⟨.tcp, loopback4, 19101, 0⟩]).1.add
      ⟨.tcp, loopback6, 19101, 1⟩ = .ok next :=
  ((listenLanes_validated (id : GoString → GoString) (by decide)).1 _ _).mpr (by decide)

/-- The registry by itself takes `0.0.0.0` for a host like any other: offered after a loopback
lane of the same port it is taken in, whatever address the texts denote. -/
theorem wildcard_text_accepted :
    ¬∃ (A : Type) (address : GoString → A), ∀ (lanes : List EntryListenLane)
      (lane : EntryListenLane),
      (∃ next, (EntryListenLaneRegistry.offerAll lanes).1.add lane = .ok next) ↔
        ∀ o ∈ (EntryListenLaneRegistry.offerAll lanes).2, ¬o.spot.Collides address lane.spot := by
  rintro ⟨A, address, h⟩
  have haccepted : ∃ next, (EntryListenLaneRegistry.offerAll
      [⟨.tcp, loopback4, 19101, 0⟩]).1.add ⟨.tcp, ['0', '.', '0', '.', '0', '.', '0'], 19101, 1⟩
        = .ok next := by
    rw [EntryListenLaneRegistry.Holds.accepts_iff (EntryListenLaneRegistry.offerAll_holds _)]
    decide
  have hfree := (h _ _).mp haccepted ⟨.tcp, loopback4, 19101, 0⟩ (by decide)
  exact hfree ⟨rfl, rfl, .inr (.inl (by decide))⟩

end ForwardX.Fxp
