/-
What listens on a port, `server/globalPortBackfill.ts`.
-/
import ForwardX.Lib.Checks
import ForwardX.Lib.JsMap
import ForwardX.Panel.PortLedger

namespace ForwardX.Panel.GlobalPorts

open Checks Table List

/-! ## The tables

Of every table the columns that the collection uses. It selects `isEnabled`,
`pendingDelete` and `exitNodeId` too and reads none of them: a port belongs to a
resource as long as its row exists. -/

structure InboundDefinition where
  protocol : JsString
  transport : JsString
  security : JsString
  profileId : Option JsString
  specVersion : Option ℤ
  specJson : Option JsString

structure InboundRow where
  id : ℤ
  hostId : ℤ
  runtimeTag : JsString
  listenPort : ℤ
  definition : InboundDefinition

structure RuleRow where
  id : ℤ
  hostId : ℤ
  protocol : JsString
  tunnelId : Option ℤ := none
  tunnelExitPort : Option ℤ := none
  forwardGroupRuleId : Option ℤ := none
  isForwardGroupTemplate : Bool := false
  sourcePort : ℤ
  xrayQuickConfigId : Option ℤ := none

inductive ManagedServiceKind where
  | mtprotoFakeTls
  | amneziawg

structure ManagedServiceRow where
  id : ℤ
  hostId : ℤ
  serviceTag : JsString
  kind : Column ManagedServiceKind
  listenPort : ℤ

structure TunnelRow where
  id : ℤ
  exitHostId : ℤ
  mode : JsString
  forwardxVersion : JsString
  listenPort : ℤ
  mimicPort : ℤ := 0

/-- A row of `tunnel_exit_nodes` or of `tunnel_hops`. -/
structure TunnelPartRow where
  id : ℤ
  tunnelId : ℤ
  hostId : ℤ
  listenPort : ℤ
  mimicPort : ℤ := 0

structure MappedExitRow where
  id : ℤ
  ruleId : ℤ
  tunnelId : ℤ
  exitHostId : ℤ
  tunnelExitPort : ℤ

/-- The seven tables; those that are read by id have distinct ids. -/
structure ListenerTables where
  inbounds : List InboundRow := []
  rules : List RuleRow := []
  managedServices : List ManagedServiceRow := []
  tunnels : List TunnelRow := []
  exitNodes : List TunnelPartRow := []
  hops : List TunnelPartRow := []
  mappedExits : List MappedExitRow := []
  rules_nodup : (rules.map RuleRow.id).Nodup := by decide
  tunnels_nodup : (tunnels.map TunnelRow.id).Nodup := by decide

/-! ## The collection -/

structure HistoricalListenerReference where
  port : ℤ
  referenceKey : JsString
  resourceType : ResourceType
  resourceId : ℤ
  ownerGroupTag : JsString
  ownerType : PrimaryOwnerType
  hostId : ℤ
  network : ReferenceNetwork
  role : ReferenceRole
  slot : Option Slot
  deriving DecidableEq

def invalid (label : String) : String := "GLOBAL_PORT_BACKFILL_INVALID_" ++ label

/-- 0 is no port; nor is `null`, which the caller gives as 0. -/
def optionalListenerPort (error : String) (value : ℤ) : Except String (Option ℤ) :=
  if value = 0 then .ok none else (listenerPort error value).map some

def forwardRuleNetwork (value : JsString) : Except String ReferenceNetwork :=
  let protocol := toLowerCase (trim value)
  if protocol = js "tcp" then .ok .tcp
  else if protocol = js "udp" then .ok .udp
  else if protocol = js "both" then .ok .both
  else .error (invalid "FORWARD_RULE_PROTOCOL")

def tunnelNetwork (row : TunnelRow) : ReferenceNetwork :=
  if toLowerCase (trim row.mode) = js "forwardx" ∧ toLowerCase (trim row.forwardxVersion) = js "v2"
  then .udp else .tcp

def appendReference (port : ℤ) (resourceType : ResourceType) (resourceId : ℤ)
    (ownerGroupTag : JsString) (ownerType : PrimaryOwnerType) (hostId : ℤ) (network : ReferenceNetwork)
    (role : ReferenceRole) (slot : Option Slot) : Except String HistoricalListenerReference := do
  let referenceKey ← buildGlobalPortReferenceKey resourceType resourceId (some hostId) network role slot
  pure ⟨port, referenceKey, resourceType, resourceId, ownerGroupTag, ownerType, hostId, network, role,
    slot⟩

/-- Rules that are templates, or that a quick configuration made, own no port. -/
def isOwnedRule (row : RuleRow) : Bool := !row.isForwardGroupTemplate && row.xrayQuickConfigId.isNone

def ruleOwnerId (error : String) (row : RuleRow) (id : ℤ) : Except String ℤ :=
  match row.forwardGroupRuleId with
  | none => .ok id
  | some groupRuleId => positiveId error groupRuleId

def optionalId (error : String) : Option ℤ → Except String (Option ℤ)
  | none => .ok none
  | some value => (positiveId error value).map some

def rulePrimaryExit (tunnelById : JsMap ℤ TunnelRow) (row : RuleRow) (id : ℤ) (ownerGroupTag : JsString)
    (network : ReferenceNetwork) : Except String (List HistoricalListenerReference) := do
  let tunnelId ← optionalId (invalid "RULE_TUNNEL") row.tunnelId
  let primaryExitPort ← optionalListenerPort (invalid "FORWARD_RULE_TUNNEL_EXIT_PORT")
    (row.tunnelExitPort.getD 0)
  match primaryExitPort, tunnelId.bind tunnelById.get with
  | some port, some tunnel => do
    let hostId ← positiveId (invalid "TUNNEL_EXIT_HOST") tunnel.exitHostId
    let reference ← appendReference port .forwardRule id ownerGroupTag .forwardRule hostId network
      .publicListener (some .primary)
    pure [reference]
  | _, _ => pure []

def ruleReferences (tunnelById : JsMap ℤ TunnelRow) (row : RuleRow) :
    Except String (List HistoricalListenerReference) := do
  let id ← positiveId (invalid "FORWARD_RULE") row.id
  let hostId ← positiveId (invalid "FORWARD_RULE_HOST") row.hostId
  let ownerId ← ruleOwnerId (invalid "FORWARD_GROUP_RULE") row id
  let ownerGroupTag ← buildGlobalPortOwnerGroupTag (.forwardRule ownerId)
  let network ← forwardRuleNetwork row.protocol
  let port ← listenerPort (invalid "FORWARD_RULE_PORT") row.sourcePort
  let reference ← appendReference port .forwardRule id ownerGroupTag .forwardRule hostId network
    .publicListener none
  let exit ← rulePrimaryExit tunnelById row id ownerGroupTag network
  pure (reference :: exit)

section

variable (listenerNetworks : InboundDefinition → Option (List ReferenceNetwork))

def inboundReferences (row : InboundRow) : Except String (List HistoricalListenerReference) := do
  let id ← positiveId (invalid "XRAY_INBOUND") row.id
  match listenerNetworks row.definition with
  | none => .error (invalid "XRAY_PROFILE")
  | some networks => do
    let ownerGroupTag ← buildGlobalPortOwnerGroupTag (.xrayInbound row.runtimeTag)
    collectEach (fun network => do
      let port ← listenerPort (invalid "XRAY_INBOUND_PORT") row.listenPort
      let hostId ← positiveId (invalid "XRAY_INBOUND_HOST") row.hostId
      let reference ← appendReference port .xrayInbound id ownerGroupTag .xrayInbound hostId network
        .publicListener none
      pure [reference]) networks

def managedServiceNetwork : Column ManagedServiceKind → Except String ReferenceNetwork
  | .known .mtprotoFakeTls => .ok .tcp
  | .known .amneziawg => .ok .udp
  | .other _ => .error (invalid "MANAGED_SERVICE_KIND")

def managedServiceReferences (row : ManagedServiceRow) : Except String (List HistoricalListenerReference) := do
  let id ← positiveId (invalid "MANAGED_SERVICE") row.id
  let network ← managedServiceNetwork row.kind
  let port ← listenerPort (invalid "MANAGED_SERVICE_PORT") row.listenPort
  let ownerGroupTag ← buildGlobalPortOwnerGroupTag (.managedService row.serviceTag)
  let hostId ← positiveId (invalid "MANAGED_SERVICE_HOST") row.hostId
  let reference ← appendReference port .managedService id ownerGroupTag .managedService hostId network
    .publicListener none
  pure [reference]

/-- A listener of a tunnel or of a part of it, when its port is not 0. -/
def optionalReference (error : String) (value : ℤ) (resourceType : ResourceType) (id : ℤ)
    (ownerGroupTag : JsString) (hostId : ℤ) (network : ReferenceNetwork) (role : ReferenceRole) :
    Except String (List HistoricalListenerReference) := do
  match ← optionalListenerPort error value with
  | none => pure []
  | some port => do
    let reference ← appendReference port resourceType id ownerGroupTag .tunnel hostId network role none
    pure [reference]

def tunnelReferences (tunnelId : ℤ) (row : TunnelRow) : Except String (List HistoricalListenerReference) := do
  let ownerGroupTag ← buildGlobalPortOwnerGroupTag (.tunnel tunnelId)
  let port ← listenerPort (invalid "TUNNEL_PORT") row.listenPort
  let hostId ← positiveId (invalid "TUNNEL_EXIT_HOST") row.exitHostId
  let reference ← appendReference port .tunnel tunnelId ownerGroupTag .tunnel hostId (tunnelNetwork row)
    .publicListener none
  let mimic ← optionalReference (invalid "TUNNEL_MIMIC_PORT") row.mimicPort .tunnel tunnelId
    ownerGroupTag hostId .udp .mimic
  pure (reference :: mimic)

def exitNodeReferences (tunnelById : JsMap ℤ TunnelRow) (row : TunnelPartRow) :
    Except String (List HistoricalListenerReference) := do
  let tunnelId ← positiveId (invalid "TUNNEL_EXIT_NODE_TUNNEL") row.tunnelId
  match tunnelById.get tunnelId with
  | none => pure []
  | some tunnel => do
    let id ← positiveId (invalid "TUNNEL_EXIT_NODE") row.id
    let hostId ← positiveId (invalid "TUNNEL_EXIT_NODE_HOST") row.hostId
    let ownerGroupTag ← buildGlobalPortOwnerGroupTag (.tunnel tunnelId)
    let port ← listenerPort (invalid "TUNNEL_EXIT_NODE_PORT") row.listenPort
    let reference ← appendReference port .tunnelExitNode id ownerGroupTag .tunnel hostId
      (tunnelNetwork tunnel) .publicListener none
    let mimic ← optionalReference (invalid "TUNNEL_EXIT_NODE_MIMIC_PORT") row.mimicPort .tunnelExitNode id
      ownerGroupTag hostId .udp .mimic
    pure (reference :: mimic)

/-- Unlike an exit node, a hop need not listen. -/
def hopReferences (tunnelById : JsMap ℤ TunnelRow) (row : TunnelPartRow) :
    Except String (List HistoricalListenerReference) := do
  let tunnelId ← positiveId (invalid "TUNNEL_HOP_TUNNEL") row.tunnelId
  match tunnelById.get tunnelId with
  | none => pure []
  | some tunnel => do
    let id ← positiveId (invalid "TUNNEL_HOP") row.id
    let hostId ← positiveId (invalid "TUNNEL_HOP_HOST") row.hostId
    let ownerGroupTag ← buildGlobalPortOwnerGroupTag (.tunnel tunnelId)
    let listening ← optionalReference (invalid "TUNNEL_HOP_PORT") row.listenPort .tunnelHop id
      ownerGroupTag hostId (tunnelNetwork tunnel) .publicListener
    let mimic ← optionalReference (invalid "TUNNEL_HOP_MIMIC_PORT") row.mimicPort .tunnelHop id
      ownerGroupTag hostId .udp .mimic
    pure (listening ++ mimic)

def mappedExitReferences (ownedRuleById : JsMap ℤ RuleRow) (tunnelById : JsMap ℤ TunnelRow)
    (row : MappedExitRow) : Except String (List HistoricalListenerReference) := do
  let ruleId ← positiveId (invalid "MAPPED_EXIT_RULE") row.ruleId
  let tunnelId ← positiveId (invalid "MAPPED_EXIT_TUNNEL") row.tunnelId
  match ownedRuleById.get ruleId, tunnelById.has tunnelId with
  | some rule, true => do
    let ownerId ← ruleOwnerId (invalid "MAPPED_EXIT_FORWARD_GROUP_RULE") rule ruleId
    let port ← listenerPort (invalid "MAPPED_EXIT_PORT") row.tunnelExitPort
    let id ← positiveId (invalid "MAPPED_EXIT") row.id
    let ownerGroupTag ← buildGlobalPortOwnerGroupTag (.forwardRule ownerId)
    let hostId ← positiveId (invalid "MAPPED_EXIT_HOST") row.exitHostId
    let network ← forwardRuleNetwork rule.protocol
    let reference ← appendReference port .forwardRuleTunnelExit id ownerGroupTag .forwardRule hostId
      network .publicListener (some .mapped)
    pure [reference]
  | _, _ => pure []

def uniqueReferences : List HistoricalListenerReference → JsMap JsString HistoricalListenerReference →
    Except String (JsMap JsString HistoricalListenerReference)
  | [], unique => .ok unique
  | reference :: references, unique =>
    if (unique.get reference.referenceKey).any fun existing => existing ≠ reference then
      .error "GLOBAL_PORT_BACKFILL_REFERENCE_COLLISION"
    else uniqueReferences references (unique.set reference.referenceKey reference)

/-- The order of the result: by port, then by key. -/
def referenceLe (left right : HistoricalListenerReference) : Bool :=
  if left.port = right.port then !decide (right.referenceKey < left.referenceKey)
  else decide (left.port < right.port)

def listenerReferences (t : ListenerTables) : Except String (List HistoricalListenerReference) := do
  let _ ← collectEach (fun row => (positiveId (invalid "TUNNEL") row.id).map fun _ => ([] : List Unit))
    t.tunnels
  let tunnelById := JsMap.index TunnelRow.id t.tunnels
  let ownedRules := t.rules.filter isOwnedRule
  let ofRules ← collectEach (ruleReferences tunnelById) ownedRules
  let ownedRuleById := JsMap.index RuleRow.id ownedRules
  let ofInbounds ← collectEach (inboundReferences listenerNetworks) t.inbounds
  let ofServices ← collectEach managedServiceReferences t.managedServices
  let ofTunnels ← collectEach (fun e => tunnelReferences e.1 e.2) tunnelById.entries
  let ofExitNodes ← collectEach (exitNodeReferences tunnelById) t.exitNodes
  let ofHops ← collectEach (hopReferences tunnelById) t.hops
  let ofMappedExits ← collectEach (mappedExitReferences ownedRuleById tunnelById) t.mappedExits
  pure (ofRules ++ ofInbounds ++ ofServices ++ ofTunnels ++ ofExitNodes ++ ofHops ++ ofMappedExits)

def collectHistoricalListenerReferences (t : ListenerTables) :
    Except String (List HistoricalListenerReference) := do
  let references ← listenerReferences listenerNetworks t
  let unique ← uniqueReferences references ∅
  pure ((unique.entries.map Prod.snd).mergeSort referenceLe)

end

/-! ## The drift check -/

def hasListenerDrift (t : ListenerTables) (port : ℤ) : Bool :=
  0 < t.inbounds.countP (fun row => row.listenPort = port)
    + t.rules.countP fun row => row.sourcePort = port ∨ row.tunnelExitPort = some port

/-! ## Which ports the collection finds -/

section

variable {p : ℤ} {resourceType : ResourceType} {network : ReferenceNetwork}

theorem appendReference_port {port : ℤ} {resourceId : ℤ}
    {ownerGroupTag : JsString} {ownerType : PrimaryOwnerType} {hostId : ℤ}
    {role : ReferenceRole} {slot : Option Slot} {reference : HistoricalListenerReference}
    (h : appendReference port resourceType resourceId ownerGroupTag ownerType hostId network role slot
      = .ok reference) : reference.port = port := by
  simp only [appendReference, bind_eq_ok, pure_eq_ok] at h
  obtain ⟨key, -, rfl⟩ := h
  rfl

theorem optionalListenerPort_ok {error : String} {value : ℤ} {port : Option ℤ}
    (h : optionalListenerPort error value = .ok port) :
    (value = 0 ∧ port = none) ∨ (value ≠ 0 ∧ port = some value) := by
  unfold optionalListenerPort at h
  split at h
  · rename_i hzero
    exact .inl ⟨hzero, (Except.ok.inj h).symm⟩
  · rename_i hzero
    obtain ⟨port', hport, rfl⟩ := map_eq_ok.mp h
    rw [(listenerPort_ok hport).1]
    exact .inr ⟨hzero, rfl⟩

variable {found : List HistoricalListenerReference} {tunnelById : JsMap ℤ TunnelRow}

theorem optionalReference_ports {error : String} {value : ℤ} {id : ℤ}
    {ownerGroupTag : JsString} {hostId : ℤ} {role : ReferenceRole}
    (h : optionalReference error value resourceType id ownerGroupTag hostId network role = .ok found) :
    (∃ r ∈ found, r.port = p) ↔ value = p ∧ p ≠ 0 := by
  obtain ⟨port, hport, h⟩ := bind_eq_ok.mp h
  rcases optionalListenerPort_ok hport with ⟨hzero, rfl⟩ | ⟨hzero, rfl⟩
  · obtain rfl := pure_eq_ok.mp h
    simp only [not_mem_nil, false_and, exists_false, false_iff, not_and, not_not]
    rintro rfl
    exact hzero
  · simp only [bind_eq_ok, pure_eq_ok] at h
    obtain ⟨reference, hreference, rfl⟩ := h
    simp only [mem_singleton, exists_eq_left, appendReference_port hreference]
    constructor
    · rintro rfl
      exact ⟨rfl, hzero⟩
    · exact And.left

theorem managedServiceReferences_ports {row : ManagedServiceRow}
    (h : managedServiceReferences row = .ok found) :
    (∃ r ∈ found, r.port = p) ↔ row.listenPort = p := by
  simp only [managedServiceReferences, bind_eq_ok, pure_eq_ok] at h
  obtain ⟨_, _, _, _, port, hport, _, _, _, _, reference, hreference, rfl⟩ := h
  simp [appendReference_port hreference, (listenerPort_ok hport).1]

theorem tunnelReferences_ports {tunnelId : ℤ} {row : TunnelRow}
    (h : tunnelReferences tunnelId row = .ok found) :
    (∃ r ∈ found, r.port = p) ↔ row.listenPort = p ∨ (row.mimicPort = p ∧ p ≠ 0) := by
  simp only [tunnelReferences, bind_eq_ok, pure_eq_ok] at h
  obtain ⟨_, _, port, hport, _, _, reference, hreference, mimic, hmimic, rfl⟩ := h
  rw [exists_mem_cons_iff, optionalReference_ports hmimic, appendReference_port hreference,
    (listenerPort_ok hport).1]

theorem exitNodeReferences_ports {row : TunnelPartRow} (h : exitNodeReferences tunnelById row = .ok found) :
    (∃ r ∈ found, r.port = p) ↔ (∃ tunnel, tunnelById.get row.tunnelId = some tunnel) ∧
      (row.listenPort = p ∨ (row.mimicPort = p ∧ p ≠ 0)) := by
  obtain ⟨tunnelId, htunnelId, h⟩ := bind_eq_ok.mp h
  obtain rfl := (positiveId_ok htunnelId).1
  cases htunnel : tunnelById.get row.tunnelId with
  | none =>
    rw [htunnel] at h
    obtain rfl := pure_eq_ok.mp h
    simp
  | some tunnel =>
    simp only [htunnel, bind_eq_ok, pure_eq_ok] at h
    obtain ⟨_, _, _, _, _, _, port, hport, reference, hreference, mimic, hmimic, rfl⟩ := h
    rw [exists_mem_cons_iff, optionalReference_ports hmimic, appendReference_port hreference,
      (listenerPort_ok hport).1]
    simp

theorem hopReferences_ports {row : TunnelPartRow} (h : hopReferences tunnelById row = .ok found) :
    (∃ r ∈ found, r.port = p) ↔ (∃ tunnel, tunnelById.get row.tunnelId = some tunnel) ∧
      ((row.listenPort = p ∧ p ≠ 0) ∨ (row.mimicPort = p ∧ p ≠ 0)) := by
  obtain ⟨tunnelId, htunnelId, h⟩ := bind_eq_ok.mp h
  obtain rfl := (positiveId_ok htunnelId).1
  cases htunnel : tunnelById.get row.tunnelId with
  | none =>
    rw [htunnel] at h
    obtain rfl := pure_eq_ok.mp h
    simp
  | some tunnel =>
    simp only [htunnel, bind_eq_ok, pure_eq_ok] at h
    obtain ⟨_, _, _, _, _, _, listening, hlistening, mimic, hmimic, rfl⟩ := h
    simp only [mem_append, or_and_right, exists_or, optionalReference_ports hlistening,
      optionalReference_ports hmimic]
    simp

theorem mappedExitReferences_ports {ownedRuleById : JsMap ℤ RuleRow} {row : MappedExitRow}
    (h : mappedExitReferences ownedRuleById tunnelById row = .ok found) :
    (∃ r ∈ found, r.port = p) ↔ (∃ rule, ownedRuleById.get row.ruleId = some rule) ∧
      (∃ tunnel, tunnelById.get row.tunnelId = some tunnel) ∧ row.tunnelExitPort = p := by
  obtain ⟨ruleId, hruleId, h⟩ := bind_eq_ok.mp h
  obtain ⟨tunnelId, htunnelId, h⟩ := bind_eq_ok.mp h
  obtain rfl := (positiveId_ok hruleId).1
  obtain rfl := (positiveId_ok htunnelId).1
  simp only [JsMap.has] at h
  split at h
  · rename_i rule hrule hhas
    obtain ⟨tunnel, htunnel⟩ := Option.isSome_iff_exists.mp hhas
    simp only [bind_eq_ok, pure_eq_ok] at h
    obtain ⟨_, _, port, hport, _, _, _, _, _, _, _, _, reference, hreference, rfl⟩ := h
    simp [appendReference_port hreference, (listenerPort_ok hport).1, hrule, htunnel]
  · rename_i hmissing
    obtain rfl := pure_eq_ok.mp h
    simp only [not_mem_nil, false_and, exists_false, false_iff, not_and]
    rintro ⟨rule, hrule⟩ ⟨tunnel, htunnel⟩
    exact absurd (by rw [htunnel]; rfl) (hmissing rule hrule)

variable {r : HistoricalListenerReference}

theorem ruleReferences_port {row : RuleRow} (h : ruleReferences tunnelById row = .ok found)
    (hr : r ∈ found) :
    row.sourcePort = r.port ∨ row.tunnelExitPort = some r.port := by
  simp only [ruleReferences, bind_eq_ok, pure_eq_ok] at h
  obtain ⟨_, _, _, _, _, _, _, _, _, _, port, hport, reference, hreference, exit, hexit, rfl⟩ := h
  rcases mem_cons.mp hr with rfl | hr
  · rw [appendReference_port hreference, (listenerPort_ok hport).1]
    exact .inl rfl
  · right
    obtain ⟨_, -, hexit⟩ := bind_eq_ok.mp hexit
    obtain ⟨exitPort, hexitPort, hexit⟩ := bind_eq_ok.mp hexit
    split at hexit
    · rename_i exitPort' tunnel _
      simp only [bind_eq_ok, pure_eq_ok] at hexit
      obtain ⟨_, _, reference, hreference, rfl⟩ := hexit
      obtain rfl := mem_singleton.mp hr
      rw [appendReference_port hreference]
      rcases optionalListenerPort_ok hexitPort with ⟨-, hnone⟩ | ⟨hzero, hsome⟩
      · cases hnone
      · obtain rfl := Option.some.inj hsome
        cases hport' : row.tunnelExitPort with
        | none => simp [hport'] at hzero
        | some exitPort => rfl
    · obtain rfl := pure_eq_ok.mp hexit
      cases hr

theorem inboundReferences_port {listenerNetworks : InboundDefinition → Option (List ReferenceNetwork)}
    {row : InboundRow}
    (h : inboundReferences listenerNetworks row = .ok found)
    (hr : r ∈ found) : row.listenPort = r.port := by
  obtain ⟨_, -, h⟩ := bind_eq_ok.mp h
  cases hnetworks : listenerNetworks row.definition with
  | none =>
    rw [hnetworks] at h
    cases h
  | some networks =>
    simp only [hnetworks] at h
    obtain ⟨_, -, h⟩ := bind_eq_ok.mp h
    obtain ⟨network, -, found', hfound', hr⟩ := (mem_collectEach h).mp hr
    simp only [bind_eq_ok, pure_eq_ok] at hfound'
    obtain ⟨port, hport, _, _, reference, hreference, rfl⟩ := hfound'
    obtain rfl := mem_singleton.mp hr
    rw [appendReference_port hreference, (listenerPort_ok hport).1]

end

/-! ## One reference for a key -/

theorem uniqueReferences_get {references : List HistoricalListenerReference}
    {unique result : JsMap JsString HistoricalListenerReference}
    (h : uniqueReferences references unique = .ok result) (key : JsString) (r : HistoricalListenerReference) :
    result.get key = some r ↔ unique.get key = some r ∨ (r ∈ references ∧ r.referenceKey = key) := by
  induction references generalizing unique with
  | nil =>
    obtain rfl := Except.ok.inj h
    simp
  | cons reference references ih =>
    unfold uniqueReferences at h
    split at h
    · cases h
    · rename_i hsame
      rw [ih h, JsMap.get_set, mem_cons]
      by_cases hkey : key = reference.referenceKey
      · subst hkey
        -- an entry that is there is this reference
        have hold : unique.get reference.referenceKey = some r → r = reference := by
          intro hread
          simpa [hread] using hsame
        simp only [if_true, Option.some.injEq]
        constructor
        · rintro (rfl | ⟨hmem, hr⟩)
          · exact .inr ⟨.inl rfl, rfl⟩
          · exact .inr ⟨.inr hmem, hr⟩
        · rintro (hread | ⟨rfl | hmem, hr⟩)
          · exact .inl (hold hread).symm
          · exact .inl rfl
          · exact .inr ⟨hmem, hr⟩
      · simp only [if_neg hkey]
        constructor
        · rintro (hread | ⟨hmem, hr⟩)
          · exact .inl hread
          · exact .inr ⟨.inr hmem, hr⟩
        · rintro (hread | ⟨rfl | hmem, hr⟩)
          · exact .inl hread
          · exact absurd hr.symm hkey
          · exact .inr ⟨hmem, hr⟩

section

variable {listenerNetworks : InboundDefinition → Option (List ReferenceNetwork)} {t : ListenerTables}
  {refs : List HistoricalListenerReference}

theorem mem_collectHistoricalListenerReferences
    (h : collectHistoricalListenerReferences listenerNetworks t = .ok refs) :
    ∃ appended, listenerReferences listenerNetworks t = .ok appended ∧ ∀ r, r ∈ refs ↔ r ∈ appended := by
  simp only [collectHistoricalListenerReferences, bind_eq_ok, pure_eq_ok] at h
  obtain ⟨appended, happended, unique, hunique, rfl⟩ := h
  refine ⟨appended, happended, ?_⟩
  intro r
  rw [mem_mergeSort, mem_map]
  constructor
  · rintro ⟨⟨key, r'⟩, hentry, rfl⟩
    rw [← JsMap.get_eq_some_iff, uniqueReferences_get hunique] at hentry
    rcases hentry with hempty | ⟨hmem, -⟩
    · cases hempty
    · exact hmem
  · intro hmem
    refine ⟨(r.referenceKey, r), ?_, rfl⟩
    rw [← JsMap.get_eq_some_iff, uniqueReferences_get hunique]
    exact .inr ⟨hmem, rfl⟩

/-! ## Drift against the collection -/

/-- A row of the two tables that the drift check reads has the port. -/
def RuleOrInboundAt (t : ListenerTables) (p : ℤ) : Prop :=
  (∃ row ∈ t.inbounds, row.listenPort = p) ∨
    ∃ row ∈ t.rules, row.sourcePort = p ∨ row.tunnelExitPort = some p

def HasTunnel (t : ListenerTables) (id : ℤ) : Prop := ∃ tunnel ∈ t.tunnels, tunnel.id = id

def HasOwnedRule (t : ListenerTables) (id : ℤ) : Prop := ∃ rule ∈ t.rules, isOwnedRule rule ∧ rule.id = id

def OtherListenerAt (t : ListenerTables) (p : ℤ) : Prop :=
  (∃ row ∈ t.managedServices, row.listenPort = p) ∨
  (∃ row ∈ t.tunnels, row.listenPort = p ∨ (row.mimicPort = p ∧ p ≠ 0)) ∨
  (∃ row ∈ t.exitNodes, HasTunnel t row.tunnelId ∧ (row.listenPort = p ∨ (row.mimicPort = p ∧ p ≠ 0))) ∨
  (∃ row ∈ t.hops, HasTunnel t row.tunnelId ∧
    ((row.listenPort = p ∧ p ≠ 0) ∨ (row.mimicPort = p ∧ p ≠ 0))) ∨
  ∃ row ∈ t.mappedExits, HasOwnedRule t row.ruleId ∧ HasTunnel t row.tunnelId ∧ row.tunnelExitPort = p

theorem hasListenerDrift_iff {p : ℤ} : hasListenerDrift t p ↔ RuleOrInboundAt t p := by
  rw [hasListenerDrift, decide_eq_true_eq, RuleOrInboundAt, Nat.add_pos_iff_pos_or_pos,
    countP_pos_iff, countP_pos_iff]
  simp

theorem hasTunnel_iff {id : ℤ} :
    (∃ tunnel, (JsMap.index TunnelRow.id t.tunnels).get id = some tunnel) ↔ HasTunnel t id := by
  simp only [JsMap.get_index_eq_some_iff t.tunnels_nodup, HasTunnel]

theorem hasOwnedRule_iff {id : ℤ} :
    (∃ rule, (JsMap.index RuleRow.id (t.rules.filter isOwnedRule)).get id = some rule) ↔
      HasOwnedRule t id := by
  have hnodup := t.rules_nodup.sublist (filter_sublist (p := isOwnedRule).map RuleRow.id)
  simp only [JsMap.get_index_eq_some_iff hnodup, HasOwnedRule, mem_filter, and_assoc]

/-- **What the collection finds on a port**: what the drift check reads, or a listener of
another kind, and every one of those. -/
theorem exists_collected_iff (h : listenerReferences listenerNetworks t = .ok refs) (p : ℤ) :
    ((∃ r ∈ refs, r.port = p) → RuleOrInboundAt t p ∨ OtherListenerAt t p) ∧
      (OtherListenerAt t p → ∃ r ∈ refs, r.port = p) := by
  simp only [listenerReferences, bind_eq_ok, pure_eq_ok] at h
  obtain ⟨_, -, ofRules, hrules, ofInbounds, hinbounds, ofServices, hservices, ofTunnels, htunnels,
    ofExitNodes, hexitNodes, ofHops, hhops, ofMappedExits, hmappedExits, rfl⟩ := h
  have hservice := exists_mem_collectEach_iff (Q := fun r => r.port = p)
    (fun _ _ _ hrow => managedServiceReferences_ports hrow) hservices
  have htunnel := exists_mem_collectEach_iff (Q := fun r => r.port = p)
    (fun _ _ _ hrow => tunnelReferences_ports hrow) htunnels
  have hexitNode := exists_mem_collectEach_iff (Q := fun r => r.port = p)
    (fun _ _ _ hrow => exitNodeReferences_ports hrow) hexitNodes
  have hhop := exists_mem_collectEach_iff (Q := fun r => r.port = p)
    (fun _ _ _ hrow => hopReferences_ports hrow) hhops
  have hmappedExit := exists_mem_collectEach_iff (Q := fun r => r.port = p)
    (fun _ _ _ hrow => mappedExitReferences_ports hrow) hmappedExits
  simp only [JsMap.entries_index t.tunnels_nodup, mem_map, exists_exists_and_eq_and] at htunnel
  simp only [hasTunnel_iff, hasOwnedRule_iff] at hexitNode hhop hmappedExit
  simp only [mem_append, or_and_right, exists_or, hservice, htunnel, hexitNode, hhop, hmappedExit,
    or_assoc]
  refine ⟨?_, fun hother => .inr (.inr hother)⟩
  rintro (hrule | hinbound | hother)
  · obtain ⟨r, hr, rfl⟩ := hrule
    obtain ⟨row, hrow, found, hfound, hr⟩ := (mem_collectEach hrules).mp hr
    exact .inl (.inr ⟨row, (mem_filter.mp hrow).1, ruleReferences_port hfound hr⟩)
  · obtain ⟨r, hr, rfl⟩ := hinbound
    obtain ⟨row, hrow, found, hfound, hr⟩ := (mem_collectEach hinbounds).mp hr
    exact .inl (.inl ⟨row, hrow, inboundReferences_port hfound hr⟩)
  · exact .inr hother

variable (listenerNetworks t)

def DriftAgrees (p : ℤ) : Prop :=
  ∀ refs, collectHistoricalListenerReferences listenerNetworks t = .ok refs → (∃ r ∈ refs, r.port = p) →
    hasListenerDrift t p

/-- **Drift and backfill.** The drift check covers what the collection finds on a port
exactly if a rule or an inbound has each port that a listener of another kind has. -/
theorem drift_agrees_iff (p : ℤ) :
    DriftAgrees listenerNetworks t p ↔
      ∀ refs, collectHistoricalListenerReferences listenerNetworks t = .ok refs →
        OtherListenerAt t p → RuleOrInboundAt t p := by
  simp only [DriftAgrees, hasListenerDrift_iff]
  apply forall₂_congr
  intro refs hrefs
  obtain ⟨appended, happended, hmem⟩ := mem_collectHistoricalListenerReferences hrefs
  obtain ⟨hfound, hother⟩ := exists_collected_iff happended p
  simp only [hmem]
  constructor
  · intro hdrift hat
    exact hdrift (hother hat)
  · intro hcovered hat
    rcases hfound hat with hseen | hat
    · exact hseen
    · exact hcovered hat

end

def loneTunnel : ListenerTables where
  tunnels := [⟨1, 2, [0x74, 0x6C, 0x73], [0x76, 0x31], 20000, 0⟩]

theorem lone_tunnel_undetected : ¬ DriftAgrees (fun _ => none) loneTunnel 20000 := by
  intro h
  have hfound : ∃ refs, collectHistoricalListenerReferences (fun _ => none) loneTunnel = .ok refs ∧
      ∃ r ∈ refs, r.port = 20000 := by
    refine ⟨_, rfl, ?_⟩
    decide +kernel
  obtain ⟨refs, hrefs, hat⟩ := hfound
  exact absurd (h refs hrefs hat) (by decide)

end ForwardX.Panel.GlobalPorts
