/-
The global port ledger: the tables `global_port_allocations` and `global_port_allocation_references`
of `drizzle/schema.ts`, and the texts in them that `server/globalPortBackfill.ts` makes, owner tags
and reference keys.
-/
import ForwardX.Lib.Table
import ForwardX.Panel.JsValues
import Mathlib.Data.List.Nodup

namespace ForwardX.Panel.GlobalPorts

open Table

/-! ## Enumerations -/

inductive ResourceType where
  | xrayInbound
  | forwardRule
  | managedService
  | tunnel
  | tunnelExitNode
  | tunnelHop
  | forwardRuleTunnelExit
  | quickConfig
  deriving DecidableEq

inductive ReferenceNetwork where
  | tcp
  | udp
  | both
  | unbound
  deriving DecidableEq

inductive ReferenceRole where
  | target
  | publicListener
  | ownership
  | mimic
  deriving DecidableEq

inductive PrimaryOwnerType where
  | xrayInbound
  | forwardRule
  | managedService
  | tunnel
  | quickConfig
  deriving DecidableEq

inductive Slot where
  | primary
  | mapped
  deriving DecidableEq

inductive AllocationStatus where
  | reserved
  | active
  | releasing
  | pendingScan
  | free
  | externalOccupied
  | legacyConflict
  deriving DecidableEq

inductive ScanErrorCode where
  | referenceDrift
  | externalOccupied
  | probeFailed
  deriving DecidableEq

def ResourceType.text : ResourceType → JsString
  | .xrayInbound => js "XRAY_INBOUND"
  | .forwardRule => js "FORWARD_RULE"
  | .managedService => js "MANAGED_SERVICE"
  | .tunnel => js "TUNNEL"
  | .tunnelExitNode => js "TUNNEL_EXIT_NODE"
  | .tunnelHop => js "TUNNEL_HOP"
  | .forwardRuleTunnelExit => js "FORWARD_RULE_TUNNEL_EXIT"
  | .quickConfig => js "QUICK_CONFIG"

def ReferenceNetwork.text : ReferenceNetwork → JsString
  | .tcp => js "TCP"
  | .udp => js "UDP"
  | .both => js "BOTH"
  | .unbound => js "NONE"

def ReferenceRole.text : ReferenceRole → JsString
  | .target => js "TARGET"
  | .publicListener => js "PUBLIC_LISTENER"
  | .ownership => js "OWNERSHIP"
  | .mimic => js "MIMIC"

def Slot.text : Slot → JsString
  | .primary => js "PRIMARY"
  | .mapped => js "MAPPED"

def PrimaryOwnerType.resource : PrimaryOwnerType → ResourceType
  | .xrayInbound => .xrayInbound
  | .forwardRule => .forwardRule
  | .managedService => .managedService
  | .tunnel => .tunnel
  | .quickConfig => .quickConfig

/-- What a text column holds: the text of a value, or another text. -/
inductive Column (α : Type) where
  | known (a : α)
  | other (text : JsString)
  deriving DecidableEq

def globalPortPrimaryOwnerTypeForResource : Column ResourceType → Option PrimaryOwnerType
  | .known .tunnel => some .tunnel
  | .known .tunnelExitNode => some .tunnel
  | .known .tunnelHop => some .tunnel
  | .known .forwardRule => some .forwardRule
  | .known .forwardRuleTunnelExit => some .forwardRule
  | .known .xrayInbound => some .xrayInbound
  | .known .managedService => some .managedService
  | .known .quickConfig => some .quickConfig
  | .other _ => none

@[simp] theorem globalPortPrimaryOwnerTypeForResource_resource (t : PrimaryOwnerType) :
    globalPortPrimaryOwnerTypeForResource (.known t.resource) = some t := by
  cases t <;> rfl

theorem PrimaryOwnerType.resource_injective : Function.Injective PrimaryOwnerType.resource := by
  intro t t' h
  have hread := globalPortPrimaryOwnerTypeForResource_resource t
  rw [h, globalPortPrimaryOwnerTypeForResource_resource] at hread
  exact (Option.some.inj hread).symm

/-! ## Ids, tags and keys -/

def maxSafeInteger : ℤ := 9007199254740991

/-- A value that is no safe integer is refused like 0, which stands for all of them. -/
def positiveId {ε : Type} (error : ε) (value : ℤ) : Except ε ℤ :=
  if 0 < value ∧ value ≤ maxSafeInteger then .ok value else .error error

def listenerPort {ε : Type} (error : ε) (value : ℤ) : Except ε ℤ :=
  if 1 ≤ value ∧ value ≤ 65535 then .ok value else .error error

theorem positiveId_ok {ε : Type} {error : ε} {value id : ℤ} (h : positiveId error value = .ok id) :
    id = value ∧ 0 < value ∧ value ≤ maxSafeInteger := by
  unfold positiveId at h
  split at h
  · rename_i hid
    exact ⟨(Except.ok.inj h).symm, hid⟩
  · cases h

theorem listenerPort_ok {ε : Type} {error : ε} {value port : ℤ}
    (h : listenerPort error value = .ok port) : port = value ∧ 1 ≤ value ∧ value ≤ 65535 := by
  unfold listenerPort at h
  split at h
  · rename_i hport
    exact ⟨(Except.ok.inj h).symm, hport⟩
  · cases h

/-- Who can own a port: resources with a tag of their own, and those that are known by
their id. -/
inductive Owner where
  | xrayInbound (stableIdentity : JsString)
  | managedService (stableIdentity : JsString)
  | quickConfig (stableIdentity : JsString)
  | forwardRule (stableIdentity : ℤ)
  | tunnel (stableIdentity : ℤ)

def Owner.type : Owner → PrimaryOwnerType
  | .xrayInbound _ => .xrayInbound
  | .managedService _ => .managedService
  | .quickConfig _ => .quickConfig
  | .forwardRule _ => .forwardRule
  | .tunnel _ => .tunnel

def isTagStart (u : UInt16) : Bool :=
  (0x41 ≤ u && u ≤ 0x5A) || (0x61 ≤ u && u ≤ 0x7A) || (0x30 ≤ u && u ≤ 0x39)

def isTagUnit (u : UInt16) : Bool :=
  isTagStart u || u == 0x2E || u == 0x5F || u == 0x3A || u == 0x2D

/-- `tag.length ≤ 128` and `/^[A-Za-z0-9][A-Za-z0-9._:-]*$/`, which no text with white
space at its ends matches. -/
def isOwnerTag : JsString → Bool
  | [] => false
  | u :: rest => isTagStart u && rest.all isTagUnit && decide (rest.length < 128)

/-- `${…}` of a number that was checked to be positive. -/
def idText (id : ℤ) : JsString := decimalText id.toNat

def buildGlobalPortOwnerGroupTag : Owner → Except String JsString
  | .forwardRule id => do
    let id ← positiveId "GLOBAL_PORT_BACKFILL_INVALID_OWNER" id
    pure (js "forward-rule:" ++ idText id)
  | .tunnel id => do
    let id ← positiveId "GLOBAL_PORT_BACKFILL_INVALID_OWNER" id
    pure (js "tunnel:" ++ idText id)
  | .xrayInbound tag | .managedService tag | .quickConfig tag =>
    if isOwnerTag tag then .ok tag else .error "GLOBAL_PORT_BACKFILL_INVALID_OWNER_TAG"

def colon : JsString := [0x3A]

def hostText : Option ℤ → Except String JsString
  | none => .ok (js "host-none")
  | some hostId => (positiveId "GLOBAL_PORT_BACKFILL_INVALID_HOST" hostId).map fun hostId =>
    js "host-" ++ idText hostId

def buildGlobalPortReferenceKey (resourceType : ResourceType) (resourceId : ℤ) (hostId : Option ℤ)
    (network : ReferenceNetwork) (role : ReferenceRole) (slot : Option Slot) :
    Except String JsString := do
  let resourceId ← positiveId "GLOBAL_PORT_BACKFILL_INVALID_RESOURCE" resourceId
  let host ← hostText hostId
  let base := js "global-port-ref:v1:" ++ resourceType.text ++ colon ++ idText resourceId ++ colon ++
    host ++ colon ++ network.text ++ colon ++ role.text
  pure (match slot with
    | some slot => base ++ colon ++ slot.text
    | none => base)

/-! ## The tables -/

structure AllocationRow where
  id : ℤ
  allocationTag : JsString
  port : ℤ
  status : Column AllocationStatus
  primaryOwnerType : Option (Column ResourceType) := none
  primaryOwnerTag : Option JsString := none
  reservationTokenHash : Option JsString := none
  reservedUntil : Option ℤ := none
  scanNotBefore : Option ℤ := none
  lastScanStartedAt : Option ℤ := none
  lastScanFinishedAt : Option ℤ := none
  lastErrorCode : Option (Column ScanErrorCode) := none
  version : ℤ
  createdAt : ℤ
  updatedAt : ℤ
  deriving DecidableEq

structure ReferenceRow where
  id : ℤ
  referenceKey : JsString
  allocationId : ℤ
  resourceType : Column ResourceType
  resourceId : ℤ
  ownerGroupTag : JsString
  hostId : Option ℤ
  network : Column ReferenceNetwork
  role : Column ReferenceRole
  isOwning : Bool
  createdAt : ℤ
  updatedAt : ℤ
  deriving DecidableEq

structure Ledger where
  allocations : List AllocationRow := []
  references : List ReferenceRow := []
  deriving DecidableEq

structure Ledger.Schema (l : Ledger) : Prop where
  ids : (l.allocations.map AllocationRow.id).Nodup
  ports : (l.allocations.map AllocationRow.port).Nodup
  tags : (l.allocations.map AllocationRow.allocationTag).Nodup
  referenceIds : (l.references.map ReferenceRow.id).Nodup
  referenceKeys : (l.references.map ReferenceRow.referenceKey).Nodup

def epoch (ms : ℤ) : ℤ := ms / 1000

def newAllocationTag (port : ℤ) : JsString := js "global-port:v1:" ++ idText port

/-- `insertAndGetId("global_port_allocations", …)`: `none` is a violation of a unique
index. The id of the given row is replaced. -/
def Ledger.insertAllocation (l : Ledger) (row : AllocationRow) : Option (AllocationRow × Ledger) :=
  if l.allocations.any fun a => a.port = row.port ∨ a.allocationTag = row.allocationTag then none
  else
    let row := { row with id := nextKey AllocationRow.id l.allocations }
    some (row, { l with allocations := l.allocations ++ [row] })

def Ledger.insertReferenceRow (l : Ledger) (row : ReferenceRow) : Option Ledger :=
  if l.references.any fun r => r.referenceKey = row.referenceKey then none
  else
    let row := { row with id := nextKey ReferenceRow.id l.references }
    some { l with references := l.references ++ [row] }

/-! ## The unique indexes stay unique -/

section

variable {l l' : Ledger}

theorem insertAllocation_eq_some {row row' : AllocationRow} (h : l.insertAllocation row = some (row', l')) :
    row' = { row with id := nextKey AllocationRow.id l.allocations } ∧
      l' = { l with allocations := l.allocations ++ [row'] } ∧
      (∀ a ∈ l.allocations, a.port ≠ row.port ∧ a.allocationTag ≠ row.allocationTag) := by
  unfold Ledger.insertAllocation at h
  split at h
  · cases h
  · rename_i hunique
    obtain ⟨rfl, rfl⟩ := Prod.mk.inj (Option.some.inj h)
    refine ⟨rfl, rfl, ?_⟩
    simpa [not_or] using hunique

theorem insertReferenceRow_eq_some {row : ReferenceRow} (h : l.insertReferenceRow row = some l') :
    l' = { l with references :=
        l.references ++ [{ row with id := nextKey ReferenceRow.id l.references }] } ∧
      ∀ r ∈ l.references, r.referenceKey ≠ row.referenceKey := by
  unfold Ledger.insertReferenceRow at h
  split at h
  · cases h
  · rename_i hunique
    obtain rfl := Option.some.inj h
    refine ⟨rfl, ?_⟩
    simpa using hunique

theorem nodup_append_singleton {ρ κ : Type} {g : ρ → κ} {rows : List ρ} {row : ρ}
    (hnodup : (rows.map g).Nodup) (hfresh : ∀ r ∈ rows, g r ≠ g row) : ((rows ++ [row]).map g).Nodup := by
  rw [List.map_append, List.map_singleton, List.nodup_append]
  refine ⟨hnodup, List.nodup_singleton _, ?_⟩
  intro a ha b hb
  obtain ⟨r, hr, rfl⟩ := List.mem_map.mp ha
  rw [List.mem_singleton.mp hb]
  exact hfresh r hr

theorem schema_insertAllocation (hschema : l.Schema) {row row' : AllocationRow}
    (h : l.insertAllocation row = some (row', l')) : l'.Schema := by
  obtain ⟨rfl, rfl, hunique⟩ := insertAllocation_eq_some h
  exact
    { ids := nodup_append_singleton hschema.ids fun r hr => (lt_nextKey _ hr).ne
      ports := nodup_append_singleton hschema.ports fun r hr => (hunique r hr).1
      tags := nodup_append_singleton hschema.tags fun r hr => (hunique r hr).2
      referenceIds := hschema.referenceIds
      referenceKeys := hschema.referenceKeys }

theorem schema_insertReferenceRow (hschema : l.Schema) {row : ReferenceRow}
    (h : l.insertReferenceRow row = some l') : l'.Schema := by
  obtain ⟨rfl, hunique⟩ := insertReferenceRow_eq_some h
  exact
    { ids := hschema.ids
      ports := hschema.ports
      tags := hschema.tags
      referenceIds := nodup_append_singleton hschema.referenceIds fun r hr => (lt_nextKey _ hr).ne
      referenceKeys := nodup_append_singleton hschema.referenceKeys hunique }

theorem schema_updateWhere (hschema : l.Schema) {q : AllocationRow → Bool}
    {f : AllocationRow → AllocationRow} (hf : ∀ row, (f row).id = row.id ∧ (f row).port = row.port ∧
      (f row).allocationTag = row.allocationTag) :
    Ledger.Schema { l with allocations := updateWhere q f l.allocations } where
  ids := by
    rw [map_updateWhere _ (fun row _ => (hf row).1)]
    exact hschema.ids
  ports := by
    rw [map_updateWhere _ (fun row _ => (hf row).2.1)]
    exact hschema.ports
  tags := by
    rw [map_updateWhere _ (fun row _ => (hf row).2.2)]
    exact hschema.tags
  referenceIds := hschema.referenceIds
  referenceKeys := hschema.referenceKeys

end

end ForwardX.Panel.GlobalPorts
