/-
The operations on the global port ledger: `server/globalPortAllocationService.ts`.
-/
import ForwardX.Lib.Transaction
import ForwardX.Panel.PortListeners

namespace ForwardX.Panel.GlobalPorts

open Checks Table Tx Call

/-! ## Errors and values -/

/-- The codes of `GlobalPortAllocationError`; `database` is an error of a statement. -/
inductive PortError where
  | invalid
  | conflict
  | legacyConflict
  | reservationExpired
  | reservationInvalid
  | scanPending
  | externalOccupied
  | database
  deriving DecidableEq

def newListenerPort (value : ℤ) : Except PortError ℤ := do
  let parsed ← listenerPort .invalid value
  if parsed < 1000 then .error .invalid else pure parsed

def version (value : ℤ) : Except PortError ℤ := do
  let parsed ← positiveId .invalid value
  if maxSafeInteger ≤ parsed then .error .conflict else pure parsed

/-- A stored date is a number of seconds, or of milliseconds if it is too large for that. -/
def dateFromDatabase (value : Option ℤ) : Option ℤ :=
  value.map fun number => if number < 10000000000 then number * 1000 else number

def allocationStatus : Column AllocationStatus → Except PortError AllocationStatus
  | .known status => .ok status
  | .other _ => .error .invalid

def ownerType : Option (Column ResourceType) → Except PortError (Option PrimaryOwnerType)
  | none => .ok none
  | some (.known .xrayInbound) => .ok (some .xrayInbound)
  | some (.known .forwardRule) => .ok (some .forwardRule)
  | some (.known .managedService) => .ok (some .managedService)
  | some (.known .tunnel) => .ok (some .tunnel)
  | some (.known .quickConfig) => .ok (some .quickConfig)
  | some _ => .error .invalid

def ownerTag (owner : Owner) : Except PortError JsString :=
  match buildGlobalPortOwnerGroupTag owner with
  | .ok tag => .ok tag
  | .error _ => .error .invalid

structure ReferenceInput where
  resourceType : ResourceType
  resourceId : ℤ
  hostId : Option ℤ
  network : ReferenceNetwork
  role : ReferenceRole
  isOwning : Bool
  slot : Option Slot := none

def referenceKey (reference : ReferenceInput) : Except PortError JsString :=
  match buildGlobalPortReferenceKey reference.resourceType reference.resourceId reference.hostId
    reference.network reference.role reference.slot with
  | .ok key => .ok key
  | .error _ => .error .invalid

structure Sha256 where
  digest : JsString → List UInt8
  length_digest : ∀ s, (digest s).length = 32

def isTokenUnit (u : UInt16) : Bool := isTagStart u || u == 0x2D || u == 0x5F

def isTokenHash (s : JsString) : Bool := decide (s.length = 64) && s.all fun u => u ∈ hexDigits

variable (sha256 : Sha256)

def tokenHash (token : JsString) : Except PortError JsString :=
  if token.length = 43 ∧ token.all isTokenUnit then
    .ok (hex (sha256.digest (js "forwardx-global-port-reservation:v1" ++ 0x0A :: token)))
  else .error .reservationInvalid

def secureHashEqual (actual : Option JsString) (expected : JsString) : Bool :=
  match actual with
  | none => false
  | some actual => isTokenHash actual && fromHex actual == fromHex expected

def conflictForStatus : AllocationStatus → PortError
  | .legacyConflict => .legacyConflict
  | .pendingScan => .scanPending
  | .releasing => .scanPending
  | .externalOccupied => .externalOccupied
  | _ => .conflict

structure AllocationDto where
  allocationId : ℤ
  port : ℤ
  status : AllocationStatus
  version : ℤ
  primaryOwnerType : Option PrimaryOwnerType
  primaryOwnerTag : Option JsString
  reservedUntil : Option ℤ

def expectsOwner (status : AllocationStatus) : Bool :=
  status = .reserved ∨ status = .active ∨ status = .releasing

/-- The checks of `allocationDto` across the columns. -/
def hasShape (status : AllocationStatus) (type : Option PrimaryOwnerType) (row : AllocationRow) : Bool :=
  type.isNone = row.primaryOwnerTag.isNone ∧ (row.primaryOwnerTag.getD []).length ≤ 128 ∧
    expectsOwner status = type.isSome ∧
    decide (status = .reserved) =
      (row.reservationTokenHash.isSome && (dateFromDatabase row.reservedUntil).isSome) ∧
    row.reservationTokenHash.all isTokenHash

def allocationDto (row : AllocationRow) : Except PortError AllocationDto := do
  let status ← allocationStatus row.status
  let primaryOwnerType ← ownerType row.primaryOwnerType
  if !hasShape status primaryOwnerType row then .error .invalid
  else do
    let allocationId ← positiveId .invalid row.id
    let port ← listenerPort .invalid row.port
    let version ← version row.version
    pure ⟨allocationId, port, status, version, primaryOwnerType, row.primaryOwnerTag,
      dateFromDatabase row.reservedUntil⟩

/-! ## The database -/

inductive QuickConfigState where
  | removed
  deriving DecidableEq

/-- What the alias check reads of `xray_quick_configs`. -/
structure QuickConfigRow where
  id : ℤ
  configTag : JsString
  xrayInboundId : Option ℤ
  state : Column QuickConfigState

inductive ProbeNetwork where
  | tcp
  | udp
  deriving DecidableEq

inductive ProbeStatus where
  | free
  | occupied
  | offline
  | unsupported
  | error
  | expired
  deriving DecidableEq

inductive RunStatus where
  | running
  | success
  | failed
  deriving DecidableEq

/-- `global_port_probe_runs`, as the reclaim scans write it. -/
structure ProbeRunRow where
  id : ℤ
  allocationId : ℤ
  allocationVersion : ℤ
  candidatePort : ℤ
  status : RunStatus
  hostSetHash : List UInt8
  expectedHostCount : ℕ
  startedAt : ℤ
  finishedAt : Option ℤ := none
  expiresAt : ℤ

structure ProbeResultRow where
  probeRunId : ℤ
  hostId : ℤ
  network : ProbeNetwork
  status : ProbeStatus
  expiresAt : ℤ

structure HostRow where
  id : ℤ
  userId : ℤ

/-- The row `GLOBAL_PORT_RECLAIM` of `global_port_scan_leases`. -/
structure ScanLease where
  leaseOwnerHash : Option JsString := none
  leaseUntil : Option ℤ := none
  lastStartedAt : Option ℤ := none
  lastFinishedAt : Option ℤ := none

structure PortDb where
  ledger : Ledger := {}
  quickConfigs : List QuickConfigRow := []
  listeners : ListenerTables := {}
  hosts : List HostRow := []
  probeRuns : List ProbeRunRow := []
  probeResults : List ProbeResultRow := []
  lease : ScanLease := {}

abbrev PortCall := Call PortDb PortError

/-! ## Statements -/

def allocationByPort (port : ℤ) : PortCall (Option AllocationRow) :=
  query fun db => byKey AllocationRow.port port db.ledger.allocations

def allocationById (id : ℤ) : PortCall (Option AllocationRow) :=
  query fun db => byKey AllocationRow.id id db.ledger.allocations

def referenceByKey (key : JsString) : PortCall (Option ReferenceRow) :=
  query fun db => byKey ReferenceRow.referenceKey key db.ledger.references

/-- `UPDATE global_port_allocations SET f WHERE p`, with the number of rows. -/
def updateAllocations (p : AllocationRow → Bool) (f : AllocationRow → AllocationRow) : PortCall ℕ :=
  statement fun db => (db.ledger.allocations.countP p,
    { db with ledger := { db.ledger with allocations := updateWhere p f db.ledger.allocations } })

/-- The update of one row in the version and status it was read in; anything else is a
conflict. -/
def updateAllocation (id version : ℤ) (status : AllocationStatus) (f : AllocationRow → AllocationRow) :
    PortCall Unit := do
  let changed ← updateAllocations
    (fun row => row.id = id ∧ row.version = version ∧ row.status = .known status) f
  throwIf (changed ≠ 1) .conflict

def deleteReference (id : ℤ) (key : JsString) : PortCall Unit :=
  execute fun db => { db with ledger := { db.ledger with
    references := db.ledger.references.filter fun r => ¬ (r.id = id ∧ r.referenceKey = key) } }

def insertAllocation (row : AllocationRow) : PortCall AllocationRow := do
  let inserted ← statement fun db =>
    match db.ledger.insertAllocation row with
    | none => (none, db)
    | some (row, ledger) => (some row, { db with ledger })
  orThrow .conflict inserted

def insertReferenceRow (row : ReferenceRow) : PortCall Unit := do
  let inserted ← statement fun db =>
    match db.ledger.insertReferenceRow row with
    | none => (none, db)
    | some ledger => (some (), { db with ledger })
  orThrow .conflict inserted

def updatedDto (id : ℤ) : PortCall AllocationDto := do
  let updated ← allocationById id
  let updated ← orThrow .conflict updated
  rethrow (allocationDto updated)

/-! ## References -/

def referencesOf (id : ℤ) (l : Ledger) : List ReferenceRow := l.references.filter fun r => r.allocationId = id

structure LocatedAllocation where
  allocation : AllocationDto
  ownerGroupTag : JsString

def allocationForReference (reference : ReferenceInput) : PortCall (Option LocatedAllocation) := do
  let key ← rethrow (referenceKey reference)
  let joined ← query fun db => do
    let r ← byKey ReferenceRow.referenceKey key db.ledger.references
    let row ← byKey AllocationRow.id r.allocationId db.ledger.allocations
    pure (row, r.ownerGroupTag)
  match joined with
  | none => pure none
  | some (row, ownerGroupTag) => do
    let allocation ← rethrow (allocationDto row)
    pure (some ⟨allocation, ownerGroupTag⟩)

def optionalHostId : Option ℤ → Except PortError (Option ℤ)
  | none => .ok none
  | some hostId => (positiveId .invalid hostId).map some

def matchesInput (row : ReferenceRow) (allocationId : ℤ) (ownerGroupTag : JsString)
    (reference : ReferenceInput) : Except PortError Bool := do
  let id ← positiveId .invalid row.allocationId
  if id ≠ allocationId ∨ row.ownerGroupTag ≠ ownerGroupTag ∨
    row.resourceType ≠ .known reference.resourceType then return false
  let resourceId ← positiveId .invalid row.resourceId
  if resourceId ≠ reference.resourceId then return false
  let hostId ← optionalHostId row.hostId
  pure (hostId = reference.hostId ∧ row.network = .known reference.network ∧
    row.role = .known reference.role ∧ row.isOwning = reference.isOwning)

def referenceRow (key : JsString) (allocationId : ℤ) (ownerGroupTag : JsString)
    (reference : ReferenceInput) (now : ℤ) : ReferenceRow where
  id := 0
  referenceKey := key
  allocationId := allocationId
  resourceType := .known reference.resourceType
  resourceId := reference.resourceId
  ownerGroupTag := ownerGroupTag
  hostId := reference.hostId
  network := .known reference.network
  role := .known reference.role
  isOwning := reference.isOwning
  createdAt := epoch now
  updatedAt := epoch now

/-- Whether the reference was inserted; `false` if it is there. -/
def insertReference (allocationId : ℤ) (ownerGroupTag : JsString) (reference : ReferenceInput) (now : ℤ) :
    PortCall Bool := do
  let key ← rethrow (referenceKey reference)
  let existing ← referenceByKey key
  match existing with
  | some row => do
    let same ← rethrow (matchesInput row allocationId ownerGroupTag reference)
    throwIf (same = false) .conflict
    pure false
  | none => do
    insertReferenceRow (referenceRow key allocationId ownerGroupTag reference now)
    pure true

/-! ## Reservation -/

def reservationTtlMs : ℤ := 60000

def reclaimDelayMs : ℤ := 43200000

def reservedRow (port : ℤ) (owner : Owner) (tag hash : JsString) (reservedUntil now : ℤ) :
    AllocationRow where
  id := 0
  allocationTag := newAllocationTag port
  port := port
  status := .known .reserved
  primaryOwnerType := some (.known owner.type.resource)
  primaryOwnerTag := some tag
  reservationTokenHash := some hash
  reservedUntil := some (epoch reservedUntil)
  version := 1
  createdAt := epoch now
  updatedAt := epoch now

def AllocationRow.reserve (row : AllocationRow) (owner : Owner) (tag hash : JsString)
    (reservedUntil now : ℤ) : AllocationRow :=
  { row with
    status := .known .reserved
    primaryOwnerType := some (.known owner.type.resource)
    primaryOwnerTag := some tag
    reservationTokenHash := some hash
    reservedUntil := some (epoch reservedUntil)
    scanNotBefore := none
    lastErrorCode := none
    version := row.version + 1
    updatedAt := epoch now }

def reserveRow (port : ℤ) (owner : Owner) (tag hash : JsString) (reservedUntil now : ℤ) :
    PortCall (Option AllocationRow) := do
  let existing ← allocationByPort port
  match existing with
  | none => do
    let row ← insertAllocation (reservedRow port owner tag hash reservedUntil now)
    allocationById row.id
  | some existing => do
    let current ← rethrow (allocationDto existing)
    throwIf (current.status ≠ .free) (conflictForStatus current.status)
    updateAllocation current.allocationId current.version .free
      fun row => row.reserve owner tag hash reservedUntil now
    allocationById current.allocationId

/-- The row is checked once more after the transaction. `token` is what `randomBytes`
gave. -/
def reserveGlobalPortAllocation (port : ℤ) (owner : Owner) (now ttlMs : ℤ)
    (token : JsString) : PortCall AllocationDto := do
  let port ← rethrow (newListenerPort port)
  throwIf (¬ (1000 ≤ ttlMs ∧ ttlMs ≤ reservationTtlMs)) .invalid
  let tag ← rethrow (ownerTag owner)
  let hash ← rethrow (tokenHash sha256 token)
  let result ← withDatabaseTransaction (reserveRow port owner tag hash (now + ttlMs) now)
  let row ← orThrow .conflict result
  rethrow (allocationDto row)

/-! ## Activation -/

def AllocationRow.activate (row : AllocationRow) (now : ℤ) : AllocationRow :=
  { row with
    status := .known .active
    reservationTokenHash := none
    reservedUntil := none
    version := row.version + 1
    updatedAt := epoch now }

def isOwnedRow (row : AllocationRow) (expectedVersion : ℤ) (status : AllocationStatus) (owner : Owner)
    (tag : JsString) : Except PortError Bool := do
  let version ← version row.version
  if version ≠ expectedVersion then return false
  let rowStatus ← allocationStatus row.status
  pure (rowStatus = status ∧ row.primaryOwnerType = some (.known owner.type.resource) ∧
    row.primaryOwnerTag = some tag)

/-- `if (!row || …) throw`, on such a row. -/
def ownedRowById (allocationId expectedVersion : ℤ) (status : AllocationStatus) (owner : Owner)
    (tag : JsString) : PortCall AllocationRow := do
  let row ← allocationById allocationId
  let row ← orThrow .conflict row
  let owned ← rethrow (isOwnedRow row expectedVersion status owner tag)
  throwIf (owned = false) .conflict
  pure row

def insertReferences (allocationId : ℤ) (tag : JsString) (now : ℤ) : List ReferenceInput → PortCall Unit
  | [] => pure ()
  | reference :: references => do
    let _ ← insertReference allocationId tag reference now
    insertReferences allocationId tag now references

def checkReservation (row : AllocationRow) (token : JsString) (now : ℤ) : PortCall Unit := do
  let expiresAt ← orThrow .reservationExpired (dateFromDatabase row.reservedUntil)
  throwIf (expiresAt ≤ now) .reservationExpired
  let hash ← rethrow (tokenHash sha256 token)
  throwIf (secureHashEqual row.reservationTokenHash hash = false) .reservationInvalid

def activateReservedGlobalPortAllocation (allocationId expectedVersion : ℤ)
    (owner : Owner) (token : JsString) (references : List ReferenceInput) (now : ℤ) :
    PortCall AllocationDto := do
  let allocationId ← rethrow (positiveId .invalid allocationId)
  let expectedVersion ← rethrow (version expectedVersion)
  let tag ← rethrow (ownerTag owner)
  throwIf (references.length < 1 ∨ 256 < references.length ∨ references.any fun r => !r.isOwning) .invalid
  withDatabaseTransaction do
    let row ← ownedRowById allocationId expectedVersion .reserved owner tag
    checkReservation sha256 row token now
    insertReferences allocationId tag now references
    updateAllocation allocationId expectedVersion .reserved fun row => row.activate now
    updatedDto allocationId

/-! ## References of an active port -/

def AllocationRow.touch (row : AllocationRow) (now : ℤ) : AllocationRow :=
  { row with version := row.version + 1, updatedAt := epoch now }

/-- A new reference counts the version; one that is there changes nothing. -/
def countReference (row : AllocationRow) (allocationId expectedVersion now : ℤ) (inserted : Bool) :
    PortCall AllocationDto :=
  if inserted then do
    updateAllocation allocationId expectedVersion .active fun row => row.touch now
    updatedDto allocationId
  else rethrow (allocationDto row)

def addActiveGlobalPortOwningReference (allocationId expectedVersion : ℤ) (owner : Owner)
    (reference : ReferenceInput) (now : ℤ) : PortCall AllocationDto := do
  let allocationId ← rethrow (positiveId .invalid allocationId)
  let expectedVersion ← rethrow (version expectedVersion)
  let tag ← rethrow (ownerTag owner)
  throwIf (reference.isOwning = false) .invalid
  withDatabaseTransaction do
    let row ← ownedRowById allocationId expectedVersion .active owner tag
    let inserted ← insertReference allocationId tag reference now
    countReference row allocationId expectedVersion now inserted

/-- The ids that a list of resource ids has, each checked; `none` if they are not one. -/
def singleInboundId (resourceIds : List ℤ) : Except PortError (Option ℤ) := do
  let ids ← collectEach (fun id => (positiveId .invalid id).map fun id => [id]) resourceIds
  match ids with
  | [] => pure none
  | id :: rest => pure (if rest.all (· = id) then some id else none)

/-- The quick configuration is the owner of the alias and made for the inbound. -/
def isAliasOf (quickConfig : QuickConfigRow) (aliasOwnerTag : JsString) (sourceInboundId : ℤ) :
    Except PortError Bool := do
  if quickConfig.configTag ≠ aliasOwnerTag then return false
  let inboundId ← positiveId .invalid (quickConfig.xrayInboundId.getD 0)
  pure (inboundId = sourceInboundId ∧ quickConfig.state ≠ .known .removed)

def attachGlobalPortTargetAlias (allocationId expectedVersion : ℤ) (sourceOwner aliasOwner : Owner)
    (reference : ReferenceInput) (now : ℤ) : PortCall AllocationDto := do
  let allocationId ← rethrow (positiveId .invalid allocationId)
  let expectedVersion ← rethrow (version expectedVersion)
  let sourceOwnerTag ← rethrow (ownerTag sourceOwner)
  let aliasOwnerTag ← rethrow (ownerTag aliasOwner)
  throwIf (sourceOwner.type ≠ .xrayInbound ∨ aliasOwner.type ≠ .quickConfig ∨
    reference.resourceType ≠ .quickConfig ∨ reference.isOwning ∨
    (reference.role ≠ .target ∧ reference.role ≠ .publicListener)) .invalid
  withDatabaseTransaction do
    let row ← ownedRowById allocationId expectedVersion .active sourceOwner sourceOwnerTag
    let resourceIds ← query fun db => (db.ledger.references.filter fun r =>
      r.allocationId = allocationId ∧ r.ownerGroupTag = sourceOwnerTag ∧
        r.resourceType = .known .xrayInbound ∧ r.isOwning).map ReferenceRow.resourceId
    let single ← rethrow (singleInboundId resourceIds)
    let sourceInboundId ← orThrow .conflict single
    let quickConfigId ← rethrow (positiveId .invalid reference.resourceId)
    let quickConfig ← query fun db => byKey QuickConfigRow.id quickConfigId db.quickConfigs
    let quickConfig ← orThrow .conflict quickConfig
    let isAlias ← rethrow (isAliasOf quickConfig aliasOwnerTag sourceInboundId)
    throwIf (isAlias = false) .conflict
    let inserted ← insertReference allocationId aliasOwnerTag reference now
    countReference row allocationId expectedVersion now inserted

/-! ## Release -/

def AllocationRow.release (row : AllocationRow) (now : ℤ) : AllocationRow :=
  { row with status := .known .releasing, version := row.version + 1, updatedAt := epoch now }

def AllocationRow.quarantine (row : AllocationRow) (now : ℤ) : AllocationRow :=
  { row with
    status := .known .pendingScan
    primaryOwnerType := none
    primaryOwnerTag := none
    scanNotBefore := some (epoch (now + reclaimDelayMs))
    version := row.version + 1
    updatedAt := epoch now }

def expectedRow (allocationId expectedVersion : ℤ) (status : AllocationStatus) : PortCall AllocationRow := do
  let row ← allocationById allocationId
  let row ← orThrow .conflict row
  let rowStatus ← rethrow (allocationStatus row.status)
  throwIf (rowStatus ≠ status) .conflict
  let rowVersion ← rethrow (version row.version)
  throwIf (rowVersion ≠ expectedVersion) .conflict
  pure row

def isPrimaryOwning (row : AllocationRow) (r : ReferenceRow) : Bool :=
  r.ownerGroupTag = row.primaryOwnerTag.getD [] ∧ r.isOwning

/-- A reference that is not the last one goes at once; the last one stays while the port
is RELEASING. -/
def releaseReference (row : AllocationRow) (reference : ReferenceRow) (allocationId expectedVersion : ℤ)
    (key : JsString) (now : ℤ) : PortCall AllocationDto := do
  let id ← rethrow (positiveId .invalid reference.id)
  let remaining ← query fun db => (referencesOf allocationId db.ledger).filter fun r => r.id ≠ id
  throwIf (remaining ≠ [] ∧ ¬ remaining.any (isPrimaryOwning row)) .conflict
  if remaining ≠ [] then do
    deleteReference id key
    updateAllocation allocationId expectedVersion .active fun row => row.touch now
    updatedDto allocationId
  else do
    updateAllocation allocationId expectedVersion .active fun row => row.release now
    updatedDto allocationId

def beginGlobalPortReferenceRelease (reference : ReferenceInput) (expectedVersion now : ℤ) :
    PortCall (Option AllocationDto) := do
  let key ← rethrow (referenceKey reference)
  let expectedVersion ← rethrow (version expectedVersion)
  withDatabaseTransaction do
    let reference ← referenceByKey key
    match reference with
    | none => pure none
    | some reference => do
      let allocationId ← rethrow (positiveId .invalid reference.allocationId)
      let row ← expectedRow allocationId expectedVersion .active
      let dto ← releaseReference row reference allocationId expectedVersion key now
      pure (some dto)

def confirmGlobalPortReferenceReleased (reference : ReferenceInput) (expectedVersion now : ℤ) :
    PortCall AllocationDto := do
  let key ← rethrow (referenceKey reference)
  let expectedVersion ← rethrow (version expectedVersion)
  withDatabaseTransaction do
    let reference ← referenceByKey key
    let reference ← orThrow .conflict reference
    let allocationId ← rethrow (positiveId .invalid reference.allocationId)
    let _ ← expectedRow allocationId expectedVersion .releasing
    let id ← rethrow (positiveId .invalid reference.id)
    let remaining ← query fun db => (referencesOf allocationId db.ledger).filter fun r => r.id ≠ id
    throwIf (remaining ≠ []) .conflict
    deleteReference id key
    updateAllocation allocationId expectedVersion .releasing fun row => row.quarantine now
    updatedDto allocationId

def confirmIfReleasing (reference : ReferenceInput) (now : ℤ) :
    Option AllocationDto → PortCall (Option AllocationDto)
  | none => pure none
  | some releasing =>
    if releasing.status ≠ .releasing then pure (some releasing)
    else do
      let dto ← confirmGlobalPortReferenceReleased reference releasing.version now
      pure (some dto)

def releaseGlobalPortReferenceAfterRuntimeCleanup (reference : ReferenceInput) (now : ℤ) :
    PortCall (Option AllocationDto) :=
  withDatabaseTransaction do
    let located ← allocationForReference reference
    match located with
    | none => pure none
    | some located => do
      let releasing ← beginGlobalPortReferenceRelease reference located.allocation.version now
      confirmIfReleasing reference now releasing

/-! ## Operations that are made of others -/

/-- The row that a new claim of a port finds. -/
def acquireFresh (port : ℤ) (owner : Owner) (reference : ReferenceInput)
    (now later : ℤ) (token : JsString) (current : Option AllocationDto) : PortCall AllocationDto :=
  match current with
  | some current =>
    if current.status = .active then
      addActiveGlobalPortOwningReference current.allocationId current.version owner reference now
    else reserveThenActivate
  | none => reserveThenActivate
where
  reserveThenActivate : PortCall AllocationDto := do
    let reservation ← reserveGlobalPortAllocation sha256 port owner now reservationTtlMs token
    activateReservedGlobalPortAllocation sha256 reservation.allocationId reservation.version owner token
      [reference] later

def inspectGlobalPortAllocation (port : ℤ) : PortCall (Option AllocationDto) := do
  let row ← allocationByPort port
  match row with
  | none => pure none
  | some row => do
    let dto ← rethrow (allocationDto row)
    pure (some dto)

/-- Not a transaction: a reservation is committed before it is activated. The clock is read
again for the activation. -/
def acquireGlobalPortOwningReference (port : ℤ) (owner : Owner)
    (reference : ReferenceInput) (now later : ℤ) (token : JsString) : PortCall AllocationDto := do
  let port ← rethrow (newListenerPort port)
  let existing ← allocationForReference reference
  match existing with
  | some existing => do
    let tag ← rethrow (ownerTag owner)
    throwIf (existing.allocation.port ≠ port ∨ existing.allocation.status ≠ .active ∨
      existing.allocation.primaryOwnerType ≠ some owner.type ∨
      existing.allocation.primaryOwnerTag ≠ some tag) .conflict
    pure existing.allocation
  | none => do
    let current ← inspectGlobalPortAllocation port
    acquireFresh sha256 port owner reference now later token current

def isOwnersActive (located : LocatedAllocation) (owner : Owner) (tag : JsString) : Bool :=
  located.allocation.status = .active ∧ located.allocation.primaryOwnerType = some owner.type ∧
    located.allocation.primaryOwnerTag = some tag ∧ located.ownerGroupTag = tag

/-- The second half of both promotions: the public reference comes, the staged one goes. -/
def swapStaged (allocationId expectedVersion : ℤ) (owner : Owner) (next staged : ReferenceInput)
    (now : ℤ) : PortCall AllocationDto := do
  let withPublic ← addActiveGlobalPortOwningReference allocationId expectedVersion owner next now
  let withoutStaging ← beginGlobalPortReferenceRelease staged withPublic.version now
  let withoutStaging ← orThrow .conflict withoutStaging
  throwIf (withoutStaging.status ≠ .active) .conflict
  pure withoutStaging

def isPublicRole (role : ReferenceRole) : Bool := role = .publicListener ∨ role = .mimic

def promoteStagedGlobalPortOwningReference (owner : Owner) (publicReference : ReferenceInput)
    (nextPublicReference : Option ReferenceInput) (stagedReference : ReferenceInput) (now : ℤ) :
    PortCall AllocationDto := do
  let tag ← rethrow (ownerTag owner)
  let next := nextPublicReference.getD publicReference
  throwIf (publicReference.isOwning = false ∨ isPublicRole publicReference.role = false ∨
    next.isOwning = false ∨ next.role ≠ publicReference.role ∨ stagedReference.isOwning = false ∨
    stagedReference.role ≠ .ownership ∨ publicReference.resourceType ≠ stagedReference.resourceType ∨
    publicReference.resourceId ≠ stagedReference.resourceId ∨
    next.resourceType ≠ stagedReference.resourceType ∨ next.resourceId ≠ stagedReference.resourceId ∨
    next.hostId ≠ stagedReference.hostId ∨ next.network ≠ stagedReference.network) .invalid
  withDatabaseTransaction do
    let source ← allocationForReference publicReference
    let target ← allocationForReference stagedReference
    let source ← orThrow .conflict source
    let target ← orThrow .conflict target
    throwIf (isOwnersActive source owner tag = false ∨ isOwnersActive target owner tag = false) .conflict
    let releasing ← beginGlobalPortReferenceRelease publicReference source.allocation.version now
    let releasing ← orThrow .conflict releasing
    throwIf (releasing.status ≠ .releasing ∧ releasing.status ≠ .active) .conflict
    let _ ← confirmIfReleasing publicReference now (some releasing)
    let targetVersion :=
      if source.allocation.allocationId = target.allocation.allocationId then releasing.version
      else target.allocation.version
    swapStaged target.allocation.allocationId targetVersion owner next stagedReference now

def slotOfKey (key : JsString) : Option Slot :=
  if (js ":PRIMARY") <:+ key then some .primary
  else if (js ":MAPPED") <:+ key then some .mapped
  else none

def promoteOrphanedStagedGlobalPortOwningReference (owner : Owner) (next staged : ReferenceInput)
    (now : ℤ) : PortCall AllocationDto := do
  let tag ← rethrow (ownerTag owner)
  throwIf (next.isOwning = false ∨ isPublicRole next.role = false ∨ staged.isOwning = false ∨
    staged.role ≠ .ownership ∨ next.resourceType ≠ staged.resourceType ∨
    next.resourceId ≠ staged.resourceId ∨ next.hostId ≠ staged.hostId ∨
    next.network ≠ staged.network) .invalid
  withDatabaseTransaction do
    let target ← allocationForReference staged
    let target ← orThrow .conflict target
    throwIf (isOwnersActive target owner tag = false) .conflict
    let publicRows ← query fun db => db.ledger.references.filter fun r =>
      r.resourceType = .known next.resourceType ∧ r.resourceId = next.resourceId ∧
        r.role = .known next.role
    throwIf (publicRows.any fun r => slotOfKey r.referenceKey = next.slot) .conflict
    swapStaged target.allocation.allocationId target.allocation.version owner next staged now

/-! ## Recovery -/

def isExpiredReservation (l : Ledger) (now : ℤ) (row : AllocationRow) : Bool :=
  row.status = .known .reserved ∧ row.reservedUntil.any (· ≤ epoch now) ∧ row.version < maxSafeInteger ∧
    ¬ l.references.any fun r => r.allocationId = row.id

def AllocationRow.recover (row : AllocationRow) (now : ℤ) : AllocationRow :=
  { row.quarantine now with reservationTokenHash := none, reservedUntil := none }

def recoverExpiredGlobalPortReservations (now : ℤ) : PortCall ℕ :=
  statement fun db => (db.ledger.allocations.countP (isExpiredReservation db.ledger now),
    { db with ledger := { db.ledger with
      allocations := updateWhere (isExpiredReservation db.ledger now) (fun row => row.recover now)
        db.ledger.allocations } })

end ForwardX.Panel.GlobalPorts
