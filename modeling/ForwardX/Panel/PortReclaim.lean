/-
The reclaim scans of `server/globalPortReclaimService.ts`: the transactions and statements they are
made of.
-/
import ForwardX.Panel.PortAllocations

namespace ForwardX.Panel.GlobalPorts

open Checks Table Tx Call

def scanIntervalMs : ℤ := 43200000

def leaseTtlMs : ℤ := 1800000

def runTtlMs : ℤ := 120000

def isPositiveInteger (value : ℤ) : Bool := 0 < value ∧ value ≤ maxSafeInteger

/-! ## Hosts -/

def managedHosts (hosts : List HostRow) : List HostRow :=
  (hosts.mergeSort fun a b => a.id ≤ b.id).filter fun h =>
    isPositiveInteger h.id && isPositiveInteger h.userId

def jsonIds (ids : List ℤ) : JsString :=
  [0x5B] ++ [0x2C].intercalate (ids.map idText) ++ [0x5D]

variable (sha256 : Sha256)

def hostSetHash (hosts : List HostRow) : List UInt8 :=
  sha256.digest (js "forwardx-global-port-host-set:v1" ++
    0x0A :: jsonIds ((hosts.map HostRow.id).mergeSort fun a b => a ≤ b))

/-! ## The lease -/

def acquireLease (ownerHash : JsString) (now : ℤ) : PortCall Bool :=
  statement fun db =>
    if (db.lease.leaseUntil.all (· ≤ epoch now)) ∧
      (db.lease.lastStartedAt.all (· ≤ epoch (now - scanIntervalMs))) then
      (true, { db with lease := { db.lease with
        leaseOwnerHash := some ownerHash
        leaseUntil := some (epoch (now + leaseTtlMs))
        lastStartedAt := some (epoch now) } })
    else (false, db)

def releaseLease (ownerHash : JsString) (now : ℤ) : PortCall Unit :=
  execute fun db =>
    if db.lease.leaseOwnerHash = some ownerHash then
      { db with lease := { db.lease with
        leaseOwnerHash := none, leaseUntil := none, lastFinishedAt := some (epoch now) } }
    else db

/-! ## Candidates -/

def isScanned (status : Column AllocationStatus) : Bool :=
  status = .known .pendingScan ∨ status = .known .externalOccupied

/-! ## A probe run -/

variable (row : AllocationRow)

def AllocationRow.startScan (now : ℤ) : AllocationRow :=
  { row with
    lastScanStartedAt := some (epoch now)
    lastErrorCode := none
    version := row.version + 1
    updatedAt := epoch now }

structure StartedRun where
  runId : ℤ
  allocationVersion : ℤ
  expiresAt : ℤ

def insertProbeRun (row : ProbeRunRow) : PortCall ℤ :=
  statement fun db =>
    let id := nextKey ProbeRunRow.id db.probeRuns
    (id, { db with probeRuns := db.probeRuns ++ [{ row with id }] })

/-- The row can be scanned by a run on this port. -/
def canStart (port : ℤ) : Bool :=
  row.port = port ∧ isPositiveInteger row.version ∧ isScanned row.status

/-- `UPDATE … WHERE id = ? AND version = ? AND status IN (…)`. -/
def updateScanned (allocationId version : ℤ) (f : AllocationRow → AllocationRow) : PortCall ℕ :=
  updateAllocations (fun row => row.id = allocationId ∧ row.version = version ∧ isScanned row.status) f

def openRun (allocationId port : ℤ) (hosts : List HostRow) (now : ℤ) :
    PortCall (Option StartedRun) := do
  let changed ← updateScanned allocationId row.version fun row => row.startScan now
  if changed ≠ 1 then pure none
  else do
    let runId ← insertProbeRun {
      id := 0
      allocationId := allocationId
      allocationVersion := row.version + 1
      candidatePort := port
      status := .running
      hostSetHash := hostSetHash sha256 hosts
      expectedHostCount := hosts.length
      startedAt := epoch now
      expiresAt := epoch (now + runTtlMs) }
    pure (some ⟨runId, row.version + 1, now + runTtlMs⟩)

def startProbeRun (allocationId port : ℤ) (hosts : List HostRow) (now : ℤ) :
    PortCall (Option StartedRun) :=
  withDatabaseTransaction do
    let row ← allocationById allocationId
    match row with
    | none => pure none
    | some row =>
      if !canStart row port then pure none
      else do
        let references ← query fun db => (referencesOf allocationId db.ledger).length
        if references ≠ 0 then pure none
        else openRun sha256 row allocationId port hosts now

structure ProbeOutcome where
  hostId : ℤ
  network : ProbeNetwork
  status : ProbeStatus

/-- One insert of `persistOutcomes`; a host answers once for a network. -/
def persistOutcome (runId : ℤ) (outcome : ProbeOutcome) (expiresAt : ℤ) : PortCall Unit := do
  let inserted ← statement fun db =>
    if db.probeResults.any fun r =>
      r.probeRunId = runId ∧ r.hostId = outcome.hostId ∧ r.network = outcome.network then (none, db)
    else (some (), { db with probeResults :=
      db.probeResults ++ [⟨runId, outcome.hostId, outcome.network, outcome.status, epoch expiresAt⟩] })
  orThrow .database inserted

/-- `UPDATE global_port_probe_runs SET … WHERE id = ? AND status = 'RUNNING'`. -/
def closeRun (runId : ℤ) (status : RunStatus) (now : ℤ) : PortCall Unit :=
  execute fun db => { db with
    probeRuns := updateWhere (fun run => run.id = runId ∧ run.status = .running)
      (fun run => { run with status := status, finishedAt := some (epoch now) }) db.probeRuns }

def failRun (runId now : ℤ) : PortCall Unit := closeRun runId .failed now

/-! ## The end of a run -/

def AllocationRow.free (row : AllocationRow) (now : ℤ) : AllocationRow :=
  { row with
    status := .known .free
    primaryOwnerType := none
    primaryOwnerTag := none
    reservationTokenHash := none
    reservedUntil := none
    scanNotBefore := none
    lastScanFinishedAt := some (epoch now)
    lastErrorCode := none
    version := row.version + 1
    updatedAt := epoch now }

/-- A port that is not free is scanned again, as occupied if a host says so. -/
def AllocationRow.scanAgain (hasOccupied : Bool) (now : ℤ) : AllocationRow :=
  { row with
    status := if hasOccupied then .known .externalOccupied else row.status
    scanNotBefore := some (epoch (now + scanIntervalMs))
    lastScanFinishedAt := some (epoch now)
    lastErrorCode := some (.known (if hasOccupied then .externalOccupied else .probeFailed))
    version := row.version + 1
    updatedAt := epoch now }

inductive ScanOutcome where
  | free
  | occupied
  | deferred

abbrev ProbeKey := ℤ × ProbeNetwork

def expectedKeys (hosts : List HostRow) : List ProbeKey :=
  (hosts.flatMap fun h => [(h.id, .tcp), (h.id, .udp)]).dedup

def resultKeys (results : List ProbeResultRow) : List ProbeKey :=
  (results.map fun r => (r.hostId, r.network)).dedup

/-- One answer from every host on both networks, none of them too old. -/
def resultsComplete (results : List ProbeResultRow) (hosts : List HostRow) (now : ℤ) : Bool :=
  results.length = (expectedKeys hosts).length ∧ (resultKeys results).length = (expectedKeys hosts).length ∧
    (∀ key ∈ expectedKeys hosts, key ∈ resultKeys results) ∧
    results.all fun r => (dateFromDatabase (some r.expiresAt)).any (now < ·)

def validLease (lease : ScanLease) (leaseOwnerHash : JsString) (now : ℤ) : Bool :=
  lease.leaseOwnerHash = some leaseOwnerHash ∧ (dateFromDatabase lease.leaseUntil).any (now < ·)

def resultsOf (runId : ℤ) (db : PortDb) : List ProbeResultRow :=
  db.probeResults.filter fun r => r.probeRunId = runId

/-- The run, its row and the hosts are still what they were when it was opened. -/
def validSnapshot (run : Option ProbeRunRow) (row : Option AllocationRow)
    (allocationVersion : ℤ) (expectedHosts : List HostRow) (leaseOwnerHash : JsString) (now : ℤ)
    (db : PortDb) : Bool :=
  match run, row with
  | some run, some row =>
    run.status = .running ∧ run.allocationVersion = allocationVersion ∧
      run.expectedHostCount = expectedHosts.length ∧ run.hostSetHash = hostSetHash sha256 expectedHosts ∧
      row.version = allocationVersion ∧ isScanned row.status ∧ referencesOf row.id db.ledger = [] ∧
      ¬ hasListenerDrift db.listeners row.port ∧
      (managedHosts db.hosts).length = expectedHosts.length ∧
      hostSetHash sha256 (managedHosts db.hosts) = hostSetHash sha256 expectedHosts ∧
      resultsComplete (resultsOf run.id db) expectedHosts now ∧ validLease db.lease leaseOwnerHash now
  | _, _ => false

def settleRun (runId allocationId allocationVersion now : ℤ) (results : List ProbeResultRow) :
    PortCall ScanOutcome := do
  let hasOccupied := results.any fun r => r.status = .occupied
  let allFree := results ≠ [] ∧ results.all fun r => r.status = .free
  let changed ← updateScanned allocationId allocationVersion fun row =>
    if allFree then row.free now else row.scanAgain hasOccupied now
  if changed ≠ 1 then do
    failRun runId now
    pure .deferred
  else do
    closeRun runId (if allFree ∨ hasOccupied then .success else .failed) now
    pure (if allFree then .free else if hasOccupied then .occupied else .deferred)

def finalizeProbeRun (runId allocationId allocationVersion : ℤ)
    (expectedHosts : List HostRow) (leaseOwnerHash : JsString) (now : ℤ) : PortCall ScanOutcome :=
  withDatabaseTransaction do
    let run ← query fun db => byKey ProbeRunRow.id runId db.probeRuns
    let row ← allocationById allocationId
    let valid ← query fun db =>
      validSnapshot sha256 run row allocationVersion expectedHosts leaseOwnerHash now db
    let results ← query (resultsOf runId)
    if !valid then do
      failRun runId now
      pure .deferred
    else settleRun runId allocationId allocationVersion now results

/-! ## Drift -/

def AllocationRow.deferScan (now : ℤ) : AllocationRow :=
  { row with
    lastScanStartedAt := some (epoch now)
    lastScanFinishedAt := some (epoch now)
    lastErrorCode := some (.known .referenceDrift)
    scanNotBefore := some (epoch (now + scanIntervalMs))
    version := row.version + 1
    updatedAt := epoch now }

def markDriftDeferred (allocationId now : ℤ) : PortCall Unit :=
  execute fun db => { db with ledger := { db.ledger with
    allocations := updateWhere (fun row => row.id = allocationId ∧ isScanned row.status ∧
        ¬ db.ledger.references.any fun r => r.allocationId = row.id)
      (fun row => row.deferScan now) db.ledger.allocations } }

end ForwardX.Panel.GlobalPorts
