/-
Importing the snapshot of another panel, second part: the tables one after the other, the references
that wait, and what the references of an inserted row point to in the end.

A row may point to one that comes later, so some references wait for the end. The relation
`PointsTo` says what a reference of the source should become; the theorem is about every row that
was inserted and every column that refers.
-/
import ForwardX.Lib.Pieces
import ForwardX.Panel.ImportRows

namespace ForwardX.PanelImport

open Checks List Option
open DatabaseSwitch

/-! ## The destination -/

structure Entry where
  id : ℕ
  row : Record

abbrev Database : Type := ImportTable → List Entry

structure PreparedGeneratedRow where
  source : Record
  oldId : ℕ
  payload : Record
  existingWhere : Option Where

/-- What the destination decides: the id of a new row, whether a batch is accepted, what a
lookup finds, and how many parameters a statement may have. -/
structure Destination where
  newId : ImportTable → ℕ → ℕ
  accepts : Database → ImportTable → List PreparedGeneratedRow → Bool
  select : Database → ImportTable → Where → Option ℕ
  preload : Database → ImportTable → List Where → Option (Where → Option ℕ)
  parameterLimit : ℕ

/-- What holds of the ids of a destination: a row that is found is there, and a new row
gets a positive id that no other row has. -/
structure Destination.Fresh (dest : Destination) (before : Database) : Prop where
  select_mem : ∀ db t w id, dest.select db t w = some id → ∃ e ∈ db t, e.id = id
  preload_mem : ∀ db t ws ids w id, dest.preload db t ws = some ids → ids w = some id → ∃ e ∈ db t, e.id = id
  newId_ne_zero : ∀ t old, dest.newId t old ≠ 0
  newId_inj : ∀ t old old', dest.newId t old = dest.newId t old' → old = old'
  newId_new : ∀ t old, ∀ e ∈ before t, e.id ≠ dest.newId t old

/-- `importLookupEntries`: the conditions that say something. -/
def importLookupEntries (existing : Where) : Where :=
  existing.filter fun entry => entry.2 ≠ .undefined ∧ entry.2 ≠ .null ∧ entry.2 ≠ .text ""

def findExistingId (dest : Destination) (db : Database) (t : ImportTable) (existing : Where) : Option ℕ :=
  if importLookupEntries existing = [] then none
  else (dest.select db t (importLookupEntries existing)).filter fun id => 0 < id

/-- What became of a row that was not found in the destination beforehand. -/
inductive Outcome where
  | inserted (id : ℕ)
  | reused (id : ℕ)
  | skipped

/-! ## Batches -/

/-- `INSERT` of several rows, all or none. -/
def executeGeneratedBatch (dest : Destination) (t : ImportTable) (db : Database)
    (rows : List PreparedGeneratedRow) : Option Database :=
  if dest.accepts db t rows then
    some (Function.update db t (db t ++ rows.map fun row => ⟨dest.newId t row.oldId, row.payload⟩))
  else none

/-- `insertGeneratedBatchWithIsolation`: a batch that is not accepted is halved until the
rows stand alone. The first argument bounds the depth; the length of the batch is
enough. -/
def insertGeneratedBatchWithIsolation (dest : Destination) (t : ImportTable) :
    ℕ → Database → List PreparedGeneratedRow → Database × List (PreparedGeneratedRow × Outcome)
  | 0, db, _ => (db, [])
  | fuel + 1, db, rows =>
    match executeGeneratedBatch dest t db rows with
    | some db => (db, rows.map fun row => (row, .inserted (dest.newId t row.oldId)))
    | none =>
      match rows with
      | [] => (db, [])
      | [row] =>
        match row.existingWhere.bind (findExistingId dest db t) with
        | some id => (db, [(row, .reused id)])
        | none => (db, [(row, .skipped)])
      | rows =>
        let middle := (rows.length + 1) / 2
        let first := insertGeneratedBatchWithIsolation dest t fuel db (rows.take middle)
        let second := insertGeneratedBatchWithIsolation dest t fuel first.1 (rows.drop middle)
        (second.1, first.2 ++ second.2)

def STRUCTURED_MIGRATION_BATCH_ROWS : ℕ := 500

def Column.name : Column → String
  | .id => "id"
  | .username => "username"
  | .telegramId => "telegramId"
  | .telegramBindCode => "telegramBindCode"
  | .telegramLoginCode => "telegramLoginCode"
  | .telegramBindCodeExpiresAt => "telegramBindCodeExpiresAt"
  | .telegramLoginCodeExpiresAt => "telegramLoginCodeExpiresAt"
  | .userId => "userId"
  | .isOnline => "isOnline"
  | .lastHeartbeat => "lastHeartbeat"
  | .agentUpgradeRequested => "agentUpgradeRequested"
  | .agentUpgradeTargetVersion => "agentUpgradeTargetVersion"
  | .agentUpgradeTargetDistribution => "agentUpgradeTargetDistribution"
  | .agentUpgradeReleaseVersion => "agentUpgradeReleaseVersion"
  | .agentUpgradeRequestedAt => "agentUpgradeRequestedAt"
  | .agentToken => "agentToken"
  | .entryHostId => "entryHostId"
  | .exitHostId => "exitHostId"
  | .entryGroupId => "entryGroupId"
  | .exitGroupId => "exitGroupId"
  | .isRunning => "isRunning"
  | .activeMemberId => "activeMemberId"
  | .groupId => "groupId"
  | .hostId => "hostId"
  | .tunnelId => "tunnelId"
  | .ruleId => "ruleId"
  | .forwardGroupId => "forwardGroupId"
  | .forwardGroupRuleId => "forwardGroupRuleId"
  | .forwardGroupMemberId => "forwardGroupMemberId"
  | .portResourceGroupId => "portResourceGroupId"
  | .targetExternalProxyNodeId => "targetExternalProxyNodeId"
  | .xrayQuickConfigId => "xrayQuickConfigId"
  | .pendingDelete => "pendingDelete"
  | .sourcePort => "sourcePort"
  | .targetIp => "targetIp"
  | .targetPort => "targetPort"
  | .other name => name

/-- `restoreRowSignature`: the columns of a payload, sorted. -/
def restoreRowSignature (payload : Record) : List String :=
  (payload.entries.map fun e => e.1.name).insertionSort fun a b => a ≤ b

/-- A list in pieces of `n`. -/
def cut {α : Type} (n : ℕ) (rows : List α) : List (List α) :=
  (List.range ((rows.length + (n - 1)) / n)).map (piece n rows)

/-- The batches of `insertGeneratedRows`: rows with the same columns, in pieces. -/
def generatedBatches (dest : Destination) (rows : List PreparedGeneratedRow) :
    List (List PreparedGeneratedRow) :=
  (JsMap.group (fun row => restoreRowSignature row.payload) rows).entries.flatMap fun group =>
    cut (max 1 (min STRUCTURED_MIGRATION_BATCH_ROWS (dest.parameterLimit / max 1 group.1.length))) group.2

def insertGeneratedRows (dest : Destination) (t : ImportTable) (db : Database)
    (rows : List PreparedGeneratedRow) : Database × List (PreparedGeneratedRow × Outcome) :=
  (generatedBatches dest rows).foldl (fun done batch =>
    let next := insertGeneratedBatchWithIsolation dest t batch.length done.1 batch
    (next.1, done.2 ++ next.2)) (db, [])

/-- `insertGeneratedRowsStrict`: a batch that is not accepted ends the import. -/
def insertGeneratedRowsStrict (dest : Destination) (t : ImportTable) (db : Database)
    (rows : List PreparedGeneratedRow) : Option (Database × List (PreparedGeneratedRow × Outcome)) :=
  (generatedBatches dest rows).foldlM (fun done batch => do
    let next ← executeGeneratedBatch dest t done.1 batch
    pure (next, done.2 ++ batch.map fun row => (row, .inserted (dest.newId t row.oldId)))) (db, [])

/-! ## Tables -/

/-- `MigrationSnapshot.tables`. -/
abbrev Snapshot : Type := ImportTable → List Record

structure ImportState where
  db : Database
  maps : ImportMaps
  /-- the rows of the snapshot that were inserted, with the ids they got -/
  inserted : ImportTable → List (Record × ℕ)
  skipped : ImportTable → ℕ

section

variable (js : Conversions) (dest : Destination)

def sortedSnapshotRows (snapshot : Snapshot) (t : ImportTable) : List Record :=
  (snapshot t).insertionSort fun a b => (js.numberOf (cell a .id)).getD 0 ≤ (js.numberOf (cell b .id)).getD 0

/-- A row on its way into the destination; `none` and an error make the import skip it. -/
def prepareGeneratedRow (s : ImportState) (t : ImportTable) (source : Record) :
    Except String (Option PreparedGeneratedRow) :=
  match toNumberId js (cell source .id) with
  | none => .error "源数据缺少有效 ID"
  | some oldId => do
    let prepared ← prepareImportRow js (findExistingId dest s.db .users) t source s.maps
    pure (prepared.map fun p => {
      source, oldId
      payload := normalizeImportPayload js t p.row
      existingWhere := p.existingWhere })

def ImportState.record (t : ImportTable) (s : ImportState) (row : PreparedGeneratedRow) :
    Outcome → ImportState
  | .inserted id =>
    { s with
      maps := Function.update s.maps (.of t) ((s.maps (.of t)).set row.oldId id)
      inserted := Function.update s.inserted t (s.inserted t ++ [(row.source, id)]) }
  | .reused id => { s with maps := Function.update s.maps (.of t) ((s.maps (.of t)).set row.oldId id) }
  | .skipped => { s with skipped := Function.update s.skipped t (s.skipped t + 1) }

def ImportState.recordAll (t : ImportTable) (s : ImportState)
    (outcomes : List (PreparedGeneratedRow × Outcome)) : ImportState :=
  outcomes.foldl (fun s x => s.record t x.1 x.2) s

/-- The row of the destination that a prepared row is found to be; `ids` is the answer of
the bulk lookup, `none` when that failed. -/
def existingId (db : Database) (t : ImportTable) (ids : Option (Where → Option ℕ))
    (row : PreparedGeneratedRow) : Option ℕ :=
  if (db t).isEmpty then none
  else
    row.existingWhere.bind fun existing =>
      match ids with
      | some ids =>
        if importLookupEntries existing = [] then none
        else (ids (importLookupEntries existing)).filter fun id => 0 < id
      | none => findExistingId dest db t existing

def found (db : Database) (t : ImportTable) (ids : Option (Where → Option ℕ))
    (rows : List PreparedGeneratedRow) : List (PreparedGeneratedRow × Outcome) :=
  rows.filterMap fun row => (existingId dest db t ids row).map fun id => (row, .reused id)

def generated (db : Database) (t : ImportTable) (ids : Option (Where → Option ℕ))
    (rows : List PreparedGeneratedRow) : List PreparedGeneratedRow :=
  rows.filter fun row => (existingId dest db t ids row).isNone

def preparedRows (s : ImportState) (t : ImportTable) (rows : List Record) : List PreparedGeneratedRow :=
  rows.filterMap fun source => (prepareGeneratedRow js dest s t source).toOption.bind id

/-- The bulk lookup of a table of which no row may be lost; `none` when it fails. -/
def preloadStrict (db : Database) (t : ImportTable) (rows : List PreparedGeneratedRow) :
    Option (Where → Option ℕ) :=
  if (db t).isEmpty then some fun _ => none
  else dest.preload db t (rows.filterMap PreparedGeneratedRow.existingWhere)

def preloadBestEffort (db : Database) (t : ImportTable) (rows : List PreparedGeneratedRow) :
    Option (Where → Option ℕ) :=
  if (db t).isEmpty = false ∧ rows.any (fun row => row.existingWhere.isSome) = true then
    dest.preload db t (rows.filterMap PreparedGeneratedRow.existingWhere)
  else some fun _ => none

/-- What the import notes of a table: the rows that were found, those that were inserted
or not, and how many could not be prepared. -/
def conclude (s : ImportState) (t : ImportTable) (found : List (PreparedGeneratedRow × Outcome))
    (next : Database × List (PreparedGeneratedRow × Outcome)) (lost : ℕ) : ImportState :=
  let s := s.recordAll t found
  ImportState.recordAll t
    { s with db := next.1, skipped := Function.update s.skipped t (s.skipped t + lost) } next.2

/-- Tables whose rows may be skipped one by one. -/
def importBestEffort (s : ImportState) (t : ImportTable) (rows : List Record) : ImportState :=
  let prepared := preparedRows js dest s t rows
  let ids := preloadBestEffort dest s.db t prepared
  conclude s t (found dest s.db t ids prepared)
    (insertGeneratedRows dest t s.db (generated dest s.db t ids prepared)) (rows.length - prepared.length)

def importStrict (s : ImportState) (t : ImportTable) (rows : List Record) : Option ImportState := do
  let prepared ← rows.mapM fun source => (prepareGeneratedRow js dest s t source).toOption.bind id
  let ids ← preloadStrict dest s.db t prepared
  let next ← insertGeneratedRowsStrict dest t s.db (generated dest s.db t (some ids) prepared)
  pure (conclude s t (found dest s.db t (some ids) prepared) next 0)

/-- Rules are imported strictly as soon as one of them belongs to a quick configuration. -/
def strictQuickConfigTable (t : ImportTable) (rows : List Record) : Bool :=
  decide (t = .forward_rules) && rows.any fun row =>
    decide (cell row .xrayQuickConfigId ≠ .null ∧ cell row .xrayQuickConfigId ≠ .undefined)

def importTable (snapshot : Snapshot) (s : ImportState) (t : ImportTable) : Option ImportState :=
  let rows := sortedSnapshotRows js snapshot t
  if strictQuickConfigTable t rows then importStrict js dest s t rows
  else some (importBestEffort js dest s t rows)

def importTableOrder : List ImportTable :=
  [.users, .hosts, .tunnels, .forward_groups, .forward_group_members, .forward_rules]

/-! ## The references that wait -/

/-- Of several updates of a row the last one counts. -/
def deduplicated (updates : List (ℕ × ℕ)) : JsMap ℕ ℕ :=
  updates.foldl (fun (m : JsMap ℕ ℕ) item => m.set item.1 item.2) ∅

def updateMappedColumn (db : Database) (t : ImportTable) (c : Column) (updates : List (ℕ × ℕ)) : Database :=
  Function.update db t ((db t).map fun e =>
    match (deduplicated updates).get e.id with
    | some value => { e with row := e.row.set c (.number value) }
    | none => e)

/-- The updates for one column, and whether a reference could not be resolved. -/
def deferredUpdates (snapshot : Snapshot) (maps : ImportMaps) (t : ImportTable) (c : Column)
    (target : ImportTable) : List (ℕ × ℕ) × Bool :=
  (sortedSnapshotRows js snapshot t).foldl (fun done row =>
    match mapId js maps (.of t) (cell row .id) with
    | some (next + 1) =>
      match mapOptionalId js maps (.of target) (cell row c) with
      | .ok (some (value + 1)) => (done.1 ++ [(next + 1, value + 1)], done.2)
      | .ok _ => done
      | .error _ => (done.1, true)
    | _ => done) ([], false)

/-- `fixDeferredForwardGroupReferences`; it fails when a reference cannot be resolved. -/
def fixDeferredForwardGroupReferences (snapshot : Snapshot) (s : ImportState) : Option ImportState :=
  let groups := deferredUpdates js snapshot s.maps .forward_groups .activeMemberId .forward_group_members
  let members := deferredUpdates js snapshot s.maps .forward_group_members .ruleId .forward_rules
  let rules := deferredUpdates js snapshot s.maps .forward_rules .forwardGroupRuleId .forward_rules
  let db := updateMappedColumn s.db .forward_groups .activeMemberId groups.1
  let db := updateMappedColumn db .forward_group_members .ruleId members.1
  let db := updateMappedColumn db .forward_rules .forwardGroupRuleId rules.1
  if groups.2 || members.2 || rules.2 then none else some { s with db }

/-- The incremental path of `importMigrationSnapshot`, as far as these tables are concerned. -/
def importMigrationSnapshot (snapshot : Snapshot) (s : ImportState) : Option ImportState := do
  let s ← importTableOrder.foldlM (importTable js dest snapshot) s
  fixDeferredForwardGroupReferences js snapshot s

end

/-! ## Batches hold the rows -/

theorem flatten_cut {α : Type} {n : ℕ} (hn : 0 < n) (rows : List α) : (cut n rows).flatten = rows := by
  apply flatten_pieces_of_le
  have hdiv := Nat.div_add_mod (rows.length + (n - 1)) n
  have hmod := Nat.mod_lt (rows.length + (n - 1)) hn
  rw [Nat.mul_comm]
  omega

variable {rows : List PreparedGeneratedRow}

theorem perm_generatedBatches (dest : Destination) (h : rows.Nodup) :
    (generatedBatches dest rows).flatten.Perm rows := by
  have hflat : (generatedBatches dest rows).flatten
      = (JsMap.group (fun row => restoreRowSignature row.payload) rows).entries.flatMap Prod.snd := by
    rw [generatedBatches, flatMap_def, flatten_flatten, List.map_map, flatMap_def]
    congr 1
    refine map_congr_left fun group _ => ?_
    exact flatten_cut (by omega) group.2
  rw [hflat]
  exact JsMap.perm_group _ h

/-! ## One batch -/

def entryOf : PreparedGeneratedRow × Outcome → Option Entry
  | (row, .inserted id) => some ⟨id, row.payload⟩
  | _ => none

/-- An outcome that the code can come to: the id of an inserted row is the one that the
destination gives, and only a row with a condition is looked for. -/
def Possible (dest : Destination) (t : ImportTable) : PreparedGeneratedRow × Outcome → Prop
  | (row, .inserted id) => id = dest.newId t row.oldId
  | (row, .reused _) => row.existingWhere ≠ none
  | _ => True

/-- The destination after the outcomes of some rows, each of which has one. -/
structure Batch (dest : Destination) (t : ImportTable) (db : Database) (rows : List PreparedGeneratedRow)
    (result : Database × List (PreparedGeneratedRow × Outcome)) : Prop where
  rows_eq : result.2.map Prod.fst = rows
  db_eq : result.1 = Function.update db t (db t ++ result.2.filterMap entryOf)
  possible : ∀ x ∈ result.2, Possible dest t x

theorem Batch.nil (dest : Destination) (t : ImportTable) (db : Database) : Batch dest t db [] (db, []) where
  rows_eq := rfl
  db_eq := by simp
  possible := by simp

variable {dest : Destination} {t : ImportTable}

theorem Batch.append {db : Database}
    {rows rows' : List PreparedGeneratedRow}
    {first second : Database × List (PreparedGeneratedRow × Outcome)} (h : Batch dest t db rows first)
    (h' : Batch dest t first.1 rows' second) :
    Batch dest t db (rows ++ rows') (second.1, first.2 ++ second.2) where
  rows_eq := by rw [map_append, h.rows_eq, h'.rows_eq]
  db_eq := by
    rw [h'.db_eq, h.db_eq, Function.update_self, Function.update_idem, filterMap_append, append_assoc]
  possible x hx := by
    rcases mem_append.1 hx with hx | hx
    · exact h.possible x hx
    · exact h'.possible x hx

theorem executeGeneratedBatch_spec {db db' : Database}
    (h : executeGeneratedBatch dest t db rows = some db') :
    Batch dest t db rows (db', rows.map fun row => (row, .inserted (dest.newId t row.oldId))) := by
  unfold executeGeneratedBatch at h
  by_cases haccepts : dest.accepts db t rows = true
  · rw [if_pos haccepts, Option.some.injEq] at h
    have hentries : (rows.map fun row => (row, Outcome.inserted (dest.newId t row.oldId))).filterMap entryOf
        = rows.map fun row => ⟨dest.newId t row.oldId, row.payload⟩ := by
      rw [filterMap_map, ← filterMap_eq_map]
      rfl
    refine ⟨by rw [List.map_map]; exact map_id rows, ?_, ?_⟩
    · rw [hentries]
      exact h.symm
    · intro x hx
      obtain ⟨row, _, rfl⟩ := mem_map.1 hx
      rfl
  · rw [if_neg haccepts] at h
    cases h

theorem insertGeneratedBatchWithIsolation_spec (dest : Destination) (t : ImportTable) (fuel : ℕ)
    (db : Database) (rows : List PreparedGeneratedRow) (hfuel : rows.length ≤ fuel) :
    Batch dest t db rows (insertGeneratedBatchWithIsolation dest t fuel db rows) := by
  induction fuel generalizing db rows with
  | zero =>
    obtain rfl := length_eq_zero_iff.1 (Nat.le_zero.1 hfuel)
    exact .nil dest t db
  | succ fuel ih =>
    unfold insertGeneratedBatchWithIsolation
    cases hexecute : executeGeneratedBatch dest t db rows with
    | some db' => exact executeGeneratedBatch_spec hexecute
    | none =>
      match rows with
      | [] => exact .nil dest t db
      | [row] =>
        dsimp only
        split
        · rename_i id hid
          refine ⟨rfl, by simp [entryOf], ?_⟩
          intro x hx
          obtain rfl := mem_singleton.1 hx
          intro hnone
          simp [hnone] at hid
        · exact ⟨rfl, by simp [entryOf], by simp [Possible]⟩
      | a :: b :: rest =>
        dsimp only
        have hlength : (a :: b :: rest).length = rest.length + 2 := rfl
        have hfirst := ih db ((a :: b :: rest).take (((a :: b :: rest).length + 1) / 2)) (by
          rw [length_take]
          omega)
        have hsecond := ih (insertGeneratedBatchWithIsolation dest t fuel db
            ((a :: b :: rest).take (((a :: b :: rest).length + 1) / 2))).1
            ((a :: b :: rest).drop (((a :: b :: rest).length + 1) / 2)) (by
          rw [length_drop]
          omega)
        have hboth := hfirst.append hsecond
        rwa [take_append_drop] at hboth

theorem insertGeneratedRows_spec (dest : Destination) (t : ImportTable) (db : Database)
    (rows : List PreparedGeneratedRow) :
    Batch dest t db (generatedBatches dest rows).flatten (insertGeneratedRows dest t db rows) := by
  have hloop : ∀ (batches : List (List PreparedGeneratedRow)) (before : List PreparedGeneratedRow)
      (done : Database × List (PreparedGeneratedRow × Outcome)), Batch dest t db before done →
      Batch dest t db (before ++ batches.flatten) (batches.foldl (fun done batch =>
        let next := insertGeneratedBatchWithIsolation dest t batch.length done.1 batch
        (next.1, done.2 ++ next.2)) done) := by
    intro batches
    induction batches with
    | nil => intro before done h; simpa using h
    | cons batch batches ih =>
      intro before done h
      have hnext := h.append (insertGeneratedBatchWithIsolation_spec dest t batch.length done.1 batch le_rfl)
      simpa [append_assoc] using ih (before ++ batch) _ hnext
  exact hloop (generatedBatches dest rows) [] (db, []) (.nil dest t db)

theorem insertGeneratedRowsStrict_spec {db : Database}
    {result : Database × List (PreparedGeneratedRow × Outcome)}
    (hstrict : insertGeneratedRowsStrict dest t db rows = some result) :
    Batch dest t db (generatedBatches dest rows).flatten result ∧
      ∀ x ∈ result.2, ∃ id, x.2 = .inserted id := by
  have hloop : ∀ (batches : List (List PreparedGeneratedRow)) (before : List PreparedGeneratedRow)
      (done : Database × List (PreparedGeneratedRow × Outcome)), Batch dest t db before done →
      (∀ x ∈ done.2, ∃ id, x.2 = .inserted id) →
      (batches.foldlM (fun done batch => do
        let next ← executeGeneratedBatch dest t done.1 batch
        pure (next, done.2 ++ batch.map fun row => (row, Outcome.inserted (dest.newId t row.oldId)))) done)
          = some result →
      Batch dest t db (before ++ batches.flatten) result ∧ ∀ x ∈ result.2, ∃ id, x.2 = .inserted id := by
    intro batches
    induction batches with
    | nil =>
      intro before done h hall heq
      obtain rfl := Option.some.inj heq
      rw [flatten_nil, append_nil]
      exact ⟨h, hall⟩
    | cons batch batches ih =>
      intro before done h hall heq
      rw [foldlM_cons, bind_eq_bind, bind_eq_some_iff] at heq
      obtain ⟨next, hnext, hrest⟩ := heq
      obtain ⟨db', hexecute, hpure⟩ := Option.bind_eq_some_iff.1 hnext
      obtain rfl := Option.some.inj hpure
      have hall' := ih (before ++ batch) _ (h.append (executeGeneratedBatch_spec hexecute)) (fun x hx => by
        rcases mem_append.1 hx with hx | hx
        · exact hall x hx
        · obtain ⟨row, _, rfl⟩ := mem_map.1 hx
          exact ⟨_, rfl⟩) hrest
      rwa [append_assoc] at hall'
  exact hloop (generatedBatches dest rows) [] (db, []) (.nil dest t db) (by simp) hstrict

/-! ## What the import keeps of the outcomes -/

def Outcome.id? : Outcome → Option ℕ
  | .inserted id | .reused id => some id
  | .skipped => none

def Outcome.isSkipped : Outcome → Bool
  | .skipped => true
  | _ => false

def insertedOf : PreparedGeneratedRow × Outcome → Option (Record × ℕ)
  | (row, .inserted id) => some (row.source, id)
  | _ => none

@[simp] theorem insertedOf_inserted (row : PreparedGeneratedRow) (id : ℕ) :
    insertedOf (row, .inserted id) = some (row.source, id) := rfl

@[simp] theorem insertedOf_reused (row : PreparedGeneratedRow) (id : ℕ) : insertedOf (row, .reused id) = none := rfl

@[simp] theorem insertedOf_skipped (row : PreparedGeneratedRow) : insertedOf (row, .skipped) = none := rfl

def mapsAfter (ids : JsMap ℕ ℕ) (outcomes : List (PreparedGeneratedRow × Outcome)) : JsMap ℕ ℕ :=
  outcomes.foldl (fun ids x =>
    match x.2.id? with
    | some id => ids.set x.1.oldId id
    | none => ids) ids

theorem recordAll_eq (t : ImportTable) (outcomes : List (PreparedGeneratedRow × Outcome)) (s : ImportState) :
    s.recordAll t outcomes = { s with
      maps := Function.update s.maps (.of t) (mapsAfter (s.maps (.of t)) outcomes)
      inserted := Function.update s.inserted t (s.inserted t ++ outcomes.filterMap insertedOf)
      skipped := Function.update s.skipped t (s.skipped t + outcomes.countP fun x => x.2.isSkipped) } := by
  induction outcomes generalizing s with
  | nil => simp [ImportState.recordAll, mapsAfter]
  | cons x outcomes ih =>
    obtain ⟨row, outcome⟩ := x
    have hcons : s.recordAll t ((row, outcome) :: outcomes) = (s.record t row outcome).recordAll t outcomes := rfl
    rw [hcons, ih]
    cases outcome <;>
      simp [ImportState.record, mapsAfter, Outcome.id?, Outcome.isSkipped, filterMap_cons, Nat.add_assoc,
        Nat.add_comm 1]

theorem get_mapsAfter {outcomes : List (PreparedGeneratedRow × Outcome)}
    (h : (outcomes.map fun x => x.1.oldId).Nodup) (old id : ℕ) :
    (mapsAfter ∅ outcomes).get old = some id ↔ ∃ x ∈ outcomes, x.1.oldId = old ∧ x.2.id? = some id := by
  induction outcomes using List.reverseRecOn with
  | nil => simp [mapsAfter]
  | append_singleton outcomes last ih =>
    rw [map_append, nodup_append] at h
    have hother : ∀ x ∈ outcomes, x.1.oldId ≠ last.1.oldId := fun x hx =>
      h.2.2 _ (mem_map_of_mem hx) _ (by simp)
    have hlast : mapsAfter ∅ (outcomes ++ [last]) = match last.2.id? with
        | some id => (mapsAfter ∅ outcomes).set last.1.oldId id
        | none => mapsAfter ∅ outcomes := by
      rw [mapsAfter, foldl_append]
      rfl
    rw [hlast]
    simp only [mem_append, mem_singleton, or_and_right, exists_or, exists_eq_left, ← ih h.1]
    cases hid : last.2.id? with
    | none => simp
    | some new =>
      dsimp only
      rw [JsMap.get_set]
      by_cases hold : old = last.1.oldId
      · have hnone : ¬ (mapsAfter ∅ outcomes).get old = some id := by
          rw [ih h.1]
          rintro ⟨x, hx, hxold, _⟩
          exact hother x hx (hxold.trans hold)
        rw [if_pos hold]
        simp [hnone, hold.symm]
      · rw [if_neg hold]
        simp [Ne.symm hold]

/-! ## One table -/

section

variable (js : Conversions) (dest : Destination)

theorem toOption_bind_eq_some {α : Type} {attempt : Except String (Option α)} {a : α} :
    attempt.toOption.bind id = some a ↔ attempt = .ok (some a) := by
  rcases attempt with e | x
  · simp [Except.toOption]
  · simp [Except.toOption]

variable {t : ImportTable} {ids : Option (Where → Option ℕ)}
    {prepared : List PreparedGeneratedRow}

variable {row : PreparedGeneratedRow}

theorem prepareGeneratedRow_ok {s : ImportState} {source : Record}
    (h : prepareGeneratedRow js dest s t source = .ok (some row)) :
    row.source = source ∧ toNumberId js (cell source .id) = some row.oldId ∧
      ∃ prepared, prepareImportRow js (findExistingId dest s.db .users) t source s.maps = .ok (some prepared) ∧
        row.payload = normalizeImportPayload js t prepared.row ∧ row.existingWhere = prepared.existingWhere := by
  unfold prepareGeneratedRow at h
  cases hid : toNumberId js (cell source .id) with
  | none =>
    rw [hid] at h
    cases h
  | some oldId =>
    rw [hid] at h
    dsimp only at h
    rw [bind_eq_ok] at h
    obtain ⟨prepared, hprepared, hrow⟩ := h
    rw [pure_eq_ok, map_eq_some_iff] at hrow
    obtain ⟨p, rfl, rfl⟩ := hrow
    exact ⟨rfl, rfl, p, hprepared, rfl, rfl⟩

theorem sublist_keys {α β κ : Type} (g : α → Option β) (key : α → κ) (key' : β → κ)
    (h : ∀ a b, g a = some b → key' b = key a) (rows : List α) :
    List.Sublist ((rows.filterMap g).map key') (rows.map key) := by
  induction rows with
  | nil => simp
  | cons a rows ih =>
    rw [filterMap_cons]
    cases hg : g a with
    | none => exact ih.cons _
    | some b =>
      dsimp only
      rw [map_cons, map_cons, h a b hg]
      exact ih.cons_cons _

theorem filterMap_eq_of_mapM {α β : Type} {g : α → Option β} {rows : List α} {result : List β}
    (h : rows.mapM g = some result) : result = rows.filterMap g ∧ ∀ a ∈ rows, (g a).isSome = true := by
  induction rows generalizing result with
  | nil =>
    obtain rfl := Option.some.inj h
    simp
  | cons a rows ih =>
    rw [mapM_cons] at h
    obtain ⟨b, hb, h⟩ := Option.bind_eq_some_iff.1 h
    obtain ⟨rest, hrest, h⟩ := Option.bind_eq_some_iff.1 h
    obtain rfl := Option.some.inj h
    obtain ⟨rfl, hall⟩ := ih hrest
    refine ⟨by rw [filterMap_cons, hb], fun a' ha' => ?_⟩
    rcases mem_cons.1 ha' with rfl | ha'
    · rw [hb, isSome_some]
    · exact hall a' ha'

structure TableImported (snapshot : Snapshot) (t : ImportTable) (s s' : ImportState)
    (outcomes : List (PreparedGeneratedRow × Outcome)) : Prop where
  ids : (outcomes.map fun x => x.1.oldId).Nodup
  prepared : ∀ x ∈ outcomes, x.1.source ∈ snapshot t ∧
    prepareGeneratedRow js dest s t x.1.source = .ok (some x.1)
  inserted_id : ∀ x ∈ outcomes, ∀ id, x.2 = .inserted id → id = dest.newId t x.1.oldId
  reused_where : ∀ x ∈ outcomes, ∀ id, x.2 = .reused id → x.1.existingWhere ≠ none
  /-- a row is only taken for one that the import itself has inserted where batches are
  halved and rows have a condition -/
  reused_old : ∀ x ∈ outcomes, ∀ id, x.2 = .reused id →
    (∃ e ∈ s.db t, e.id = id) ∨ strictQuickConfigTable t (sortedSnapshotRows js snapshot t) = false
  db : s'.db = Function.update s.db t (s.db t ++ outcomes.filterMap entryOf)
  maps : s'.maps = Function.update s.maps (.of t) (mapsAfter (s.maps (.of t)) outcomes)
  inserted : s'.inserted = Function.update s.inserted t (s.inserted t ++ outcomes.filterMap insertedOf)
  skipped : ∃ n, s'.skipped = Function.update s.skipped t (s.skipped t + n) ∧
    (n = 0 → ∀ source ∈ snapshot t, ∃ x ∈ outcomes, x.1.source = source ∧ ∃ id, x.2.id? = some id)

variable {db : Database}

theorem existingId_mem {before : Database} (hfresh : dest.Fresh before)
    {ws : List Where} {found : ℕ}
    (hids : ∀ f, ids = some f → dest.preload db t ws = some f ∨ f = fun _ => none)
    (h : existingId dest db t ids row = some found) :
    row.existingWhere ≠ none ∧ ∃ e ∈ db t, e.id = found := by
  unfold existingId at h
  by_cases hempty : (db t).isEmpty = true
  · rw [if_pos hempty] at h
    cases h
  · rw [if_neg hempty] at h
    obtain ⟨existing, hexisting, h⟩ := Option.bind_eq_some_iff.1 h
    refine ⟨by simp [hexisting], ?_⟩
    cases ids with
    | some f =>
      dsimp only at h
      by_cases hentries : importLookupEntries existing = []
      · rw [if_pos hentries] at h
        cases h
      · rw [if_neg hentries, filter_eq_some_iff] at h
        rcases hids f rfl with hload | rfl
        · exact hfresh.preload_mem db t ws f _ _ hload h.1
        · exact absurd h.1 (by simp)
    | none =>
      dsimp only at h
      unfold findExistingId at h
      by_cases hentries : importLookupEntries existing = []
      · rw [if_pos hentries] at h
        cases h
      · rw [if_neg hentries, filter_eq_some_iff] at h
        exact hfresh.select_mem db t _ _ h.1

theorem perm_outcomes (hnodup : prepared.Nodup)
    {next : Database × List (PreparedGeneratedRow × Outcome)}
    (hbatch : Batch dest t db (generatedBatches dest (generated dest db t ids prepared)).flatten next) :
    ((found dest db t ids prepared ++ next.2).map Prod.fst).Perm prepared := by
  have hfound : (found dest db t ids prepared).map Prod.fst
      = prepared.filter fun row => (existingId dest db t ids row).isSome := by
    clear hbatch hnodup
    induction prepared with
    | nil => rfl
    | cons row prepared ih =>
      rw [found, filterMap_cons] at *
      cases hid : existingId dest db t ids row with
      | none => simpa [hid] using ih
      | some id => simpa [hid] using ih
  have hgenerated : generated dest db t ids prepared
      = prepared.filter fun row => !(existingId dest db t ids row).isSome := by
    simp [generated]
  rw [map_append, hfound, hbatch.rows_eq]
  have hperm : (generatedBatches dest (generated dest db t ids prepared)).flatten.Perm
      (generated dest db t ids prepared) := perm_generatedBatches dest (hnodup.filter _)
  refine (List.Perm.append_left _ hperm).trans ?_
  rw [hgenerated]
  exact filter_append_perm _ prepared

theorem perm_sortedSnapshotRows (snapshot : Snapshot) (t : ImportTable) :
    (sortedSnapshotRows js snapshot t).Perm (snapshot t) := perm_insertionSort _ _

theorem found_reused {x : PreparedGeneratedRow × Outcome}
    (h : x ∈ found dest db t ids prepared) :
    ∃ id, x.2 = .reused id ∧ existingId dest db t ids x.1 = some id := by
  obtain ⟨row, _, hrow⟩ := mem_filterMap.1 h
  obtain ⟨id, hid, rfl⟩ := Option.map_eq_some_iff.1 hrow
  exact ⟨id, rfl, hid⟩

section

variable {before : Database} (hfresh : dest.Fresh before) {snapshot : Snapshot}
  (hkeys : ((snapshot t).map fun row => toNumberId js (cell row .id)).Nodup) {s s' : ImportState}

include hfresh hkeys

theorem tableImported_of_batch {lost : ℕ} {next : Database × List (PreparedGeneratedRow × Outcome)}
    (hprepared : prepared = preparedRows js dest s t (sortedSnapshotRows js snapshot t))
    (hlost : lost = 0 → ∀ source ∈ sortedSnapshotRows js snapshot t,
      ((prepareGeneratedRow js dest s t source).toOption.bind id).isSome = true)
    (hids : ∀ f, ids = some f →
      dest.preload s.db t (prepared.filterMap PreparedGeneratedRow.existingWhere) = some f ∨ f = fun _ => none)
    (hbatch : Batch dest t s.db (generatedBatches dest (generated dest s.db t ids prepared)).flatten next)
    (hstrict : strictQuickConfigTable t (sortedSnapshotRows js snapshot t) = true →
      ∀ x ∈ next.2, ∃ id, x.2 = .inserted id)
    (hs' : s' = conclude s t (found dest s.db t ids prepared) next lost) :
    ∃ outcomes, TableImported js dest snapshot t s s' outcomes := by
  have hmem : ∀ row, row ∈ prepared ↔
      ∃ source ∈ snapshot t, prepareGeneratedRow js dest s t source = .ok (some row) := by
    intro row
    rw [hprepared, preparedRows, mem_filterMap]
    simp only [(perm_sortedSnapshotRows js snapshot t).mem_iff, toOption_bind_eq_some]
  have hnodup : (prepared.map fun row => row.oldId).Nodup := by
    have hsub := sublist_keys (fun source => (prepareGeneratedRow js dest s t source).toOption.bind id)
      (fun row => toNumberId js (cell row .id)) (fun row => some row.oldId)
      (fun source row h => ((prepareGeneratedRow_ok js dest (toOption_bind_eq_some.1 h)).2.1).symm)
      (sortedSnapshotRows js snapshot t)
    rw [← preparedRows, ← hprepared] at hsub
    have hsorted := ((perm_sortedSnapshotRows js snapshot t).map fun row =>
      toNumberId js (cell row .id)).nodup_iff.2 hkeys
    refine List.Nodup.of_map some ?_
    rw [List.map_map]
    exact hsorted.sublist hsub
  have hperm := perm_outcomes dest (List.Nodup.of_map _ hnodup) hbatch
  refine ⟨found dest s.db t ids prepared ++ next.2, ?_, ?_, ?_, ?_, ?_, ?_, ?_, ?_, ?_⟩
  · have hmap := (hperm.map fun row => row.oldId).nodup_iff.2 hnodup
    rwa [List.map_map] at hmap
  · intro x hx
    obtain ⟨source, hsource, hok⟩ := (hmem x.1).1 (hperm.mem_iff.1 (mem_map_of_mem hx))
    rw [(prepareGeneratedRow_ok js dest hok).1]
    exact ⟨hsource, hok⟩
  · intro x hx id hid
    rcases mem_append.1 hx with hx | hx
    · obtain ⟨_, hreused, _⟩ := found_reused dest hx
      exact absurd (hid.symm.trans hreused) (by simp)
    · have hpossible := hbatch.possible x hx
      obtain ⟨row, outcome⟩ := x
      obtain rfl := hid
      exact hpossible
  · intro x hx id hid
    rcases mem_append.1 hx with hx | hx
    · obtain ⟨_, _, hexisting⟩ := found_reused dest hx
      exact (existingId_mem dest hfresh hids hexisting).1
    · have hpossible := hbatch.possible x hx
      obtain ⟨row, outcome⟩ := x
      obtain rfl := hid
      exact hpossible
  · intro x hx id hid
    rcases mem_append.1 hx with hx | hx
    · obtain ⟨id', hreused, hexisting⟩ := found_reused dest hx
      obtain rfl := Outcome.reused.inj (hid.symm.trans hreused)
      exact .inl (existingId_mem dest hfresh hids hexisting).2
    · right
      by_contra hnot
      obtain ⟨id', hinserted⟩ := hstrict (by simpa using hnot) x hx
      exact absurd (hid.symm.trans hinserted) (by simp)
  · have hnone : (found dest s.db t ids prepared).filterMap entryOf = [] := by
      rw [filterMap_eq_nil_iff]
      intro x hx
      obtain ⟨row, outcome⟩ := x
      obtain ⟨id, rfl, _⟩ := found_reused dest hx
      rfl
    rw [hs', conclude, recordAll_eq, filterMap_append, hnone, nil_append]
    exact hbatch.db_eq
  · rw [hs', conclude, recordAll_eq, recordAll_eq]
    simp only [Function.update_self, Function.update_idem, mapsAfter, foldl_append]
  · rw [hs', conclude, recordAll_eq, recordAll_eq]
    simp only [Function.update_self, Function.update_idem, filterMap_append, append_assoc]
  · refine ⟨(found dest s.db t ids prepared).countP (fun x => x.2.isSkipped) + lost +
      next.2.countP (fun x => x.2.isSkipped), ?_, ?_⟩
    · rw [hs', conclude, recordAll_eq, recordAll_eq]
      simp only [Function.update_self, Function.update_idem, Nat.add_assoc]
    · intro hzero source hsource
      have hsome := hlost (by omega) source ((perm_sortedSnapshotRows js snapshot t).mem_iff.2 hsource)
      obtain ⟨row, hrow⟩ := Option.isSome_iff_exists.1 hsome
      have hok := toOption_bind_eq_some.1 hrow
      obtain ⟨x, hx, hxrow⟩ := mem_map.1 (hperm.mem_iff.2 ((hmem row).2 ⟨source, hsource, hok⟩))
      refine ⟨x, hx, by rw [hxrow, (prepareGeneratedRow_ok js dest hok).1], ?_⟩
      have hnotskipped : ¬ x.2.isSkipped = true := by
        rcases mem_append.1 hx with hx | hx
        · exact countP_eq_zero.1 (Nat.eq_zero_of_add_eq_zero_right (Nat.eq_zero_of_add_eq_zero_right hzero)) x hx
        · exact countP_eq_zero.1 (Nat.eq_zero_of_add_eq_zero_left hzero) x hx
      cases hx2 : x.2 with
      | inserted id | reused id => exact ⟨id, rfl⟩
      | skipped => exact absurd (by rw [hx2]; rfl) hnotskipped

theorem importTable_spec (h : importTable js dest snapshot s t = some s') :
    ∃ outcomes, TableImported js dest snapshot t s s' outcomes := by
  unfold importTable at h
  dsimp only at h
  by_cases hstrict : strictQuickConfigTable t (sortedSnapshotRows js snapshot t) = true
  · rw [if_pos hstrict] at h
    unfold importStrict at h
    obtain ⟨prepared, hprepared, h⟩ := Option.bind_eq_some_iff.1 h
    obtain ⟨ids, hids, h⟩ := Option.bind_eq_some_iff.1 h
    obtain ⟨next, hnext, h⟩ := Option.bind_eq_some_iff.1 h
    obtain ⟨hbatch, hinserted⟩ := insertGeneratedRowsStrict_spec hnext
    obtain ⟨hfilter, hall⟩ := filterMap_eq_of_mapM hprepared
    have hlookup : ∀ f, some ids = some f →
        dest.preload s.db t (prepared.filterMap PreparedGeneratedRow.existingWhere) = some f ∨ f = fun _ => none := by
      intro f hf
      obtain rfl := Option.some.inj hf
      unfold preloadStrict at hids
      by_cases hempty : (s.db t).isEmpty = true
      · rw [if_pos hempty] at hids
        exact .inr (Option.some.inj hids).symm
      · rw [if_neg hempty] at hids
        exact .inl hids
    exact tableImported_of_batch js dest hfresh hkeys hfilter (fun _ => hall) hlookup hbatch
      (fun _ => hinserted) (Option.some.inj h).symm
  · rw [if_neg hstrict, Option.some.injEq] at h
    refine tableImported_of_batch js dest hfresh hkeys rfl (fun hlost => ?_) (fun f hf => ?_)
      (insertGeneratedRows_spec dest t s.db _) (fun hpos => absurd hpos hstrict) h.symm
    · -- nothing is lost only if every row is prepared
      have hle := length_filterMap_le (fun source => (prepareGeneratedRow js dest s t source).toOption.bind id)
        (sortedSnapshotRows js snapshot t)
      have hlength : (preparedRows js dest s t (sortedSnapshotRows js snapshot t)).length
          = (sortedSnapshotRows js snapshot t).length := by
        rw [preparedRows] at hlost ⊢
        omega
      rw [preparedRows, length_filterMap_eq_countP, countP_eq_length] at hlength
      exact hlength
    · unfold preloadBestEffort at hf
      split at hf
      · exact .inl hf
      · exact .inr (Option.some.inj hf).symm

end

end

/-! ## All tables -/

section

variable (js : Conversions) (dest : Destination)

/-- A snapshot as a database makes it: ids are different, and a reference refers to a row. -/
structure Closed (snapshot : Snapshot) : Prop where
  ids : ∀ t, ((snapshot t).map fun row => toNumberId js (cell row .id)).Nodup
  references : ∀ t, ∀ row ∈ snapshot t, ∀ ref ∈ references t, ∀ old,
    toNumberId js (cell row ref.1) = some old →
      ∃ row' ∈ snapshot ref.2, toNumberId js (cell row' .id) = some old

structure Begins (s : ImportState) : Prop where
  maps : ∀ t, s.maps (.of t) = ∅
  inserted : ∀ t, s.inserted t = []
  skipped : ∀ t, s.skipped t = 0

/-- The stored row of an inserted one, before the last pass: what was prepared from the
row of the snapshot, with the maps of the tables before. -/
def Stored (s : ImportState) (t : ImportTable) (source : Record) (id : ℕ) : Prop :=
  ∃ (maps : ImportMaps) (find : Where → Option ℕ) (prepared : PreparedImportRow),
    (∀ t', rank t' < rank t → maps (.of t') = s.maps (.of t')) ∧
    prepareImportRow js find t source maps = .ok (some prepared) ∧
    (∃ e ∈ s.db t, e.id = id) ∧
    ∀ e ∈ s.db t, e.id = id → e.row = normalizeImportPayload js t prepared.row

structure Done (snapshot : Snapshot) (before : Database) (s : ImportState) (t : ImportTable) : Prop where
  inserted : ∀ p ∈ s.inserted t, p.1 ∈ snapshot t ∧
    (∃ old, toNumberId js (cell p.1 .id) = some old ∧ p.2 = dest.newId t old ∧
      (s.maps (.of t)).get old = some p.2) ∧ Stored js s t p.1 p.2
  complete : s.skipped t = 0 → ∀ source ∈ snapshot t, ∃ old id,
    toNumberId js (cell source .id) = some old ∧ (s.maps (.of t)).get old = some id
  assigned : t ≠ .users → t ≠ .hosts → ∀ old id, (s.maps (.of t)).get old = some id →
    id = dest.newId t old ∨ (t = .forward_rules ∧ ∃ e ∈ before t, e.id = id)

/-- The tables `done` are imported, the others are as they were. -/
structure Progress (snapshot : Snapshot) (start : ImportState) (done : List ImportTable)
    (s : ImportState) : Prop where
  untouched : ∀ t, t ∉ done → s.db t = start.db t ∧ s.maps (.of t) = ∅ ∧ s.inserted t = [] ∧ s.skipped t = 0
  done : ∀ t ∈ done, Done js dest snapshot start.db s t

variable {t : ImportTable} {snapshot : Snapshot} {s s' : ImportState} {maps : ImportMaps}

theorem existingWhere_of_prepared {find : Where → Option ℕ} {source : Record}
    {prepared : PreparedImportRow}
    (h : prepareImportRow js find t source maps = .ok (some prepared)) (hwhere : prepared.existingWhere ≠ none) :
    t = .users ∨ t = .hosts ∨
      (t = .forward_rules ∧ cell source .xrayQuickConfigId ≠ .null ∧ cell source .xrayQuickConfigId ≠ .undefined) := by
  cases t with
  | users => exact .inl rfl
  | hosts => exact .inr (.inl rfl)
  | tunnels =>
    simp only [prepareImportRow, bind_eq_ok, pure_eq_ok] at h
    obtain ⟨_, _, _, _, _, _, heq⟩ := h
    obtain rfl := Option.some.inj heq
    exact absurd rfl hwhere
  | forward_groups =>
    simp only [prepareImportRow, bind_eq_ok, pure_eq_ok] at h
    obtain ⟨_, _, heq⟩ := h
    obtain rfl := Option.some.inj heq
    exact absurd rfl hwhere
  | forward_group_members =>
    simp only [prepareImportRow, bind_eq_ok, pure_eq_ok] at h
    obtain ⟨_, _, _, _, _, _, heq⟩ := h
    obtain rfl := Option.some.inj heq
    exact absurd rfl hwhere
  | forward_rules =>
    simp only [prepareImportRow, bind_eq_ok, pure_eq_ok] at h
    obtain ⟨_, _, _, _, _, _, _, _, _, _, _, _, config, hconfig, heq⟩ := h
    obtain rfl := Option.some.inj heq
    refine .inr (.inr ⟨rfl, ?_⟩)
    have hsome : config.isSome = true := by
      by_contra hnone
      simp [hnone] at hwhere
    have habsent : ¬ isAbsent (cell source .xrayQuickConfigId) := by
      intro habsent
      rw [mapOptionalId, if_pos habsent] at hconfig
      obtain rfl := Except.ok.inj hconfig
      cases hsome
    exact ⟨fun hnull => habsent (.inl hnull), fun hundefined => habsent (.inr (.inl hundefined))⟩

variable {outcomes : List (PreparedGeneratedRow × Outcome)}

theorem TableImported.done {start s s' : ImportState}
    (hfresh : dest.Fresh start.db)
    (h : TableImported js dest snapshot t s s' outcomes) (hdb : s.db t = start.db t)
    (hmaps : s.maps (.of t) = ∅) (hinserted : s.inserted t = []) (hskipped : s.skipped t = 0) :
    Done js dest snapshot start.db s' t := by
  have hget : ∀ old id, (s'.maps (.of t)).get old = some id ↔
      ∃ x ∈ outcomes, x.1.oldId = old ∧ x.2.id? = some id := by
    intro old id
    rw [h.maps, Function.update_self, hmaps]
    exact get_mapsAfter h.ids old id
  have hentries : s'.db t = start.db t ++ outcomes.filterMap entryOf := by
    rw [h.db, Function.update_self, hdb]
  refine ⟨?_, ?_, ?_⟩
  · intro p hp
    rw [h.inserted, Function.update_self, hinserted, nil_append, mem_filterMap] at hp
    obtain ⟨⟨row, outcome⟩, hx, hrow⟩ := hp
    cases outcome with
    | reused id => simp at hrow
    | skipped => simp at hrow
    | inserted id =>
      rw [insertedOf_inserted, Option.some.injEq] at hrow
      subst hrow
      obtain ⟨hsource, hok⟩ := h.prepared _ hx
      obtain ⟨-, hold, prepared, hprepared, hpayload, -⟩ := prepareGeneratedRow_ok js dest hok
      have hid := h.inserted_id _ hx id rfl
      refine ⟨hsource, ⟨row.oldId, hold, hid, (hget _ _).2 ⟨_, hx, rfl, rfl⟩⟩, s.maps, _, prepared, ?_, hprepared,
        ⟨⟨id, row.payload⟩, ?_, rfl⟩, ?_⟩
      · intro t' ht'
        have hne : (MapTable.of t') ≠ .of t := by
          intro heq
          obtain rfl := MapTable.of.inj heq
          omega
        rw [h.maps, Function.update_of_ne hne]
      · rw [hentries]
        exact mem_append_right _ (mem_filterMap.2 ⟨_, hx, rfl⟩)
      · intro e he heid
        rw [hentries] at he
        rcases mem_append.1 he with he | he
        · exact absurd (heid.trans hid) (hfresh.newId_new t _ e he)
        · obtain ⟨⟨row', outcome'⟩, hx', hentry⟩ := mem_filterMap.1 he
          cases outcome' with
          | reused id' => cases hentry
          | skipped => cases hentry
          | inserted id' =>
            obtain rfl := Option.some.inj hentry
            have hid' := h.inserted_id _ hx' id' rfl
            have hsame := inj_on_of_nodup_map h.ids hx hx'
              (hfresh.newId_inj t _ _ (hid.symm.trans (heid.symm.trans hid')))
            rw [← hpayload]
            exact congrArg (fun x : PreparedGeneratedRow × Outcome => x.1.payload) hsame.symm
  · intro hzero source hsource
    obtain ⟨n, hn, hall⟩ := h.skipped
    rw [hn, Function.update_self, hskipped] at hzero
    obtain ⟨x, hx, rfl, id, hid⟩ := hall (by omega) source hsource
    obtain ⟨-, hold, -⟩ := prepareGeneratedRow_ok js dest (h.prepared x hx).2
    exact ⟨x.1.oldId, id, hold, (hget _ _).2 ⟨x, hx, rfl, hid⟩⟩
  · intro husers hhosts old id hold
    obtain ⟨⟨row, outcome⟩, hx, rfl, hid⟩ := (hget old id).1 hold
    cases outcome with
    | skipped => cases hid
    | inserted id' =>
      obtain rfl := Option.some.inj hid
      exact .inl (h.inserted_id _ hx _ rfl)
    | reused id' =>
      obtain rfl := Option.some.inj hid
      obtain ⟨-, -, prepared, hprepared, -, hwhere⟩ := prepareGeneratedRow_ok js dest (h.prepared _ hx).2
      have hlooked := existingWhere_of_prepared js hprepared (hwhere ▸ h.reused_where _ hx _ rfl)
      rcases hlooked with ht | ht | ⟨ht, hnull, hundefined⟩
      · exact absurd ht husers
      · exact absurd ht hhosts
      · refine .inr ⟨ht, ?_⟩
        rcases h.reused_old _ hx _ rfl with hold | hloose
        · rwa [hdb] at hold
        · exfalso
          have hmem := (perm_sortedSnapshotRows js snapshot t).mem_iff.2 (h.prepared _ hx).1
          have hstrict : strictQuickConfigTable t (sortedSnapshotRows js snapshot t) = true := by
            rw [strictQuickConfigTable, Bool.and_eq_true, List.any_eq_true]
            exact ⟨decide_eq_true ht, _, hmem, decide_eq_true ⟨hnull, hundefined⟩⟩
          rw [hstrict] at hloose
          cases hloose

theorem TableImported.others {t t' : ImportTable}
    (h : TableImported js dest snapshot t s s' outcomes)
    (hne : t' ≠ t) :
    s'.db t' = s.db t' ∧ s'.maps (.of t') = s.maps (.of t') ∧ s'.inserted t' = s.inserted t' ∧
      s'.skipped t' = s.skipped t' := by
  obtain ⟨n, hn, -⟩ := h.skipped
  have hmap : MapTable.of t' ≠ .of t := fun heq => hne (MapTable.of.inj heq)
  refine ⟨?_, ?_, ?_, ?_⟩
  · rw [h.db, Function.update_of_ne hne]
  · rw [h.maps, Function.update_of_ne hmap]
  · rw [h.inserted, Function.update_of_ne hne]
  · rw [hn, Function.update_of_ne hne]

variable {before : Database}

theorem Done.congr (h : Done js dest snapshot before s t) (hdb : s'.db t = s.db t)
    (hmaps : ∀ t', rank t' ≤ rank t → s'.maps (.of t') = s.maps (.of t'))
    (hinserted : s'.inserted t = s.inserted t) (hskipped : s'.skipped t = s.skipped t) :
    Done js dest snapshot before s' t := by
  refine ⟨?_, ?_, ?_⟩
  · intro p hp
    obtain ⟨hsource, hid, maps, find, prepared, hbefore, hprepared, hstored, hrow⟩ :=
      h.inserted p (hinserted ▸ hp)
    refine ⟨hsource, ?_, maps, find, prepared, ?_, hprepared, ?_, ?_⟩
    · rwa [hmaps t le_rfl]
    · intro t' ht'
      rw [hmaps t' ht'.le]
      exact hbefore t' ht'
    · rwa [hdb]
    · rwa [hdb]
  · rw [hskipped, hmaps t le_rfl]
    exact h.complete
  · rw [hmaps t le_rfl]
    exact h.assigned

theorem Progress.step {start s s' : ImportState} {done : List ImportTable}
    (hfresh : dest.Fresh start.db) (hclosed : Closed js snapshot)
    (h : Progress js dest snapshot start done s) (horder : ∀ t' ∈ done, rank t' < rank t)
    (himport : importTable js dest snapshot s t = some s') :
    Progress js dest snapshot start (done ++ [t]) s' := by
  obtain ⟨outcomes, himported⟩ := importTable_spec js dest hfresh (hclosed.ids t) himport
  have hnew : t ∉ done := fun hmem => (horder t hmem).ne rfl
  refine ⟨?_, ?_⟩
  · intro t' ht'
    rw [mem_append, mem_singleton, not_or] at ht'
    obtain ⟨hdb, hmaps, hinserted, hskipped⟩ := himported.others js dest ht'.2
    rw [hdb, hmaps, hinserted, hskipped]
    exact h.untouched t' ht'.1
  · intro t' ht'
    rcases mem_append.1 ht' with ht' | ht'
    · -- the tables before keep what they have: their rank is lower
      have hne : ∀ t'', rank t'' ≤ rank t' → t'' ≠ t := by
        intro t'' hle heq
        rw [heq] at hle
        exact absurd (horder t' ht') (Nat.not_lt.2 hle)
      have hothers := himported.others js dest (hne t' le_rfl)
      exact (h.done t' ht').congr js dest hothers.1
        (fun t'' hle => (himported.others js dest (hne t'' hle)).2.1) hothers.2.2.1 hothers.2.2.2
    · obtain rfl := mem_singleton.1 ht'
      obtain ⟨hdb, hmaps, hinserted, hskipped⟩ := h.untouched t' hnew
      exact himported.done js dest hfresh hdb hmaps hinserted hskipped

theorem progress_foldlM {start : ImportState} (hfresh : dest.Fresh start.db)
    (hclosed : Closed js snapshot) {rest : List ImportTable} :
    ∀ {done : List ImportTable} {s s' : ImportState}, (done ++ rest).Pairwise (fun t t' => rank t < rank t') →
      Progress js dest snapshot start done s → rest.foldlM (importTable js dest snapshot) s = some s' →
      Progress js dest snapshot start (done ++ rest) s' := by
  induction rest with
  | nil =>
    intro done s s' _ h heq
    obtain rfl := Option.some.inj heq
    rwa [append_nil]
  | cons t rest ih =>
    intro done s s' horder h heq
    rw [foldlM_cons, bind_eq_bind, bind_eq_some_iff] at heq
    obtain ⟨next, himport, hrest⟩ := heq
    have hbefore : ∀ t' ∈ done, rank t' < rank t := fun t' ht' =>
      (pairwise_append.1 horder).2.2 t' ht' t mem_cons_self
    rw [append_cons] at horder ⊢
    exact ih horder (h.step js dest hfresh hclosed hbefore himport) hrest

theorem done_of_import (hfresh : dest.Fresh s.db) (hclosed : Closed js snapshot) (hbegins : Begins s)
    (h : importTableOrder.foldlM (importTable js dest snapshot) s = some s') (t : ImportTable) :
    Done js dest snapshot s.db s' t := by
  have hstart : Progress js dest snapshot s [] s :=
    ⟨fun t _ => ⟨rfl, hbegins.maps t, hbegins.inserted t, hbegins.skipped t⟩, by simp⟩
  have hprogress := progress_foldlM js dest hfresh hclosed (by decide) hstart h
  exact hprogress.done t (by cases t <;> decide)

/-! ## The references that wait -/

theorem get_deduplicated (updates : List (ℕ × ℕ)) (id : ℕ) :
    (∀ value, (deduplicated updates).get id = some value → (id, value) ∈ updates) ∧
    ((deduplicated updates).get id = none → ∀ value, (id, value) ∉ updates) := by
  unfold deduplicated
  induction updates using List.reverseRecOn with
  | nil => simp
  | append_singleton updates last ih =>
    obtain ⟨key, last⟩ := last
    rw [foldl_append, foldl_cons, foldl_nil, JsMap.get_set]
    by_cases hid : id = key
    · rw [if_pos hid]
      simp [hid]
    · rw [if_neg hid]
      simpa [hid] using ih

variable {value : JsValue}

theorem mapId_eq_some {table : MapTable} {id : ℕ} :
    mapId js maps table value = some id ↔ ∃ old, toNumberId js value = some old ∧ (maps table).get old = some id := by
  unfold mapId
  cases toNumberId js value <;> simp

theorem mapOptionalId_pos {table : MapTable}
    (h : mapOptionalId js maps table value = .ok (some 0)) : False := by
  unfold mapOptionalId at h
  by_cases habsent : isAbsent value
  · rw [if_pos habsent] at h
    cases h
  · rw [if_neg habsent, map_eq_ok] at h
    obtain ⟨mapped, hmapped, hzero⟩ := h
    unfold mapRequiredId at hmapped
    split at hmapped
    · obtain rfl := Except.ok.inj hmapped
      cases hzero
    · cases hmapped

theorem deferredUpdates_spec (snapshot : Snapshot) (maps : ImportMaps) (t : ImportTable) (c : Column)
    (target : ImportTable) :
    (∀ id value, (id, value) ∈ (deferredUpdates js snapshot maps t c target).1 ↔
      ∃ row ∈ snapshot t, mapId js maps (.of t) (cell row .id) = some id ∧ id ≠ 0 ∧
        mapOptionalId js maps (.of target) (cell row c) = .ok (some value)) ∧
    ((deferredUpdates js snapshot maps t c target).2 = false → ∀ row ∈ snapshot t, ∀ id,
      mapId js maps (.of t) (cell row .id) = some id → id ≠ 0 →
        ∃ value, mapOptionalId js maps (.of target) (cell row c) = .ok value) := by
  have hmem : ∀ row, row ∈ snapshot t ↔ row ∈ sortedSnapshotRows js snapshot t := fun row =>
    (perm_sortedSnapshotRows js snapshot t).mem_iff.symm
  simp only [hmem]
  unfold deferredUpdates
  induction sortedSnapshotRows js snapshot t using List.reverseRecOn with
  | nil => simp
  | append_singleton rows last ih =>
    rw [foldl_append, foldl_cons, foldl_nil]
    simp only [mem_append, mem_singleton, or_and_right, exists_or, exists_eq_left, or_imp, forall_and,
      forall_eq, ← ih.1]
    generalize hid : mapId js maps (.of t) (cell last .id) = id at *
    generalize hvalue : mapOptionalId js maps (.of target) (cell last c) = value at *
    rcases id with _ | _ | next
    · simpa using ih.2
    · refine ⟨fun i v => ⟨.inl, ?_⟩, ih.2, fun _ => ?_⟩
      · rintro (hmem | ⟨hi, hne, -⟩)
        · exact hmem
        · exact absurd (Option.some.inj hi).symm hne
      · intro i hi hne
        exact absurd (Option.some.inj hi).symm hne
    · rcases value with e | _ | _ | new
      · simp
      · simpa using ih.2
      · exact (mapOptionalId_pos js hvalue).elim
      · refine ⟨fun i v => ?_, ih.2, fun _ i hi hne => ⟨_, rfl⟩⟩
        dsimp only
        rw [mem_append, mem_singleton, Prod.mk.injEq]
        refine or_congr_right ⟨?_, ?_⟩
        · rintro ⟨rfl, rfl⟩
          exact ⟨rfl, Nat.succ_ne_zero next, rfl⟩
        · rintro ⟨hi, -, hv⟩
          exact ⟨(Option.some.inj hi).symm, (Option.some.inj (Except.ok.inj hv)).symm⟩

theorem fixDeferredForwardGroupReferences_spec (h : fixDeferredForwardGroupReferences js snapshot s = some s') :
    s'.maps = s.maps ∧ s'.inserted = s.inserted ∧ s'.skipped = s.skipped ∧
    (∀ t, deferredColumn t = none → s'.db t = s.db t) ∧
    ∀ t c t', deferredColumn t = some c → (c, t') ∈ references t →
      (deferredUpdates js snapshot s.maps t c t').2 = false ∧
      s'.db t = updateMappedColumn s.db t c (deferredUpdates js snapshot s.maps t c t').1 t := by
  unfold fixDeferredForwardGroupReferences at h
  dsimp only at h
  split at h
  · cases h
  · rename_i herrors
    obtain rfl := Option.some.inj h
    simp only [Bool.or_eq_true, not_or, Bool.not_eq_true] at herrors
    refine ⟨rfl, rfl, rfl, ?_, ?_⟩
    · intro t ht
      cases t <;> simp [deferredColumn, updateMappedColumn] at ht ⊢
    · intro t c t' hc href
      cases t <;> simp only [deferredColumn, Option.some.injEq, reduceCtorEq] at hc
      all_goals
        subst hc
        simp only [references, mem_cons, Prod.mk.injEq, reduceCtorEq, false_and, true_and, false_or, or_false,
          not_mem_nil] at href
        subst href
      · exact ⟨herrors.1.1, by simp [updateMappedColumn]⟩
      · exact ⟨herrors.1.2, by simp [updateMappedColumn]⟩
      · exact ⟨herrors.2, by simp [updateMappedColumn]⟩

theorem get_deferredUpdates {s : ImportState} {t t' : ImportTable}
    {c : Column} (hfresh : dest.Fresh before) (hclosed : Closed js snapshot)
    (hdone : Done js dest snapshot before s t) (hc : deferredColumn t = some c)
    (hnone : (deferredUpdates js snapshot s.maps t c t').2 = false) {p : Record × ℕ} (hp : p ∈ s.inserted t) :
    mapOptionalId js s.maps (.of t') (cell p.1 c)
      = .ok ((deduplicated (deferredUpdates js snapshot s.maps t c t').1).get p.2) := by
  obtain ⟨hsource, ⟨old, hold, hid, hget⟩, -⟩ := hdone.inserted p hp
  obtain ⟨hmem, herrors⟩ := deferredUpdates_spec js snapshot s.maps t c t'
  obtain ⟨hread, hmiss⟩ := get_deduplicated (deferredUpdates js snapshot s.maps t c t').1 p.2
  have hmapped : mapId js s.maps (.of t) (cell p.1 .id) = some p.2 := (mapId_eq_some js).2 ⟨old, hold, hget⟩
  have hpos : p.2 ≠ 0 := hid ▸ hfresh.newId_ne_zero t old
  obtain ⟨value, hvalue⟩ := herrors hnone p.1 hsource p.2 hmapped hpos
  -- a row that became the row `p.2` is the row of `p`
  have hown : ∀ row ∈ snapshot t, mapId js s.maps (.of t) (cell row .id) = some p.2 → row = p.1 := by
    intro row hrow hrowid
    obtain ⟨old', hold', hget'⟩ := (mapId_eq_some js).1 hrowid
    have husers : t ≠ .users := by
      rintro rfl
      cases hc
    have hhosts : t ≠ .hosts := by
      rintro rfl
      cases hc
    rcases hdone.assigned husers hhosts old' p.2 hget' with hnew | ⟨-, e, he, heid⟩
    · have hsame := hfresh.newId_inj t old' old (hnew.symm.trans hid)
      exact inj_on_of_nodup_map (hclosed.ids t) hrow hsource (by rw [hold', hold, hsame])
    · exact absurd (heid.trans hid) (hfresh.newId_new t old e he)
  rw [hvalue]
  cases hlookup : (deduplicated (deferredUpdates js snapshot s.maps t c t').1).get p.2 with
  | some value' =>
    obtain ⟨row, hrow, hrowid, -, hrowvalue⟩ := (hmem p.2 value').1 (hread value' hlookup)
    rw [hown row hrow hrowid] at hrowvalue
    rw [← hvalue, hrowvalue]
  | none =>
    cases value with
    | none => rfl
    | some value => exact absurd ((hmem p.2 value).2 ⟨p.1, hsource, hmapped, hpos, hvalue⟩) (hmiss hlookup value)

/-! ## References -/

/-- `new` is the reference of an inserted row, `old` the one in the snapshot: a reference
to a row points to what the import made of that row, no reference stays none, and
nothing points to a row that the import does not know. -/
structure PointsTo (ids : JsMap ℕ ℕ) (old new : JsValue) : Prop where
  null : old = .null → new = .null
  translated : ∀ o, toNumberId js old = some o → ∃ id, ids.get o = some id ∧ toNumberId js new = some id
  inside : ∀ id, toNumberId js new = some id → ∃ o, ids.get o = some id

theorem pointsTo_of_translated {ids : JsMap ℕ ℕ} {old new : JsValue} (h : Translated js ids old new)
    (hknown : ∀ o, toNumberId js old = some o → ∃ id, ids.get o = some id) : PointsTo js ids old new := by
  refine ⟨h.2, ?_, ?_⟩
  · intro o ho
    obtain ⟨id, hid⟩ := hknown o ho
    refine ⟨id, hid, ?_⟩
    rw [h.1, ho, bind_some, hid]
  · intro id hid
    rw [h.1] at hid
    obtain ⟨o, -, ho⟩ := Option.bind_eq_some_iff.1 hid
    exact ⟨o, ho⟩

theorem pointsTo_self_iff {ids : JsMap ℕ ℕ} :
    PointsTo js ids value value ↔ ∀ o, toNumberId js value = some o → ids.get o = some o := by
  constructor
  · intro h o ho
    obtain ⟨id, hget, hid⟩ := h.translated o ho
    obtain rfl := Option.some.inj (ho.symm.trans hid)
    exact hget
  · intro h
    exact ⟨id, fun o ho => ⟨o, h o ho, ho⟩, fun id hid => ⟨id, h id hid⟩⟩

theorem reference_of_inserted (hfresh : dest.Fresh before) (hclosed : Closed js snapshot)
    (hdone : Done js dest snapshot before s t)
    (hfix : fixDeferredForwardGroupReferences js snapshot s = some s') {p : Record × ℕ} (hp : p ∈ s.inserted t) :
    (∃ e ∈ s'.db t, e.id = p.2) ∧ ∀ e ∈ s'.db t, e.id = p.2 → ∀ ref ∈ references t,
      (ref.1 ∈ keptColumns t ∧ ref.2 = .forward_groups ∧ cell e.row ref.1 = cell p.1 ref.1) ∨
      (ref.1 ∉ keptColumns t ∧ Translated js (s'.maps (.of ref.2)) (cell p.1 ref.1) (cell e.row ref.1)) := by
  obtain ⟨hmaps, -, -, hsame, hpatched⟩ := fixDeferredForwardGroupReferences_spec js hfix
  obtain ⟨-, -, maps, find, prepared, hbefore, hprepared, hstored, hrow⟩ := hdone.inserted p hp
  -- a cell of the stored row before the last pass
  have hcell : ∀ e ∈ s.db t, e.id = p.2 → ∀ ref ∈ references t, cell e.row ref.1 = cell prepared.row ref.1 := by
    intro e he heid ref href
    rw [hrow e he heid, cell_normalizeImportPayload js (reference_not_bool href)]
  have hbase : ∀ ref ∈ references t, deferredColumn t ≠ some ref.1 → ∀ e ∈ s.db t, e.id = p.2 →
      (ref.1 ∈ keptColumns t ∧ ref.2 = .forward_groups ∧ cell e.row ref.1 = cell p.1 ref.1) ∨
      (ref.1 ∉ keptColumns t ∧ Translated js (s'.maps (.of ref.2)) (cell p.1 ref.1) (cell e.row ref.1)) := by
    intro ref href hdeferred e he heid
    rw [hcell e he heid ref href, hmaps]
    rcases prepare_reference js hprepared href with hkept | ⟨hwait, -⟩ | ⟨hnot, -, hrank, htranslated⟩
    · exact .inl hkept
    · exact absurd hwait hdeferred
    · rw [hbefore ref.2 hrank] at htranslated
      exact .inr ⟨hnot, htranslated⟩
  cases hc : deferredColumn t with
  | none =>
    rw [hsame t hc]
    exact ⟨hstored, fun e he heid ref href => hbase ref href (by simp [hc]) e he heid⟩
  | some c =>
    obtain ⟨t', href', hunkept, hunique⟩ := deferredColumn_reference hc
    obtain ⟨hnone, hdb⟩ := hpatched t c t' hc href'
    have hown := get_deferredUpdates js dest hfresh hclosed hdone hc hnone hp
    rw [hdb, updateMappedColumn, Function.update_self]
    constructor
    · obtain ⟨e, he, heid⟩ := hstored
      refine ⟨_, mem_map_of_mem he, ?_⟩
      split
      · exact heid
      · exact heid
    · intro e' he' heid' ref href
      obtain ⟨e, he, rfl⟩ := mem_map.1 he'
      have heid : e.id = p.2 := by
        split at heid'
        · exact heid'
        · exact heid'
      rw [heid]
      by_cases hcolumn : ref.1 = c
      · right
        have htarget := hunique ref href hcolumn
        have hnull : cell e.row c = .null := by
          rw [hcell e he heid (c, t') href']
          rcases prepare_reference js hprepared href' with ⟨hkept, -⟩ | ⟨-, hnull⟩ | ⟨-, hdeferred, -⟩
          · exact absurd hkept hunkept
          · exact hnull
          · exact absurd hc hdeferred
        refine ⟨hcolumn ▸ hunkept, ?_⟩
        rw [hcolumn, htarget, hmaps]
        have htranslated := translated_of_optional js hown
        cases hlookup : (deduplicated (deferredUpdates js snapshot s.maps t c t').1).get p.2 with
        | some value =>
          rw [hlookup] at htranslated
          dsimp only
          rw [cell_set, if_pos rfl]
          exact htranslated
        | none =>
          rw [hlookup] at htranslated
          dsimp only
          rw [hnull]
          exact htranslated
      · have hkeep := hbase ref href (by simpa [hc, eq_comm] using hcolumn) e he heid
        split
        · dsimp only
          rwa [cell_set, if_neg hcolumn]
        · exact hkeep

/-- **References survive the import exactly as far as forward groups keep their ids**
in the columns that the import forgets. -/
theorem references_preserved_iff {snapshot : Snapshot} {s s' : ImportState} (hfresh : dest.Fresh s.db)
    (hclosed : Closed js snapshot) (hbegins : Begins s)
    (h : importMigrationSnapshot js dest snapshot s = some s') (hskipped : ∀ t, s'.skipped t = 0)
    {t : ImportTable} {p : Record × ℕ} (hp : p ∈ s'.inserted t) :
    ((∃ e ∈ s'.db t, e.id = p.2) ∧ ∀ e ∈ s'.db t, e.id = p.2 → ∀ ref ∈ references t,
        PointsTo js (s'.maps (.of ref.2)) (cell p.1 ref.1) (cell e.row ref.1)) ↔
      ∀ c ∈ keptColumns t, ∀ old, toNumberId js (cell p.1 c) = some old → dest.newId .forward_groups old = old := by
  obtain ⟨imported, htables, hfix⟩ := Option.bind_eq_some_iff.1 h
  have hdone := done_of_import js dest hfresh hclosed hbegins htables
  obtain ⟨hmaps, hinserted, hskip, -, -⟩ := fixDeferredForwardGroupReferences_spec js hfix
  rw [hinserted] at hp
  rw [hskip] at hskipped
  obtain ⟨hstored, hentries⟩ := reference_of_inserted js dest hfresh hclosed (hdone t) hfix hp
  have hsource := ((hdone t).inserted p hp).1
  -- nothing is skipped, so the row that a reference refers to is imported
  have hknown : ∀ ref ∈ references t, ∀ o, toNumberId js (cell p.1 ref.1) = some o →
      ∃ id, (s'.maps (.of ref.2)).get o = some id := by
    intro ref href o ho
    obtain ⟨row', hrow', hid'⟩ := hclosed.references t p.1 hsource ref href o ho
    obtain ⟨old, id, hold, hget⟩ := (hdone ref.2).complete (hskipped ref.2) row' hrow'
    obtain rfl := Option.some.inj (hid'.symm.trans hold)
    rw [hmaps]
    exact ⟨id, hget⟩
  have hgroups : ∀ o id, (s'.maps (.of .forward_groups)).get o = some id → id = dest.newId .forward_groups o := by
    intro o id hget
    rw [hmaps] at hget
    rcases (hdone .forward_groups).assigned (by decide) (by decide) o id hget with hnew | ⟨hrules, -⟩
    · exact hnew
    · cases hrules
  have hkept : ∀ c ∈ keptColumns t, (c, ImportTable.forward_groups) ∈ references t := by
    cases t <;> decide
  constructor
  · rintro ⟨-, hpoints⟩ c hc old hold
    obtain ⟨e, he, heid⟩ := hstored
    have hself := hpoints e he heid (c, .forward_groups) (hkept c hc)
    rcases hentries e he heid (c, .forward_groups) (hkept c hc) with ⟨-, -, hcell⟩ | ⟨hnot, -⟩
    · rw [hcell, pointsTo_self_iff] at hself
      exact (hgroups old old (hself old hold)).symm
    · exact absurd hc hnot
  · intro hsame
    refine ⟨hstored, fun e he heid ref href => ?_⟩
    rcases hentries e he heid ref href with ⟨hc, hgroup, hcell⟩ | ⟨-, htranslated⟩
    · rw [hcell, pointsTo_self_iff]
      intro o ho
      obtain ⟨id, hget⟩ := hknown ref href o ho
      rw [hgroup] at hget ⊢
      rwa [hgroups o id hget, hsame ref.1 hc o ho] at hget
    · exact pointsTo_of_translated js htranslated (hknown ref href)

end

/-! ## A tunnel that enters at a group -/

def recordOf (columns : List (Column × JsValue)) : Record :=
  columns.foldl (fun row column => row.set column.1 column.2) ∅

/-- A panel with a row in every table; the tunnel enters at `entryGroup`. -/
def panelSnapshot (entryGroup : JsValue) : Snapshot
  | .users => [recordOf [(.id, .number 1), (.username, .text "alice")]]
  | .hosts => [recordOf [(.id, .number 1), (.userId, .number 1), (.agentToken, .text "token")]]
  | .tunnels => [recordOf [(.id, .number 1), (.entryHostId, .number 1), (.exitHostId, .number 1),
      (.userId, .number 1), (.entryGroupId, entryGroup)]]
  | .forward_groups => [recordOf [(.id, .number 1), (.userId, .number 1), (.activeMemberId, .number 1)]]
  | .forward_group_members => [recordOf [(.id, .number 1), (.groupId, .number 1), (.hostId, .number 1),
      (.ruleId, .number 1)]]
  | .forward_rules => [recordOf [(.id, .number 1), (.hostId, .number 1), (.userId, .number 1),
      (.forwardGroupId, .number 1), (.forwardGroupMemberId, .number 1), (.forwardGroupRuleId, .number 1)]]

/-- A destination that counts on, accepts everything and finds nothing. -/
def countingOn : Destination where
  newId _ old := old + 2
  accepts _ _ _ := true
  select _ _ _ := none
  preload _ _ _ := some fun _ => none
  parameterLimit := 900

def panelBefore : ImportState where
  db
    | .users => [⟨1, recordOf [(.username, .text "admin")]⟩]
    | .forward_groups => [⟨1, recordOf [(.userId, .number 1)]⟩]
    | _ => []
  maps _ := ∅
  inserted _ := []
  skipped _ := 0

theorem fresh_countingOn : countingOn.Fresh panelBefore.db where
  select_mem _ _ _ _ h := by cases h
  preload_mem _ _ _ ids w id h hid := by
    obtain rfl := Option.some.inj h
    cases hid
  newId_ne_zero _ old := Nat.succ_ne_zero (old + 1)
  newId_inj _ _ _ h := Nat.add_right_cancel h
  newId_new t old e he := by
    have hid : e.id = 1 := by
      cases t <;> simp [panelBefore] at he <;> simp [he]
    rw [hid]
    exact (Nat.succ_ne_zero old ∘ Nat.succ.inj ∘ Eq.symm)

theorem begins_panelBefore : Begins panelBefore := ⟨fun _ => rfl, fun _ => rfl, fun _ => rfl⟩

theorem closed_panelSnapshot {entryGroup : JsValue} (h : entryGroup = .null ∨ entryGroup = .number 1) :
    Closed decimal (panelSnapshot entryGroup) := by
  have hrefs : ∀ t, ∀ row ∈ panelSnapshot entryGroup t, ∀ ref ∈ references t,
      toNumberId decimal (cell row ref.1) = none ∨ toNumberId decimal (cell row ref.1) = some 1 := by
    intro t
    rcases h with rfl | rfl <;> cases t <;> decide +kernel
  have hfirst : ∀ t, ∃ row ∈ panelSnapshot entryGroup t, toNumberId decimal (cell row .id) = some 1 := by
    intro t
    rcases h with rfl | rfl <;> cases t <;> decide +kernel
  refine ⟨fun t => ?_, fun t row hrow ref href old hold => ?_⟩
  · rcases h with rfl | rfl <;> cases t <;> decide +kernel
  · rcases hrefs t row hrow ref href with hnone | hone
    · rw [hnone] at hold
      cases hold
    · obtain rfl := Option.some.inj (hone.symm.trans hold)
      exact hfirst ref.2

theorem references_preserved_without_entry_group :
    ∃ s', importMigrationSnapshot decimal countingOn (panelSnapshot .null) panelBefore = some s' ∧
      ∃ p ∈ s'.inserted .tunnels, (∃ e ∈ s'.db .tunnels, e.id = p.2) ∧
        ∀ e ∈ s'.db .tunnels, e.id = p.2 → ∀ ref ∈ references .tunnels,
          PointsTo decimal (s'.maps (.of ref.2)) (cell p.1 ref.1) (cell e.row ref.1) := by
  obtain ⟨s', himport⟩ := Option.isSome_iff_exists.1 (show
    (importMigrationSnapshot decimal countingOn (panelSnapshot .null) panelBefore).isSome = true by decide +kernel)
  have hfacts : (importMigrationSnapshot decimal countingOn (panelSnapshot .null) panelBefore).map (fun s' =>
      (importTableOrder.map s'.skipped, (s'.inserted .tunnels).map fun p =>
        (toNumberId decimal (cell p.1 .entryGroupId), toNumberId decimal (cell p.1 .exitGroupId))))
      = some ([0, 0, 0, 0, 0, 0], [(none, none)]) := by decide +kernel
  rw [himport, map_some, Option.some.injEq, Prod.mk.injEq] at hfacts
  obtain ⟨hskipped, hgroups⟩ := hfacts
  obtain ⟨p, hinserted, hp⟩ := List.map_eq_singleton_iff.1 hgroups
  rw [Prod.mk.injEq] at hp
  have hmem : p ∈ s'.inserted .tunnels := by
    rw [hinserted]
    exact List.mem_singleton_self p
  refine ⟨s', himport, p, hmem, (references_preserved_iff decimal countingOn fresh_countingOn
    (closed_panelSnapshot (.inl rfl)) begins_panelBefore himport ?_ hmem).2 ?_⟩
  · simp only [importTableOrder, List.map_cons, List.map_nil, List.cons.injEq] at hskipped
    obtain ⟨husers, hhosts, htunnels, hforwardGroups, hmembers, hrules, -⟩ := hskipped
    rintro (_ | _ | _ | _ | _ | _) <;> assumption
  · intro c hc old hold
    simp only [keptColumns, List.mem_cons, List.not_mem_nil, or_false] at hc
    rcases hc with rfl | rfl
    · rw [hp.1] at hold
      cases hold
    · rw [hp.2] at hold
      cases hold

/-- **A tunnel that enters at a group loses it**: nothing is skipped, the group becomes row 3,
and the tunnel enters at row 1, another group of the destination. -/
theorem entry_group_of_tunnel_lost :
    countingOn.Fresh panelBefore.db ∧ Closed decimal (panelSnapshot (.number 1)) ∧ Begins panelBefore ∧
      ∃ s', importMigrationSnapshot decimal countingOn (panelSnapshot (.number 1)) panelBefore = some s' ∧
        (∀ t, s'.skipped t = 0) ∧
        ¬ ∀ t, ∀ p ∈ s'.inserted t, (∃ e ∈ s'.db t, e.id = p.2) ∧
          ∀ e ∈ s'.db t, e.id = p.2 → ∀ ref ∈ references t,
            PointsTo decimal (s'.maps (.of ref.2)) (cell p.1 ref.1) (cell e.row ref.1) := by
  refine ⟨fresh_countingOn, closed_panelSnapshot (.inr rfl), begins_panelBefore, ?_⟩
  obtain ⟨s', himport⟩ := Option.isSome_iff_exists.1 (show
    (importMigrationSnapshot decimal countingOn (panelSnapshot (.number 1)) panelBefore).isSome = true by
      decide +kernel)
  have hids : (importMigrationSnapshot decimal countingOn (panelSnapshot (.number 1)) panelBefore).map (fun s' =>
      (importTableOrder.map s'.skipped, (s'.maps (.of .forward_groups)).get 1))
      = some ([0, 0, 0, 0, 0, 0], some 3) := by decide +kernel
  have hrows : (importMigrationSnapshot decimal countingOn (panelSnapshot (.number 1)) panelBefore).map (fun s' =>
      ((s'.inserted .tunnels).map fun p => (p.2, toNumberId decimal (cell p.1 .entryGroupId)),
        (s'.db .tunnels).map fun e => (e.id, toNumberId decimal (cell e.row .entryGroupId))))
      = some ([(3, some 1)], [(3, some 1)]) := by decide +kernel
  rw [himport, map_some, Option.some.injEq, Prod.mk.injEq] at hids hrows
  obtain ⟨hskipped, hgroup⟩ := hids
  obtain ⟨hinserted, hstored⟩ := hrows
  refine ⟨s', himport, ?_, fun hall => ?_⟩
  · simp only [importTableOrder, List.map_cons, List.map_nil, List.cons.injEq] at hskipped
    obtain ⟨husers, hhosts, htunnels, hforwardGroups, hmembers, hrules, -⟩ := hskipped
    rintro (_ | _ | _ | _ | _ | _) <;> assumption
  · obtain ⟨p, hp, hold⟩ := List.map_eq_singleton_iff.1 hinserted
    obtain ⟨e, he, hnew⟩ := List.map_eq_singleton_iff.1 hstored
    rw [Prod.mk.injEq] at hold hnew
    have hpoints := (hall .tunnels p (by simp [hp])).2 e (by simp [he]) (hnew.1.trans hold.1.symm)
      (.entryGroupId, .forward_groups) (by decide)
    obtain ⟨id, hget, hid⟩ := hpoints.translated 1 hold.2
    rw [hgroup, Option.some.injEq] at hget
    rw [hnew.2, ← hget] at hid
    cases hid

end ForwardX.PanelImport
