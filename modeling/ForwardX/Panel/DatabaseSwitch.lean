/-
Moving the panel to another database, second part: the job of `startDatabaseSwitch` and the panel
that keeps working while it runs.

The job makes the schema of the target, checks that the target has no business data, and then reads,
copies and switches over, one table at a time, while the panel commits what it likes on the source.
At this commit of the source the check refuses every target: `ensureDatabaseSchema` has just put a
row each into `dns_provider_global_bindings` and `global_port_scan_leases`, and the check counts the
rows of every migrated table but `system_settings`. So no switch succeeds, and none loses anything:
the panel stays on the source (`switch_keeps_everything`).

What the job does past the check is modelled as well. There it keeps everything as long as the panel
leaves alone the tables that have been read (`switch_loses_nothing`, from any state that satisfies
the invariant); nothing in the code makes the panel do so.
-/
import ForwardX.Panel.DatabaseCopy

namespace ForwardX.DatabaseSwitch

open Run List

/-! ## The settings that select the database -/

structure DatabaseConfig where
  type : DatabaseKind
  mysqlHost : String := ""
  mysqlDatabase : String := ""
  postgresqlHost : String := ""
  postgresqlDatabase : String := ""
  sqlitePath : String := ""

def DatabaseKind.text : DatabaseKind → String
  | .sqlite => "sqlite"
  | .mysql => "mysql"
  | .postgresql => "postgresql"

def databaseSettingsForTarget (target : DatabaseConfig) (now : ℕ) : List (String × String) := [
  ("databaseConfigured", "true"),
  ("databaseType", target.type.text),
  ("mysqlConfigured", if target.type = .mysql then "true" else "false"),
  ("mysqlHost", if target.type = .mysql then trim target.mysqlHost else ""),
  ("mysqlDatabase", if target.type = .mysql then trim target.mysqlDatabase else ""),
  ("postgresqlConfigured", if target.type = .postgresql then "true" else "false"),
  ("postgresqlHost", if target.type = .postgresql then trim target.postgresqlHost else ""),
  ("postgresqlDatabase", if target.type = .postgresql then trim target.postgresqlDatabase else ""),
  ("sqlitePath", if target.type = .sqlite then trim target.sqlitePath else ""),
  ("setupDataChoice", "use-existing"),
  ("databaseSwitchLastAt", (now : ℤ).repr)]

def databaseSettingKeys : List String := [
  "databaseConfigured", "databaseType", "mysqlConfigured", "mysqlHost", "mysqlDatabase",
  "postgresqlConfigured", "postgresqlHost", "postgresqlDatabase", "sqlitePath",
  "setupDataChoice", "databaseSwitchLastAt"]

theorem map_fst_databaseSettings (target : DatabaseConfig) (now : ℕ) :
    (databaseSettingsForTarget target now).map Prod.fst = databaseSettingKeys := rfl

section

variable {schema : Schema} (js : Conversions)

variable (kind : DatabaseKind)

def upsertTargetSetting (session : Tables schema) (key value : String)
    (now : ℕ) : Tables schema :=
  (insertTargetRow js kind session .system_settings [.text key, .text value, .number now]).1

/-! ## Content -/

def selectsDatabase (t : TableName) (row : Row (schema.columns t)) : Bool :=
  decide (t = .system_settings) && databaseSettingKeys.contains row.key

/-- What a database holds in a table, the settings that select the database aside. -/
def content (t : TableName) (db : Tables schema) : Multiset (Row (schema.columns t)) :=
  ((db t).filter fun row => !selectsDatabase t row : List _)

theorem content_upsert (session : Tables schema) {key : String} (value : String)
    (now : ℕ) (hkey : key ∈ databaseSettingKeys) (t : TableName) :
    content t (upsertTargetSetting js kind session key value now) = content t session := by
  have hne : key ≠ "" := by
    rintro rfl
    exact absurd hkey (by decide +kernel)
  obtain ⟨new, hnew, hupsert⟩ : ∃ new : Row (schema.columns .system_settings), new.key = key ∧
      upsertTargetSetting js kind session key value now = putRow session .system_settings new := by
    have hkept : ¬ (TableName.system_settings = .system_settings ∧
        settingKey js [.text key, .text value, .number now] = "") := fun h => hne h.2
    refine ⟨(some key, some value, some (now : ℤ), ()), rfl, ?_⟩
    unfold upsertTargetSetting insertTargetRow
    rw [if_neg hkept]
    rfl
  rw [hupsert]
  unfold content putRow
  by_cases ht : t = .system_settings
  · subst ht
    -- the new row is a selection, and so is every row that it replaces
    have hselects : ∀ row : Row (schema.columns .system_settings), row.key = key →
        selectsDatabase .system_settings row = true := by
      intro row hrow
      simpa [selectsDatabase, hrow] using hkey
    rw [Function.update_self, if_pos rfl, deleteSetting, Function.update_self, filter_append,
      filter_filter, filter_cons_of_neg (by simp [hselects new hnew]), filter_nil,
      append_nil]
    congr 1
    refine filter_congr fun row _ => ?_
    by_cases hrow : row.key = key
    · simp [hselects row hrow]
    · simp [hrow, hnew]
  · rw [Function.update_of_ne ht, if_pos rfl, deleteSetting, Function.update_of_ne ht]

/-! ## The job -/

inductive Connection where
  | source | target

inductive Phase where
  /-- the target is open, `ensureDatabaseSchema` is next -/
  | preparing
  /-- the schema is there, the transaction begins -/
  | checking
  /-- the target has no business data; its settings are deleted next -/
  | clearing
  /-- `exportMigrationSnapshot`: so many tables are read -/
  | reading (count : ℕ) (tables : TableName → List (List JsValue))
  /-- `copySnapshotIntoTarget`: the rows that are still to be inserted -/
  | writing (rows : List (TableName × List JsValue))
  /-- the settings that are still to be written -/
  | marking (settings : List (String × String))
  | committing
  /-- `finalizeDatabaseSwitch` is next -/
  | switching
  /-- `scheduleRestartAfterSwitch`: the job has succeeded and the process exits later -/
  | restarting
  /-- the configuration is written, `reconnectDatabase` closes the old connection -/
  | reconnecting
  /-- the panel is on the target, `ensureDatabaseSchema` runs -/
  | ensuring
  | succeeded
  | failed

def Phase.success : Phase → Bool
  | .restarting | .succeeded => true
  | _ => false

def Phase.read : Phase → List TableName
  | .reading count _ => MIGRATION_TABLES.take count
  | .preparing | .checking | .clearing | .failed => []
  | _ => MIGRATION_TABLES

structure World (schema : Schema) where
  /-- the source when the job starts -/
  start : Tables schema
  /-- the transactions that the panel has committed on the source since, oldest first -/
  log : List (Tables schema → Tables schema) := []
  /-- what the target holds -/
  target : Tables schema
  /-- what the open transaction sees there -/
  session : Tables schema
  phase : Phase := .preparing
  /-- the database of the configuration file -/
  config : Connection := .source
  panel : Connection := .source
  /-- what the target held when the transaction of the switch was committed -/
  copied : Option (Tables schema) := none

def World.sourceAfter (w : World schema) (n : ℕ) : Tables schema :=
  (w.log.take n).foldl (fun db work => work db) w.start

def World.source (w : World schema) : Tables schema :=
  w.log.foldl (fun db work => work db) w.start

def World.commit (w : World schema) (work : Tables schema → Tables schema) : World schema :=
  { w with log := w.log ++ [work] }

def World.commitOnTarget (w : World schema) (work : Tables schema → Tables schema) : World schema :=
  { w with target := work w.target }

variable (db : Tables schema)

/-- The keys of `system_settings` are unique; the databases refuse a transaction that
breaks this. -/
def UniqueKeys : Prop := ((db .system_settings).map Row.key).Nodup

instance UniqueKeys.decidable : Decidable (UniqueKeys db) :=
  inferInstanceAs (Decidable (List.Nodup _))

inductive Event (schema : Schema) where
  /-- the panel commits a transaction -/
  | work (transaction : Tables schema → Tables schema)
  /-- the job takes its next step, at a time -/
  | proceed (now : ℕ)
  /-- what the job waits for fails -/
  | fail
  /-- the process exits and comes up again -/
  | restart

def hasNoBusinessData : Prop :=
  ∀ t ∈ MIGRATION_TABLES, t ≠ .system_settings → db t = []

instance hasNoBusinessData.decidable : Decidable (hasNoBusinessData db) :=
  inferInstanceAs (Decidable (∀ t ∈ MIGRATION_TABLES, _))

variable {types : List ColumnType}

def Row.scopeKey (row : Row (.id :: .varchar :: types)) : Option String := row.2.1

def Row.number (row : Row (.id :: .varchar :: types)) : Option ℤ := row.1

/-- `INSERT … ON CONFLICT DO NOTHING` into a table with a unique `scopeKey`. -/
def insertScope (rows : List (Row (.id :: .varchar :: types))) (scopeKey : String) (rest : Row types) :
    List (Row (.id :: .varchar :: types)) :=
  if rows.any fun row => row.scopeKey = some scopeKey then rows
  else
    let id : ℤ := rows.foldl (fun n row => max n (row.number.getD 0)) 0 + 1
    let row : Row (.id :: .varchar :: types) := (some id, some scopeKey, rest)
    rows ++ [row]

/-- The two rows that come with the tables. -/
def ensureDatabaseSchema (db : Tables schema) (now : ℕ) : Tables schema
  | .dns_provider_global_bindings =>
    insertScope (db .dns_provider_global_bindings) "XRAY_QUICK_CONFIG"
      (none, some (1 : ℤ), some (now : ℤ), some (now : ℤ), ())
  | .global_port_scan_leases =>
    insertScope (db .global_port_scan_leases) "GLOBAL_PORT_RECLAIM"
      (none, none, none, none, some (now : ℤ), ())
  | t => db t

theorem insertScope_ne_nil (rows : List (Row (.id :: .varchar :: types))) (scopeKey : String)
    (rest : Row types) : insertScope rows scopeKey rest ≠ [] := by
  unfold insertScope
  split_ifs with hthere
  · obtain ⟨row, hrow, -⟩ := any_eq_true.mp hthere
    exact ne_nil_of_mem hrow
  · exact append_ne_nil_of_right_ne_nil _ (cons_ne_nil _ _)

/-- The schema alone is business data to the check. -/
theorem not_hasNoBusinessData_ensure (now : ℕ) : ¬ hasNoBusinessData (ensureDatabaseSchema db now) := by
  intro hempty
  have hleases := hempty .global_port_scan_leases ((mem_migrationTables _).2 (by decide)) (by decide)
  exact insertScope_ne_nil _ _ _ hleases

def selectAll (t : TableName) : List (List JsValue) :=
  (db t).map (Row.read kind)

def proceed (source : DatabaseKind) (target : DatabaseConfig) (w : World schema) (now : ℕ) : World schema :=
  match w.phase with
  | .preparing => { w with target := ensureDatabaseSchema w.target now, phase := .checking }
  | .checking =>
    if hasNoBusinessData w.target then { w with session := w.target, phase := .clearing }
    else { w with phase := .failed }
  | .clearing =>
    { w with
      session := Function.update w.session .system_settings []
      phase := .reading 0 fun _ => [] }
  | .reading count tables =>
    match MIGRATION_TABLES[count]? with
    | some t =>
      { w with phase := .reading (count + 1) (Function.update tables t (selectAll source w.source t)) }
    | none =>
      { w with phase := .writing (MIGRATION_TABLES.flatMap fun t => (tables t).map fun row => (t, row)) }
  | .writing (row :: rows) =>
    { w with
      session := (insertTargetRow js target.type w.session row.1 row.2).1
      phase := .writing rows }
  | .writing [] => { w with phase := .marking (databaseSettingsForTarget target now) }
  | .marking (setting :: settings) =>
    { w with
      session := upsertTargetSetting js target.type w.session setting.1 setting.2 now
      phase := .marking settings }
  | .marking [] => { w with phase := .committing }
  | .committing => { w with target := w.session, copied := some w.session, phase := .switching }
  | .switching =>
    { w with config := .target, phase := if source ≠ target.type then .restarting else .reconnecting }
  | .reconnecting => { w with panel := w.config, phase := .ensuring }
  | .ensuring => { w with target := ensureDatabaseSchema w.target now, phase := .succeeded }
  | .restarting | .succeeded | .failed => w

def step (source : DatabaseKind) (target : DatabaseConfig) (w : World schema) :
    Event schema → World schema
  | .work transaction =>
    match w.panel with
    | .source =>
      if UniqueKeys (transaction w.source) then w.commit transaction else w
    | .target =>
      if UniqueKeys (transaction w.target) then w.commitOnTarget transaction else w
  | .proceed now => proceed js source target w now
  | .fail => if w.phase.success then w else { w with phase := .failed }
  | .restart =>
    match w.phase with
    | .restarting => { w with panel := w.config, phase := .succeeded }
    | _ => w

/-! ## What a switch that succeeds has lost -/

/-- **Nothing is lost**: the target received the content that the source has at one
moment, after its first `n` transactions, and these are all that the panel committed
before it works on the target. -/
def Lossless (w : World schema) : Prop :=
  ∃ n ≤ w.log.length, (∀ i < w.log.length, i < n) ∧
    ∃ db, w.copied = some db ∧ ∀ t, content t db = content t (w.sourceAfter n)

/-- What must not happen while the job runs: that the panel changes a table that the export
has already read, or one that no snapshot holds; and that a setting without a key is
read. -/
def Quiet (w : World schema) : Event schema → Prop
  | .work transaction => w.panel = .source → w.phase ≠ .failed →
      ∀ t, t ∈ w.phase.read ∨ t ∉ MIGRATION_TABLES →
        content t (transaction w.source) = content t w.source
  | .proceed _ => ∀ count tables, w.phase = .reading count tables →
      MIGRATION_TABLES[count]? = some .system_settings →
        ∀ row ∈ w.source .system_settings, row.key ≠ ""
  | _ => True

structure Starts (w : World schema) : Prop where
  phase : w.phase = .preparing
  panel : w.panel = .source
  config : w.config = .source
  copied : w.copied = none

def SameOutside (db db' : Tables schema) : Prop :=
  ∀ t, t ∉ MIGRATION_TABLES → content t db = content t db'

/-- The tables `ts` of a snapshot hold what the source holds. -/
def Snapshot (source : Tables schema) (ts : List TableName)
    (tables : TableName → List (List JsValue)) : Prop :=
  ∃ rows : Tables schema, (∀ t ∈ ts, tables t = selectAll kind rows t ∧ content t rows = content t source) ∧
    (.system_settings ∈ ts → (∀ row ∈ rows .system_settings, row.key ≠ "") ∧ UniqueKeys rows)

def Carried (w : World schema) : Prop :=
  ∃ db, w.copied = some db ∧ ∀ t, content t db = content t w.source

def Holds (source : DatabaseKind) (target : DatabaseConfig) (w : World schema) : Phase → Prop
  | .preparing | .checking => w.panel = .source ∧ SameOutside w.target w.source
  | .clearing => SameOutside w.session w.source ∧ hasNoBusinessData w.session
  | .reading count tables => SameOutside w.session w.source ∧ (∀ t ∈ MIGRATION_TABLES, w.session t = []) ∧
      Snapshot source w.source (MIGRATION_TABLES.take count) tables
  | .writing rows => ∀ t, content t (insertAll js target.type w.session rows) = content t w.source
  | .marking settings => (∀ t, content t w.session = content t w.source) ∧
      ∀ setting ∈ settings, setting.1 ∈ databaseSettingKeys
  | .committing => ∀ t, content t w.session = content t w.source
  | .switching => Carried w
  | .restarting | .reconnecting => Carried w ∧ w.config = .target
  | .ensuring | .succeeded => Carried w ∧ w.panel = .target
  | .failed => True

theorem content_congr {db db' : Tables schema} {t : TableName} (h : db t = db' t) :
    content t db = content t db' := by
  rw [content, content, h]

theorem source_commit (w : World schema) (work : Tables schema → Tables schema) :
    (w.commit work).source = work w.source := by
  rw [World.source, World.source, World.commit, foldl_append, foldl_cons, foldl_nil]

theorem Snapshot.read {kind : DatabaseKind} {source : Tables schema} {ts : List TableName} {t : TableName}
    {tables : TableName → List (List JsValue)} (h : Snapshot kind source ts tables) (ht : t ∉ ts)
    (hunique : UniqueKeys source)
    (hkeys : t = .system_settings → ∀ row ∈ source .system_settings, row.key ≠ "") :
    Snapshot kind source (ts ++ [t]) (Function.update tables t (selectAll kind source t)) := by
  obtain ⟨rows, hrows, hset⟩ := h
  refine ⟨Function.update rows t (source t), fun t' ht' => ?_, fun hmem => ?_⟩
  · rcases mem_append.1 ht' with hold | hnew
    · have hne : t' ≠ t := fun heq => ht (heq ▸ hold)
      rw [Function.update_of_ne hne, (hrows t' hold).1, selectAll, selectAll, Function.update_of_ne hne]
      exact ⟨rfl, (content_congr (Function.update_of_ne hne ..)).trans (hrows t' hold).2⟩
    · obtain rfl := mem_singleton.1 hnew
      rw [Function.update_self, selectAll, selectAll, Function.update_self]
      exact ⟨rfl, content_congr (Function.update_self ..)⟩
  · by_cases heq : t = .system_settings
    · subst heq
      rw [UniqueKeys, Function.update_self]
      exact ⟨hkeys rfl, hunique⟩
    · have hold : .system_settings ∈ ts :=
        (mem_append.1 hmem).resolve_right fun h => heq (mem_singleton.1 h).symm
      rw [UniqueKeys, Function.update_of_ne (Ne.symm heq)]
      exact hset hold

theorem Snapshot.insertAll {source target : DatabaseKind} {db session : Tables schema}
    {tables : TableName → List (List JsValue)} (h : Snapshot source db MIGRATION_TABLES tables)
    (hempty : ∀ t ∈ MIGRATION_TABLES, session t = []) (hout : SameOutside session db) (t : TableName) :
    content t (insertAll js target session
      (MIGRATION_TABLES.flatMap fun t => (tables t).map fun row => (t, row))) = content t db := by
  obtain ⟨rows, hrows, hset⟩ := h
  have hlist : (MIGRATION_TABLES.flatMap fun t => (tables t).map fun row => (t, row))
      = MIGRATION_TABLES.flatMap fun t => (rows t).map fun row => (t, row.read source) := by
    refine flatMap_congr fun t ht => ?_
    rw [(hrows t ht).1, selectAll, map_map]
    rfl
  have hkeys := hset ((mem_migrationTables _).2 (by decide))
  rw [hlist]
  by_cases ht : t ∈ MIGRATION_TABLES
  · refine (content_congr ?_).trans (hrows t ht).2
    rw [insertAll_tables js source target rows hkeys MIGRATION_TABLES session nodup_migrationTables hempty]
    exact if_pos ht
  · refine (content_congr ?_).trans (hout t ht)
    rw [insertAll_tables js source target rows hkeys MIGRATION_TABLES session nodup_migrationTables hempty]
    exact if_neg ht

/-! ## Runs -/

/-- The invariant: the keys of the source are unique, and what holds in the phase. -/
structure Inv (source : DatabaseKind) (target : DatabaseConfig) (w : World schema) : Prop where
  unique : UniqueKeys w.source
  holds : Holds js source target w w.phase

variable {target : DatabaseConfig} {source : DatabaseKind} {w : World schema}

theorem Holds.work {phase : Phase} {work : Tables schema → Tables schema} (h : Holds js source target w phase)
    (hquiet : phase ≠ .failed → ∀ t, t ∈ phase.read ∨ t ∉ MIGRATION_TABLES →
      content t (work w.source) = content t w.source) :
    Holds js source target (w.commit work) phase := by
  have hout : phase ≠ .failed → ∀ db, SameOutside db w.source →
      SameOutside db ((w.commit work).source) := by
    intro hphase db hdb t ht
    rw [source_commit, hquiet hphase t (.inr ht)]
    exact hdb t ht
  -- once every table is read, no content changes
  have hall : phase ≠ .failed → phase.read = MIGRATION_TABLES → ∀ t,
      content t ((w.commit work).source) = content t w.source := by
    intro hphase hread t
    rw [source_commit]
    exact hquiet hphase t (by rw [hread]; exact em _)
  have hcarried : phase ≠ .failed → phase.read = MIGRATION_TABLES → Carried w →
      Carried (w.commit work) := by
    rintro hphase hread ⟨db, hcopied, hdb⟩
    exact ⟨db, hcopied, fun t => (hdb t).trans (hall hphase hread t).symm⟩
  cases phase with
  | preparing | checking => exact ⟨h.1, hout (by simp) _ h.2⟩
  | clearing => exact ⟨hout (by simp) _ h.1, h.2⟩
  | reading count tables =>
    obtain ⟨hsame, hempty, rows, hrows, hset⟩ := h
    refine ⟨hout (by simp) _ hsame, hempty, rows, fun t ht => ⟨(hrows t ht).1, ?_⟩, hset⟩
    rw [source_commit, hquiet (by simp) t (.inl ht)]
    exact (hrows t ht).2
  | writing rows => exact fun t => (h t).trans (hall (by simp) rfl t).symm
  | marking settings => exact ⟨fun t => (h.1 t).trans (hall (by simp) rfl t).symm, h.2⟩
  | committing => exact fun t => (h t).trans (hall (by simp) rfl t).symm
  | switching => exact hcarried (by simp) rfl h
  | restarting | reconnecting | ensuring | succeeded => exact ⟨hcarried (by simp) rfl h.1, h.2⟩
  | failed => trivial

theorem Holds.workOnTarget
    {phase : Phase} {work : Tables schema → Tables schema} (h : Holds js source target w phase)
    (hpanel : w.panel = .target) : Holds js source target (w.commitOnTarget work) phase := by
  cases phase with
  | preparing | checking => exact absurd (h.1.symm.trans hpanel) (by simp)
  | _ => exact h

theorem Inv.proceed (h : Inv js source target w) (now : ℕ) (hquiet : Quiet w (.proceed now)) :
    Inv js source target (proceed js source target w now) := by
  obtain ⟨hunique, hholds⟩ := h
  unfold DatabaseSwitch.proceed
  cases hphase : w.phase with
  | preparing =>
    rw [hphase] at hholds
    refine ⟨hunique, hholds.1, fun t ht => ?_⟩
    obtain rfl : t = .auth_sessions := not_not.mp fun hne => ht ((mem_migrationTables t).2 hne)
    exact hholds.2 _ ht
  | checking =>
    rw [hphase] at hholds
    dsimp only
    by_cases hempty : hasNoBusinessData w.target
    · rw [if_pos hempty]
      exact ⟨hunique, hholds.2, hempty⟩
    · rw [if_neg hempty]
      exact ⟨hunique, trivial⟩
  | clearing =>
    rw [hphase] at hholds
    obtain ⟨hsame, hempty⟩ := hholds
    refine ⟨hunique, fun t ht => ?_, fun t ht => ?_, ⟨fun _ => [], by simp, by simp⟩⟩
    · have hne : t ≠ .system_settings := fun heq => ht (heq ▸ (mem_migrationTables _).2 (by decide))
      exact (content_congr (Function.update_of_ne hne ..)).trans (hsame t ht)
    · by_cases heq : t = .system_settings
      · subst heq
        exact Function.update_self TableName.system_settings [] w.session
      · exact (Function.update_of_ne heq ..).trans (hempty t ht heq)
  | reading count tables =>
    rw [hphase] at hholds
    obtain ⟨hsame, hempty, hread⟩ := hholds
    dsimp only
    cases hnext : MIGRATION_TABLES[count]? with
    | some t =>
      have htake : MIGRATION_TABLES.take (count + 1) = MIGRATION_TABLES.take count ++ [t] := by
        rw [take_add_one, hnext, Option.toList_some]
      have hfresh : t ∉ MIGRATION_TABLES.take count := by
        have hnodup := nodup_migrationTables.sublist (take_sublist (count + 1) _)
        rw [htake] at hnodup
        exact fun hmem => (nodup_append.1 hnodup).2.2 t hmem t (by simp) rfl
      refine ⟨hunique, hsame, hempty, ?_⟩
      rw [htake]
      exact hread.read hfresh hunique fun heq => hquiet count tables hphase (heq ▸ hnext)
    | none =>
      rw [take_of_length_le (getElem?_eq_none_iff.1 hnext)] at hread
      exact ⟨hunique, hread.insertAll js hempty hsame⟩
  | writing rows =>
    rw [hphase] at hholds
    cases rows with
    | nil =>
      refine ⟨hunique, hholds, fun setting hmem => ?_⟩
      rw [← map_fst_databaseSettings target now]
      exact mem_map_of_mem hmem
    | cons row rows => exact ⟨hunique, hholds⟩
  | marking settings =>
    rw [hphase] at hholds
    cases settings with
    | nil => exact ⟨hunique, hholds.1⟩
    | cons setting settings =>
      refine ⟨hunique, fun t => ?_, fun s hs => hholds.2 s (mem_cons_of_mem _ hs)⟩
      exact (content_upsert js _ _ _ _ (hholds.2 setting mem_cons_self) t).trans (hholds.1 t)
  | committing =>
    rw [hphase] at hholds
    exact ⟨hunique, w.session, rfl, hholds⟩
  | switching =>
    rw [hphase] at hholds
    dsimp only
    by_cases hkind : source ≠ target.type
    · rw [if_pos hkind]
      exact ⟨hunique, hholds, rfl⟩
    · rw [if_neg hkind]
      exact ⟨hunique, hholds, rfl⟩
  | reconnecting =>
    rw [hphase] at hholds
    exact ⟨hunique, hholds.1, hholds.2⟩
  | ensuring =>
    rw [hphase] at hholds
    exact ⟨hunique, hholds⟩
  | restarting | succeeded | failed => exact ⟨hunique, hholds⟩

theorem Inv.step {e : Event schema}
    (hquiet : Quiet w e) (h : Inv js source target w) : Inv js source target (step js source target w e) := by
  cases e with
  | work transaction =>
    unfold DatabaseSwitch.step
    cases hpanel : w.panel with
    | source =>
      dsimp only
      by_cases hunique : UniqueKeys (transaction w.source)
      · rw [if_pos hunique]
        refine ⟨?_, h.holds.work js fun hphase => hquiet hpanel hphase⟩
        rw [source_commit]
        exact hunique
      · rw [if_neg hunique]
        exact h
    | target =>
      dsimp only
      by_cases hunique : UniqueKeys (transaction w.target)
      · rw [if_pos hunique]
        exact ⟨h.unique, h.holds.workOnTarget js hpanel⟩
      · rw [if_neg hunique]
        exact h
  | proceed now => exact h.proceed js now hquiet
  | fail =>
    unfold DatabaseSwitch.step
    by_cases hsuccess : w.phase.success = true
    · rw [if_pos hsuccess]
      exact h
    · rw [if_neg hsuccess]
      exact ⟨h.unique, trivial⟩
  | restart =>
    unfold DatabaseSwitch.step
    obtain ⟨hunique, hholds⟩ := h
    cases hphase : w.phase with
    | restarting =>
      rw [hphase] at hholds
      exact ⟨hunique, hholds.1, hholds.2⟩
    | _ => exact ⟨hunique, hholds⟩

theorem Inv.lossless (h : Inv js source target w) (hsuccess : w.phase.success = true) : Lossless w := by
  have hcarried : Carried w := by
    have hholds := h.holds
    cases hphase : w.phase with
    | restarting | succeeded =>
      rw [hphase] at hholds
      exact hholds.1
    | _ =>
      rw [hphase] at hsuccess
      simp [Phase.success] at hsuccess
  obtain ⟨db, hcopied, hdb⟩ := hcarried
  refine ⟨w.log.length, le_refl _, fun _ hi => hi, db, hcopied, fun t => ?_⟩
  rw [World.sourceAfter, take_length]
  exact hdb t

/-- **When the copy loses nothing.** From a state that satisfies the invariant, one past the check
for instance: while the panel leaves the tables that the export has read as they are, until it works
on the target, a switch that succeeds has carried over what the source holds at one moment and every
transaction that was committed. -/
theorem switch_loses_nothing (hinv : Inv js source target w) (es : List (Event schema))
    (hquiet : Admissible Quiet (step js source target) w es)
    (hsuccess : (run (step js source target) w es).phase.success = true) :
    Lossless (run (step js source target) w es) :=
  (run_invariant_of_admissible (fun _ _ hq hi => Inv.step js hq hi) es w hquiet hinv).lossless js
    hsuccess

/-! ## No switch gets past the check -/

/-- The job has not passed the check, and will not: the target has business data. -/
structure Refused (w : World schema) : Prop where
  panel : w.panel = .source
  config : w.config = .source
  copied : w.copied = none
  phase : w.phase = .preparing ∨ w.phase = .failed ∨
    w.phase = .checking ∧ ¬ hasNoBusinessData w.target

theorem Refused.proceed (h : Refused w) (now : ℕ) : Refused (proceed js source target w now) := by
  unfold DatabaseSwitch.proceed
  rcases h.phase with hphase | hphase | ⟨hphase, hdata⟩
  · rw [hphase]
    exact ⟨h.panel, h.config, h.copied, .inr (.inr ⟨rfl, not_hasNoBusinessData_ensure w.target now⟩)⟩
  · rw [hphase]
    exact h
  · rw [hphase]
    dsimp only
    rw [if_neg hdata]
    exact ⟨h.panel, h.config, h.copied, .inr (.inl rfl)⟩

theorem Refused.step (h : Refused w) (e : Event schema) : Refused (step js source target w e) := by
  cases e with
  | work transaction =>
    dsimp only [DatabaseSwitch.step]
    rw [h.panel]
    dsimp only
    split_ifs
    · exact ⟨h.panel, h.config, h.copied, h.phase⟩
    · exact h
  | proceed now => exact h.proceed js now
  | fail =>
    dsimp only [DatabaseSwitch.step]
    split_ifs
    · exact h
    · exact ⟨h.panel, h.config, h.copied, .inr (.inl rfl)⟩
  | restart =>
    dsimp only [DatabaseSwitch.step]
    rcases h.phase with hphase | hphase | ⟨hphase, -⟩ <;> rw [hphase] <;> exact h

theorem Refused.not_success (h : Refused w) : w.phase.success = false := by
  rcases h.phase with hphase | hphase | ⟨hphase, -⟩ <;> rw [hphase] <;> rfl

/-- **A database switch loses nothing**, whatever the panel commits while it runs: a switch that
succeeds is lossless, because the check of the target refuses every one. The panel and its
configuration stay with the source, and nothing is copied. -/
theorem switch_keeps_everything (source : DatabaseKind) (target : DatabaseConfig) (w : World schema)
    (hstart : Starts w) (es : List (Event schema)) :
    let w' := run (step js source target) w es
    (w'.phase.success = true → Lossless w') ∧ w'.phase.success = false ∧
      w'.panel = .source ∧ w'.config = .source ∧ w'.copied = none := by
  intro w'
  have hrefused : Refused w' :=
    run_invariant (fun _ e h => h.step js e) es w
      ⟨hstart.panel, hstart.config, hstart.copied, .inl hstart.phase⟩
  have hfails := hrefused.not_success
  refine ⟨fun hsuccess => ?_, hfails, hrefused.panel, hrefused.config, hrefused.copied⟩
  rw [hfails] at hsuccess
  cases hsuccess

end

/-! ## A payment during a switch -/

/-- The columns of the ledger and of the settings, and an id in every other table. -/
def ledgerSchema : Schema where
  others
    | .balance_transactions => [.id, .int, .varchar, .bigint, .bigint, .text, .int, .text, .int, .epoch]
    | _ => [.id]
  others_ne_nil t := by cases t <;> simp

def setting (key value : String) : Row (ledgerSchema.columns .system_settings) :=
  (some key, some value, some (0 : ℤ), ())

def payment : Row (ledgerSchema.columns .balance_transactions) :=
  (some (1 : ℤ), some (1 : ℤ), some "recharge", some (1000 : ℤ), some (1000 : ℤ), none, none,
    some "order-1", none, some (100 : ℤ), ())

def panelTables : Tables ledgerSchema
  | .users => [((some (1 : ℤ), ()) : Row [.id])]
  | .system_settings => [setting "siteTitle" "ForwardX"]
  | _ => []

def bookPayment (db : Tables ledgerSchema) : Tables ledgerSchema :=
  Function.update db .balance_transactions (db .balance_transactions ++ [payment])

def panelAtStart : World ledgerSchema where
  start := panelTables
  target := fun _ => []
  session := fun _ => []

def mysqlTarget : DatabaseConfig := { type := .mysql, mysqlHost := "db", mysqlDatabase := "forwardx" }

theorem starts_panelAtStart : Starts panelAtStart := ⟨rfl, rfl, rfl, rfl⟩

/-- The switch to an empty MySQL database is refused, and the payment stays with the source. -/
theorem switch_keeps_payment :
    let w := run (step decimal .sqlite mysqlTarget) panelAtStart
      [.proceed 100, .work bookPayment, .proceed 100]
    w.panel = .source ∧ w.phase.success = false ∧ w.source .balance_transactions = [payment] := by
  obtain ⟨-, hfails, hpanel, -⟩ := switch_keeps_everything decimal .sqlite mysqlTarget panelAtStart
    starts_panelAtStart [.proceed 100, .work bookPayment, .proceed 100]
  exact ⟨hpanel, hfails, by decide +kernel⟩

end ForwardX.DatabaseSwitch
