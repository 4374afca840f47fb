/-
Moving the panel to another database, first part: how a row gets from the source into the target.

The source is read table by table into JSON values, and the target stores what `normalizeColumnValue`
makes of them for its own column types. What is proved is that the two conversions undo each other:
a row that is read from one kind of database and stored in another is the row that it was, in every
column, so a whole snapshot that is inserted table after table makes the target hold the rows of the
source (`insertAll_tables`). The exceptions are those of the code: a setting without a key is not
inserted, and a setting replaces the one with its key.
-/
import ForwardX.Lib.Run
import ForwardX.Panel.JsValues
import Mathlib

namespace ForwardX.DatabaseSwitch

open List

/-! ## Tables and columns -/

inductive TableName where
  | users | auth_sessions | hosts | xray_inbounds | xray_external_proxy_nodes
  | xray_external_proxy_secrets | dns_provider_accounts | dns_provider_account_secrets
  | dns_provider_global_bindings | dns_provider_zones | dns_provider_record_lines
  | xray_quick_configs | xray_quick_config_domain_claims
  | xray_quick_config_topology_revisions | xray_quick_config_routes
  | xray_quick_config_rule_bindings | xray_quick_config_dns_records
  | xray_quick_config_dns_record_backups | xray_quick_config_operations
  | xray_quick_config_operation_steps | global_port_allocations
  | global_port_allocation_references | global_port_probe_runs | global_port_probe_results
  | global_port_scan_leases | xray_clients | xray_access_entries | xray_access_secrets
  | xray_inbound_secrets | xray_tls_certificates | xray_host_deployments
  | xray_runtime_reports | xray_artifacts | xray_operations | xray_managed_services
  | xray_managed_service_instance_secrets | xray_managed_service_accounts
  | xray_managed_service_secrets | xray_managed_service_deployments
  | xray_managed_service_runtime_reports | xray_managed_service_artifacts | host_groups
  | host_group_members | tunnels | tunnel_exit_nodes | tunnel_hops
  | forward_rule_tunnel_exits | forward_rules | forward_groups | forward_group_members
  | forward_group_events | host_metrics | host_traffic_counters | user_traffic_counters
  | forward_rule_traffic_counters | traffic_stats | traffic_stat_buckets
  | agent_traffic_reports | tunnel_latency_stats | forward_group_latency_stats
  | host_probe_services | host_probe_service_stats | ip_geo_cache | agent_tokens
  | tcping_stats | forward_tests | user_host_permissions | user_tunnel_permissions
  | user_forward_group_permissions | system_settings | payment_orders | subscription_plans
  | subscription_plan_hosts | subscription_plan_tunnels | subscription_plan_forward_groups
  | subscription_plan_traffic_addons | user_subscriptions | user_traffic_addons
  | balance_transactions | traffic_billing_configs | traffic_billing_records
  | traffic_billing_usage | traffic_billing_rule_usage | user_traffic_billing_permissions
  | redemption_codes | discount_codes | discount_code_plans | announcements
  | announcement_reads | plugins | plugin_store_sources | plugin_assets
  | plugin_agent_states | config_audit_events
  deriving DecidableEq

open TableName in
def MIGRATION_TABLES : List TableName := [
  users, hosts, xray_inbounds, xray_external_proxy_nodes, xray_external_proxy_secrets,
  dns_provider_accounts, dns_provider_account_secrets, dns_provider_global_bindings,
  dns_provider_zones, dns_provider_record_lines, xray_quick_configs,
  xray_quick_config_domain_claims, xray_quick_config_topology_revisions,
  xray_quick_config_routes, xray_quick_config_rule_bindings, xray_quick_config_dns_records,
  xray_quick_config_dns_record_backups, xray_quick_config_operations,
  xray_quick_config_operation_steps, global_port_allocations,
  global_port_allocation_references, global_port_probe_runs, global_port_probe_results,
  global_port_scan_leases, xray_clients, xray_access_entries, xray_access_secrets,
  xray_inbound_secrets, xray_tls_certificates, xray_host_deployments, xray_runtime_reports,
  xray_artifacts, xray_operations, xray_managed_services,
  xray_managed_service_instance_secrets, xray_managed_service_accounts,
  xray_managed_service_secrets, xray_managed_service_deployments,
  xray_managed_service_runtime_reports, xray_managed_service_artifacts, host_groups,
  host_group_members, tunnels, tunnel_exit_nodes, tunnel_hops, forward_rule_tunnel_exits,
  forward_rules, forward_groups, forward_group_members, forward_group_events, host_metrics,
  host_traffic_counters, user_traffic_counters, forward_rule_traffic_counters, traffic_stats,
  traffic_stat_buckets, agent_traffic_reports, tunnel_latency_stats,
  forward_group_latency_stats, host_probe_services, host_probe_service_stats, ip_geo_cache,
  agent_tokens, tcping_stats, forward_tests, user_host_permissions, user_tunnel_permissions,
  user_forward_group_permissions, system_settings, payment_orders, subscription_plans,
  subscription_plan_hosts, subscription_plan_tunnels, subscription_plan_forward_groups,
  subscription_plan_traffic_addons, user_subscriptions, user_traffic_addons,
  balance_transactions, traffic_billing_configs, traffic_billing_records,
  traffic_billing_usage, traffic_billing_rule_usage, user_traffic_billing_permissions,
  redemption_codes, discount_codes, discount_code_plans, announcements, announcement_reads,
  plugins, plugin_store_sources, plugin_assets, plugin_agent_states, config_audit_events]

theorem nodup_migrationTables : MIGRATION_TABLES.Nodup := by
  decide +kernel

theorem mem_migrationTables (t : TableName) : t ∈ MIGRATION_TABLES ↔ t ≠ .auth_sessions := by
  cases t <;> decide

inductive DatabaseKind where
  | sqlite | mysql | postgresql
  deriving DecidableEq

inductive ColumnType where
  | id | text | longtext | varchar | int | bigint | bool | epoch

def ColumnType.Value : ColumnType → Type
  | .text | .longtext | .varchar => String
  | .bool => Bool
  | .id | .int | .bigint | .epoch => ℤ

instance ColumnType.decidableEqValue : (type : ColumnType) → DecidableEq type.Value
  | .text | .longtext | .varchar => inferInstanceAs (DecidableEq String)
  | .bool => inferInstanceAs (DecidableEq Bool)
  | .id | .int | .bigint | .epoch => inferInstanceAs (DecidableEq ℤ)

def Row : List ColumnType → Type
  | [] => Unit
  | type :: types => Option type.Value × Row types

instance Row.decidableEq : (types : List ColumnType) → DecidableEq (Row types)
  | [] => inferInstanceAs (DecidableEq Unit)
  | type :: types =>
    have := Row.decidableEq types
    inferInstanceAs (DecidableEq (Option type.Value × Row types))

/-- The columns of the tables. Those of `system_settings` and of the two tables that get a row with
the schema are fixed; of the other tables only that they have a column is used. -/
structure Schema where
  others : TableName → List ColumnType
  others_ne_nil : ∀ t, others t ≠ []

def Schema.columns (schema : Schema) : TableName → List ColumnType
  | .system_settings => [.varchar, .longtext, .epoch]
  | .dns_provider_global_bindings => [.id, .varchar, .int, .bigint, .epoch, .epoch]
  | .global_port_scan_leases => [.id, .varchar, .varchar, .epoch, .epoch, .epoch, .epoch]
  | t => schema.others t

theorem Schema.columns_ne_nil (schema : Schema) (t : TableName) : schema.columns t ≠ [] := by
  unfold Schema.columns
  split
  · simp
  · simp
  · simp
  · exact schema.others_ne_nil _

abbrev Tables (schema : Schema) : Type := (t : TableName) → List (Row (schema.columns t))

/-! ## Values -/

inductive JsValue where
  | undefined
  | null
  | bool (b : Bool)
  | number (n : ℤ)
  | bigint (n : ℤ)
  | date (milliseconds : ℤ)
  | text (s : String)
  deriving DecidableEq

/-- No code unit of a surrogate pair is a space. -/
def isJsSpace (c : Char) : Bool := c.toNat < 0x10000 && Panel.isJsSpace (UInt16.ofNat c.toNat)

def trim (s : String) : String := String.ofList ((s.toList.dropWhile isJsSpace).rdropWhile isJsSpace)

/-- The conversions of the language that concern texts: `Number` and `Date.parse`, which
may give `NaN`, and `String` on a date. -/
structure Conversions where
  number : String → Option ℤ
  parseDate : String → Option ℤ
  dateText : ℤ → String
  number_repr : ∀ n : ℤ, number n.repr = some n
  number_empty : number "" = some 0

variable (kind : DatabaseKind)

def readCell : (type : ColumnType) → Option type.Value → JsValue
  | .text, some s | .longtext, some s | .varchar, some s => .text s
  | .bool, some b => if kind = .postgresql then .bool b else .number (cond b 1 0)
  | .id, some n | .bigint, some n => if kind = .postgresql then .text (Int.repr n) else .number n
  | .int, some n | .epoch, some n => .number n
  | _, none => .null

/-- What a column keeps of a value that it is handed: NULL, a value of its type, or a
number where it knows no booleans. -/
def storeCell (js : Conversions) : (type : ColumnType) → JsValue → Option type.Value
  | .text, .text s | .longtext, .text s | .varchar, .text s => some s
  | .bool, .bool b => some b
  | .bool, .number n => some (decide (n ≠ 0))
  | .id, .number n | .int, .number n | .bigint, .number n | .epoch, .number n => some n
  | .id, .text s | .int, .text s | .bigint, .text s | .epoch, .text s => js.number s
  | _, _ => none

/-- `Number(value)`; `none` is `NaN`. -/
def Conversions.numberOf (js : Conversions) : JsValue → Option ℤ
  | .undefined => none
  | .null => some 0
  | .bool b => some (if b then 1 else 0)
  | .number n | .bigint n | .date n => some n
  | .text s => js.number s

def Conversions.stringOf (js : Conversions) : JsValue → String
  | .undefined => "undefined"
  | .null => "null"
  | .bool b => if b then "true" else "false"
  | .number n | .bigint n => n.repr
  | .date ms => js.dateText ms
  | .text s => s

def Conversions.boolValue (js : Conversions) (value : JsValue) : Bool :=
  decide (value = .bool true ∨ value = .number 1 ∨ value = .text "1") ||
    (js.stringOf value).toLower == "true"

def normalizeColumnValue (js : Conversions) (value : JsValue) (kind : DatabaseKind)
    (type : ColumnType) : JsValue :=
  match value with
  | .undefined => .undefined
  | .null => .null
  | .date ms => .number (ms / 1000)
  | value =>
    match type with
    | .bool =>
      if kind = .postgresql then .bool (js.boolValue value)
      else .number (if js.boolValue value then 1 else 0)
    | .id | .int | .epoch =>
      if value = .text "" then .null
      else
        match type, value with
        | .epoch, .text s =>
          match js.parseDate s with
          | some parsedDate => .number (parsedDate / 1000)
          | none => ((js.number s).map JsValue.number).getD value
        | _, value => ((js.numberOf value).map JsValue.number).getD value
    | .bigint =>
      match value with
      | .bigint n => .text n.repr
      | value => value
    | _ => value

theorem boolValue_read (js : Conversions) (kind : DatabaseKind) (b : Bool) :
    js.boolValue (readCell kind .bool (some b)) = b := by
  have hzero : (Int.repr 0).toLower ≠ "true" := by decide +kernel
  have hfalse : "false".toLower ≠ "true" := by decide +kernel
  cases kind <;> cases b <;> simp [Conversions.boolValue, Conversions.stringOf, readCell, hzero, hfalse]

theorem readCell_bool (b : Bool) :
    readCell kind .bool (some b) = .bool b ∨ readCell kind .bool (some b) = .number (cond b 1 0) := by
  cases kind with
  | postgresql => exact .inl rfl
  | sqlite | mysql => exact .inr rfl

theorem normalize_bool (js : Conversions) (kind : DatabaseKind) (b : Bool) :
    normalizeColumnValue js (.bool b) kind .bool = if kind = .postgresql then .bool (js.boolValue (.bool b))
      else .number (if js.boolValue (.bool b) then 1 else 0) := rfl

theorem normalize_number (js : Conversions) (kind : DatabaseKind) (n : ℤ) :
    normalizeColumnValue js (.number n) kind .bool = if kind = .postgresql then .bool (js.boolValue (.number n))
      else .number (if js.boolValue (.number n) then 1 else 0) := rfl

theorem storeCell_bool (js : Conversions) (source target : DatabaseKind) (b : Bool) :
    storeCell js .bool (normalizeColumnValue js (readCell source .bool (some b)) target .bool) = some b := by
  have hread := boolValue_read js source b
  obtain hcell | hcell := readCell_bool source b
  · rw [hcell] at hread ⊢
    rw [normalize_bool, hread]
    cases target <;> cases b <;> rfl
  · rw [hcell] at hread ⊢
    rw [normalize_number, hread]
    cases target <;> cases b <;> rfl

theorem normalize_id (js : Conversions) (kind : DatabaseKind) {s : String} (hs : s ≠ "") :
    normalizeColumnValue js (.text s) kind .id = ((js.number s).map JsValue.number).getD (.text s) :=
  if_neg fun h => hs (JsValue.text.inj h)

theorem repr_ne_empty (n : ℤ) : n.repr ≠ "" := by
  cases n with
  | ofNat n => exact Nat.repr_ne_empty
  | negSucc n => simp [Int.repr]

def decimal : Conversions where
  number s := if s = "" then some 0 else s.toInt?
  parseDate _ := none
  dateText _ := ""
  number_repr n := by rw [if_neg (repr_ne_empty n), Int.toInt?_repr]
  number_empty := rfl

theorem storeCell_normalize (js : Conversions) (source target : DatabaseKind) (type : ColumnType)
    (value : Option type.Value) :
    storeCell js type (normalizeColumnValue js (readCell source type value) target type) = value := by
  cases value with
  | none => cases type <;> rfl
  | some value =>
    cases type with
    | text | longtext | varchar => rfl
    | int | epoch => rfl
    | bigint =>
      cases source with
      | sqlite | mysql => rfl
      | postgresql => exact js.number_repr value
    | id =>
      cases source with
      | sqlite | mysql => rfl
      | postgresql =>
        -- the text of a number is not empty, so that `Number` gives the number back
        rw [show readCell .postgresql .id (some value) = .text (Int.repr value) from rfl,
          normalize_id js target (repr_ne_empty value), js.number_repr value]
        rfl
    | bool => exact storeCell_bool js source target value

/-! ## Rows -/

/-- The values that `SELECT *` returns for a row. -/
def Row.read (kind : DatabaseKind) : {types : List ColumnType} → Row types → List JsValue
  | [], _ => []
  | type :: _, row => readCell kind type row.1 :: Row.read kind row.2

def Row.store (js : Conversions) : (types : List ColumnType) → List JsValue → Row types
  | [], _ => ()
  | type :: types, [] => (storeCell js type .undefined, Row.store js types [])
  | type :: types, value :: values => (storeCell js type value, Row.store js types values)

def normalizeRecord (js : Conversions) (kind : DatabaseKind) :
    List ColumnType → List JsValue → List JsValue
  | type :: types, value :: values =>
    normalizeColumnValue js value kind type :: normalizeRecord js kind types values
  | _, _ => []

theorem store_normalizeRecord (js : Conversions) (source target : DatabaseKind) :
    ∀ {types : List ColumnType} (row : Row types),
      Row.store js types (normalizeRecord js target types (row.read source)) = row
  | [], () => rfl
  | type :: _, (cell, row) =>
    Prod.ext (storeCell_normalize js source target type cell)
      (store_normalizeRecord js source target row)

theorem read_ne_undefined (type : ColumnType) (cell : Option type.Value) :
    readCell kind type cell ≠ .undefined := by
  cases cell with
  | none => cases type <;> simp [readCell]
  | some value => cases type <;> cases kind <;> simp [readCell]

theorem exists_defined_read {types : List ColumnType} (hne : types ≠ [])
    (row : Row types) : ∃ value ∈ row.read kind, value ≠ .undefined := by
  cases types with
  | nil => exact absurd rfl hne
  | cons type types =>
    exact ⟨readCell kind type row.1, by simp [Row.read], read_ne_undefined kind type row.1⟩

/-- `String(row.key || "")`: the key is the first column of `system_settings`. -/
def settingKey (js : Conversions) (record : List JsValue) : String :=
  match record.headD .undefined with
  | .undefined | .null | .bool false | .number 0 | .bigint 0 => ""
  | value => js.stringOf value

def Row.key : {types : List ColumnType} → Row types → String
  | .varchar :: _, (some key, _) => key
  | _, _ => ""

theorem settingKey_read (js : Conversions) (kind : DatabaseKind) (schema : Schema)
    (row : Row (schema.columns .system_settings)) : settingKey js (row.read kind) = row.key := by
  obtain ⟨key, rest⟩ := row
  cases key <;> rfl

/-! ## Inserting -/

section

variable {schema : Schema} (js : Conversions)

/-- `DELETE FROM system_settings WHERE key = ?`. -/
def deleteSetting (session : Tables schema) (key : String) : Tables schema :=
  Function.update session .system_settings
    ((session .system_settings).filter fun row => row.key ≠ key)

/-- `insertTargetRow`; the answer says whether a row was inserted. -/
def insertTargetRow (kind : DatabaseKind) (session : Tables schema) (table : TableName)
    (record : List JsValue) : Tables schema × Bool :=
  if table = .system_settings ∧ settingKey js record = "" then (session, false)
  else
    let cleared := if table = .system_settings then deleteSetting session (settingKey js record)
      else session
    if ∀ value ∈ record, value = .undefined then (cleared, false)
    else
      let row := Row.store js (schema.columns table)
        (normalizeRecord js kind (schema.columns table) record)
      (Function.update cleared table (cleared table ++ [row]), true)

def insertAll (kind : DatabaseKind) (session : Tables schema)
    (rows : List (TableName × List JsValue)) : Tables schema :=
  rows.foldl (fun session row => (insertTargetRow js kind session row.1 row.2).1) session

/-- What `insertTargetRow` makes of a row: a setting replaces the one with its key. -/
def putRow (session : Tables schema) (table : TableName) (row : Row (schema.columns table)) : Tables schema :=
  let cleared := if table = .system_settings then deleteSetting session row.key else session
  Function.update cleared table (cleared table ++ [row])

theorem insert_read (source target : DatabaseKind) (session : Tables schema) (t : TableName)
    (row : Row (schema.columns t)) (hkey : t = .system_settings → row.key ≠ "") :
    insertTargetRow js target session t (row.read source) = (putRow session t row, true) := by
  have hdefined : ¬ ∀ value ∈ row.read source, value = .undefined := by
    obtain ⟨value, hmem, hne⟩ := exists_defined_read source (schema.columns_ne_nil t) row
    exact fun h => hne (h value hmem)
  have hcleared : (if t = .system_settings then deleteSetting session (settingKey js (row.read source))
      else session) = if t = .system_settings then deleteSetting session row.key else session := by
    by_cases ht : t = .system_settings
    · subst ht
      rw [settingKey_read]
    · rw [if_neg ht, if_neg ht]
  have hkept : ¬ (t = .system_settings ∧ settingKey js (row.read source) = "") := by
    rintro ⟨ht, hempty⟩
    subst ht
    rw [settingKey_read] at hempty
    exact hkey rfl hempty
  unfold insertTargetRow putRow
  rw [if_neg hkept, hcleared]
  dsimp only
  rw [if_neg hdefined, store_normalizeRecord]

theorem insertAll_table (source target : DatabaseKind) (t : TableName) :
    ∀ (rows : List (Row (schema.columns t))) (session : Tables schema),
      (t = .system_settings → (∀ row ∈ rows, row.key ≠ "") ∧ ((session t ++ rows).map Row.key).Nodup) →
      insertAll js target session (rows.map fun row => (t, row.read source))
        = Function.update session t (session t ++ rows)
  | [], session, _ => by simp [insertAll]
  | row :: rows, session, hkeys => by
    -- the first row replaces nothing
    have hput : putRow session t row = Function.update session t (session t ++ [row]) := by
      unfold putRow
      by_cases ht : t = .system_settings
      · subst ht
        have hfresh : ∀ r ∈ session .system_settings, r.key ≠ row.key := by
          have hnodup := (hkeys rfl).2
          rw [map_append, nodup_append] at hnodup
          intro r hr
          exact hnodup.2.2 _ (mem_map_of_mem hr) _ (by simp)
        have hall : (session .system_settings).filter (fun r => r.key ≠ row.key)
            = session .system_settings :=
          filter_eq_self.2 fun r hr => by simpa using hfresh r hr
        simp only [if_true, deleteSetting, hall, Function.update_eq_self]
      · simp only [if_neg ht]
    have hrest := insertAll_table source target t rows (Function.update session t (session t ++ [row]))
      fun ht => ⟨fun r hr => (hkeys ht).1 r (mem_cons_of_mem _ hr), by
        simpa [Function.update_self] using (hkeys ht).2⟩
    have hfirst := insert_read js source target session t row
      fun ht => (hkeys ht).1 row mem_cons_self
    rw [Function.update_self, Function.update_idem, append_assoc, singleton_append] at hrest
    rw [← hrest, ← hput, map_cons, insertAll, foldl_cons, hfirst]
    rfl

theorem insertAll_tables (source target : DatabaseKind) (rows : Tables schema)
    (hkeys : (∀ row ∈ rows .system_settings, row.key ≠ "") ∧ ((rows .system_settings).map Row.key).Nodup) :
    ∀ (ts : List TableName) (session : Tables schema), ts.Nodup → (∀ t ∈ ts, session t = []) →
      insertAll js target session (ts.flatMap fun t => (rows t).map fun row => (t, row.read source))
        = fun t => if t ∈ ts then rows t else session t
  | [], session, _, _ => by simp [insertAll]
  | t :: ts, session, hnodup, hempty => by
    have htable := insertAll_table js source target t (rows t) session fun ht => by
      subst ht
      rw [hempty _ mem_cons_self, nil_append]
      exact hkeys
    rw [hempty t mem_cons_self, nil_append] at htable
    have hnotin : t ∉ ts := (nodup_cons.1 hnodup).1
    have hrest := insertAll_tables source target rows hkeys ts (Function.update session t (rows t))
      (nodup_cons.1 hnodup).2 fun t' ht' => by
        have hne : t' ≠ t := fun heq => hnotin (heq ▸ ht')
        rw [Function.update_of_ne hne]
        exact hempty t' (mem_cons_of_mem _ ht')
    rw [flatMap_cons, insertAll, foldl_append]
    rw [insertAll] at htable hrest
    rw [htable, hrest]
    funext t'
    by_cases heq : t' = t
    · subst heq
      rw [if_neg hnotin, Function.update_self, if_pos mem_cons_self]
    · rw [Function.update_of_ne heq]
      simp only [mem_cons, heq, false_or]

end

end ForwardX.DatabaseSwitch
