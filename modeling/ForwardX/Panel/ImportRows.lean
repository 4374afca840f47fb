/-
Importing the snapshot of another panel, first part: how one row is rewritten.
-/
import ForwardX.Lib.Checks
import ForwardX.Lib.JsMap
import ForwardX.Panel.DatabaseCopy

namespace ForwardX.PanelImport

open Checks
open DatabaseSwitch

/-! ## Values and records -/

def truthy : JsValue → Bool
  | .undefined | .null => false
  | .bool b => b
  | .number n | .bigint n => decide (n ≠ 0)
  | .date _ => true
  | .text s => decide (s ≠ "")

def toNumberId (js : Conversions) (value : JsValue) : Option ℕ :=
  match js.numberOf value with
  | some id => if 0 < id then some id.toNat else none
  | none => none

inductive Column where
  | id | username | telegramId | telegramBindCode | telegramLoginCode
  | telegramBindCodeExpiresAt | telegramLoginCodeExpiresAt | userId | isOnline | lastHeartbeat
  | agentUpgradeRequested | agentUpgradeTargetVersion | agentUpgradeTargetDistribution
  | agentUpgradeReleaseVersion | agentUpgradeRequestedAt | agentToken | entryHostId | exitHostId
  | entryGroupId | exitGroupId | isRunning | activeMemberId | groupId | hostId | tunnelId | ruleId
  | forwardGroupId | forwardGroupRuleId | forwardGroupMemberId | portResourceGroupId
  | targetExternalProxyNodeId | xrayQuickConfigId | pendingDelete | sourcePort | targetIp
  | targetPort
  | other (name : String)
  deriving DecidableEq

/-- A row as an object: its columns and their values. -/
abbrev Record : Type := JsMap Column JsValue

def cell (row : Record) (c : Column) : JsValue := (row.get c).getD .undefined

theorem cell_set (row : Record) (c c' : Column) (v : JsValue) :
    cell (row.set c v) c' = if c' = c then v else cell row c' := by
  rw [cell, JsMap.get_set]
  split <;> rfl

theorem cell_delete {row : Record} {c c' : Column} (h : c' ≠ c) : cell (row.delete c) c' = cell row c' := by
  rw [cell, JsMap.get_delete, if_neg h]
  rfl

/-- A condition `column = value AND …`. -/
abbrev Where : Type := List (Column × JsValue)

/-! ## The ids of the destination -/

inductive ImportTable where
  | users | hosts | tunnels | forward_groups | forward_group_members | forward_rules
  deriving DecidableEq

/-- These, and the two other tables that a rule refers to. -/
inductive MapTable where
  | of (t : ImportTable)
  | xray_external_proxy_nodes
  | xray_quick_configs
  deriving DecidableEq

def ImportTable.name : ImportTable → String
  | .users => "users"
  | .hosts => "hosts"
  | .tunnels => "tunnels"
  | .forward_groups => "forward_groups"
  | .forward_group_members => "forward_group_members"
  | .forward_rules => "forward_rules"

def MapTable.name : MapTable → String
  | .of t => t.name
  | .xray_external_proxy_nodes => "xray_external_proxy_nodes"
  | .xray_quick_configs => "xray_quick_configs"

/-- For each table, the id in the destination for an id of the snapshot. -/
abbrev ImportMaps : Type := MapTable → JsMap ℕ ℕ

section

variable (js : Conversions)

def mapId (maps : ImportMaps) (table : MapTable) (value : JsValue) : Option ℕ :=
  match toNumberId js value with
  | some id => (maps table).get id
  | none => none

def mapRequiredId (maps : ImportMaps) (table : MapTable) (value : JsValue) : Except String ℕ :=
  match mapId js maps table value with
  | some (mapped + 1) => .ok (mapped + 1)
  | _ => .error ("依赖数据缺失：" ++ table.name ++ "#" ++ js.stringOf value)

/-- The values that `mapOptionalId` takes for no reference. -/
def isAbsent (value : JsValue) : Prop :=
  value = .null ∨ value = .undefined ∨ value = .text "" ∨ value = .number 0 ∨ value = .text "0"

instance isAbsent.decidable (value : JsValue) : Decidable (isAbsent value) :=
  inferInstanceAs (Decidable (_ ∨ _ ∨ _ ∨ _ ∨ _))

def mapOptionalId (maps : ImportMaps) (table : MapTable) (value : JsValue) : Except String (Option ℕ) :=
  if isAbsent value then .ok none else (mapRequiredId js maps table value).map some

def idValue : Option ℕ → JsValue
  | some id => .number id
  | none => .null

/-! ## `prepareImportRow` -/

structure PreparedImportRow where
  row : Record
  existingWhere : Option Where := none

/-- `sanitizeUserUniqueFields`; `exists` asks the destination for a user. -/
def sanitizeUserUniqueFields (find : Where → Option ℕ) (row : Record) : Record :=
  [Column.telegramId, .telegramBindCode, .telegramLoginCode].foldl (fun row key =>
    if truthy (cell row key) = true ∧ (find [(key, cell row key)]).isSome = true then
      let row := row.set key .null
      let row := if key = .telegramBindCode then row.set .telegramBindCodeExpiresAt .null else row
      if key = .telegramLoginCode then row.set .telegramLoginCodeExpiresAt .null else row
    else row) row

/-- `prepareImportRow`: the row for the destination, `none` for a row that is not imported,
and an error when a row it refers to was not imported. -/
def prepareImportRow (find : Where → Option ℕ) (table : ImportTable) (source : Record)
    (maps : ImportMaps) : Except String (Option PreparedImportRow) :=
  let row := source.delete .id
  match table with
  | .users =>
    if truthy (cell row .username) = false then .ok none
    else
      let row := sanitizeUserUniqueFields find row
      .ok (some { row, existingWhere := some [(.username, cell row .username)] })
  | .hosts => do
    let userId ← mapRequiredId js maps (.of .users) (cell source .userId)
    let row := row.set .userId (.number userId)
    let row := row.set .isOnline (.bool false)
    let row := row.set .lastHeartbeat .null
    let row := row.set .agentUpgradeRequested (.bool false)
    let row := row.set .agentUpgradeTargetVersion .null
    let row := row.set .agentUpgradeTargetDistribution .null
    let row := row.set .agentUpgradeReleaseVersion .null
    let row := row.set .agentUpgradeRequestedAt .null
    pure (some {
      row
      existingWhere := if truthy (cell row .agentToken) then some [(.agentToken, cell row .agentToken)] else none })
  | .tunnels => do
    let entryHostId ← mapRequiredId js maps (.of .hosts) (cell source .entryHostId)
    let exitHostId ← mapRequiredId js maps (.of .hosts) (cell source .exitHostId)
    let userId ← mapRequiredId js maps (.of .users) (cell source .userId)
    let row := row.set .entryHostId (.number entryHostId)
    let row := row.set .exitHostId (.number exitHostId)
    let row := row.set .userId (.number userId)
    pure (some { row := row.set .isRunning (.bool false) })
  | .forward_groups => do
    let userId ← mapRequiredId js maps (.of .users) (cell source .userId)
    let row := row.set .userId (.number userId)
    pure (some { row := row.set .activeMemberId .null })
  | .forward_group_members => do
    let groupId ← mapRequiredId js maps (.of .forward_groups) (cell source .groupId)
    let hostId ← mapOptionalId js maps (.of .hosts) (cell source .hostId)
    let tunnelId ← mapOptionalId js maps (.of .tunnels) (cell source .tunnelId)
    let row := row.set .groupId (.number groupId)
    let row := row.set .hostId (idValue hostId)
    let row := row.set .tunnelId (idValue tunnelId)
    pure (some { row := row.set .ruleId .null })
  | .forward_rules => do
    let hostId ← mapRequiredId js maps (.of .hosts) (cell source .hostId)
    let userId ← mapRequiredId js maps (.of .users) (cell source .userId)
    let tunnelId ← mapOptionalId js maps (.of .tunnels) (cell source .tunnelId)
    let forwardGroupId ← mapOptionalId js maps (.of .forward_groups) (cell source .forwardGroupId)
    let forwardGroupMemberId ←
      mapOptionalId js maps (.of .forward_group_members) (cell source .forwardGroupMemberId)
    let targetExternalProxyNodeId ←
      mapOptionalId js maps .xray_external_proxy_nodes (cell source .targetExternalProxyNodeId)
    let xrayQuickConfigId ← mapOptionalId js maps .xray_quick_configs (cell source .xrayQuickConfigId)
    let row := row.set .hostId (.number hostId)
    let row := row.set .userId (.number userId)
    let row := row.set .tunnelId (idValue tunnelId)
    let row := row.set .forwardGroupId (idValue forwardGroupId)
    let row := row.set .forwardGroupRuleId .null
    let row := row.set .forwardGroupMemberId (idValue forwardGroupMemberId)
    let row := row.set .targetExternalProxyNodeId (idValue targetExternalProxyNodeId)
    let row := row.set .xrayQuickConfigId (idValue xrayQuickConfigId)
    let row := row.set .isRunning (.bool false)
    let row := row.set .pendingDelete
      (if cell source .pendingDelete = .null ∨ cell source .pendingDelete = .undefined then .bool false
        else cell source .pendingDelete)
    pure (some {
      row
      existingWhere := if xrayQuickConfigId.isSome then
          some [(.xrayQuickConfigId, cell row .xrayQuickConfigId), (.hostId, cell row .hostId),
            (.sourcePort, cell row .sourcePort), (.targetIp, cell row .targetIp),
            (.targetPort, cell row .targetPort)]
        else none })

def migrationBoolColumns : ImportTable → List Column
  | .users => [.other "emailVerified", .other "accountEnabled", .other "canAddRules",
      .other "allowForwardXTunnel", .other "manualCanAddRules", .other "manualAllowForwardXTunnel",
      .other "trafficAutoReset", .other "telegramAnnouncementSubscribed", .other "twoFactorEnabled"]
  | .hosts => [.other "mimicAvailable", .agentUpgradeRequested, .other "telegramTrafficAlertEnabled",
      .other "telegramRenewalReminderEnabled", .other "trafficAutoReset", .other "ddnsEnabled",
      .other "blockHttp", .other "blockSocks", .other "blockTls", .isOnline]
  | .tunnels => [.other "trafficPaddingEnabled", .other "proxyProtocolReceive",
      .other "proxyProtocolSend", .other "proxyProtocolExitReceive", .other "proxyProtocolExitSend",
      .other "tcpFastOpen", .other "udpOverTcp", .other "blockHttp", .other "blockSocks",
      .other "blockTls", .other "loadBalanceEnabled", .other "isEnabled", .other "disabledByGroup",
      .isRunning]
  | .forward_groups => [.other "failoverRuntimeInheritanceEnabled", .other "proxyProtocolReceive",
      .other "proxyProtocolSend", .other "proxyProtocolExitReceive", .other "proxyProtocolExitSend",
      .other "tcpFastOpen", .other "zeroCopy", .other "udpOverTcp", .other "failoverEnabled",
      .other "chinaHealthCheckEnabled", .other "telegramSwitchNotifyEnabled",
      .other "ddnsAutoResolveEnabled", .other "autoFailback", .other "isEnabled"]
  | .forward_group_members => [.other "isEnabled"]
  | .forward_rules => [.other "isForwardGroupTemplate", .other "telegramErrorNotifyEnabled",
      .other "blockHttp", .other "blockSocks", .other "blockTls", .other "proxyProtocolReceive",
      .other "proxyProtocolSend", .other "proxyProtocolExitReceive", .other "proxyProtocolExitSend",
      .other "tcpFastOpen", .other "zeroCopy", .other "udpOverTcp", .other "isEnabled",
      .other "failoverEnabled", .other "autoFailback", .other "disabledByTunnel",
      .other "disabledByGroup", .other "disabledByUser", .isRunning, .pendingDelete]

def normalizeBool (row : Record) (c : Column) : Record :=
  match cell row c with
  | .undefined | .null => row
  | value => row.set c (.bool (decide (value = .bool true ∨ value = .number 1 ∨ value = .text "1") ||
      (trim (js.stringOf value)).toLower == "true"))

/-- `normalizeImportPayload`: no undefined values, and booleans where the table has them. -/
def normalizeImportPayload (table : ImportTable) (row : Record) : Record :=
  (migrationBoolColumns table).foldl (normalizeBool js) (row.filter fun _ value => value ≠ .undefined)

/-! ## References -/

def references : ImportTable → List (Column × ImportTable)
  | .users => []
  | .hosts => [(.userId, .users)]
  | .tunnels => [(.entryGroupId, .forward_groups), (.exitGroupId, .forward_groups),
      (.entryHostId, .hosts), (.exitHostId, .hosts), (.userId, .users)]
  | .forward_groups => [(.entryGroupId, .forward_groups), (.activeMemberId, .forward_group_members),
      (.userId, .users)]
  | .forward_group_members => [(.groupId, .forward_groups), (.hostId, .hosts), (.tunnelId, .tunnels),
      (.ruleId, .forward_rules)]
  | .forward_rules => [(.hostId, .hosts), (.tunnelId, .tunnels), (.forwardGroupId, .forward_groups),
      (.forwardGroupRuleId, .forward_rules), (.forwardGroupMemberId, .forward_group_members),
      (.portResourceGroupId, .forward_groups), (.userId, .users)]

/-- The reference that waits until all tables are imported. -/
def deferredColumn : ImportTable → Option Column
  | .forward_groups => some .activeMemberId
  | .forward_group_members => some .ruleId
  | .forward_rules => some .forwardGroupRuleId
  | _ => none

/-- The references that no case of `prepareImportRow` and no later pass mentions; all of
them are references to forward groups. -/
def keptColumns : ImportTable → List Column
  | .tunnels => [.entryGroupId, .exitGroupId]
  | .forward_groups => [.entryGroupId]
  | .forward_rules => [.portResourceGroupId]
  | _ => []

def rank : ImportTable → ℕ
  | .users => 0
  | .hosts => 1
  | .tunnels => 2
  | .forward_groups => 3
  | .forward_group_members => 4
  | .forward_rules => 5

/-- `new` refers to the row that the import made of the one that `old` refers to. -/
def Translated (ids : JsMap ℕ ℕ) (old new : JsValue) : Prop :=
  toNumberId js new = (toNumberId js old).bind ids.get ∧ (old = .null → new = .null)

theorem toNumberId_number (n : ℕ) : toNumberId js (.number n) = if n = 0 then none else some n := by
  rcases n with _ | n
  · rfl
  · simp [toNumberId, Conversions.numberOf]

variable {value : JsValue}

theorem toNumberId_of_absent (h : isAbsent value) : toNumberId js value = none := by
  have hzero : js.number "0" = some 0 := js.number_repr 0
  rcases h with rfl | rfl | rfl | rfl | rfl <;>
    simp [toNumberId, Conversions.numberOf, js.number_empty, hzero]

variable {maps : ImportMaps}

theorem translated_of_required {t : MapTable} {id : ℕ}
    (h : mapRequiredId js maps t value = .ok id) : Translated js (maps t) value (.number id) := by
  unfold mapRequiredId mapId at h
  rw [Translated, toNumberId_number]
  cases hid : toNumberId js value with
  | none => simp [hid] at h
  | some old =>
    rw [hid] at h
    dsimp only at h
    rw [Option.bind_some]
    split at h
    · rename_i hget
      obtain rfl := Except.ok.inj h
      refine ⟨by simp [hget], ?_⟩
      rintro rfl
      rw [toNumberId_of_absent js (.inl rfl)] at hid
      cases hid
    · cases h

theorem translated_of_optional {t : MapTable} {id : Option ℕ}
    (h : mapOptionalId js maps t value = .ok id) : Translated js (maps t) value (idValue id) := by
  unfold mapOptionalId at h
  by_cases habsent : isAbsent value
  · rw [if_pos habsent] at h
    obtain rfl := Except.ok.inj h
    exact ⟨by rw [toNumberId_of_absent js habsent]; rfl, fun _ => rfl⟩
  · rw [if_neg habsent, map_eq_ok] at h
    obtain ⟨mapped, hmapped, rfl⟩ := h
    exact translated_of_required js hmapped

theorem cell_normalizeBool {row : Record} {c c' : Column} (h : c' ≠ c) :
    cell (normalizeBool js row c) c' = cell row c' := by
  unfold normalizeBool
  split
  · rfl
  · rfl
  · rw [cell_set, if_neg h]

theorem cell_compact (row : Record) (c : Column) :
    cell (row.filter fun _ value => value ≠ .undefined) c = cell row c := by
  rw [cell, JsMap.get_filter, cell]
  cases row.get c with
  | none => rfl
  | some value => cases value <;> rfl

variable {t : ImportTable} {c : Column}

theorem cell_normalizeImportPayload (h : c ∉ migrationBoolColumns t)
    (row : Record) : cell (normalizeImportPayload js t row) c = cell row c := by
  rw [← cell_compact row c, normalizeImportPayload]
  generalize (row.filter fun _ value => value ≠ .undefined) = compacted
  generalize migrationBoolColumns t = columns at h
  induction columns generalizing compacted with
  | nil => rfl
  | cons column columns ih =>
    rw [List.mem_cons, not_or] at h
    rw [List.foldl_cons, ih _ h.2, cell_normalizeBool js h.1]

theorem reference_not_bool {t' : ImportTable} (h : (c, t') ∈ references t) :
    c ∉ migrationBoolColumns t := by
  have hall : ∀ ref ∈ references t, ref.1 ∉ migrationBoolColumns t := by
    cases t <;> decide
  exact hall _ h

theorem deferredColumn_reference (h : deferredColumn t = some c) :
    ∃ t', (c, t') ∈ references t ∧ c ∉ keptColumns t ∧ ∀ ref ∈ references t, ref.1 = c → ref.2 = t' := by
  cases t with
  | users | hosts | tunnels => cases h
  | forward_groups =>
    obtain rfl := Option.some.inj h
    exact ⟨.forward_group_members, by decide, by decide, by decide⟩
  | forward_group_members | forward_rules =>
    obtain rfl := Option.some.inj h
    exact ⟨.forward_rules, by decide, by decide, by decide⟩

theorem prepare_reference {find : Where → Option ℕ} {source : Record}
    {prepared : PreparedImportRow}
    (h : prepareImportRow js find t source maps = .ok (some prepared)) {t' : ImportTable}
    (href : (c, t') ∈ references t) :
    (c ∈ keptColumns t ∧ t' = .forward_groups ∧ cell prepared.row c = cell source c) ∨
    (deferredColumn t = some c ∧ cell prepared.row c = .null) ∨
    (c ∉ keptColumns t ∧ deferredColumn t ≠ some c ∧ rank t' < rank t ∧
      Translated js (maps (.of t')) (cell source c) (cell prepared.row c)) := by
  -- a column that the case does not touch keeps what the snapshot has
  have hkeep : ∀ column : Column, column ≠ .id → cell (source.delete .id) column = cell source column :=
    fun column hne => cell_delete hne
  cases t with
  | users => simp [references] at href
  | hosts =>
    simp only [prepareImportRow, bind_eq_ok, pure_eq_ok] at h
    obtain ⟨userId, huser, heq⟩ := h
    obtain rfl := Option.some.inj heq
    simp only [references, List.mem_singleton, Prod.mk.injEq] at href
    obtain ⟨rfl, rfl⟩ := href
    exact .inr (.inr ⟨by decide, by decide, by decide,
        by simpa [cell_set] using translated_of_required js huser⟩)
  | tunnels =>
    simp only [prepareImportRow, bind_eq_ok, pure_eq_ok] at h
    obtain ⟨entryHostId, hentry, exitHostId, hexit, userId, huser, heq⟩ := h
    obtain rfl := Option.some.inj heq
    simp only [references, List.mem_cons, List.not_mem_nil, or_false, Prod.mk.injEq] at href
    rcases href with ⟨rfl, rfl⟩ | ⟨rfl, rfl⟩ | ⟨rfl, rfl⟩ | ⟨rfl, rfl⟩ | ⟨rfl, rfl⟩
    · exact .inl ⟨by decide, rfl, by simp [cell_set, hkeep]⟩
    · exact .inl ⟨by decide, rfl, by simp [cell_set, hkeep]⟩
    · exact .inr (.inr ⟨by decide, by decide, by decide,
        by simpa [cell_set] using translated_of_required js hentry⟩)
    · exact .inr (.inr ⟨by decide, by decide, by decide,
        by simpa [cell_set] using translated_of_required js hexit⟩)
    · exact .inr (.inr ⟨by decide, by decide, by decide,
        by simpa [cell_set] using translated_of_required js huser⟩)
  | forward_groups =>
    simp only [prepareImportRow, bind_eq_ok, pure_eq_ok] at h
    obtain ⟨userId, huser, heq⟩ := h
    obtain rfl := Option.some.inj heq
    simp only [references, List.mem_cons, List.not_mem_nil, or_false, Prod.mk.injEq] at href
    rcases href with ⟨rfl, rfl⟩ | ⟨rfl, rfl⟩ | ⟨rfl, rfl⟩
    · exact .inl ⟨by decide, rfl, by simp [cell_set, hkeep]⟩
    · exact .inr (.inl ⟨rfl, by simp [cell_set]⟩)
    · exact .inr (.inr ⟨by decide, by decide, by decide,
        by simpa [cell_set] using translated_of_required js huser⟩)
  | forward_group_members =>
    simp only [prepareImportRow, bind_eq_ok, pure_eq_ok] at h
    obtain ⟨groupId, hgroup, hostId, hhost, tunnelId, htunnel, heq⟩ := h
    obtain rfl := Option.some.inj heq
    simp only [references, List.mem_cons, List.not_mem_nil, or_false, Prod.mk.injEq] at href
    rcases href with ⟨rfl, rfl⟩ | ⟨rfl, rfl⟩ | ⟨rfl, rfl⟩ | ⟨rfl, rfl⟩
    · exact .inr (.inr ⟨by decide, by decide, by decide,
        by simpa [cell_set] using translated_of_required js hgroup⟩)
    · exact .inr (.inr ⟨by decide, by decide, by decide,
        by simpa [cell_set] using translated_of_optional js hhost⟩)
    · exact .inr (.inr ⟨by decide, by decide, by decide,
        by simpa [cell_set] using translated_of_optional js htunnel⟩)
    · exact .inr (.inl ⟨rfl, by simp [cell_set]⟩)
  | forward_rules =>
    simp only [prepareImportRow, bind_eq_ok, pure_eq_ok] at h
    obtain ⟨hostId, hhost, userId, huser, tunnelId, htunnel, groupId, hgroup, memberId, hmember,
      _, _, _, _, heq⟩ := h
    obtain rfl := Option.some.inj heq
    simp only [references, List.mem_cons, List.not_mem_nil, or_false, Prod.mk.injEq] at href
    rcases href with
      ⟨rfl, rfl⟩ | ⟨rfl, rfl⟩ | ⟨rfl, rfl⟩ | ⟨rfl, rfl⟩ | ⟨rfl, rfl⟩ | ⟨rfl, rfl⟩ | ⟨rfl, rfl⟩
    · exact .inr (.inr ⟨by decide, by decide, by decide,
        by simpa [cell_set] using translated_of_required js hhost⟩)
    · exact .inr (.inr ⟨by decide, by decide, by decide,
        by simpa [cell_set] using translated_of_optional js htunnel⟩)
    · exact .inr (.inr ⟨by decide, by decide, by decide,
        by simpa [cell_set] using translated_of_optional js hgroup⟩)
    · exact .inr (.inl ⟨rfl, by simp [cell_set]⟩)
    · exact .inr (.inr ⟨by decide, by decide, by decide,
        by simpa [cell_set] using translated_of_optional js hmember⟩)
    · exact .inl ⟨by decide, rfl, by simp [cell_set, hkeep]⟩
    · exact .inr (.inr ⟨by decide, by decide, by decide,
        by simpa [cell_set] using translated_of_required js huser⟩)

end

end ForwardX.PanelImport
