/-
What the operations on the global port ledger do to it, as a relation.
-/
import ForwardX.Panel.PortReclaim

namespace ForwardX.Panel.GlobalPorts

open Checks Table Tx Call List

/-! ## Rows that pass the check -/

theorem version_ok {value v : ℤ} (h : version value = .ok v) :
    v = value ∧ 0 < value ∧ value < maxSafeInteger := by
  simp only [version, bind_eq_ok] at h
  obtain ⟨parsed, hparsed, h⟩ := h
  obtain ⟨rfl, hpos, -⟩ := positiveId_ok hparsed
  split at h
  · cases h
  · rename_i hsmall
    exact ⟨(pure_eq_ok.mp h).symm, hpos, not_le.mp hsmall⟩

theorem version_eq_ok {value : ℤ} (hpos : 0 < value) (hsmall : value < maxSafeInteger) :
    version value = .ok value := by
  simp only [version, positiveId, bind_eq_ok]
  refine ⟨value, if_pos ⟨hpos, hsmall.le⟩, ?_⟩
  rw [if_neg (not_le.mpr hsmall)]
  rfl

theorem allocationStatus_ok {column : Column AllocationStatus} {status : AllocationStatus}
    (h : allocationStatus column = .ok status) : column = .known status := by
  cases column with
  | known s => rw [Except.ok.inj h]
  | other _ => cases h

theorem ownerType_resource (type : PrimaryOwnerType) :
    ownerType (some (.known type.resource)) = .ok (some type) := by
  cases type <;> rfl

/-- What `allocationDto` asks of a row. -/
structure WellShaped (row : AllocationRow) (status : AllocationStatus) (type : Option PrimaryOwnerType) :
    Prop where
  status_eq : row.status = .known status
  type_eq : ownerType row.primaryOwnerType = .ok type
  shape : hasShape status type row
  id_pos : 0 < row.id
  id_le : row.id ≤ maxSafeInteger
  port_pos : 1 ≤ row.port
  port_le : row.port ≤ 65535
  version_pos : 0 < row.version
  version_lt : row.version < maxSafeInteger

theorem allocationDto_ok {row : AllocationRow} {dto : AllocationDto} (h : allocationDto row = .ok dto) :
    WellShaped row dto.status dto.primaryOwnerType ∧ dto.allocationId = row.id ∧ dto.port = row.port ∧
      dto.version = row.version ∧ dto.primaryOwnerTag = row.primaryOwnerTag := by
  simp only [allocationDto, bind_eq_ok] at h
  obtain ⟨status, hstatus, type, htype, h⟩ := h
  split at h
  · cases h
  · rename_i hshape
    simp only [bind_eq_ok, pure_eq_ok] at h
    obtain ⟨id, hid, port, hport, v, hversion, rfl⟩ := h
    obtain ⟨rfl, hidpos, hidle⟩ := positiveId_ok hid
    obtain ⟨rfl, hport₁, hport₂⟩ := listenerPort_ok hport
    obtain ⟨rfl, hversion₁, hversion₂⟩ := version_ok hversion
    exact ⟨⟨allocationStatus_ok hstatus, htype, by simpa using hshape, hidpos, hidle, hport₁, hport₂,
      hversion₁, hversion₂⟩, rfl, rfl, rfl, rfl⟩

theorem WellShaped.dto {row : AllocationRow} {status : AllocationStatus} {type : Option PrimaryOwnerType}
    (h : WellShaped row status type) :
    allocationDto row = .ok ⟨row.id, row.port, status, row.version, type, row.primaryOwnerTag,
      dateFromDatabase row.reservedUntil⟩ := by
  simp only [allocationDto, bind_eq_ok]
  refine ⟨status, by rw [h.status_eq]; rfl, type, h.type_eq, ?_⟩
  rw [if_neg (by simp [h.shape])]
  simp only [bind_eq_ok, pure_eq_ok]
  exact ⟨row.id, if_pos ⟨h.id_pos, h.id_le⟩, row.port, if_pos ⟨h.port_pos, h.port_le⟩, row.version,
    version_eq_ok h.version_pos h.version_lt, rfl⟩

theorem idText_length {id : ℤ} (h : id ≤ maxSafeInteger) : (idText id).length ≤ 16 := by
  rw [idText, decimalText, length_map, Nat.length_toDigits_le_iff (by omega) (by omega)]
  unfold maxSafeInteger at h
  omega

theorem ownerTag_length {owner : Owner} {tag : JsString} (h : ownerTag owner = .ok tag) : tag.length ≤ 128 := by
  have hbuilt : buildGlobalPortOwnerGroupTag owner = .ok tag := by
    unfold ownerTag at h
    split at h
    · rename_i hok
      rw [hok, Except.ok.inj h]
    · cases h
  have htagged : ∀ text : JsString, (if isOwnerTag text then .ok text
      else .error "GLOBAL_PORT_BACKFILL_INVALID_OWNER_TAG" : Except String JsString) = .ok tag →
      tag.length ≤ 128 := by
    intro text htext
    split at htext
    · rename_i hvalid
      obtain rfl := Except.ok.inj htext
      cases text with
      | nil => simp
      | cons u rest =>
        simp only [isOwnerTag, Bool.and_eq_true, decide_eq_true_eq] at hvalid
        simp only [length_cons]
        omega
    · cases htext
  have hnumeric : ∀ (label : JsString) (id : ℤ), label.length ≤ 13 →
      (positiveId "GLOBAL_PORT_BACKFILL_INVALID_OWNER" id >>= fun id => pure (label ++ idText id))
        = .ok tag → tag.length ≤ 128 := by
    intro label id hlabel hid
    simp only [bind_eq_ok, pure_eq_ok] at hid
    obtain ⟨id', hid', rfl⟩ := hid
    obtain ⟨rfl, -, hle⟩ := positiveId_ok hid'
    have hdigits := idText_length hle
    rw [length_append]
    omega
  cases owner with
  | xrayInbound text | managedService text | quickConfig text => exact htagged text hbuilt
  | forwardRule id | tunnel id => exact hnumeric _ id (by decide) hbuilt

theorem hex_length (bs : List UInt8) : (hex bs).length = 2 * bs.length := by
  induction bs with
  | nil => rfl
  | cons b bs ih =>
    rw [hex, flatMap_cons, length_append, length_cons, ← hex, ih]
    simp only [length_cons, length_nil]
    omega

theorem mem_hexDigits_getD {n : ℕ} (h : n < 16) : hexDigits.getD n 0 ∈ hexDigits := by
  have hlength : n < hexDigits.length := h
  rw [getD_eq_getElem?_getD, getElem?_eq_getElem hlength, Option.getD_some]
  exact getElem_mem hlength

theorem isTokenHash_tokenHash {sha256 : Sha256} {token hash : JsString}
    (h : tokenHash sha256 token = .ok hash) : isTokenHash hash := by
  unfold tokenHash at h
  split at h
  · obtain rfl := Except.ok.inj h
    rw [isTokenHash, hex_length, sha256.length_digest, Bool.and_eq_true, all_eq_true]
    refine ⟨rfl, ?_⟩
    intro u hu
    simp only [hex, mem_flatMap, mem_cons, not_mem_nil, or_false] at hu
    obtain ⟨b, -, rfl | rfl⟩ := hu
    · have hdigit : b.toNat / 16 < 16 := by
        have := b.toNat_lt
        omega
      simpa using mem_hexDigits_getD hdigit
    · simpa using mem_hexDigits_getD (Nat.mod_lt b.toNat (by omega))
  · cases h

/-! ## Changes of the ledger -/

def Ledger.setRow (l : Ledger) (id : ℤ) (f : AllocationRow → AllocationRow) : Ledger :=
  { l with allocations := updateWhere (fun row => row.id = id) f l.allocations }

def Ledger.dropReference (l : Ledger) (r : ReferenceRow) : Ledger :=
  { l with references := l.references.filter fun r' => ¬ (r'.id = r.id ∧ r'.referenceKey = r.referenceKey) }

/-- What an owner's references are, by its type and tag and their resource. -/
abbrev Naming := PrimaryOwnerType → JsString → ResourceType → ℤ → Prop

/-- An owning reference that an owner makes on the allocation. -/
structure OwningOf (Q : Naming) (id : ℤ) (type : PrimaryOwnerType) (tag : JsString) (r : ReferenceRow) :
    Prop where
  allocation : r.allocationId = id
  owner : r.ownerGroupTag = tag
  owning : r.isOwning
  named : ∃ resourceType, r.resourceType = .known resourceType ∧ Q type tag resourceType r.resourceId

inductive ReferencesInserted (P : ReferenceRow → Prop) : Ledger → Ledger → Prop where
  | refl (l : Ledger) : ReferencesInserted P l l
  | insert {l l₁ l₂ : Ledger} {r : ReferenceRow} (hP : P r) (hinsert : l.insertReferenceRow r = some l₁)
      (hrest : ReferencesInserted P l₁ l₂) : ReferencesInserted P l l₂

theorem ReferencesInserted.mono {P P' : ReferenceRow → Prop} (hP : ∀ r, P r → P' r) {l l' : Ledger}
    (h : ReferencesInserted P l l') : ReferencesInserted P' l l' := by
  induction h with
  | refl l => exact .refl l
  | insert hr hinsert _ ih => exact .insert (hP _ hr) hinsert ih

/-- The next version of a row is one that `allocationDto` takes. -/
def CanCount (row : AllocationRow) : Prop := row.version + 1 < maxSafeInteger

/-- **The moves of the ledger**, each at a time `now`. -/
inductive Move (Q : Naming) (now : ℤ) (l : Ledger) : Ledger → Prop where
  | reserveNew {port reservedUntil : ℤ} {owner : Owner} {tag hash : JsString} {row : AllocationRow}
      {l' : Ledger} (hport : 1000 ≤ port ∧ port ≤ 65535) (htag : ownerTag owner = .ok tag)
      (hhash : isTokenHash hash)
      (hinsert : l.insertAllocation (reservedRow port owner tag hash reservedUntil now) = some (row, l')) :
      Move Q now l l'
  | reserveFree {row : AllocationRow} {reservedUntil : ℤ} {owner : Owner} {tag hash : JsString}
      (hrow : row ∈ l.allocations) (hstatus : row.status = .known .free) (htag : ownerTag owner = .ok tag)
      (hhash : isTokenHash hash) (hversion : CanCount row) :
      Move Q now l (l.setRow row.id fun row => row.reserve owner tag hash reservedUntil now)
  | activate {row : AllocationRow} {type : PrimaryOwnerType} {tag : JsString} {l₁ : Ledger}
      (hrow : row ∈ l.allocations) (hstatus : row.status = .known .reserved)
      (htype : row.primaryOwnerType = some (.known type.resource)) (htag : row.primaryOwnerTag = some tag)
      (hinsert : ReferencesInserted (OwningOf Q row.id type tag) l l₁) (hversion : CanCount row) :
      Move Q now l (l₁.setRow row.id fun row => row.activate now)
  | add {row : AllocationRow} {type : PrimaryOwnerType} {tag : JsString} {r : ReferenceRow} {l₁ : Ledger}
      (hrow : row ∈ l.allocations) (hstatus : row.status = .known .active)
      (htype : row.primaryOwnerType = some (.known type.resource)) (htag : row.primaryOwnerTag = some tag)
      (hr : OwningOf Q row.id type tag r) (hinsert : l.insertReferenceRow r = some l₁)
      (hversion : CanCount row) : Move Q now l (l₁.setRow row.id fun row => row.touch now)
  | attach {row : AllocationRow} {r o : ReferenceRow} {l₁ : Ledger} (hrow : row ∈ l.allocations)
      (hstatus : row.status = .known .active)
      (htype : row.primaryOwnerType = some (.known .xrayInbound)) (hr : r.isOwning = false)
      (hid : r.allocationId = row.id) (ho : o ∈ l.references) (howning : o.isOwning)
      (hoid : o.allocationId = row.id) (hinsert : l.insertReferenceRow r = some l₁)
      (hversion : CanCount row) : Move Q now l (l₁.setRow row.id fun row => row.touch now)
  | drop {row : AllocationRow} {r o : ReferenceRow} (hrow : row ∈ l.allocations)
      (hstatus : row.status = .known .active) (hr : r ∈ l.references) (hid : r.allocationId = row.id)
      (ho : o ∈ l.references) (hne : o.id ≠ r.id) (howning : o.isOwning) (hoid : o.allocationId = row.id)
      (hversion : CanCount row) :
      Move Q now l ((l.dropReference r).setRow row.id fun row => row.touch now)
  | beginRelease {row : AllocationRow} {r : ReferenceRow} (hrow : row ∈ l.allocations)
      (hstatus : row.status = .known .active) (hr : r ∈ l.references) (hid : r.allocationId = row.id)
      (honly : ∀ o ∈ l.references, o.allocationId = row.id → o.id = r.id) (hversion : CanCount row) :
      Move Q now l (l.setRow row.id fun row => row.release now)
  | confirm {row : AllocationRow} {r : ReferenceRow} (hrow : row ∈ l.allocations)
      (hstatus : row.status = .known .releasing) (hr : r ∈ l.references) (hid : r.allocationId = row.id)
      (honly : ∀ o ∈ l.references, o.allocationId = row.id → o.id = r.id) (hversion : CanCount row) :
      Move Q now l ((l.dropReference r).setRow row.id fun row => row.quarantine now)
  | recover (hversion : ∀ row ∈ l.allocations, isExpiredReservation l now row → CanCount row) :
      Move Q now l { l with
        allocations := updateWhere (isExpiredReservation l now) (fun row => row.recover now) l.allocations }
  | startScan {row : AllocationRow} (hrow : row ∈ l.allocations) (hscanned : isScanned row.status)
      (hrefs : ∀ r ∈ l.references, r.allocationId ≠ row.id) (hversion : CanCount row) :
      Move Q now l (l.setRow row.id fun row => row.startScan now)
  | deferScan {row : AllocationRow} (hrow : row ∈ l.allocations) (hscanned : isScanned row.status)
      (hrefs : ∀ r ∈ l.references, r.allocationId ≠ row.id) (hversion : CanCount row) :
      Move Q now l (l.setRow row.id fun row => row.deferScan now)
  | free {row : AllocationRow} (hrow : row ∈ l.allocations) (hscanned : isScanned row.status)
      (hrefs : ∀ r ∈ l.references, r.allocationId ≠ row.id) (hversion : CanCount row) :
      Move Q now l (l.setRow row.id fun row => row.free now)
  | scanAgain {row : AllocationRow} {hasOccupied : Bool} (hrow : row ∈ l.allocations)
      (hscanned : isScanned row.status) (hrefs : ∀ r ∈ l.references, r.allocationId ≠ row.id)
      (hversion : CanCount row) :
      Move Q now l (l.setRow row.id fun row => row.scanAgain hasOccupied now)

/-- Moves one after the other, at times that satisfy `at'`. -/
def Moves (Q : Naming) (at' : ℤ → Prop) : Ledger → Ledger → Prop :=
  Relation.ReflTransGen fun l l' => ∃ now, at' now ∧ Move Q now l l'

/-! ## What single calls do -/

section

variable {db db' : PortDb}

variable {f : AllocationRow → AllocationRow} {status : AllocationStatus}

theorem setRow_schema {l : Ledger} (hschema : l.Schema) {id : ℤ}
    (hf : ∀ row, (f row).id = row.id ∧ (f row).port = row.port ∧
      (f row).allocationTag = row.allocationTag) : (l.setRow id f).Schema :=
  schema_updateWhere hschema hf

theorem eq_of_mem_setRow {l : Ledger} (hschema : l.Schema)
    {row row' : AllocationRow} (hrow : row ∈ l.allocations)
    (hrow' : row' ∈ (l.setRow row.id f).allocations) (hid : row'.id = row.id) : row' = f row := by
  obtain ⟨row₀, hrow₀, rfl⟩ := mem_updateWhere.mp hrow'
  by_cases hrow₀' : row₀.id = row.id
  · rw [eq_of_key_eq hschema.ids hrow₀ hrow hrow₀']
    simp
  · simp only [hrow₀', decide_false, Bool.false_eq_true, if_false] at hid

theorem updateAllocations_spec {p : AllocationRow → Bool} {n : ℕ}
    (h : Returns (updateAllocations p f) db n db') :
    n = db.ledger.allocations.countP p ∧ db' = { db with ledger :=
      { db.ledger with allocations := updateWhere p f db.ledger.allocations } } := by
  have hs := h.of_statement
  exact ⟨(congrArg Prod.fst hs).symm, (congrArg Prod.snd hs).symm⟩

theorem updateWhere_eq_of_countP {l : Ledger} (hschema : l.Schema) {p : AllocationRow → Bool} {id : ℤ}
    (hid : ∀ row, p row → row.id = id) (f : AllocationRow → AllocationRow)
    (hcount : l.allocations.countP p = 1) :
    ∃ row ∈ l.allocations, p row ∧
      { l with allocations := updateWhere p f l.allocations } = l.setRow row.id f := by
  have hpos : 0 < l.allocations.countP p := by omega
  obtain ⟨row, hrow, hp⟩ := countP_pos_iff.mp hpos
  refine ⟨row, hrow, hp, ?_⟩
  have hsame : updateWhere p f l.allocations = updateWhere (fun r => r.id = row.id) f l.allocations := by
    apply map_congr_left
    intro r hr
    by_cases hrid : r.id = row.id
    · rw [eq_of_key_eq hschema.ids hr hrow hrid]
      simp [hp]
    · have hnot : ¬ p r := fun hpr => hrid ((hid r hpr).trans (hid row hp).symm)
      simp [hrid, hnot]
  rw [Ledger.setRow, hsame]

theorem updateAllocation_spec (hschema : db.ledger.Schema) {id v : ℤ}
    {u : Unit} (h : Returns (updateAllocation id v status f) db u db') :
    ∃ row ∈ db.ledger.allocations, row.id = id ∧ row.version = v ∧ row.status = .known status ∧
      db' = { db with ledger := db.ledger.setRow row.id f } := by
  obtain ⟨n, db₁, hupdate, hthrow⟩ := h.of_bind
  obtain ⟨rfl, rfl⟩ := updateAllocations_spec hupdate
  obtain ⟨hcount, rfl⟩ := hthrow.of_throwIf
  obtain ⟨row, hrow, hp, hset⟩ := updateWhere_eq_of_countP hschema
    (fun row hp => (of_decide_eq_true hp).1) f (not_not.mp hcount)
  simp only [decide_eq_true_eq] at hp
  exact ⟨row, hrow, hp.1, hp.2.1, hp.2.2, by rw [hset]⟩

theorem updatedDto_spec {id : ℤ} {dto : AllocationDto} (h : Returns (updatedDto id) db dto db') :
    db' = db ∧ ∃ row ∈ db.ledger.allocations, row.id = id ∧ allocationDto row = .ok dto := by
  have h := h.bind_query
  obtain ⟨row, hread, h⟩ := h.bind_orThrow
  obtain ⟨hdto, rfl⟩ := h.of_rethrow
  exact ⟨rfl, row, byKey_mem hread, byKey_key hread, hdto⟩

theorem checkedUpdate_spec (hschema : db.ledger.Schema) {id v : ℤ} {dto : AllocationDto}
    (h : Returns (updateAllocation id v status f >>= fun _ => updatedDto id) db dto db') :
    ∃ row ∈ db.ledger.allocations, row.id = id ∧ row.version = v ∧ row.status = .known status ∧
      db' = { db with ledger := db.ledger.setRow row.id f } ∧ allocationDto (f row) = .ok dto := by
  obtain ⟨_, db₁, hupdate, hdto⟩ := h.of_bind
  obtain ⟨row, hrow, rfl, rfl, hstatus, rfl⟩ := updateAllocation_spec hschema hupdate
  obtain ⟨rfl, row', hrow', hid', hdto⟩ := updatedDto_spec hdto
  rw [eq_of_mem_setRow hschema hrow hrow' hid'] at hdto
  exact ⟨row, hrow, rfl, rfl, hstatus, rfl, hdto⟩

theorem insertAllocation_spec {row row' : AllocationRow} (h : Returns (insertAllocation row) db row' db') :
    ∃ l', db.ledger.insertAllocation row = some (row', l') ∧ db' = { db with ledger := l' } := by
  have h := h.bind_statement
  obtain ⟨hsome, rfl⟩ := h.of_orThrow
  cases hinsert : db.ledger.insertAllocation row with
  | none => simp [hinsert] at hsome
  | some inserted =>
    obtain ⟨row₁, l'⟩ := inserted
    simp only [hinsert, Option.some.injEq] at hsome
    obtain rfl := hsome
    exact ⟨l', rfl, by simp only⟩

theorem insertReferenceRow_spec {r : ReferenceRow} {u : Unit} (h : Returns (insertReferenceRow r) db u db') :
    ∃ l', db.ledger.insertReferenceRow r = some l' ∧ db' = { db with ledger := l' } := by
  have h := h.bind_statement
  obtain ⟨hsome, rfl⟩ := h.of_orThrow
  cases hinsert : db.ledger.insertReferenceRow r with
  | none => simp [hinsert] at hsome
  | some l' => exact ⟨l', rfl, by simp only⟩

theorem insertReference_spec {id : ℤ} {tag : JsString} {reference : ReferenceInput} {now : ℤ}
    {inserted : Bool} (h : Returns (insertReference id tag reference now) db inserted db') :
    (inserted = false ∧ db' = db) ∨ (inserted = true ∧ ∃ key l',
      db.ledger.insertReferenceRow (referenceRow key id tag reference now) = some l' ∧
      db' = { db with ledger := l' }) := by
  obtain ⟨key, -, h⟩ := h.bind_rethrow
  have h := h.bind_query
  split at h
  · obtain ⟨same, -, h⟩ := h.bind_rethrow
    obtain ⟨-, h⟩ := h.bind_throwIf
    obtain ⟨rfl, rfl⟩ := h.of_pure
    exact .inl ⟨rfl, rfl⟩
  · obtain ⟨_, db₁, hinsert, h⟩ := h.of_bind
    obtain ⟨rfl, rfl⟩ := h.of_pure
    obtain ⟨l', hl', rfl⟩ := insertReferenceRow_spec hinsert
    exact .inr ⟨rfl, key, l', hl', rfl⟩

theorem insertReferences_spec {id : ℤ} {tag : JsString} {now : ℤ} {references : List ReferenceInput}
    {u : Unit} (h : Returns (insertReferences id tag now references) db u db') :
    ∃ l', ReferencesInserted (fun r => ∃ reference ∈ references, ∃ key,
        r = referenceRow key id tag reference now) db.ledger l' ∧ db' = { db with ledger := l' } := by
  induction references generalizing db with
  | nil =>
    obtain ⟨-, rfl⟩ := Returns.of_pure h
    exact ⟨_, .refl _, rfl⟩
  | cons reference references ih =>
    obtain ⟨inserted, db₁, hinsert, h⟩ := Returns.of_bind h
    obtain ⟨l', hrest, rfl⟩ := ih h
    have hrest : ReferencesInserted (fun r => ∃ reference' ∈ reference :: references, ∃ key,
        r = referenceRow key id tag reference' now) db₁.ledger l' := by
      apply hrest.mono
      rintro r ⟨reference', hmem, hkey⟩
      exact ⟨reference', mem_cons_of_mem _ hmem, hkey⟩
    rcases insertReference_spec hinsert with ⟨-, rfl⟩ | ⟨-, key, l₁, hl₁, rfl⟩
    · exact ⟨l', hrest, rfl⟩
    · exact ⟨l', .insert ⟨reference, mem_cons_self, key, rfl⟩ hl₁ hrest, rfl⟩

theorem ownedRowById_spec {id v : ℤ} {owner : Owner} {tag : JsString}
    {row : AllocationRow} (h : Returns (ownedRowById id v status owner tag) db row db') :
    db' = db ∧ row ∈ db.ledger.allocations ∧ row.id = id ∧ row.version = v ∧
      row.status = .known status ∧ row.primaryOwnerType = some (.known owner.type.resource) ∧
      row.primaryOwnerTag = some tag := by
  have h := h.bind_query
  obtain ⟨row', hread, h⟩ := h.bind_orThrow
  obtain ⟨owned, howned, h⟩ := h.bind_rethrow
  obtain ⟨hthrow, h⟩ := h.bind_throwIf
  obtain ⟨rfl, rfl⟩ := h.of_pure
  obtain ⟨v', hv', howned⟩ := bind_eq_ok.mp howned
  split at howned
  · exact absurd (pure_eq_ok.mp howned).symm hthrow
  rename_i hversion
  obtain ⟨status', hstatus', howned⟩ := bind_eq_ok.mp howned
  obtain rfl := pure_eq_ok.mp howned
  simp only [Bool.not_eq_false, decide_eq_true_eq] at hthrow
  obtain ⟨rfl, htype, htag⟩ := hthrow
  obtain rfl := not_not.mp hversion
  exact ⟨rfl, byKey_mem hread, byKey_key hread, (version_ok hv').1.symm, allocationStatus_ok hstatus',
    htype, htag⟩

theorem expectedRow_spec {id v : ℤ} {row : AllocationRow} (h : Returns (expectedRow id v status) db row db') :
    db' = db ∧ row ∈ db.ledger.allocations ∧ row.id = id ∧ row.version = v ∧
      row.status = .known status := by
  have h := h.bind_query
  obtain ⟨row', hread, h⟩ := h.bind_orThrow
  obtain ⟨status', hstatus', h⟩ := h.bind_rethrow
  obtain ⟨hsame, h⟩ := h.bind_throwIf
  obtain ⟨v', hv', h⟩ := h.bind_rethrow
  obtain ⟨hsame', h⟩ := h.bind_throwIf
  obtain ⟨rfl, rfl⟩ := h.of_pure
  obtain rfl := not_not.mp hsame
  obtain rfl := not_not.mp hsame'
  exact ⟨rfl, byKey_mem hread, byKey_key hread, (version_ok hv').1.symm, allocationStatus_ok hstatus'⟩

theorem allocationForReference_spec {reference : ReferenceInput} {located : Option LocatedAllocation}
    (h : Returns (allocationForReference reference) db located db') : db' = db := by
  obtain ⟨key, -, h⟩ := h.bind_rethrow
  have h := h.bind_query
  split at h
  · exact h.of_pure.2
  · obtain ⟨dto, -, h⟩ := h.bind_rethrow
    exact h.of_pure.2

end

/-! ## The moves of every operation -/

section

variable {P : ReferenceRow → Prop} {l l' : Ledger} (h : ReferencesInserted P l l')

include h

theorem ReferencesInserted.schema (hschema : l.Schema) : l'.Schema := by
  induction h with
  | refl => exact hschema
  | insert _ hinsert _ ih => exact ih (schema_insertReferenceRow hschema hinsert)

theorem ReferencesInserted.allocations : l'.allocations = l.allocations := by
  induction h with
  | refl => rfl
  | insert _ hinsert _ ih => rw [ih, (insertReferenceRow_eq_some hinsert).1]

end

theorem dropReference_schema {l : Ledger} (hschema : l.Schema) (r : ReferenceRow) :
    (l.dropReference r).Schema where
  ids := hschema.ids
  ports := hschema.ports
  tags := hschema.tags
  referenceIds := hschema.referenceIds.sublist (filter_sublist.map _)
  referenceKeys := hschema.referenceKeys.sublist (filter_sublist.map _)

theorem Move.schema {Q : Naming} {now : ℤ} {l l' : Ledger} (h : Move Q now l l') (hschema : l.Schema) :
    l'.Schema := by
  cases h with
  | reserveNew _ _ _ hinsert => exact schema_insertAllocation hschema hinsert
  | reserveFree => exact setRow_schema hschema fun _ => ⟨rfl, rfl, rfl⟩
  | activate _ _ _ _ hinsert => exact setRow_schema (hinsert.schema hschema) fun _ => ⟨rfl, rfl, rfl⟩
  | add _ _ _ _ _ hinsert =>
    exact setRow_schema (schema_insertReferenceRow hschema hinsert) fun _ => ⟨rfl, rfl, rfl⟩
  | attach _ _ _ _ _ _ _ _ hinsert =>
    exact setRow_schema (schema_insertReferenceRow hschema hinsert) fun _ => ⟨rfl, rfl, rfl⟩
  | drop => exact setRow_schema (dropReference_schema hschema _) fun _ => ⟨rfl, rfl, rfl⟩
  | beginRelease => exact setRow_schema hschema fun _ => ⟨rfl, rfl, rfl⟩
  | confirm => exact setRow_schema (dropReference_schema hschema _) fun _ => ⟨rfl, rfl, rfl⟩
  | recover => exact schema_updateWhere hschema fun _ => ⟨rfl, rfl, rfl⟩
  | startScan | deferScan | free | scanAgain => exact setRow_schema hschema fun _ => ⟨rfl, rfl, rfl⟩

/-- The call moved the ledger, at times that satisfy `at'`, and left the other tables. -/
def MovesLedger (Q : Naming) (at' : ℤ → Prop) (db db' : PortDb) : Prop :=
  ∃ l', Moves Q at' db.ledger l' ∧ l'.Schema ∧ db' = { db with ledger := l' }

namespace MovesLedger

variable {Q : Naming} {at' : ℤ → Prop} {db db' db'' : PortDb}

theorem refl (hschema : db.ledger.Schema) : MovesLedger Q at' db db :=
  ⟨db.ledger, .refl, hschema, rfl⟩

theorem trans (h : MovesLedger Q at' db db') (h' : MovesLedger Q at' db' db'') : MovesLedger Q at' db db'' := by
  obtain ⟨l', hmoves, -, rfl⟩ := h
  obtain ⟨l'', hmoves', hschema', rfl⟩ := h'
  exact ⟨l'', hmoves.trans hmoves', hschema', rfl⟩

theorem single (hschema : db.ledger.Schema) {now : ℤ} {l' : Ledger} (hnow : at' now)
    (hmove : Move Q now db.ledger l') : MovesLedger Q at' db { db with ledger := l' } :=
  ⟨l', .single ⟨now, hnow, hmove⟩, hmove.schema hschema, rfl⟩

theorem schema (h : MovesLedger Q at' db db') : db'.ledger.Schema := by
  obtain ⟨l', -, hschema, rfl⟩ := h
  exact hschema

end MovesLedger

section

variable {Q : Naming} {at' : ℤ → Prop} {sha256 : Sha256} {db db' : PortDb} {now : ℤ}

theorem newListenerPort_ok {value port : ℤ} (h : newListenerPort value = .ok port) :
    1000 ≤ port ∧ port ≤ 65535 := by
  simp only [newListenerPort, bind_eq_ok] at h
  obtain ⟨parsed, hparsed, h⟩ := h
  split at h
  · cases h
  · rename_i hlarge
    obtain rfl := pure_eq_ok.mp h
    obtain ⟨rfl, -, hle⟩ := listenerPort_ok hparsed
    exact ⟨not_lt.mp hlarge, hle⟩

variable {dto : AllocationDto} {owner : Owner} {allocationId expectedVersion : ℤ}
    {reference : ReferenceInput} {hosts : List HostRow}

section

variable (hschema : db.ledger.Schema)

include hschema

theorem moves_reserve (hnow : at' now) {port ttlMs : ℤ} {token : JsString}
    (h : Returns (reserveGlobalPortAllocation sha256 port owner now ttlMs token) db dto db') :
    MovesLedger Q at' db db' := by
  obtain ⟨port', hport, h⟩ := h.bind_rethrow
  obtain ⟨-, h⟩ := h.bind_throwIf
  obtain ⟨tag, htag, h⟩ := h.bind_rethrow
  obtain ⟨hash, hhash, h⟩ := h.bind_rethrow
  obtain ⟨result, db₁, hreserve, h⟩ := h.of_bind
  obtain ⟨row, rfl, h⟩ := h.bind_orThrow
  obtain ⟨hdto, rfl⟩ := h.of_rethrow
  have hreserve := hreserve.of_transaction.bind_query
  split at hreserve
  · obtain ⟨row', db₂, hinsert, hread⟩ := hreserve.of_bind
    obtain ⟨-, rfl⟩ := hread.of_query
    obtain ⟨l', hl', rfl⟩ := insertAllocation_spec hinsert
    exact .single hschema hnow
      (.reserveNew (newListenerPort_ok hport) htag (isTokenHash_tokenHash hhash) hl')
  · rename_i existing hexisting
    obtain ⟨current, hcurrent, hreserve⟩ := hreserve.bind_rethrow
    obtain ⟨hfree, hreserve⟩ := hreserve.bind_throwIf
    obtain ⟨_, db₂, hupdate, hread⟩ := hreserve.of_bind
    obtain ⟨hread, rfl⟩ := hread.of_query
    obtain ⟨row', hrow', hid, -, hstatus, rfl⟩ := updateAllocation_spec hschema hupdate
    -- the row that is read back is the row that was updated
    rw [← hid] at hread
    obtain rfl := eq_of_mem_setRow hschema hrow' (byKey_mem hread.symm) (byKey_key hread.symm)
    exact .single hschema hnow (.reserveFree hrow' hstatus htag (isTokenHash_tokenHash hhash)
      (allocationDto_ok hdto).1.version_lt)

theorem moves_activate (hnow : at' now) {token : JsString} {references : List ReferenceInput}
    (hnamed : ∀ tag, ownerTag owner = .ok tag → ∀ r ∈ references,
      Q owner.type tag r.resourceType r.resourceId)
    (h : Returns (activateReservedGlobalPortAllocation sha256 allocationId expectedVersion owner token
      references now) db dto db') : MovesLedger Q at' db db' := by
  obtain ⟨id, hid, h⟩ := h.bind_rethrow
  obtain ⟨v, hv, h⟩ := h.bind_rethrow
  obtain ⟨tag, htag, h⟩ := h.bind_rethrow
  obtain ⟨howning, h⟩ := h.bind_throwIf
  obtain ⟨row, db₁, hread, hrest⟩ := h.of_transaction.of_bind
  obtain ⟨rfl, hrow, rfl, rfl, hstatus, htype, hprimary⟩ := ownedRowById_spec hread
  obtain ⟨_, db₂, hcheck, hactivate⟩ := hrest.of_bind
  obtain rfl : db₂ = db₁ := by
    obtain ⟨expiresAt, -, hcheck⟩ := hcheck.bind_orThrow
    obtain ⟨-, hcheck⟩ := hcheck.bind_throwIf
    obtain ⟨hash, -, hcheck⟩ := hcheck.bind_rethrow
    exact hcheck.of_throwIf.2
  obtain ⟨_, db₃, hinsert, hupdate⟩ := hactivate.of_bind
  obtain ⟨l₁, hl₁, rfl⟩ := insertReferences_spec hinsert
  have hschema₁ := hl₁.schema hschema
  obtain ⟨row', hrow', hid', -, -, rfl, hdto⟩ := checkedUpdate_spec hschema₁ hupdate
  have hrow₁ : row ∈ l₁.allocations := by rwa [hl₁.allocations]
  obtain rfl := eq_of_key_eq hschema₁.ids hrow' hrow₁ hid'
  refine .single hschema hnow (.activate hrow hstatus htype hprimary (hl₁.mono ?_)
    (allocationDto_ok hdto).1.version_lt)
  -- every reference that was given is owning, and named as its owner names them
  simp only [not_or, any_eq_true, not_exists, not_and, Bool.not_eq_true', Bool.not_eq_false] at howning
  rintro r ⟨reference, hmem, key, rfl⟩
  exact ⟨rfl, rfl, howning.2.2 reference hmem, reference.resourceType, rfl,
    hnamed tag htag reference hmem⟩

theorem countReference_spec {row : AllocationRow} {v : ℤ} {inserted : Bool}
    (h : Returns (countReference row row.id v now inserted) db dto db') :
    (inserted = false ∧ db' = db) ∨ (inserted = true ∧ ∃ row' ∈ db.ledger.allocations,
      row'.id = row.id ∧ CanCount row' ∧
      db' = { db with ledger := db.ledger.setRow row'.id fun row => row.touch now }) := by
  cases inserted with
  | false => exact .inl ⟨rfl, (h.of_rethrow).2⟩
  | true =>
    obtain ⟨row', hrow', hid', -, -, rfl, hdto⟩ := checkedUpdate_spec hschema h
    exact .inr ⟨rfl, row', hrow', hid', (allocationDto_ok hdto).1.version_lt, rfl⟩

theorem insertCounted_spec {row : AllocationRow} {v : ℤ} {tag : JsString} {inserted : Bool} {db₂ : PortDb}
    (hrow : row ∈ db.ledger.allocations) (hinsert : Returns (insertReference row.id tag reference now) db inserted db₂)
    (hcount : Returns (countReference row row.id v now inserted) db₂ dto db') : db' = db ∨ ∃ key l₁,
      db.ledger.insertReferenceRow (referenceRow key row.id tag reference now) = some l₁ ∧ CanCount row ∧
      db' = { db with ledger := l₁.setRow row.id fun row => row.touch now } := by
  rcases insertReference_spec hinsert with ⟨rfl, rfl⟩ | ⟨rfl, key, l₁, hl₁, rfl⟩
  · rcases countReference_spec hschema hcount with ⟨-, rfl⟩ | ⟨htrue, -⟩
    · exact .inl rfl
    · cases htrue
  · have hschema₁ := schema_insertReferenceRow hschema hl₁
    rcases countReference_spec hschema₁ hcount with ⟨hfalse, -⟩ | ⟨-, row', hrow', hid', hversion, rfl⟩
    · cases hfalse
    · have hrow₁ : row ∈ l₁.allocations := by rwa [(insertReferenceRow_eq_some hl₁).1]
      obtain rfl := eq_of_key_eq hschema₁.ids hrow' hrow₁ hid'
      exact .inr ⟨key, l₁, hl₁, hversion, rfl⟩

theorem moves_addActive (hnow : at' now)
    (hnamed : ∀ tag, ownerTag owner = .ok tag →
      Q owner.type tag reference.resourceType reference.resourceId)
    (h : Returns (addActiveGlobalPortOwningReference allocationId expectedVersion owner reference now)
      db dto db') : MovesLedger Q at' db db' := by
  obtain ⟨id, hid, h⟩ := h.bind_rethrow
  obtain ⟨v, hv, h⟩ := h.bind_rethrow
  obtain ⟨tag, htag, h⟩ := h.bind_rethrow
  obtain ⟨howning, h⟩ := h.bind_throwIf
  obtain ⟨row, db₁, hread, hrest⟩ := h.of_transaction.of_bind
  obtain ⟨rfl, hrow, rfl, rfl, hstatus, htype, hprimary⟩ := ownedRowById_spec hread
  obtain ⟨inserted, db₂, hinsert, hcount⟩ := hrest.of_bind
  rcases insertCounted_spec hschema hrow hinsert hcount with rfl | ⟨key, l₁, hl₁, hversion, rfl⟩
  · exact .refl hschema
  · rw [Bool.not_eq_false] at howning
    exact .single hschema hnow (.add hrow hstatus htype hprimary
      ⟨rfl, rfl, howning, reference.resourceType, rfl, hnamed tag htag⟩ hl₁ hversion)

end

theorem singleInboundId_some {ids : List ℤ} {id : ℤ} (h : singleInboundId ids = .ok (some id)) : ids ≠ [] := by
  rintro rfl
  simp [singleInboundId, collectEach, bind, Except.bind, pure, Except.pure] at h

theorem moves_attach (hschema : db.ledger.Schema) (hnow : at' now) {sourceOwner aliasOwner : Owner}
    (h : Returns (attachGlobalPortTargetAlias allocationId expectedVersion sourceOwner aliasOwner reference
      now) db dto db') : MovesLedger Q at' db db' := by
  obtain ⟨id, hid, h⟩ := h.bind_rethrow
  obtain ⟨v, hv, h⟩ := h.bind_rethrow
  obtain ⟨sourceTag, hsourceTag, h⟩ := h.bind_rethrow
  obtain ⟨aliasTag, haliasTag, h⟩ := h.bind_rethrow
  obtain ⟨hchecks, h⟩ := h.bind_throwIf
  simp only [not_or, not_not, Bool.not_eq_true] at hchecks
  obtain ⟨row, db₁, hread, hrest⟩ := h.of_transaction.of_bind
  obtain ⟨rfl, hrow, rfl, rfl, hstatus, htype, hprimary⟩ := ownedRowById_spec hread
  have hrest := hrest.bind_query
  obtain ⟨single, hsingle, hrest⟩ := hrest.bind_rethrow
  obtain ⟨inboundId, rfl, hrest⟩ := hrest.bind_orThrow
  obtain ⟨quickConfigId, -, hrest⟩ := hrest.bind_rethrow
  have hrest := hrest.bind_query
  obtain ⟨quickConfig, -, hrest⟩ := hrest.bind_orThrow
  obtain ⟨isAlias, -, hrest⟩ := hrest.bind_rethrow
  obtain ⟨-, hrest⟩ := hrest.bind_throwIf
  obtain ⟨inserted, db₂, hinsert, hcount⟩ := hrest.of_bind
  rw [hchecks.1] at htype
  -- the references of the inbound that were read are there
  obtain ⟨resourceId, hresourceId⟩ := exists_mem_of_ne_nil _ (singleInboundId_some hsingle)
  obtain ⟨o, ho, -⟩ := mem_map.mp hresourceId
  simp only [mem_filter, decide_eq_true_eq] at ho
  rcases insertCounted_spec hschema hrow hinsert hcount with rfl | ⟨key, l₁, hl₁, hversion, rfl⟩
  · exact .refl hschema
  · exact .single hschema hnow (.attach hrow hstatus htype hchecks.2.2.2.1 rfl ho.1 ho.2.2.2.2 ho.2.1
      hl₁ hversion)

theorem mem_remaining {l : Ledger} {id rid : ℤ} {o : ReferenceRow} :
    o ∈ (referencesOf id l).filter (fun r => r.id ≠ rid) ↔
      o ∈ l.references ∧ o.allocationId = id ∧ o.id ≠ rid := by
  simp only [referencesOf, mem_filter, decide_eq_true_eq, and_assoc]

section

variable (hschema : db.ledger.Schema) (hnow : at' now)

include hschema hnow

theorem moves_releaseReference {row : AllocationRow}
    (hrow : row ∈ db.ledger.allocations) (hstatus : row.status = .known .active) {r : ReferenceRow}
    (hr : r ∈ db.ledger.references) (hid : r.allocationId = row.id) {v : ℤ}
    (h : Returns (releaseReference row r row.id v r.referenceKey now) db dto db') :
    MovesLedger Q at' db db' := by
  obtain ⟨rid, hrid, h⟩ := h.bind_rethrow
  obtain ⟨rfl, -⟩ := positiveId_ok hrid
  have h := h.bind_query
  obtain ⟨hguard, h⟩ := h.bind_throwIf
  rcases h.of_ite with ⟨hremaining, hdrop⟩ | ⟨hremaining, hrelease⟩
  · have hupdate := hdrop.bind_execute
    have hany := not_not.mp (not_and.mp hguard hremaining)
    obtain ⟨o, hoRemaining, howning⟩ := any_eq_true.mp hany
    simp only [isPrimaryOwning, decide_eq_true_eq] at howning
    have hschema₁ := dropReference_schema hschema r
    obtain ⟨row', hrow', hid', -, -, rfl, hdto⟩ := checkedUpdate_spec hschema₁ hupdate
    obtain rfl := eq_of_key_eq hschema.ids hrow' hrow hid'
    obtain ⟨ho, hoid, hne⟩ := mem_remaining.mp hoRemaining
    exact .single hschema hnow
      (.drop hrow hstatus hr hid ho hne howning.2 hoid (allocationDto_ok hdto).1.version_lt)
  · obtain ⟨row', hrow', hid', -, -, rfl, hdto⟩ := checkedUpdate_spec hschema hrelease
    obtain rfl := eq_of_key_eq hschema.ids hrow' hrow hid'
    refine .single hschema hnow (.beginRelease hrow hstatus hr hid ?_ (allocationDto_ok hdto).1.version_lt)
    intro o ho hoid
    by_contra hne
    exact hremaining (ne_nil_of_mem (mem_remaining.mpr ⟨ho, hoid, hne⟩))

theorem moves_begin {expectedVersion : ℤ} {dto : Option AllocationDto}
    (h : Returns (beginGlobalPortReferenceRelease reference expectedVersion now) db dto db') :
    MovesLedger Q at' db db' := by
  obtain ⟨key, -, h⟩ := h.bind_rethrow
  obtain ⟨v, -, h⟩ := h.bind_rethrow
  have h := h.of_transaction.bind_query
  split at h
  · obtain ⟨-, rfl⟩ := h.of_pure
    exact .refl hschema
  · rename_i r hread
    obtain ⟨id, hid, h⟩ := h.bind_rethrow
    obtain ⟨row, db₁, hexpected, hrest⟩ := h.of_bind
    obtain ⟨rfl, hrow, hrowid, -, hstatus⟩ := expectedRow_spec hexpected
    obtain ⟨dto', db₂, hrelease, hend⟩ := hrest.of_bind
    obtain ⟨-, rfl⟩ := hend.of_pure
    obtain rfl := byKey_key hread
    have hrid : r.allocationId = row.id := by rw [hrowid, (positiveId_ok hid).1]
    rw [← hrowid] at hrelease
    exact moves_releaseReference hschema hnow hrow hstatus (byKey_mem hread) hrid hrelease

theorem moves_confirm {expectedVersion : ℤ}
    (h : Returns (confirmGlobalPortReferenceReleased reference expectedVersion now) db dto db') :
    MovesLedger Q at' db db' := by
  obtain ⟨key, -, h⟩ := h.bind_rethrow
  obtain ⟨v, -, h⟩ := h.bind_rethrow
  have h := h.of_transaction.bind_query
  obtain ⟨r, hread, h⟩ := h.bind_orThrow
  obtain ⟨id, hid, h⟩ := h.bind_rethrow
  obtain ⟨row, db₁, hexpected, hrest⟩ := h.of_bind
  obtain ⟨rfl, hrow, hrowid, -, hstatus⟩ := expectedRow_spec hexpected
  obtain ⟨rid, hrid, hrest⟩ := hrest.bind_rethrow
  have hrest := hrest.bind_query
  obtain ⟨hremaining, hdelete⟩ := hrest.bind_throwIf
  have hupdate := hdelete.bind_execute
  have hkey := byKey_key hread
  obtain ⟨hridEq, -⟩ := positiveId_ok hrid
  obtain ⟨hidEq, -⟩ := positiveId_ok hid
  rw [hridEq, ← hkey, ← hrowid] at hupdate
  have hschema₁ := dropReference_schema hschema r
  obtain ⟨row', hrow', hid', -, -, rfl, hdto⟩ := checkedUpdate_spec hschema₁ hupdate
  obtain rfl := eq_of_key_eq hschema.ids hrow' hrow hid'
  have hrowOf : r.allocationId = row'.id := by rw [hrowid, hidEq]
  refine .single hschema hnow (.confirm hrow hstatus (byKey_mem hread) hrowOf ?_
    (allocationDto_ok hdto).1.version_lt)
  intro o ho hoid
  by_contra hne
  refine hremaining (ne_nil_of_mem (mem_remaining.mpr ⟨ho, ?_, ?_⟩))
  · rw [hoid, hrowid]
  · rwa [hridEq]

theorem moves_confirmIfReleasing {releasing dto : Option AllocationDto}
    (h : Returns (confirmIfReleasing reference now releasing) db dto db') : MovesLedger Q at' db db' := by
  cases releasing with
  | none =>
    obtain ⟨-, rfl⟩ := h.of_pure
    exact .refl hschema
  | some releasing =>
    rcases h.of_ite with ⟨-, h⟩ | ⟨-, h⟩
    · obtain ⟨-, rfl⟩ := h.of_pure
      exact .refl hschema
    · obtain ⟨dto', db₁, hconfirm, hend⟩ := h.of_bind
      obtain ⟨-, rfl⟩ := hend.of_pure
      exact moves_confirm hschema hnow hconfirm

theorem moves_releaseAfterRuntimeCleanup {dto : Option AllocationDto}
    (h : Returns (releaseGlobalPortReferenceAfterRuntimeCleanup reference now) db dto db') :
    MovesLedger Q at' db db' := by
  obtain ⟨located, db₁, hlocated, hrest⟩ := h.of_transaction.of_bind
  obtain rfl := allocationForReference_spec hlocated
  split at hrest
  · obtain ⟨-, rfl⟩ := hrest.of_pure
    exact .refl hschema
  · obtain ⟨releasing, db₂, hbegin, hconfirm⟩ := hrest.of_bind
    have hmoves := moves_begin (Q := Q) hschema hnow hbegin
    exact hmoves.trans (moves_confirmIfReleasing hmoves.schema hnow hconfirm)

theorem moves_swapStaged {next staged : ReferenceInput}
    (hnamed : ∀ tag, ownerTag owner = .ok tag → Q owner.type tag next.resourceType next.resourceId)
    (h : Returns (swapStaged allocationId expectedVersion owner next staged now) db dto db') :
    MovesLedger Q at' db db' := by
  obtain ⟨withPublic, db₁, hadd, hrest⟩ := h.of_bind
  have hadded := moves_addActive hschema hnow hnamed hadd
  obtain ⟨withoutStaging, db₂, hbegin, hrest₂⟩ := hrest.of_bind
  have hdropped := moves_begin (Q := Q) hadded.schema hnow hbegin
  obtain ⟨dto', -, hend⟩ := hrest₂.bind_orThrow
  obtain ⟨-, hend⟩ := hend.bind_throwIf
  obtain ⟨-, rfl⟩ := hend.of_pure
  exact hadded.trans hdropped

theorem moves_promoteStaged
    {publicReference staged : ReferenceInput} {nextPublicReference : Option ReferenceInput}
    (hnamed : ∀ tag, ownerTag owner = .ok tag →
      Q owner.type tag (nextPublicReference.getD publicReference).resourceType
        (nextPublicReference.getD publicReference).resourceId)
    (h : Returns (promoteStagedGlobalPortOwningReference owner publicReference nextPublicReference staged
      now) db dto db') : MovesLedger Q at' db db' := by
  obtain ⟨tag, -, h⟩ := h.bind_rethrow
  obtain ⟨-, h⟩ := h.bind_throwIf
  obtain ⟨source, db₁, hsource, hrest⟩ := h.of_transaction.of_bind
  obtain rfl := allocationForReference_spec hsource
  obtain ⟨target, db₂, htarget, hrest₂⟩ := hrest.of_bind
  obtain rfl := allocationForReference_spec htarget
  obtain ⟨source', -, hrest₃⟩ := hrest₂.bind_orThrow
  obtain ⟨target', -, hrest₃⟩ := hrest₃.bind_orThrow
  obtain ⟨-, hrest₃⟩ := hrest₃.bind_throwIf
  obtain ⟨releasing, db₃, hbegin, hrest₄⟩ := hrest₃.of_bind
  have hbegun := moves_begin (Q := Q) hschema hnow hbegin
  obtain ⟨releasing', -, hrest₅⟩ := hrest₄.bind_orThrow
  obtain ⟨-, hrest₅⟩ := hrest₅.bind_throwIf
  obtain ⟨_, db₄, hconfirm, hswap⟩ := hrest₅.of_bind
  have hconfirmed := moves_confirmIfReleasing (Q := Q) hbegun.schema hnow hconfirm
  exact hbegun.trans (hconfirmed.trans (moves_swapStaged hconfirmed.schema hnow hnamed hswap))

theorem moves_promoteOrphaned {next staged : ReferenceInput}
    (hnamed : ∀ tag, ownerTag owner = .ok tag → Q owner.type tag next.resourceType next.resourceId)
    (h : Returns (promoteOrphanedStagedGlobalPortOwningReference owner next staged now) db dto db') :
    MovesLedger Q at' db db' := by
  obtain ⟨tag, -, h⟩ := h.bind_rethrow
  obtain ⟨-, h⟩ := h.bind_throwIf
  obtain ⟨target, db₁, htarget, hrest⟩ := h.of_transaction.of_bind
  obtain rfl := allocationForReference_spec htarget
  obtain ⟨target', -, hrest₂⟩ := hrest.bind_orThrow
  obtain ⟨-, hrest₂⟩ := hrest₂.bind_throwIf
  have hrest₃ := hrest₂.bind_query
  obtain ⟨-, hswap⟩ := hrest₃.bind_throwIf
  exact moves_swapStaged hschema hnow hnamed hswap

end

theorem moves_acquire (hschema : db.ledger.Schema) {later : ℤ} (hnow : at' now) (hlater : at' later)
    {port : ℤ} {token : JsString} (hnamed : ∀ tag, ownerTag owner = .ok tag →
      Q owner.type tag reference.resourceType reference.resourceId)
    (h : Returns (acquireGlobalPortOwningReference sha256 port owner reference now later token) db dto db') :
    MovesLedger Q at' db db' := by
  obtain ⟨port', -, h⟩ := h.bind_rethrow
  obtain ⟨existing, db₁, hexisting, hrest⟩ := h.of_bind
  obtain rfl := allocationForReference_spec hexisting
  have hreserve : ∀ {dto : AllocationDto}, Returns (acquireFresh.reserveThenActivate sha256 port' owner
      reference now later token) db₁ dto db' → MovesLedger Q at' db₁ db' := by
    intro dto h
    obtain ⟨reservation, db₂, hreserve, hactivate⟩ := h.of_bind
    have hreserved := moves_reserve (Q := Q) hschema hnow hreserve
    refine hreserved.trans (moves_activate hreserved.schema hlater ?_ hactivate)
    intro tag htag r hr
    obtain rfl := mem_singleton.mp hr
    exact hnamed tag htag
  split at hrest
  · obtain ⟨tag, -, hrest⟩ := hrest.bind_rethrow
    obtain ⟨-, hrest⟩ := hrest.bind_throwIf
    obtain ⟨-, rfl⟩ := hrest.of_pure
    exact .refl hschema
  · obtain ⟨current, db₂, hinspect, hfresh⟩ := hrest.of_bind
    obtain rfl : db₂ = db₁ := by
      have hinspect := hinspect.bind_query
      split at hinspect
      · exact hinspect.of_pure.2
      · obtain ⟨_, -, hinspect⟩ := hinspect.bind_rethrow
        exact hinspect.of_pure.2
    unfold acquireFresh at hfresh
    split at hfresh
    · rcases hfresh.of_ite with ⟨-, hadd⟩ | ⟨-, h⟩
      · exact moves_addActive hschema hnow hnamed hadd
      · exact hreserve h
    · exact hreserve hfresh

theorem moves_recover (hschema : db.ledger.Schema) (hnow : at' now)
    (hversion : ∀ row ∈ db.ledger.allocations, CanCount row) {n : ℕ}
    (h : Returns (recoverExpiredGlobalPortReservations now) db n db') : MovesLedger Q at' db db' := by
  have hs := congrArg Prod.snd h.of_statement
  subst hs
  exact .single hschema hnow (.recover fun row hrow _ => hversion row hrow)

/-! ## The moves of the scans -/

theorem updateScanned_spec (hschema : db.ledger.Schema) {id v : ℤ} {f : AllocationRow → AllocationRow}
    {row : AllocationRow} (hrow : row ∈ db.ledger.allocations) (hid : row.id = id) (hv : row.version = v)
    (hscanned : isScanned row.status) {n : ℕ} (h : Returns (updateScanned id v f) db n db') :
    n = 1 ∧ db' = { db with ledger := db.ledger.setRow row.id f } := by
  obtain ⟨rfl, rfl⟩ := updateAllocations_spec h
  have hcount : db.ledger.allocations.countP
      (fun row => row.id = id ∧ row.version = v ∧ isScanned row.status) = 1 := by
    refine countP_eq_one_of_key hschema.ids hrow (decide_eq_true ⟨hid, hv, hscanned⟩) ?_
    intro r hr
    exact (of_decide_eq_true hr).1.trans hid.symm
  obtain ⟨row', hrow', hp, hset⟩ := updateWhere_eq_of_countP hschema (fun row hp => (of_decide_eq_true hp).1) f hcount
  obtain rfl := eq_of_key_eq hschema.ids hrow' hrow ((of_decide_eq_true hp).1.trans hid.symm)
  exact ⟨hcount, by rw [hset]⟩

theorem referencesOf_eq_nil {l : Ledger} {id : ℤ} :
    referencesOf id l = [] ↔ ∀ r ∈ l.references, r.allocationId ≠ id := by
  simp [referencesOf, filter_eq_nil_iff]

def openedRun (sha256 : Sha256) (row : AllocationRow) (hosts : List HostRow) (now : ℤ) (db : PortDb) : ProbeRunRow where
  id := nextKey ProbeRunRow.id db.probeRuns
  allocationId := row.id
  allocationVersion := row.version + 1
  candidatePort := row.port
  status := .running
  hostSetHash := hostSetHash sha256 hosts
  expectedHostCount := hosts.length
  startedAt := epoch now
  expiresAt := epoch (now + runTtlMs)

theorem startProbeRun_spec (hschema : db.ledger.Schema) {allocationId port : ℤ}
    {started : Option StartedRun} (h : Returns (startProbeRun sha256 allocationId port hosts now) db started db') :
    (started = none ∧ db' = db) ∨ ∃ row ∈ db.ledger.allocations, row.id = allocationId ∧ row.port = port ∧
      isScanned row.status ∧ (∀ r ∈ db.ledger.references, r.allocationId ≠ row.id) ∧
      started = some ⟨nextKey ProbeRunRow.id db.probeRuns, row.version + 1, now + runTtlMs⟩ ∧
      db' = { db with
        ledger := db.ledger.setRow row.id fun row => row.startScan now
        probeRuns := db.probeRuns ++ [openedRun sha256 row hosts now db] } := by
  have h := h.of_transaction.bind_query
  split at h
  · exact .inl h.of_pure
  · rename_i row hread
    rcases h.of_ite with ⟨-, h⟩ | ⟨hstart, h⟩
    · exact .inl h.of_pure
    · have h := h.bind_query
      rcases h.of_ite with ⟨-, h⟩ | ⟨hrefs, hopen⟩
      · exact .inl h.of_pure
      · simp only [canStart, Bool.not_eq_true', Bool.not_eq_false, decide_eq_true_eq] at hstart
        have hid := byKey_key hread
        obtain ⟨n, db₁, hupdate, hrest⟩ := hopen.of_bind
        obtain ⟨rfl, rfl⟩ := updateScanned_spec hschema (byKey_mem hread) hid rfl hstart.2.2 hupdate
        rcases hrest.of_ite with ⟨hone, -⟩ | ⟨-, hinsert⟩
        · exact absurd rfl hone
        · have hend := hinsert.bind_statement
          obtain ⟨rfl, rfl⟩ := hend.of_pure
          have hnone : ∀ r ∈ db.ledger.references, r.allocationId ≠ row.id := by
            rw [hid]
            exact referencesOf_eq_nil.mp (length_eq_zero_iff.mp (not_not.mp hrefs))
          refine .inr ⟨row, byKey_mem hread, hid, hstart.1, hstart.2.2, hnone, rfl, ?_⟩
          rw [openedRun, hid, hstart.1]

/-- The answers that a run has, and what follows from them for the row. -/
def settledRow (results : List ProbeResultRow) (now : ℤ) (row : AllocationRow) : AllocationRow :=
  if results ≠ [] ∧ results.all fun r => r.status = .free then row.free now
  else row.scanAgain (results.any fun r => r.status = .occupied) now

/-- The probe runs after one of them was closed. -/
def closedRuns (runId : ℤ) (status : RunStatus) (now : ℤ) (runs : List ProbeRunRow) : List ProbeRunRow :=
  updateWhere (fun run => run.id = runId ∧ run.status = .running)
    (fun run => { run with status := status, finishedAt := some (epoch now) }) runs

theorem closeRun_spec {runId : ℤ} {status : RunStatus} {u : Unit}
    (h : Returns (closeRun runId status now) db u db') :
    db' = { db with probeRuns := closedRuns runId status now db.probeRuns } := h.of_execute

theorem finalizeProbeRun_spec (hschema : db.ledger.Schema) {runId allocationId v : ℤ}
    {leaseOwnerHash : JsString} {outcome : ScanOutcome}
    (h : Returns (finalizeProbeRun sha256 runId allocationId v hosts leaseOwnerHash now) db outcome db') :
    db' = { db with probeRuns := closedRuns runId .failed now db.probeRuns } ∨
      ∃ run ∈ db.probeRuns, ∃ row ∈ db.ledger.allocations, run.id = runId ∧ row.id = allocationId ∧
        validSnapshot sha256 (some run) (some row) v hosts leaseOwnerHash now db ∧ ∃ status,
        db' = { db with
          ledger := db.ledger.setRow row.id (settledRow (resultsOf runId db) now)
          probeRuns := closedRuns runId status now db.probeRuns } := by
  have h := h.of_transaction.bind_query.bind_query.bind_query.bind_query
  rcases h.of_ite with ⟨-, hfail⟩ | ⟨hvalid, hsettle⟩
  · obtain ⟨_, db₁, hclose, hend⟩ := hfail.of_bind
    obtain ⟨-, rfl⟩ := hend.of_pure
    exact .inl (closeRun_spec hclose)
  · rw [Bool.not_eq_true', Bool.not_eq_false] at hvalid
    cases hrun : byKey ProbeRunRow.id runId db.probeRuns with
    | none => simp [hrun, validSnapshot] at hvalid
    | some run =>
      cases hrow : byKey AllocationRow.id allocationId db.ledger.allocations with
      | none => simp [hrow, validSnapshot] at hvalid
      | some row =>
        rw [hrun, hrow] at hvalid
        refine .inr ⟨run, byKey_mem hrun, row, byKey_mem hrow, byKey_key hrun, byKey_key hrow, hvalid, ?_⟩
        simp only [validSnapshot, decide_eq_true_eq] at hvalid
        obtain ⟨n, db₁, hupdate, hrest⟩ := hsettle.of_bind
        obtain ⟨rfl, rfl⟩ := updateScanned_spec hschema (byKey_mem hrow) (byKey_key hrow)
          hvalid.2.2.2.2.1 hvalid.2.2.2.2.2.1 hupdate
        rcases hrest.of_ite with ⟨hone, -⟩ | ⟨-, hclosed⟩
        · exact absurd rfl hone
        · obtain ⟨_, db₂, hclose, hend⟩ := hclosed.of_bind
          obtain ⟨-, rfl⟩ := hend.of_pure
          exact ⟨_, closeRun_spec hclose⟩

theorem markDriftDeferred_spec (hschema : db.ledger.Schema) {allocationId : ℤ} {u : Unit}
    (h : Returns (markDriftDeferred allocationId now) db u db') :
    db' = db ∨ ∃ row ∈ db.ledger.allocations, row.id = allocationId ∧ isScanned row.status ∧
      (∀ r ∈ db.ledger.references, r.allocationId ≠ row.id) ∧
      db' = { db with ledger := db.ledger.setRow row.id fun row => row.deferScan now } := by
  obtain rfl := h.of_execute
  set p : AllocationRow → Bool := fun row => row.id = allocationId ∧ isScanned row.status ∧
    ¬ db.ledger.references.any fun r => r.allocationId = row.id
  by_cases hany : ∃ row ∈ db.ledger.allocations, p row
  · obtain ⟨row, hrow, hp⟩ := hany
    have hp' := of_decide_eq_true hp
    have hcount : db.ledger.allocations.countP p = 1 :=
      countP_eq_one_of_key hschema.ids hrow hp fun r hr => (of_decide_eq_true hr).1.trans hp'.1.symm
    obtain ⟨row', hrow', hp₂, hset⟩ := updateWhere_eq_of_countP hschema
      (fun r hr => (of_decide_eq_true hr).1) (fun row => row.deferScan now) hcount
    obtain rfl := eq_of_key_eq hschema.ids hrow' hrow ((of_decide_eq_true hp₂).1.trans hp'.1.symm)
    refine .inr ⟨row', hrow', hp'.1, hp'.2.1, ?_, by rw [hset]⟩
    simpa using hp'.2.2
  · have hsame : updateWhere p (fun row => row.deferScan now) db.ledger.allocations =
        db.ledger.allocations := by
      conv_rhs => rw [← map_id db.ledger.allocations]
      apply map_congr_left
      intro row hrow
      have hnot : ¬ p row := fun hp => hany ⟨row, hrow, hp⟩
      simp [hnot]
    exact .inl (by rw [hsame])

/-- Every row can be counted up once more. -/
def VersionsLeft (l : Ledger) : Prop := ∀ row ∈ l.allocations, CanCount row

section

variable (hschema : db.ledger.Schema) (hversions : VersionsLeft db.ledger) (hnow : at' now)

include hschema hversions hnow

theorem moves_startProbeRun {allocationId port : ℤ} {started : Option StartedRun}
    (h : Returns (startProbeRun sha256 allocationId port hosts now) db started db') :
    Moves Q at' db.ledger db'.ledger := by
  rcases startProbeRun_spec hschema h with ⟨-, rfl⟩ | ⟨row, hrow, -, -, hscanned, hrefs, -, rfl⟩
  · exact .refl
  · exact .single ⟨now, hnow, .startScan hrow hscanned hrefs (hversions row hrow)⟩

theorem moves_finalizeProbeRun {runId allocationId v : ℤ} {leaseOwnerHash : JsString} {outcome : ScanOutcome}
    (h : Returns (finalizeProbeRun sha256 runId allocationId v hosts leaseOwnerHash now) db outcome db') :
    Moves Q at' db.ledger db'.ledger := by
  rcases finalizeProbeRun_spec hschema h with rfl | ⟨run, -, row, hrow, -, -, hvalid, status, rfl⟩
  · exact .refl
  · simp only [validSnapshot, decide_eq_true_eq] at hvalid
    have hscanned := hvalid.2.2.2.2.2.1
    have hrefs := referencesOf_eq_nil.mp hvalid.2.2.2.2.2.2.1
    by_cases hfree : resultsOf runId db ≠ [] ∧ (resultsOf runId db).all fun r => r.status = .free
    · have hsettled : settledRow (resultsOf runId db) now = fun row => row.free now :=
        funext fun row => if_pos hfree
      simp only [hsettled]
      exact .single ⟨now, hnow, .free hrow hscanned hrefs (hversions row hrow)⟩
    · have hsettled : settledRow (resultsOf runId db) now = fun row =>
          row.scanAgain ((resultsOf runId db).any fun r => r.status = .occupied) now :=
        funext fun row => if_neg hfree
      simp only [hsettled]
      exact .single ⟨now, hnow, .scanAgain hrow hscanned hrefs (hversions row hrow)⟩

theorem moves_markDriftDeferred {allocationId : ℤ} {u : Unit}
    (h : Returns (markDriftDeferred allocationId now) db u db') : Moves Q at' db.ledger db'.ledger := by
  rcases markDriftDeferred_spec hschema h with rfl | ⟨row, hrow, -, hscanned, hrefs, rfl⟩
  · exact .refl
  · exact .single ⟨now, hnow, .deferScan hrow hscanned hrefs (hversions row hrow)⟩

end

end

end ForwardX.Panel.GlobalPorts
