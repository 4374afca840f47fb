/-
Filling the global port ledger from what listens: `backfillGlobalPortAllocations` of
`server/globalPortBackfill.ts`.

A run is one transaction. The backfill collects what listens, takes over what it finds, and disowns
what is gone. A second run sees the ledger that the first one left; the proof compares the two runs
row by row.
-/
import ForwardX.Panel.PortListeners

namespace ForwardX.Panel.GlobalPorts

open Checks Table List

/-! ## Owners -/

abbrev Owners := JsMap JsString PrimaryOwnerType

structure AllocationOwner where
  status : AllocationStatus
  primaryOwnerType : Option PrimaryOwnerType
  primaryOwnerTag : Option JsString

def allocationOwner (ownerTypes : Owners) : AllocationOwner :=
  match ownerTypes.entries with
  | [(tag, type)] => ⟨.active, some type, some tag⟩
  | _ => ⟨.legacyConflict, none, none⟩

/-- One more owner; the same tag with two types is an error. -/
def addOwner (owners : Owners) (tag : JsString) (type : PrimaryOwnerType) : Except String Owners :=
  if (owners.get tag).any fun existing => existing ≠ type then
    .error "GLOBAL_PORT_BACKFILL_OWNER_MISMATCH"
  else .ok (owners.set tag type)

abbrev OwnersById := JsMap ℤ Owners

def addExistingOwner (owners : OwnersById) (allocationId : ℤ) (tag : JsString) (type : PrimaryOwnerType) :
    Except String OwnersById := do
  let own ← addOwner ((owners.get allocationId).getD ∅) tag type
  pure (owners.set allocationId own)

/-- `String(allocation.primaryOwnerTag ?? "")`. -/
def AllocationRow.ownerTagText (row : AllocationRow) : JsString := row.primaryOwnerTag.getD []

def AllocationRow.resolvedOwnerType (row : AllocationRow) : Option PrimaryOwnerType :=
  row.primaryOwnerType.bind globalPortPrimaryOwnerTypeForResource

/-- The types that owner tags have elsewhere. An allocation sets the type of its owner;
a reference sets one where there is none, and a quick configuration in any case. -/
def ownerTypeHints (l : Ledger) : Owners :=
  let ofAllocations := l.allocations.foldl (fun hints row =>
    match row.resolvedOwnerType with
    | some type => if row.ownerTagText ≠ [] then hints.set row.ownerTagText type else hints
    | none => hints) ∅
  l.references.foldl (fun hints row =>
    match globalPortPrimaryOwnerTypeForResource row.resourceType with
    | some type =>
      if row.ownerGroupTag ≠ [] ∧ (type = .quickConfig ∨ !hints.has row.ownerGroupTag) then
        hints.set row.ownerGroupTag type
      else hints
    | none => hints) ofAllocations

/-- An owner to add: an allocation, a tag and its type. -/
abbrev OwnerEntry := ℤ × JsString × PrimaryOwnerType

def referenceOwner (l : Ledger) (row : ReferenceRow) : Except String (List OwnerEntry) :=
  if !row.isOwning then .ok []
  else do
    let allocationId ← positiveId (invalid "REFERENCE_ALLOCATION") row.allocationId
    match (JsMap.index AllocationRow.id l.allocations).get allocationId with
    | none => .error "GLOBAL_PORT_BACKFILL_DANGLING_REFERENCE"
    | some allocation =>
      let ownerType :=
        if allocation.ownerTagText = row.ownerGroupTag then allocation.resolvedOwnerType
        else ((ownerTypeHints l).get row.ownerGroupTag).or
          (globalPortPrimaryOwnerTypeForResource row.resourceType)
      match ownerType with
      | none => .error (invalid "OWNER")
      | some type =>
        if row.ownerGroupTag = [] then .error (invalid "OWNER")
        else .ok [(allocationId, row.ownerGroupTag, type)]

def primaryOwner (row : AllocationRow) : Except String (List OwnerEntry) :=
  match row.resolvedOwnerType with
  | none => if row.ownerTagText = [] then .ok [] else .error (invalid "PRIMARY_OWNER")
  | some type =>
    if row.ownerTagText = [] then .error (invalid "PRIMARY_OWNER")
    else (positiveId (invalid "ALLOCATION") row.id).map fun id => [(id, row.ownerTagText, type)]

/-- A loop over rows that adds the owner of each. -/
def addOwnersOf {ρ : Type} (owner : ρ → Except String (List OwnerEntry)) :
    List ρ → OwnersById → Except String OwnersById
  | [], owners => .ok owners
  | row :: rows, owners => do
    let found ← owner row
    let owners ← found.foldlM (fun owners e => addExistingOwner owners e.1 e.2.1 e.2.2) owners
    addOwnersOf owner rows owners

def existingOwnersByAllocationId (l : Ledger) : Except String OwnersById := do
  let owners ← addOwnersOf (referenceOwner l) l.references ∅
  addOwnersOf primaryOwner l.allocations owners

/-! ## The ledger as a run reads it -/

/-- What is read before anything is written. -/
structure Snapshot where
  allocationByPort : JsMap ℤ AllocationRow
  referenceByKey : JsMap JsString ReferenceRow
  existingOwners : OwnersById

def Ledger.snapshot (l : Ledger) : Except String Snapshot := do
  let existingOwners ← existingOwnersByAllocationId l
  pure ⟨JsMap.index AllocationRow.port l.allocations, JsMap.index ReferenceRow.referenceKey l.references,
    existingOwners⟩

def sameReference (row : ReferenceRow) (expected : HistoricalListenerReference) (allocationId : ℤ) : Bool :=
  row.allocationId = allocationId ∧ row.resourceType = .known expected.resourceType ∧
    row.resourceId = expected.resourceId ∧ row.ownerGroupTag = expected.ownerGroupTag ∧
    row.hostId = some expected.hostId ∧ row.network = .known expected.network ∧
    row.role = .known expected.role ∧ row.isOwning

/-- The slot under which a listener that is being moved is staged. -/
def stagedSlot (expected : HistoricalListenerReference) : Option Slot :=
  match expected.resourceType with
  | .tunnel | .tunnelExitNode | .tunnelHop => if expected.role = .mimic then some .mapped else some .primary
  | _ => expected.slot

/-- The checks in the key passed when the reference itself was collected. -/
def stagedReferenceKeyForDesired (expected : HistoricalListenerReference) : Except String JsString :=
  buildGlobalPortReferenceKey expected.resourceType expected.resourceId (some expected.hostId)
    expected.network .ownership (stagedSlot expected)

def sameStagedReference (row : ReferenceRow) (expected : HistoricalListenerReference)
    (allocationId : ℤ) : Bool :=
  stagedReferenceKeyForDesired expected = .ok row.referenceKey ∧ row.allocationId = allocationId ∧
    row.resourceType = .known expected.resourceType ∧ row.resourceId = expected.resourceId ∧
    row.ownerGroupTag = expected.ownerGroupTag ∧ row.hostId = some expected.hostId ∧
    row.network = .known expected.network ∧ row.role = .known .ownership ∧ row.isOwning

/-! ## The loop over the ports -/

structure Progress where
  ledger : Ledger
  allocationsCreated : ℕ := 0
  referencesCreated : ℕ := 0
  allocationsUpdated : ℕ := 0

def rowOwners (snapshot : Snapshot) (port : ℤ) : Except String Owners :=
  match snapshot.allocationByPort.get port with
  | none => .ok ∅
  | some allocation => (positiveId (invalid "ALLOCATION") allocation.id).map fun id =>
    (snapshot.existingOwners.get id).getD ∅

def portOwners (snapshot : Snapshot) (port : ℤ) (references : List HistoricalListenerReference) :
    Except String Owners := do
  let existing ← rowOwners snapshot port
  references.foldlM (fun owners r => addOwner owners r.ownerGroupTag r.ownerType) existing

/-- `… ?? null` of a column that the program wrote. -/
def ownerTypeColumn (type : Option PrimaryOwnerType) : Option (Column ResourceType) :=
  type.map fun type => .known type.resource

def AllocationRow.HasOwner (row : AllocationRow) (owner : AllocationOwner) : Prop :=
  row.status = .known owner.status ∧ row.primaryOwnerType = ownerTypeColumn owner.primaryOwnerType ∧
    row.primaryOwnerTag = owner.primaryOwnerTag

instance (row : AllocationRow) (owner : AllocationOwner) : Decidable (row.HasOwner owner) :=
  inferInstanceAs (Decidable (_ ∧ _ ∧ _))

def newAllocationRow (port : ℤ) (owner : AllocationOwner) (now : ℤ) : AllocationRow where
  id := 0
  allocationTag := newAllocationTag port
  port := port
  status := .known owner.status
  primaryOwnerType := ownerTypeColumn owner.primaryOwnerType
  primaryOwnerTag := owner.primaryOwnerTag
  version := 1
  createdAt := epoch now
  updatedAt := epoch now

/-- What the update writes to the row of a port whose owner has changed. -/
def AllocationRow.withOwner (row : AllocationRow) (owner : AllocationOwner) (now : ℤ) : AllocationRow :=
  { row with
    status := .known owner.status
    primaryOwnerType := ownerTypeColumn owner.primaryOwnerType
    primaryOwnerTag := owner.primaryOwnerTag
    reservationTokenHash := none
    reservedUntil := none
    scanNotBefore := none
    lastErrorCode := none
    version := row.version + 1
    updatedAt := epoch now }

def newReferenceRow (reference : HistoricalListenerReference) (allocationId now : ℤ) : ReferenceRow where
  id := 0
  referenceKey := reference.referenceKey
  allocationId := allocationId
  resourceType := .known reference.resourceType
  resourceId := reference.resourceId
  ownerGroupTag := reference.ownerGroupTag
  hostId := some reference.hostId
  network := .known reference.network
  role := .known reference.role
  isOwning := true
  createdAt := epoch now
  updatedAt := epoch now

/-- A listener has its reference, or is staged under another key, or gets one now. -/
def backfillReference (snapshot : Snapshot) (allocationId now : ℤ) (s : Progress)
    (reference : HistoricalListenerReference) : Except String Progress := do
  let stagedKey ← stagedReferenceKeyForDesired reference
  let isStaged := (snapshot.referenceByKey.get stagedKey).any fun staged =>
    sameStagedReference staged reference allocationId
  match snapshot.referenceByKey.get reference.referenceKey with
  | some existing =>
    if sameReference existing reference allocationId ∨ isStaged then pure s
    else .error "GLOBAL_PORT_BACKFILL_REFERENCE_MISMATCH"
  | none =>
    if snapshot.referenceByKey.has stagedKey then
      if isStaged then pure s else .error "GLOBAL_PORT_BACKFILL_REFERENCE_MISMATCH"
    else
      match s.ledger.insertReferenceRow (newReferenceRow reference allocationId now) with
      | none => .error "UNIQUE constraint failed"
      | some ledger => pure { s with ledger, referencesCreated := s.referencesCreated + 1 }

/-- The row of a port, inserted if there is none. -/
def ensureAllocation (snapshot : Snapshot) (port now : ℤ) (owner : AllocationOwner) (s : Progress) :
    Except String (AllocationRow × Bool × Progress) :=
  match snapshot.allocationByPort.get port with
  | some allocation => .ok (allocation, false, s)
  | none =>
    match s.ledger.insertAllocation (newAllocationRow port owner now) with
    | none => .error "UNIQUE constraint failed"
    | some (allocation, ledger) =>
      .ok (allocation, true, { s with ledger, allocationsCreated := s.allocationsCreated + 1 })

/-- One port. The map that the source keeps of the rows by port gets the new row, and no
port comes twice. -/
def backfillPort (snapshot : Snapshot) (now : ℤ) (s : Progress)
    (entry : ℤ × List HistoricalListenerReference) : Except String Progress := do
  let ownerTypes ← portOwners snapshot entry.1 entry.2
  let owner := allocationOwner ownerTypes
  let (allocation, created, s) ← ensureAllocation snapshot entry.1 now owner s
  let allocationId ← positiveId (invalid "ALLOCATION") allocation.id
  let s ← entry.2.foldlM (backfillReference snapshot allocationId now) s
  if created ∨ allocation.HasOwner owner then pure s
  else
    let allocations := updateWhere (fun row => row.id = allocationId) (fun row => row.withOwner owner now)
      s.ledger.allocations
    pure { s with ledger := { s.ledger with allocations }, allocationsUpdated := s.allocationsUpdated + 1 }

def desiredByPort (desired : List HistoricalListenerReference) : List (ℤ × List HistoricalListenerReference) :=
  (JsMap.group HistoricalListenerReference.port desired).entries.mergeSort fun a b => a.1 ≤ b.1

section

variable (listenerNetworks : InboundDefinition → Option (List ReferenceNetwork)) (t : ListenerTables)

def backfillGlobalPortAllocations (now : ℤ) (l : Ledger) : Except String Progress := do
  let desired ← collectHistoricalListenerReferences listenerNetworks t
  let snapshot ← l.snapshot
  (desiredByPort desired).foldlM (backfillPort snapshot now) { ledger := l }

/-- The ledger after a run: a run that throws is taken back. -/
def afterBackfill (now : ℤ) (l : Ledger) : Ledger :=
  match backfillGlobalPortAllocations listenerNetworks t now l with
  | .ok s => s.ledger
  | .error _ => l

end

/-! ## The owners that are found -/

theorem addOwner_get {owners owners' : Owners} {tag : JsString} {type : PrimaryOwnerType}
    (h : addOwner owners tag type = .ok owners') (tag' : JsString) (type' : PrimaryOwnerType) :
    owners'.get tag' = some type' ↔ owners.get tag' = some type' ∨ (tag' = tag ∧ type' = type) := by
  unfold addOwner at h
  split at h
  · cases h
  · rename_i hsame
    obtain rfl := Except.ok.inj h
    rw [JsMap.get_set]
    by_cases htag : tag' = tag
    · subst htag
      -- a type that is there already is this one
      have hold : owners.get tag' = some type' → type' = type := by
        intro hread
        simpa [hread] using hsame
      rw [if_pos rfl, Option.some.injEq]
      constructor
      · intro htype
        exact .inr ⟨rfl, htype.symm⟩
      · rintro (hread | ⟨-, htype⟩)
        · exact (hold hread).symm
        · exact htype.symm
    · simp [htag]

theorem addOwner_foldlM_get {refs : List HistoricalListenerReference} {owners owners' : Owners}
    (h : refs.foldlM (fun owners r => addOwner owners r.ownerGroupTag r.ownerType) owners = .ok owners')
    (tag : JsString) (type : PrimaryOwnerType) :
    owners'.get tag = some type ↔
      owners.get tag = some type ∨ ∃ r ∈ refs, r.ownerGroupTag = tag ∧ r.ownerType = type := by
  induction refs generalizing owners with
  | nil =>
    obtain rfl := pure_eq_ok.mp h
    simp
  | cons r refs ih =>
    rw [foldlM_cons, bind_eq_ok] at h
    obtain ⟨owners₁, hr, h⟩ := h
    rw [ih h, addOwner_get hr, exists_mem_cons_iff, or_assoc]
    simp only [@eq_comm _ tag, @eq_comm _ type]

/-- The type that a tag has among the owners of an allocation. -/
def ownerOf (owners : OwnersById) (id : ℤ) (tag : JsString) : Option PrimaryOwnerType :=
  ((owners.get id).getD ∅).get tag

variable {owners owners' : OwnersById}

theorem addExistingOwner_get {e : OwnerEntry}
    (h : addExistingOwner owners e.1 e.2.1 e.2.2 = .ok owners') (id : ℤ) (tag : JsString)
    (type : PrimaryOwnerType) :
    ownerOf owners' id tag = some type ↔ ownerOf owners id tag = some type ∨ (id, tag, type) = e := by
  simp only [addExistingOwner, bind_eq_ok, pure_eq_ok] at h
  obtain ⟨own, hown, rfl⟩ := h
  obtain ⟨id', tag', type'⟩ := e
  rw [ownerOf, JsMap.get_set]
  by_cases hid : id = id'
  · subst hid
    rw [if_pos rfl, Option.getD_some, addOwner_get hown]
    simp [ownerOf]
  · simp [ownerOf, hid]

theorem addExistingOwner_foldlM_get {found : List OwnerEntry}
    (h : found.foldlM (fun owners e => addExistingOwner owners e.1 e.2.1 e.2.2) owners = .ok owners')
    (id : ℤ) (tag : JsString) (type : PrimaryOwnerType) :
    ownerOf owners' id tag = some type ↔ ownerOf owners id tag = some type ∨ (id, tag, type) ∈ found := by
  induction found generalizing owners with
  | nil =>
    obtain rfl := pure_eq_ok.mp h
    simp
  | cons e found ih =>
    rw [foldlM_cons, bind_eq_ok] at h
    obtain ⟨owners₁, he, h⟩ := h
    rw [ih h, addExistingOwner_get he, mem_cons, or_assoc]

section

variable {ρ : Type} {owner : ρ → Except String (List OwnerEntry)} {rows : List ρ}
  {owners owners' : OwnersById}

theorem addOwnersOf_get (h : addOwnersOf owner rows owners = .ok owners') (id : ℤ) (tag : JsString)
    (type : PrimaryOwnerType) :
    ownerOf owners' id tag = some type ↔ ownerOf owners id tag = some type ∨
      ∃ row ∈ rows, ∃ found, owner row = .ok found ∧ (id, tag, type) ∈ found := by
  induction rows generalizing owners with
  | nil =>
    obtain rfl := Except.ok.inj h
    simp
  | cons row rows ih =>
    simp only [addOwnersOf, bind_eq_ok] at h
    obtain ⟨found, hfound, owners₁, hadd, h⟩ := h
    rw [ih h, addExistingOwner_foldlM_get hadd, exists_mem_cons_iff, or_assoc]
    simp [hfound]

theorem ok_of_addOwnersOf (h : addOwnersOf owner rows owners = .ok owners') {row : ρ} (hrow : row ∈ rows) :
    ∃ found, owner row = .ok found := by
  induction rows generalizing owners with
  | nil => cases hrow
  | cons first rows ih =>
    simp only [addOwnersOf, bind_eq_ok] at h
    obtain ⟨found, hfound, owners₁, -, h⟩ := h
    rcases mem_cons.mp hrow with rfl | hrow
    · exact ⟨found, hfound⟩
    · exact ih h hrow

end

section

variable {l : Ledger} {owners : OwnersById}

def OwningTag (l : Ledger) (id : ℤ) (tag : JsString) : Prop :=
  ∃ r ∈ l.references, r.isOwning ∧ r.allocationId = id ∧ r.ownerGroupTag = tag

/-- The row of the allocation names the tag as its owner. -/
def PrimaryTag (l : Ledger) (id : ℤ) (tag : JsString) : Prop :=
  ∃ row ∈ l.allocations, row.id = id ∧ row.primaryOwnerTag = some tag ∧ tag ≠ []

section

variable {r : ReferenceRow} {found : List OwnerEntry} (h : referenceOwner l r = .ok found)

include h

theorem referenceOwner_owning (howning : r.isOwning) :
    (∃ type, found = [(r.allocationId, r.ownerGroupTag, type)]) ∧
      ((JsMap.index AllocationRow.id l.allocations).get r.allocationId).isSome := by
  simp only [referenceOwner, howning, Bool.not_true, Bool.false_eq_true, if_false, bind_eq_ok] at h
  obtain ⟨id, hid, h⟩ := h
  obtain rfl := (positiveId_ok hid).1
  split at h
  · cases h
  · rename_i allocation hallocation
    split at h
    · cases h
    · rename_i type _
      split at h
      · cases h
      · exact ⟨⟨type, (Except.ok.inj h).symm⟩, by rw [hallocation]; rfl⟩

theorem referenceOwner_not_owning (howning : ¬ r.isOwning) : found = [] := by
  simp only [referenceOwner, Bool.not_eq_true _ ▸ howning, Bool.not_false, if_true] at h
  exact (Except.ok.inj h).symm

end

variable {row : AllocationRow}

theorem primaryOwner_cases {found : List OwnerEntry} (h : primaryOwner row = .ok found) :
    (found = [] ∧ row.ownerTagText = [] ∧ row.resolvedOwnerType = none) ∨
      ∃ type, found = [(row.id, row.ownerTagText, type)] ∧ row.ownerTagText ≠ [] ∧
        row.resolvedOwnerType = some type := by
  unfold primaryOwner at h
  split at h
  · rename_i htype
    split at h
    · rename_i htag
      exact .inl ⟨(Except.ok.inj h).symm, htag, htype⟩
    · cases h
  · rename_i type htype
    split at h
    · cases h
    · rename_i htag
      obtain ⟨id, hid, rfl⟩ := map_eq_ok.mp h
      rw [(positiveId_ok hid).1]
      exact .inr ⟨type, rfl, htag, htype⟩

theorem ownerTagText_eq_iff {tag : JsString} (htag : tag ≠ []) :
    row.ownerTagText = tag ↔ row.primaryOwnerTag = some tag := by
  unfold AllocationRow.ownerTagText
  cases row.primaryOwnerTag with
  | none => simp [Ne.symm htag]
  | some tag' => simp

section

variable (h : existingOwnersByAllocationId l = .ok owners)

include h

theorem ownerOf_existing (id : ℤ) (tag : JsString) (type : PrimaryOwnerType) :
    ownerOf owners id tag = some type ↔
      (∃ r ∈ l.references, ∃ found, referenceOwner l r = .ok found ∧ (id, tag, type) ∈ found) ∨
        ∃ row ∈ l.allocations, ∃ found, primaryOwner row = .ok found ∧ (id, tag, type) ∈ found := by
  simp only [existingOwnersByAllocationId, bind_eq_ok] at h
  obtain ⟨ofReferences, hreferences, hallocations⟩ := h
  rw [addOwnersOf_get hallocations, addOwnersOf_get hreferences]
  simp [ownerOf]

theorem referenceOwner_ok {r : ReferenceRow}
    (hr : r ∈ l.references) : ∃ found, referenceOwner l r = .ok found := by
  simp only [existingOwnersByAllocationId, bind_eq_ok] at h
  obtain ⟨ofReferences, hreferences, -⟩ := h
  exact ok_of_addOwnersOf hreferences hr

theorem primaryOwner_ok (hrow : row ∈ l.allocations) : ∃ found, primaryOwner row = .ok found := by
  simp only [existingOwnersByAllocationId, bind_eq_ok] at h
  obtain ⟨ofReferences, -, hallocations⟩ := h
  exact ok_of_addOwnersOf hallocations hrow

theorem ownerOf_existing_isSome (id : ℤ) (tag : JsString) :
    (∃ type, ownerOf owners id tag = some type) ↔ OwningTag l id tag ∨ PrimaryTag l id tag := by
  simp only [ownerOf_existing h, exists_or]
  apply or_congr
  · constructor
    · rintro ⟨type, r, hr, found, hfound, hmem⟩
      by_cases howning : r.isOwning
      · obtain ⟨⟨type', rfl⟩, -⟩ := referenceOwner_owning hfound howning
        obtain ⟨rfl, rfl, rfl⟩ : id = r.allocationId ∧ tag = r.ownerGroupTag ∧ type = type' := by
          simpa using hmem
        exact ⟨r, hr, howning, rfl, rfl⟩
      · rw [referenceOwner_not_owning hfound howning] at hmem
        cases hmem
    · rintro ⟨r, hr, howning, rfl, rfl⟩
      obtain ⟨found, hfound⟩ := referenceOwner_ok h hr
      obtain ⟨⟨type, rfl⟩, -⟩ := referenceOwner_owning hfound howning
      exact ⟨type, r, hr, _, hfound, mem_singleton_self _⟩
  · constructor
    · rintro ⟨type, row, hrow, found, hfound, hmem⟩
      rcases primaryOwner_cases hfound with ⟨rfl, -⟩ | ⟨type', rfl, htag, -⟩
      · cases hmem
      · obtain ⟨rfl, rfl, rfl⟩ : id = row.id ∧ tag = row.ownerTagText ∧ type = type' := by
          simpa using hmem
        exact ⟨row, hrow, rfl, (ownerTagText_eq_iff htag).mp rfl, htag⟩
    · rintro ⟨row, hrow, rfl, htag, hne⟩
      obtain ⟨found, hfound⟩ := primaryOwner_ok h hrow
      have htext := (ownerTagText_eq_iff hne).mpr htag
      rcases primaryOwner_cases hfound with ⟨-, hnil, -⟩ | ⟨type, rfl, -, -⟩
      · exact absurd (htext.symm.trans hnil) hne
      · exact ⟨type, row, hrow, _, hfound, by rw [htext]; exact mem_singleton_self _⟩

theorem ownerOf_primary (hrow : row ∈ l.allocations) {type : PrimaryOwnerType} {tag : JsString}
    (howner : row.HasOwner ⟨.active, some type, some tag⟩) :
    ownerOf owners row.id tag = some type ∧ PrimaryTag l row.id tag := by
  obtain ⟨-, htype, htag⟩ := howner
  have hresolved : row.resolvedOwnerType = some type := by
    simp only [AllocationRow.resolvedOwnerType, htype, ownerTypeColumn, Option.map_some, Option.bind_some,
      globalPortPrimaryOwnerTypeForResource_resource]
  have htext : row.ownerTagText = tag := by rw [AllocationRow.ownerTagText, htag, Option.getD_some]
  obtain ⟨found, hfound⟩ := primaryOwner_ok h hrow
  rcases primaryOwner_cases hfound with ⟨-, -, hnone⟩ | ⟨type', rfl, hne, htype'⟩
  · rw [hresolved] at hnone
    cases hnone
  · rw [hresolved] at htype'
    obtain rfl := Option.some.inj htype'
    rw [htext] at hne hfound
    refine ⟨?_, row, hrow, rfl, htag, hne⟩
    rw [ownerOf_existing h]
    exact .inr ⟨row, hrow, _, hfound, mem_singleton_self _⟩

end

theorem allocation_of_owning (hschema : l.Schema) (h : existingOwnersByAllocationId l = .ok owners)
    {r : ReferenceRow} (hr : r ∈ l.references) (howning : r.isOwning) :
    ∃ row ∈ l.allocations, row.id = r.allocationId := by
  obtain ⟨found, hfound⟩ := referenceOwner_ok h hr
  obtain ⟨row, hrow⟩ := Option.isSome_iff_exists.mp (referenceOwner_owning hfound howning).2
  exact ⟨row, (JsMap.get_index_eq_some_iff hschema.ids).mp hrow⟩

end

/-! ## The owner of a port -/

theorem allocationOwner_of_single {owners : Owners} {tag : JsString} {type : PrimaryOwnerType}
    (hread : owners.get tag = some type) (hsingle : ∀ tag' type', owners.get tag' = some type' → tag' = tag) :
    allocationOwner owners = ⟨.active, some type, some tag⟩ := by
  have hmem := JsMap.get_eq_some_iff.mp hread
  have hall : ∀ e ∈ owners.entries, e = (tag, type) := by
    rintro ⟨tag', type'⟩ he
    have hread' := JsMap.get_eq_some_iff.mpr he
    obtain rfl := hsingle tag' type' hread'
    rw [hread] at hread'
    rw [Option.some.inj hread']
  have hentries : owners.entries = [(tag, type)] := by
    have hnodup : owners.entries.Nodup := List.Nodup.of_map Prod.fst owners.nodup
    rcases hlist : owners.entries with _ | ⟨e, _ | ⟨e', rest⟩⟩
    · rw [hlist] at hmem
      cases hmem
    · rw [hlist] at hall
      rw [hall e mem_cons_self]
    · rw [hlist] at hall hnodup
      have hfirst := hall e mem_cons_self
      have hsecond := hall e' (mem_cons_of_mem _ mem_cons_self)
      simp [hfirst, hsecond] at hnodup
  rw [allocationOwner, hentries]

theorem allocationOwner_of_two {owners : Owners} {tag tag' : JsString} {type type' : PrimaryOwnerType}
    (hread : owners.get tag = some type) (hread' : owners.get tag' = some type') (hne : tag ≠ tag') :
    allocationOwner owners = ⟨.legacyConflict, none, none⟩ := by
  have hmem := JsMap.get_eq_some_iff.mp hread
  have hmem' := JsMap.get_eq_some_iff.mp hread'
  unfold allocationOwner
  split
  · rename_i e hentries
    rw [hentries, mem_singleton] at hmem hmem'
    rw [← hmem'] at hmem
    exact absurd (Prod.mk.inj hmem).1 hne
  · rfl

section

variable {l : Ledger} {snapshot : Snapshot} {p : ℤ} {refs : List HistoricalListenerReference}
  {owners : Owners}

def RowOwnerTag (l : Ledger) (p : ℤ) (tag : JsString) : Prop :=
  ∃ row ∈ l.allocations, row.port = p ∧ (OwningTag l row.id tag ∨ PrimaryTag l row.id tag)

theorem snapshot_ok (hsnapshot : l.snapshot = .ok snapshot) :
    existingOwnersByAllocationId l = .ok snapshot.existingOwners ∧
      snapshot.allocationByPort = JsMap.index AllocationRow.port l.allocations ∧
      snapshot.referenceByKey = JsMap.index ReferenceRow.referenceKey l.references := by
  simp only [Ledger.snapshot, bind_eq_ok, pure_eq_ok] at hsnapshot
  obtain ⟨existing, hexisting, rfl⟩ := hsnapshot
  exact ⟨hexisting, rfl, rfl⟩

section

variable (hschema : l.Schema) (hsnapshot : l.snapshot = .ok snapshot)

include hschema hsnapshot

theorem allocationByPort_eq_some_iff {row : AllocationRow} :
    snapshot.allocationByPort.get p = some row ↔ row ∈ l.allocations ∧ row.port = p := by
  rw [(snapshot_ok hsnapshot).2.1, JsMap.get_index_eq_some_iff hschema.ports]

theorem rowOwners_get (h : rowOwners snapshot p = .ok owners) (tag : JsString) (type : PrimaryOwnerType) :
    owners.get tag = some type ↔ ∃ row ∈ l.allocations, row.port = p ∧
      ownerOf snapshot.existingOwners row.id tag = some type := by
  unfold rowOwners at h
  split at h
  · rename_i hnone
    obtain rfl := Except.ok.inj h
    simp only [JsMap.get_empty, reduceCtorEq, false_iff, not_exists, not_and]
    intro row hrow hport
    rw [(allocationByPort_eq_some_iff hschema hsnapshot).mpr ⟨hrow, hport⟩] at hnone
    cases hnone
  · rename_i row hread
    obtain ⟨hrow, hport⟩ := (allocationByPort_eq_some_iff hschema hsnapshot).mp hread
    obtain ⟨id, hid, rfl⟩ := map_eq_ok.mp h
    rw [(positiveId_ok hid).1]
    constructor
    · intro hget
      exact ⟨row, hrow, hport, hget⟩
    · rintro ⟨row', hrow', hport', hget⟩
      obtain rfl := eq_of_key_eq hschema.ports hrow' hrow (hport'.trans hport.symm)
      exact hget

theorem portOwners_tag (h : portOwners snapshot p refs = .ok owners) (tag : JsString) :
    (∃ type, owners.get tag = some type) ↔ RowOwnerTag l p tag ∨ ∃ r ∈ refs, r.ownerGroupTag = tag := by
  obtain ⟨existing, hexisting, hadd⟩ := bind_eq_ok.mp h
  have hrow : (∃ type, existing.get tag = some type) ↔ RowOwnerTag l p tag := by
    simp only [rowOwners_get hschema hsnapshot hexisting, RowOwnerTag,
      ← ownerOf_existing_isSome (snapshot_ok hsnapshot).1]
    constructor
    · rintro ⟨type, row, hrow, hport, hread⟩
      exact ⟨row, hrow, hport, type, hread⟩
    · rintro ⟨row, hrow, hport, type, hread⟩
      exact ⟨type, row, hrow, hport, hread⟩
  simp only [addOwner_foldlM_get hadd, exists_or, hrow]
  apply or_congr_right
  constructor
  · rintro ⟨type, r, hr, htag, -⟩
    exact ⟨r, hr, htag⟩
  · rintro ⟨r, hr, htag⟩
    exact ⟨r.ownerType, r, hr, htag, rfl⟩

theorem portOwners_primary
    (h : portOwners snapshot p refs = .ok owners) {row : AllocationRow} (hrow : row ∈ l.allocations)
    (hport : row.port = p) {tag : JsString} {type : PrimaryOwnerType}
    (howner : row.HasOwner ⟨.active, some type, some tag⟩) : owners.get tag = some type := by
  obtain ⟨existing, hexisting, hadd⟩ := bind_eq_ok.mp h
  rw [addOwner_foldlM_get hadd, rowOwners_get hschema hsnapshot hexisting]
  exact .inl ⟨row, hrow, hport, (ownerOf_primary (snapshot_ok hsnapshot).1 hrow howner).1⟩

end

end

/-! ## One port -/

/-- A listener needs no new reference. -/
def Settled (l : Ledger) (allocationId : ℤ) (r : HistoricalListenerReference) : Prop :=
  (∃ e ∈ l.references, e.referenceKey = r.referenceKey ∧ sameReference e r allocationId) ∨
    ∃ e ∈ l.references, sameStagedReference e r allocationId

variable {r : HistoricalListenerReference}

theorem Settled.mono {l l' : Ledger} (hkept : ∀ r ∈ l.references, r ∈ l'.references) {allocationId : ℤ}
    (h : Settled l allocationId r) : Settled l' allocationId r := by
  rcases h with ⟨e, he, hsame⟩ | ⟨e, he, hstaged⟩
  · exact .inl ⟨e, hkept e he, hsame⟩
  · exact .inr ⟨e, hkept e he, hstaged⟩

theorem Settled.owningTag {l : Ledger} {allocationId : ℤ}
    (h : Settled l allocationId r) : OwningTag l allocationId r.ownerGroupTag := by
  rcases h with ⟨e, he, -, hsame⟩ | ⟨e, he, hstaged⟩
  · simp only [sameReference, decide_eq_true_eq] at hsame
    exact ⟨e, he, hsame.2.2.2.2.2.2.2, hsame.1, hsame.2.2.2.1⟩
  · simp only [sameStagedReference, decide_eq_true_eq] at hstaged
    exact ⟨e, he, hstaged.2.2.2.2.2.2.2.2, hstaged.2.1, hstaged.2.2.2.2.1⟩

/-- The references that a loop over the listeners `refs` of an allocation adds. -/
structure ReferencesAdded (l l' : Ledger) (allocationId : ℤ) (refs : List HistoricalListenerReference) :
    Prop where
  schema : l'.Schema
  allocations : l'.allocations = l.allocations
  settled : ∀ r ∈ refs, Settled l' allocationId r
  kept : ∀ r ∈ l.references, r ∈ l'.references
  added : ∀ r' ∈ l'.references, r' ∈ l.references ∨
    (r'.allocationId = allocationId ∧ ∃ r ∈ refs, r'.ownerGroupTag = r.ownerGroupTag)

section

variable {l : Ledger} {snapshot : Snapshot} {allocationId now : ℤ} {s s' : Progress}

section

variable (hschema : l.Schema) (hsnapshot : l.snapshot = .ok snapshot)

include hschema hsnapshot

theorem referenceByKey_eq_some_iff {key : JsString} {e : ReferenceRow} :
    snapshot.referenceByKey.get key = some e ↔ e ∈ l.references ∧ e.referenceKey = key := by
  rw [(snapshot_ok hsnapshot).2.2, JsMap.get_index_eq_some_iff hschema.referenceKeys]

theorem backfillReference_spec (hkept : ∀ r ∈ l.references, r ∈ s.ledger.references) (hs : s.ledger.Schema)
    {r : HistoricalListenerReference} (h : backfillReference snapshot allocationId now s r = .ok s') :
    ReferencesAdded s.ledger s'.ledger allocationId [r] ∧
      (Settled l allocationId r → s' = s) := by
  -- what is found settled in the snapshot is so in the ledger, which stays as it is
  have hunchanged : Settled l allocationId r → s' = s →
      ReferencesAdded s.ledger s'.ledger allocationId [r] := by
    rintro hsettled rfl
    exact ⟨hs, rfl, by simpa using hsettled.mono hkept, fun _ hr => hr, fun _ hr => .inl hr⟩
  obtain ⟨stagedKey, hstagedKey, h⟩ := bind_eq_ok.mp h
  dsimp only at h
  have hstaged : ((snapshot.referenceByKey.get stagedKey).any fun staged =>
      sameStagedReference staged r allocationId) → Settled l allocationId r := by
    intro hany
    obtain ⟨e, hread, hsame⟩ := (Option.any_eq_true _ _).mp hany
    exact .inr ⟨e, ((referenceByKey_eq_some_iff hschema hsnapshot).mp hread).1, hsame⟩
  split at h
  · rename_i existing hexisting
    obtain ⟨hmem, hkey⟩ := (referenceByKey_eq_some_iff hschema hsnapshot).mp hexisting
    split at h
    · rename_i hsame
      have heq := (pure_eq_ok.mp h).symm
      have hsettled : Settled l allocationId r := by
        rcases hsame with hsame | hsame
        · exact .inl ⟨existing, hmem, hkey, hsame⟩
        · exact hstaged hsame
      exact ⟨hunchanged hsettled heq, fun _ => heq⟩
    · cases h
  · rename_i hnone
    split at h
    · split at h
      · rename_i hsame
        have heq := (pure_eq_ok.mp h).symm
        exact ⟨hunchanged (hstaged hsame) heq, fun _ => heq⟩
      · cases h
    · rename_i hmissing
      split at h
      · cases h
      · rename_i ledger hinsert
        obtain rfl := pure_eq_ok.mp h
        obtain ⟨hledger, -⟩ := insertReferenceRow_eq_some hinsert
        refine ⟨⟨schema_insertReferenceRow hs hinsert, ?_, ?_, ?_, ?_⟩, ?_⟩
        · rw [hledger]
        · intro r' hr'
          obtain rfl := mem_singleton.mp hr'
          refine .inl ⟨{ newReferenceRow r' allocationId now with
            id := nextKey ReferenceRow.id s.ledger.references }, ?_, rfl, ?_⟩
          · rw [hledger]
            exact mem_append_right _ (mem_singleton_self _)
          · simp [sameReference, newReferenceRow]
        · intro r' hr'
          rw [hledger]
          exact mem_append_left _ hr'
        · intro r' hr'
          rw [hledger] at hr'
          rcases mem_append.mp hr' with hr' | hr'
          · exact .inl hr'
          · obtain rfl := mem_singleton.mp hr'
            exact .inr ⟨rfl, r, mem_singleton_self _, rfl⟩
        · -- neither key was in the snapshot
          rintro (⟨e, he, hkey, -⟩ | ⟨e, he, hsame⟩)
          · rw [(referenceByKey_eq_some_iff hschema hsnapshot).mpr ⟨he, hkey⟩] at hnone
            cases hnone
          · simp only [sameStagedReference, decide_eq_true_eq, hstagedKey, Except.ok.injEq] at hsame
            have hread := (referenceByKey_eq_some_iff hschema hsnapshot).mpr ⟨he, hsame.1.symm⟩
            simp [JsMap.has, hread] at hmissing

theorem backfillReferences_spec {refs : List HistoricalListenerReference}
    (hkept : ∀ r ∈ l.references, r ∈ s.ledger.references) (hs : s.ledger.Schema)
    (h : refs.foldlM (backfillReference snapshot allocationId now) s = .ok s') :
    ReferencesAdded s.ledger s'.ledger allocationId refs ∧
      ((∀ r ∈ refs, Settled l allocationId r) → s' = s) := by
  induction refs generalizing s with
  | nil =>
    obtain rfl := pure_eq_ok.mp h
    exact ⟨⟨hs, rfl, by simp, fun _ hr => hr, fun _ hr => .inl hr⟩, fun _ => rfl⟩
  | cons r refs ih =>
    rw [foldlM_cons, bind_eq_ok] at h
    obtain ⟨s₁, hr, h⟩ := h
    obtain ⟨hfirst, hfirst_eq⟩ := backfillReference_spec hschema hsnapshot hkept hs hr
    obtain ⟨hrest, hrest_eq⟩ := ih (fun r hr => hfirst.kept r (hkept r hr)) hfirst.schema h
    refine ⟨⟨hrest.schema, hrest.allocations.trans hfirst.allocations, ?_, ?_, ?_⟩, ?_⟩
    · intro r' hr'
      rcases mem_cons.mp hr' with rfl | hr'
      · exact (hfirst.settled _ (mem_singleton_self _)).mono hrest.kept
      · exact hrest.settled r' hr'
    · exact fun r' hr' => hrest.kept r' (hfirst.kept r' hr')
    · intro r' hr'
      rcases hrest.added r' hr' with hr' | ⟨hid, r'', hr'', htag⟩
      · rcases hfirst.added r' hr' with hr' | ⟨hid, r'', hr'', htag⟩
        · exact .inl hr'
        · obtain rfl := mem_singleton.mp hr''
          exact .inr ⟨hid, r'', mem_cons_self, htag⟩
      · exact .inr ⟨hid, r'', mem_cons_of_mem _ hr'', htag⟩
    · intro hsettled
      rw [hrest_eq fun r' hr' => hsettled r' (mem_cons_of_mem _ hr'),
        hfirst_eq (hsettled r mem_cons_self)]

end

end

/-- The step of the loop for the port `p` with its listeners `refs`: its row, the one
that was there or a new one, has the owner, and every listener is settled. -/
structure PortDone (l l' : Ledger) (p : ℤ) (refs : List HistoricalListenerReference)
    (owner : AllocationOwner) (row : AllocationRow) : Prop where
  schema : l'.Schema
  mem : row ∈ l'.allocations
  port : row.port = p
  owner : row.HasOwner owner
  id : ∀ row₀ ∈ l.allocations, row₀.id = row.id ↔ row₀.port = p
  others : ∀ row', row'.port ≠ p → (row' ∈ l'.allocations ↔ row' ∈ l.allocations)
  settled : ∀ r ∈ refs, Settled l' row.id r
  kept : ∀ r ∈ l.references, r ∈ l'.references
  added : ∀ r' ∈ l'.references, r' ∈ l.references ∨
    (r'.allocationId = row.id ∧ ∃ r ∈ refs, r'.ownerGroupTag = r.ownerGroupTag)

section

variable {l : Ledger} {snapshot : Snapshot} {now p : ℤ} {refs : List HistoricalListenerReference}
  {s s' : Progress}

theorem portDone_existing {owner : AllocationOwner} {row : AllocationRow} {l₁ : Ledger}
    (hs : s.ledger.Schema) (hrow : row ∈ s.ledger.allocations) (hport : row.port = p)
    (hadded : ReferencesAdded s.ledger l₁ row.id refs) {f : AllocationRow → AllocationRow}
    (hf : ∀ row, (f row).id = row.id ∧ (f row).port = row.port ∧
      (f row).allocationTag = row.allocationTag) (howner : (f row).HasOwner owner) :
    PortDone s.ledger { l₁ with allocations := updateWhere (fun r => r.id = row.id) f l₁.allocations }
      p refs owner (f row) where
  schema := schema_updateWhere hadded.schema hf
  mem := by
    rw [mem_updateWhere]
    exact ⟨row, by rw [hadded.allocations]; exact hrow, by simp⟩
  port := (hf row).2.1.trans hport
  owner := howner
  id := by
    intro row₀ hrow₀
    rw [(hf row).1]
    constructor
    · intro hid
      rw [eq_of_key_eq hs.ids hrow₀ hrow hid, hport]
    · intro hport₀
      rw [eq_of_key_eq hs.ports hrow₀ hrow (hport₀.trans hport.symm)]
  others := by
    intro row' hport'
    rw [mem_updateWhere, hadded.allocations]
    constructor
    · rintro ⟨row₀, hrow₀, rfl⟩
      by_cases hid : row₀.id = row.id
      · obtain rfl := eq_of_key_eq hs.ids hrow₀ hrow hid
        simp only [decide_true, if_true, (hf row₀).2.1] at hport'
        exact absurd hport hport'
      · simpa [hid] using hrow₀
    · intro hrow'
      have hid : row'.id ≠ row.id := by
        intro heq
        obtain rfl := eq_of_key_eq hs.ids hrow' hrow heq
        exact hport' hport
      exact ⟨row', hrow', by simp [hid]⟩
  settled := by
    rw [(hf row).1]
    exact hadded.settled
  kept := hadded.kept
  added := by
    rw [(hf row).1]
    exact hadded.added

theorem updateWhere_id {ρ : Type} (q : ρ → Bool) (rows : List ρ) : updateWhere q id rows = rows := by
  simp [updateWhere]

theorem backfillPort_spec (hschema : l.Schema) (hsnapshot : l.snapshot = .ok snapshot)
    (hkept : ∀ r ∈ l.references, r ∈ s.ledger.references) (hs : s.ledger.Schema)
    (huntouched : ∀ row, row.port = p → (row ∈ s.ledger.allocations ↔ row ∈ l.allocations))
    (h : backfillPort snapshot now s (p, refs) = .ok s') :
    ∃ owners row, portOwners snapshot p refs = .ok owners ∧
      PortDone s.ledger s'.ledger p refs (allocationOwner owners) row ∧
      ∀ row₀ ∈ l.allocations, row₀.port = p → row₀.HasOwner (allocationOwner owners) →
        (∀ r ∈ refs, Settled l row₀.id r) → s' = s := by
  simp only [backfillPort, bind_eq_ok] at h
  obtain ⟨owners, howners, ⟨allocation, created, s₁⟩, hensure, allocationId, hid, s₂, hreferences, h⟩ := h
  obtain rfl := (positiveId_ok hid).1
  unfold ensureAllocation at hensure
  split at hensure
  · rename_i row hread
    obtain ⟨rfl, rfl, rfl⟩ : row = allocation ∧ false = created ∧ s = s₁ := by simpa using hensure
    obtain ⟨hrow, hport⟩ := (allocationByPort_eq_some_iff hschema hsnapshot).mp hread
    obtain ⟨hadded, hsettled⟩ := backfillReferences_spec hschema hsnapshot hkept hs hreferences
    have hrow' := (huntouched row hport).mpr hrow
    simp only [Bool.false_eq_true, false_or] at h
    split at h
    · -- the row has its owner already
      rename_i hsame
      obtain rfl := pure_eq_ok.mp h
      refine ⟨owners, row, howners, ?_, ?_⟩
      · have hdone := portDone_existing hs hrow' hport hadded (f := id) (fun _ => ⟨rfl, rfl, rfl⟩) hsame
        rw [updateWhere_id] at hdone
        exact hdone
      · intro row₀ hrow₀ hport₀ _ hall
        obtain rfl := eq_of_key_eq hschema.ports hrow₀ hrow (hport₀.trans hport.symm)
        exact hsettled hall
    · rename_i hchanged
      obtain rfl := pure_eq_ok.mp h
      refine ⟨owners, row.withOwner (allocationOwner owners) now, howners,
        portDone_existing hs hrow' hport hadded (fun _ => ⟨rfl, rfl, rfl⟩) ⟨rfl, rfl, rfl⟩, ?_⟩
      intro row₀ hrow₀ hport₀ howner _
      obtain rfl := eq_of_key_eq hschema.ports hrow₀ hrow (hport₀.trans hport.symm)
      exact absurd howner hchanged
  · rename_i hnone
    have hmissing : ∀ row ∈ l.allocations, row.port ≠ p := by
      intro row hrow hport
      rw [(allocationByPort_eq_some_iff hschema hsnapshot).mpr ⟨hrow, hport⟩] at hnone
      cases hnone
    split at hensure
    · cases hensure
    · rename_i row ledger hinsert
      obtain ⟨rfl, rfl, rfl⟩ : row = allocation ∧ true = created ∧
          { s with ledger, allocationsCreated := s.allocationsCreated + 1 } = s₁ := by
        simpa using hensure
      obtain ⟨hrow, hledger, hunique⟩ := insertAllocation_eq_some hinsert
      have hkept₁ : ∀ r ∈ l.references, r ∈ ledger.references := by
        rw [hledger]
        exact hkept
      obtain ⟨hadded, -⟩ := backfillReferences_spec hschema hsnapshot hkept₁
        (schema_insertAllocation hs hinsert) hreferences
      rw [if_pos (.inl rfl)] at h
      obtain rfl := pure_eq_ok.mp h
      have hallocations : s₂.ledger.allocations = s.ledger.allocations ++ [row] := by
        rw [hadded.allocations, hledger]
      have hport : row.port = p := by rw [hrow]; rfl
      refine ⟨owners, row, howners, ⟨hadded.schema, ?_, hport, ?_, ?_, ?_, hadded.settled, ?_, ?_⟩, ?_⟩
      · rw [hallocations]
        exact mem_append_right _ (mem_singleton_self _)
      · rw [hrow]
        exact ⟨rfl, rfl, rfl⟩
      · intro row₀ hrow₀
        have hne : row₀.id ≠ row.id := by
          rw [hrow]
          exact (lt_nextKey _ hrow₀).ne
        exact iff_of_false hne (hunique row₀ hrow₀).1
      · intro row' hport'
        rw [hallocations, mem_append, mem_singleton]
        constructor
        · rintro (hmem | rfl)
          · exact hmem
          · exact absurd hport hport'
        · exact .inl
      · intro r hr
        apply hadded.kept
        rwa [hledger]
      · intro r hr
        have hr := hadded.added r hr
        rwa [hledger] at hr
      · intro row₀ hrow₀ hport₀
        exact absurd hport₀ (hmissing row₀ hrow₀)

end

/-! ## A whole run -/

section

variable {desired : List HistoricalListenerReference}

theorem mem_desiredByPort {e : ℤ × List HistoricalListenerReference} :
    e ∈ desiredByPort desired ↔ e.2 = desired.filter (fun r => r.port = e.1) ∧ e.2 ≠ [] := by
  obtain ⟨p, refs⟩ := e
  rw [desiredByPort, mem_mergeSort, ← JsMap.get_eq_some_iff, JsMap.get_group]
  split
  · rename_i hnil
    rw [hnil]
    exact iff_of_false nofun fun h => h.2 h.1
  · rename_i hne
    rw [Option.some.injEq]
    constructor
    · rintro heq
      exact ⟨heq.symm, fun hnil => hne (heq.trans hnil)⟩
    · exact fun h => h.1.symm

theorem desiredByPort_nodup : ((desiredByPort desired).map Prod.fst).Nodup :=
  ((mergeSort_perm _ _).map Prod.fst).nodup_iff.mpr
    (JsMap.group HistoricalListenerReference.port desired).nodup

end

/-- The ledger after the ports `done` of a run that began with `l`. -/
structure Backfilled (l : Ledger) (snapshot : Snapshot)
    (done : List (ℤ × List HistoricalListenerReference)) (l' : Ledger) : Prop where
  schema : l'.Schema
  untouched : ∀ row, row.port ∉ done.map Prod.fst → (row ∈ l'.allocations ↔ row ∈ l.allocations)
  kept : ∀ r ∈ l.references, r ∈ l'.references
  ports : ∀ e ∈ done, ∃ owners row, portOwners snapshot e.1 e.2 = .ok owners ∧ row ∈ l'.allocations ∧
    row.port = e.1 ∧ row.HasOwner (allocationOwner owners) ∧
    (∀ row₀ ∈ l.allocations, row₀.id = row.id ↔ row₀.port = e.1) ∧ ∀ r ∈ e.2, Settled l' row.id r
  added : ∀ r' ∈ l'.references, r' ∈ l.references ∨ ∃ e ∈ done, ∃ row ∈ l'.allocations,
    row.port = e.1 ∧ r'.allocationId = row.id ∧ ∃ r ∈ e.2, r'.ownerGroupTag = r.ownerGroupTag

section

variable {l : Ledger} {snapshot : Snapshot} {now : ℤ} {s s' : Progress}
  {done : List (ℤ × List HistoricalListenerReference)}

section

variable (hschema : l.Schema) (hsnapshot : l.snapshot = .ok snapshot)

include hschema hsnapshot

theorem Backfilled.step (h : Backfilled l snapshot done s.ledger) {e : ℤ × List HistoricalListenerReference}
    (hnew : e.1 ∉ done.map Prod.fst) (hstep : backfillPort snapshot now s e = .ok s') :
    Backfilled l snapshot (done ++ [e]) s'.ledger := by
  obtain ⟨p, refs⟩ := e
  have huntouched : ∀ row, row.port = p → (row ∈ s.ledger.allocations ↔ row ∈ l.allocations) := by
    rintro row rfl
    exact h.untouched row hnew
  obtain ⟨owners, row, howners, hdone, -⟩ :=
    backfillPort_spec hschema hsnapshot h.kept h.schema huntouched hstep
  have hold : ∀ e ∈ done, e.1 ≠ p := by
    intro e he heq
    exact hnew (mem_map.mpr ⟨e, he, heq⟩)
  refine ⟨hdone.schema, ?_, ?_, ?_, ?_⟩
  · intro row' hrow'
    rw [map_append, mem_append, not_or, map_singleton, mem_singleton] at hrow'
    rw [hdone.others row' hrow'.2, h.untouched row' hrow'.1]
  · exact fun r hr => hdone.kept r (h.kept r hr)
  · intro e he
    rcases mem_append.mp he with he | he
    · obtain ⟨owners', row', howners', hrow', hport', howner', hid', hsettled'⟩ := h.ports e he
      refine ⟨owners', row', howners', ?_, hport', howner', hid', ?_⟩
      · exact (hdone.others row' (hport' ▸ hold e he)).mpr hrow'
      · exact fun r hr => (hsettled' r hr).mono hdone.kept
    · obtain rfl := mem_singleton.mp he
      refine ⟨owners, row, howners, hdone.mem, hdone.port, hdone.owner, ?_, hdone.settled⟩
      intro row₀ hrow₀
      constructor
      · intro hid
        by_cases hport : row₀.port ∈ done.map Prod.fst
        · -- its row has the same id and another port
          obtain ⟨e', he', hport⟩ := mem_map.mp hport
          obtain ⟨_, row', -, hrow', hport', -, hid', -⟩ := h.ports e' he'
          have hsame : row'.id = row.id := ((hid' row₀ hrow₀).mpr hport.symm).symm.trans hid
          exact absurd (hport'.symm.trans ((hdone.id row' hrow').mp hsame)) (hold e' he')
        · exact (hdone.id row₀ ((h.untouched row₀ hport).mpr hrow₀)).mp hid
      · intro hport
        exact (hdone.id row₀ ((huntouched row₀ hport).mpr hrow₀)).mpr hport
  · intro r' hr'
    rcases hdone.added r' hr' with hr' | ⟨hid, r, hr, htag⟩
    · rcases h.added r' hr' with hr' | ⟨e, he, row', hrow', hport', hid', hr⟩
      · exact .inl hr'
      · exact .inr ⟨e, mem_append_left _ he, row',
          (hdone.others row' (hport' ▸ hold e he)).mpr hrow', hport', hid', hr⟩
    · exact .inr ⟨(p, refs), mem_append_right _ (mem_singleton_self _), row, hdone.mem,
        hdone.port, hid, r, hr, htag⟩

variable {desired : List HistoricalListenerReference}

theorem backfilled_of_run
    (h : (desiredByPort desired).foldlM (backfillPort snapshot now) { ledger := l } = .ok s') :
    Backfilled l snapshot (desiredByPort desired) s'.ledger := by
  refine foldlM_invariant (I := fun done s => Backfilled l snapshot done s.ledger) h ?_ ?_
  · exact ⟨hschema, fun _ _ => Iff.rfl, fun _ hr => hr, by simp, fun _ hr => .inl hr⟩
  · intro done e rest s s' hsplit hdone hstep
    refine hdone.step hschema hsnapshot ?_ hstep
    have hnodup : ((desiredByPort desired).map Prod.fst).Nodup := desiredByPort_nodup
    rw [← hsplit, map_append, nodup_append] at hnodup
    intro hmem
    exact hnodup.2.2 e.1 hmem e.1 (by simp) rfl

theorem run_eq_of_settled
    (h : (desiredByPort desired).foldlM (backfillPort snapshot now) { ledger := l } = .ok s')
    (hsettled : ∀ e ∈ desiredByPort desired, ∀ owners, portOwners snapshot e.1 e.2 = .ok owners →
      ∃ row ∈ l.allocations, row.port = e.1 ∧ row.HasOwner (allocationOwner owners) ∧
        ∀ r ∈ e.2, Settled l row.id r) : s'.ledger = l := by
  have hs : s' = { ledger := l } := by
    refine foldlM_invariant (I := fun _ s => s = { ledger := l }) h rfl ?_
    rintro done ⟨p, refs⟩ rest s s' hsplit rfl hstep
    obtain ⟨owners, _, howners, -, hunchanged⟩ := backfillPort_spec hschema hsnapshot
      (fun _ hr => hr) hschema (fun _ _ => Iff.rfl) hstep
    have hmem : (p, refs) ∈ desiredByPort desired := by
      rw [← hsplit]
      exact mem_append_right _ mem_cons_self
    obtain ⟨row, hrow, hport, howner, hall⟩ := hsettled (p, refs) hmem owners howners
    exact hunchanged row hrow hport howner hall
  rw [hs]

end

end

/-! ## A second run -/

section

variable {l l₁ : Ledger} {snapshot snapshot₁ : Snapshot} {desired : List HistoricalListenerReference}
  {p : ℤ}

/-- A listener on the port has the tag, or an owning reference of its row. -/
def ListenerTag (desired : List HistoricalListenerReference) (l : Ledger) (p : ℤ) (tag : JsString) : Prop :=
  (∃ row ∈ l.allocations, row.port = p ∧ OwningTag l row.id tag) ∨
    ∃ r ∈ desired, r.port = p ∧ r.ownerGroupTag = tag

/-- The row has an owner, and everything else on its port is of one other owner. -/
def Disowned (desired : List HistoricalListenerReference) (l : Ledger) (row : AllocationRow) : Prop :=
  ∃ owner tag, row.primaryOwnerTag = some owner ∧ owner ≠ [] ∧ owner ≠ tag ∧
    (∃ r ∈ desired, r.port = row.port) ∧ (∀ r ∈ desired, r.port = row.port → r.ownerGroupTag = tag) ∧
    ∀ r ∈ l.references, r.isOwning → r.allocationId = row.id → r.ownerGroupTag = tag

theorem Disowned.listenerTag_iff (hschema : l.Schema) {row : AllocationRow} (hrow : row ∈ l.allocations) :
    Disowned desired l row ↔ ∃ owner tag, row.primaryOwnerTag = some owner ∧ owner ≠ [] ∧ owner ≠ tag ∧
      (∃ r ∈ desired, r.port = row.port) ∧ ∀ tag', ListenerTag desired l row.port tag' → tag' = tag := by
  apply exists₂_congr
  intro owner tag
  apply and_congr_right'
  apply and_congr_right'
  apply and_congr_right'
  apply and_congr_right'
  constructor
  · rintro ⟨hdesired, hreferences⟩ tag' (⟨row', hrow', hport, r, hr, howning, hid, rfl⟩ | ⟨r, hr, hport, rfl⟩)
    · obtain rfl := eq_of_key_eq hschema.ports hrow' hrow hport
      exact hreferences r hr howning hid
    · exact hdesired r hr hport
  · intro hall
    constructor
    · intro r hr hport
      exact hall _ (.inr ⟨r, hr, hport, rfl⟩)
    · intro r hr howning hid
      exact hall _ (.inl ⟨row, hrow, rfl, r, hr, howning, hid, rfl⟩)

section

variable (hschema : l.Schema) (hsnapshot : l.snapshot = .ok snapshot)

include hschema hsnapshot

theorem portOwners_listenerTag {owners : Owners}
    (h : portOwners snapshot p (desired.filter fun r => r.port = p) = .ok owners) (tag : JsString) :
    (∃ type, owners.get tag = some type) ↔ ListenerTag desired l p tag ∨
      ∃ row ∈ l.allocations, row.port = p ∧ row.primaryOwnerTag = some tag ∧ tag ≠ [] := by
  have hprimary : ∀ row ∈ l.allocations, (PrimaryTag l row.id tag ↔
      row.primaryOwnerTag = some tag ∧ tag ≠ []) := by
    intro row hrow
    constructor
    · rintro ⟨row', hrow', hid, htag⟩
      rwa [eq_of_key_eq hschema.ids hrow' hrow hid] at htag
    · exact fun htag => ⟨row, hrow, rfl, htag⟩
  rw [portOwners_tag hschema hsnapshot h, RowOwnerTag, ListenerTag]
  simp only [mem_filter, decide_eq_true_eq]
  constructor
  · rintro (⟨row, hrow, hport, howning | htag⟩ | ⟨r, ⟨hr, hport⟩, htag⟩)
    · exact .inl (.inl ⟨row, hrow, hport, howning⟩)
    · exact .inr ⟨row, hrow, hport, (hprimary row hrow).mp htag⟩
    · exact .inl (.inr ⟨r, hr, hport, htag⟩)
  · rintro ((⟨row, hrow, hport, howning⟩ | ⟨r, hr, hport, htag⟩) | ⟨row, hrow, hport, htag⟩)
    · exact .inl ⟨row, hrow, hport, .inl howning⟩
    · exact .inr ⟨r, ⟨hr, hport⟩, htag⟩
    · exact .inl ⟨row, hrow, hport, .inr ((hprimary row hrow).mpr htag)⟩

variable {e : ℤ × List HistoricalListenerReference}

theorem Backfilled.listenerTag_iff (h : Backfilled l snapshot (desiredByPort desired) l₁)
    (he : e ∈ desiredByPort desired) (tag : JsString) :
    ListenerTag desired l₁ e.1 tag ↔ ListenerTag desired l e.1 tag := by
  obtain ⟨hrefs, -⟩ := mem_desiredByPort.mp he
  obtain ⟨owners, row, -, hrow, hport, -, hid, hsettled⟩ := h.ports e he
  constructor
  · rintro (⟨row', hrow', hport', r, hr, howning, hallocation, rfl⟩ | hdesired)
    · obtain rfl := eq_of_key_eq h.schema.ports hrow' hrow (hport'.trans hport.symm)
      rcases h.added r hr with hr | ⟨e', he', row'', hrow'', hport'', hid'', r', hr', htag⟩
      · -- an owning reference of before belongs to a row of before, of the same port
        obtain ⟨row₀, hrow₀, hid₀⟩ := allocation_of_owning hschema (snapshot_ok hsnapshot).1 hr howning
        exact .inl ⟨row₀, hrow₀, (hid row₀ hrow₀).mp (hid₀.trans hallocation), r, hr, howning,
          hid₀.symm, rfl⟩
      · obtain rfl := eq_of_key_eq h.schema.ids hrow'' hrow (hid''.symm.trans hallocation)
        rw [(mem_desiredByPort.mp he').1, mem_filter, decide_eq_true_eq] at hr'
        exact .inr ⟨r', hr'.1, hr'.2.trans (hport''.symm.trans hport), htag.symm⟩
    · exact .inr hdesired
  · rintro (⟨row₀, hrow₀, hport₀, r, hr, howning, hallocation, rfl⟩ | ⟨r, hr, hport', rfl⟩)
    · refine .inl ⟨row, hrow, hport, r, h.kept r hr, howning, ?_, rfl⟩
      rw [hallocation, (hid row₀ hrow₀).mpr hport₀]
    · have hmem : r ∈ e.2 := by
        rw [hrefs, mem_filter, decide_eq_true_eq]
        exact ⟨hr, hport'⟩
      exact .inl ⟨row, hrow, hport, (hsettled r hmem).owningTag⟩

/-- **What the second run makes of a port.** The row that the first run left has the owner
that the second one finds, unless the first one disowned it. -/
theorem hasOwner_second_iff
    (h : Backfilled l snapshot (desiredByPort desired) l₁) (hsnapshot₁ : l₁.snapshot = .ok snapshot₁)
    (he : e ∈ desiredByPort desired) {owners₁ : Owners}
    (howners₁ : portOwners snapshot₁ e.1 e.2 = .ok owners₁) {row₁ : AllocationRow}
    (hrow₁ : row₁ ∈ l₁.allocations) (hport₁ : row₁.port = e.1) :
    row₁.HasOwner (allocationOwner owners₁) ↔
      ¬ ∃ row ∈ l.allocations, row.port = e.1 ∧ Disowned desired l row := by
  obtain ⟨hrefs, hne⟩ := mem_desiredByPort.mp he
  obtain ⟨owners, row', howners, hrow', hport', howner, -, -⟩ := h.ports e he
  obtain rfl := eq_of_key_eq h.schema.ports hrow' hrow₁ (hport'.trans hport₁.symm)
  rw [hrefs] at howners howners₁
  have htags := portOwners_listenerTag hschema hsnapshot howners
  have htags₁ := portOwners_listenerTag h.schema hsnapshot₁ howners₁
  simp only [h.listenerTag_iff hschema hsnapshot he] at htags₁
  -- the row names no owner that is not on it
  have hnamed : ∀ tag, (∃ row ∈ l₁.allocations, row.port = e.1 ∧ row.primaryOwnerTag = some tag ∧
      tag ≠ []) → row'.primaryOwnerTag = some tag := by
    rintro tag ⟨row, hrow, hport, htag, -⟩
    rwa [eq_of_key_eq h.schema.ports hrow hrow' (hport.trans hport'.symm)] at htag
  obtain ⟨r, hr⟩ := exists_mem_of_ne_nil _ hne
  rw [hrefs, mem_filter, decide_eq_true_eq] at hr
  have hlistener : ListenerTag desired l e.1 r.ownerGroupTag := .inr ⟨r, hr.1, hr.2, rfl⟩
  obtain ⟨type, htype⟩ := (htags _).mpr (.inl hlistener)
  obtain ⟨type₁, htype₁⟩ := (htags₁ _).mpr (.inl hlistener)
  by_cases hsingle : ∀ tag type, owners.get tag = some type → tag = r.ownerGroupTag
  · -- one owner, now written on the row
    rw [allocationOwner_of_single htype hsingle] at howner
    have hkept := portOwners_primary h.schema hsnapshot₁ howners₁ hrow' hport' howner
    have hsingle₁ : ∀ tag type, owners₁.get tag = some type → tag = r.ownerGroupTag := by
      intro tag type' hread
      rcases (htags₁ tag).mp ⟨type', hread⟩ with hlistens | hnames
      · obtain ⟨type'', hread'⟩ := (htags tag).mpr (.inl hlistens)
        exact hsingle tag type'' hread'
      · have hnamed := hnamed tag hnames
        rw [howner.2.2] at hnamed
        exact (Option.some.inj hnamed).symm
    rw [allocationOwner_of_single hkept hsingle₁]
    refine iff_of_true howner ?_
    rintro ⟨row, hrow, hport, hdisowned⟩
    rw [Disowned.listenerTag_iff hschema hrow] at hdisowned
    obtain ⟨owner, tag, hprimary, hnil, hother, -, hall⟩ := hdisowned
    obtain ⟨type', hread⟩ := (htags owner).mpr (.inr ⟨row, hrow, hport, hprimary, hnil⟩)
    rw [hsingle owner type' hread] at hother
    exact hother (hall _ (hport ▸ hlistener))
  · -- a conflict, which takes the owner off the row
    push Not at hsingle
    obtain ⟨tag, type', hread, hdifferent⟩ := hsingle
    rw [allocationOwner_of_two hread htype hdifferent] at howner
    have hunnamed : ∀ tag type, owners₁.get tag = some type → ListenerTag desired l e.1 tag := by
      intro tag type hread
      rcases (htags₁ tag).mp ⟨type, hread⟩ with hlistens | hnames
      · exact hlistens
      · have hnamed := hnamed tag hnames
        rw [howner.2.2] at hnamed
        cases hnamed
    by_cases hall : ∀ tag, ListenerTag desired l e.1 tag → tag = r.ownerGroupTag
    · -- only the row named the other owner
      rw [allocationOwner_of_single htype₁ fun tag type hread => hall tag (hunnamed tag type hread)]
      refine iff_of_false ?_ ?_
      · intro hactive
        rw [AllocationRow.HasOwner, howner.1] at hactive
        simp at hactive
      · rw [not_not]
        rcases (htags tag).mp ⟨type', hread⟩ with hlistens | ⟨row, hrow, hport, hprimary, hnil⟩
        · exact absurd (hall tag hlistens) hdifferent
        · refine ⟨row, hrow, hport, (Disowned.listenerTag_iff hschema hrow).mpr ?_⟩
          rw [hport]
          exact ⟨tag, r.ownerGroupTag, hprimary, hnil, hdifferent, ⟨r, hr⟩, hall⟩
    · have hall' := hall
      push Not at hall'
      obtain ⟨tag', hlistens, hdifferent'⟩ := hall'
      obtain ⟨type'', hread'⟩ := (htags₁ tag').mpr (.inl hlistens)
      rw [allocationOwner_of_two hread' htype₁ hdifferent']
      refine iff_of_true howner ?_
      rintro ⟨row, hrow, hport, hdisowned⟩
      rw [Disowned.listenerTag_iff hschema hrow, hport] at hdisowned
      obtain ⟨owner, only, -, -, -, -, hsame⟩ := hdisowned
      exact hall fun tag htag => (hsame tag htag).trans (hsame _ hlistener).symm

end

end

/-! ## Runs at other times

Times are written and never read, so a run that throws throws at any time. -/

section

def Ledger.keys (l : Ledger) : List (ℤ × ℤ × JsString) × List (ℤ × JsString) :=
  (l.allocations.map fun row => (row.id, row.port, row.allocationTag),
    l.references.map fun row => (row.id, row.referenceKey))

variable {l l' : Ledger}

theorem insertAllocation_keys (h : l.keys = l'.keys) (row row' : AllocationRow)
    (hport : row.port = row'.port) (htag : row.allocationTag = row'.allocationTag) :
    (l.insertAllocation row).map (fun x => (x.1.id, x.2.keys))
      = (l'.insertAllocation row').map fun x => (x.1.id, x.2.keys) := by
  obtain ⟨hallocations, hreferences⟩ := Prod.mk.inj h
  have hids := congrArg (List.map Prod.fst) hallocations
  have hany := congrArg (List.any · fun k => k.2.1 = row'.port ∨ k.2.2 = row'.allocationTag) hallocations
  simp only [map_map, any_map, Function.comp_def] at hids hany
  have hnext : nextKey AllocationRow.id l.allocations = nextKey AllocationRow.id l'.allocations := by
    rw [nextKey, nextKey]
    exact congrArg (fun ids => ids.foldr max 0 + 1) hids
  rw [Ledger.insertAllocation, Ledger.insertAllocation, hport, htag, hany]
  split
  · rfl
  · simp only [Option.map_some, Ledger.keys, map_append, map_cons, map_nil,
      hallocations, hreferences, hnext]

theorem insertReferenceRow_keys (h : l.keys = l'.keys) (row row' : ReferenceRow)
    (hkey : row.referenceKey = row'.referenceKey) :
    (l.insertReferenceRow row).map Ledger.keys = (l'.insertReferenceRow row').map Ledger.keys := by
  obtain ⟨hallocations, hreferences⟩ := Prod.mk.inj h
  have hids := congrArg (List.map Prod.fst) hreferences
  have hany := congrArg (List.any · fun k => k.2 = row'.referenceKey) hreferences
  simp only [map_map, any_map, Function.comp_def] at hids hany
  have hnext : nextKey ReferenceRow.id l.references = nextKey ReferenceRow.id l'.references := by
    rw [nextKey, nextKey]
    exact congrArg (fun ids => ids.foldr max 0 + 1) hids
  rw [Ledger.insertReferenceRow, Ledger.insertReferenceRow, hkey, hany]
  split
  · rfl
  · simp only [Option.map_some, Ledger.keys, map_append, map_cons, map_nil,
      hallocations, hreferences, hnext]

variable {snapshot : Snapshot} {s s' : Progress}

theorem backfillReference_keys (allocationId now now' : ℤ) (r : HistoricalListenerReference)
    (h : s.ledger.keys = s'.ledger.keys) :
    (backfillReference snapshot allocationId now s r).map (fun s => s.ledger.keys)
      = (backfillReference snapshot allocationId now' s' r).map fun s => s.ledger.keys := by
  have hinsert := insertReferenceRow_keys h
    (newReferenceRow r allocationId now) (newReferenceRow r allocationId now') rfl
  unfold backfillReference
  cases stagedReferenceKeyForDesired r with
  | error e => rfl
  | ok stagedKey =>
    dsimp only [bind, Except.bind]
    split
    · split
      · exact congrArg Except.ok h
      · rfl
    · split
      · split
        · exact congrArg Except.ok h
        · rfl
      · cases hfirst : s.ledger.insertReferenceRow (newReferenceRow r allocationId now) with
        | none =>
          rw [hfirst, Option.map_none, eq_comm, Option.map_eq_none_iff] at hinsert
          rw [hinsert]
        | some ledger =>
          rw [hfirst, Option.map_some, eq_comm, Option.map_eq_some_iff] at hinsert
          obtain ⟨ledger', hsecond, hkeys⟩ := hinsert
          rw [hsecond]
          exact congrArg Except.ok hkeys.symm

theorem ensureAllocation_keys (port now now' : ℤ) (owner : AllocationOwner)
    (h : s.ledger.keys = s'.ledger.keys) :
    (ensureAllocation snapshot port now owner s).map (fun x => (x.1.id, x.2.2.ledger.keys))
      = (ensureAllocation snapshot port now' owner s').map fun x => (x.1.id, x.2.2.ledger.keys) := by
  have hinsert := insertAllocation_keys h
    (newAllocationRow port owner now) (newAllocationRow port owner now') rfl rfl
  unfold ensureAllocation
  split
  · simp only [Except.map, h]
  · cases hfirst : s.ledger.insertAllocation (newAllocationRow port owner now) with
    | none =>
      rw [hfirst, Option.map_none, eq_comm, Option.map_eq_none_iff] at hinsert
      rw [hinsert]
    | some inserted =>
      rw [hfirst, Option.map_some, eq_comm, Option.map_eq_some_iff] at hinsert
      obtain ⟨inserted', hsecond, hkeys⟩ := hinsert
      obtain ⟨hid, hkeys⟩ := Prod.mk.inj hkeys
      rw [hsecond]
      simp only [Except.map, hid, hkeys]


theorem keys_updateWhere (q : AllocationRow → Bool) (owner : AllocationOwner) (now : ℤ) (l : Ledger) :
    Ledger.keys { l with allocations := updateWhere q (fun row => row.withOwner owner now) l.allocations }
      = l.keys := by
  rw [Ledger.keys, Ledger.keys, map_updateWhere]
  intro row _
  rfl

theorem backfillPort_keys (now now' : ℤ) (e : ℤ × List HistoricalListenerReference)
    (h : s.ledger.keys = s'.ledger.keys) :
    (backfillPort snapshot now s e).map (fun s => s.ledger.keys)
      = (backfillPort snapshot now' s' e).map fun s => s.ledger.keys := by
  refine bind_map_congr (g := id) rfl ?_
  rintro owners _ rfl
  refine bind_map_congr (ensureAllocation_keys e.1 now now' (allocationOwner owners) h) ?_
  rintro ⟨row, created, s₁⟩ ⟨row', created', s₁'⟩ hsame
  obtain ⟨hid, hkeys⟩ := Prod.mk.inj hsame
  dsimp only at hid hkeys ⊢
  rw [hid]
  refine bind_map_congr (g := id) rfl ?_
  rintro allocationId _ rfl
  refine bind_map_congr (g := fun s : Progress => s.ledger.keys)
    (foldlM_map_congr ?_ e.2 s₁ s₁' hkeys) ?_
  · intro s s' r hs
    exact backfillReference_keys allocationId now now' r hs
  -- whether a row is updated or not, its keys stay
  intro s₂ s₂' hsame
  have hend : ∀ (p : Prop) [Decidable p] (s : Progress) (l : Ledger) (n : ℕ),
      l.keys = s.ledger.keys → (if p then (pure s : Except String Progress)
        else pure { s with ledger := l, allocationsUpdated := n }).map (fun s => s.ledger.keys)
        = .ok s.ledger.keys := by
    intro p _ s l n hl
    split
    · rfl
    · exact congrArg Except.ok hl
  rw [hend _ s₂ _ _ (keys_updateWhere _ _ _ _), hend _ s₂' _ _ (keys_updateWhere _ _ _ _)]
  exact congrArg Except.ok hsame

variable (listenerNetworks : InboundDefinition → Option (List ReferenceNetwork)) (t : ListenerTables)

theorem backfill_throws (now now' : ℤ) (l : Ledger) :
    (∃ e, backfillGlobalPortAllocations listenerNetworks t now l = .error e) →
      ∃ e, backfillGlobalPortAllocations listenerNetworks t now' l = .error e := by
  rintro ⟨e, he⟩
  have hsame : (backfillGlobalPortAllocations listenerNetworks t now l).map (fun s => s.ledger.keys)
      = (backfillGlobalPortAllocations listenerNetworks t now' l).map fun s => s.ledger.keys := by
    refine bind_map_congr (g := id) rfl ?_
    rintro desired _ rfl
    refine bind_map_congr (g := id) rfl ?_
    rintro snapshot _ rfl
    exact foldlM_map_congr (fun s s' e hs => backfillPort_keys now now' e hs) _ _ _ rfl
  rw [he] at hsame
  cases h : backfillGlobalPortAllocations listenerNetworks t now' l with
  | error e' => exact ⟨e', rfl⟩
  | ok s =>
    rw [h] at hsame
    cases hsame

end

section

variable (listenerNetworks : InboundDefinition → Option (List ReferenceNetwork)) (t : ListenerTables)

/-- Running the backfill again on its result changes no row of the ledger. -/
def BackfillIdempotent (now now' : ℤ) (l : Ledger) : Prop :=
  afterBackfill listenerNetworks t now' (afterBackfill listenerNetworks t now l)
    = afterBackfill listenerNetworks t now l

def CompletesTwice (now now' : ℤ) (l : Ledger) : Prop :=
  ∃ s s', backfillGlobalPortAllocations listenerNetworks t now l = .ok s ∧
    backfillGlobalPortAllocations listenerNetworks t now' s.ledger = .ok s'

/-- A row of a port with listeners that a run takes the owner off, so that the next one
finds the listeners' owner alone. -/
def DisownedRow (l : Ledger) : Prop :=
  ∃ desired, collectHistoricalListenerReferences listenerNetworks t = .ok desired ∧
    ∃ row ∈ l.allocations, Disowned desired l row

variable {listenerNetworks t}

theorem second_run_eq_iff {l : Ledger} (hschema : l.Schema) {now now' : ℤ} {s s' : Progress}
    (h : backfillGlobalPortAllocations listenerNetworks t now l = .ok s)
    (h' : backfillGlobalPortAllocations listenerNetworks t now' s.ledger = .ok s') :
    s'.ledger = s.ledger ↔ ¬ DisownedRow listenerNetworks t l := by
  simp only [backfillGlobalPortAllocations, bind_eq_ok] at h h'
  obtain ⟨desired, hdesired, snapshot, hsnapshot, hrun⟩ := h
  obtain ⟨desired', hdesired', snapshot₁, hsnapshot₁, hrun'⟩ := h'
  obtain rfl := Except.ok.inj (hdesired.symm.trans hdesired')
  have hfirst := backfilled_of_run hschema hsnapshot hrun
  have hsecond := backfilled_of_run hfirst.schema hsnapshot₁ hrun'
  constructor
  · rintro heq ⟨desired', hdesired', row, hrow, hdisowned⟩
    obtain rfl := Except.ok.inj (hdesired.symm.trans hdesired')
    -- the port of the row has listeners, so both runs came by
    obtain ⟨_, _, _, _, _, ⟨r, hr, hport⟩, _, _⟩ := id hdisowned
    have he : (row.port, desired.filter fun r => r.port = row.port) ∈ desiredByPort desired := by
      rw [mem_desiredByPort]
      refine ⟨rfl, ne_nil_of_mem (a := r) ?_⟩
      rw [mem_filter, decide_eq_true_eq]
      exact ⟨hr, hport⟩
    obtain ⟨owners, row', howners, hrow', hport', howner, -, -⟩ := hsecond.ports _ he
    rw [heq] at hrow'
    exact (hasOwner_second_iff hschema hsnapshot hfirst hsnapshot₁ he howners hrow' hport').mp howner
      ⟨row, hrow, rfl, hdisowned⟩
  · intro hnone
    apply run_eq_of_settled hfirst.schema hsnapshot₁ hrun'
    intro e he owners howners
    obtain ⟨_, row, -, hrow, hport, -, -, hsettled⟩ := hfirst.ports e he
    refine ⟨row, hrow, hport, ?_, hsettled⟩
    rw [hasOwner_second_iff hschema hsnapshot hfirst hsnapshot₁ he howners hrow hport]
    rintro ⟨row₀, hrow₀, -, hdisowned⟩
    exact hnone ⟨desired, hdesired, row₀, hrow₀, hdisowned⟩

variable (listenerNetworks t)

/-- **Idempotence of the backfill.** A second run changes nothing, unless both runs complete
and the first one disowned a row. -/
theorem backfill_idempotent_iff (l : Ledger) (hschema : l.Schema) (now now' : ℤ) :
    BackfillIdempotent listenerNetworks t now now' l ↔
      (CompletesTwice listenerNetworks t now now' l → ¬ DisownedRow listenerNetworks t l) := by
  unfold BackfillIdempotent
  cases hfirst : backfillGlobalPortAllocations listenerNetworks t now l with
  | error e =>
    have hkeeps : afterBackfill listenerNetworks t now l = l := by simp only [afterBackfill, hfirst]
    obtain ⟨e', hsecond⟩ := backfill_throws listenerNetworks t now now' l ⟨e, hfirst⟩
    have hkeeps' : afterBackfill listenerNetworks t now' l = l := by simp only [afterBackfill, hsecond]
    rw [hkeeps]
    refine iff_of_true hkeeps' ?_
    rintro ⟨s₁, s₂, h₁, -⟩
    rw [hfirst] at h₁
    cases h₁
  | ok s =>
    have hafter : afterBackfill listenerNetworks t now l = s.ledger := by simp only [afterBackfill, hfirst]
    rw [hafter]
    cases hsecond : backfillGlobalPortAllocations listenerNetworks t now' s.ledger with
    | error e =>
      have hkeeps : afterBackfill listenerNetworks t now' s.ledger = s.ledger := by
        simp only [afterBackfill, hsecond]
      refine iff_of_true hkeeps ?_
      rintro ⟨s₁, s₂, h₁, h₂⟩
      obtain rfl := Except.ok.inj (hfirst.symm.trans h₁)
      rw [hsecond] at h₂
      cases h₂
    | ok s' =>
      have hafter' : afterBackfill listenerNetworks t now' s.ledger = s'.ledger := by
        simp only [afterBackfill, hsecond]
      rw [hafter', second_run_eq_iff hschema hfirst hsecond]
      constructor
      · exact fun hnone _ => hnone
      · exact fun hnone => hnone ⟨s, s', hfirst, hsecond⟩

/-- An empty ledger, filled from one tunnel and filled again. -/
theorem backfill_twice_lone_tunnel : BackfillIdempotent (fun _ => none) loneTunnel 1000 61000 {} := by
  rw [backfill_idempotent_iff _ _ _ ⟨by decide, by decide, by decide, by decide, by decide⟩]
  rintro - ⟨desired, -, row, hrow, -⟩
  cases hrow

def loneRule : ListenerTables where
  rules := [{ id := 1, hostId := 1, protocol := [0x74, 0x63, 0x70], sourcePort := 20000 }]

/-- A ledger in which the port of the rule is reserved for the inbound with the tag `in`. -/
def reservedElsewhere : Ledger where
  allocations := [{
    id := 1
    allocationTag := newAllocationTag 20000
    port := 20000
    status := .known .reserved
    primaryOwnerType := some (.known .xrayInbound)
    primaryOwnerTag := some [0x69, 0x6E]
    reservationTokenHash := some (List.replicate 64 0x61)
    reservedUntil := some 60
    version := 1
    createdAt := 0
    updatedAt := 0 }]

/-- The first run finds the rule and the inbound, a conflict; the second finds the rule. -/
theorem backfill_twice_reserved :
    ¬ BackfillIdempotent (fun _ => none) loneRule 1000 61000 reservedElsewhere := by
  unfold BackfillIdempotent
  decide +kernel

end

end ForwardX.Panel.GlobalPorts
