/-
The invariant of the global port ledger, over every order of its operations.

`Kept` is what every move keeps. The proof has two halves: each operation is a sequence of the moves
of `PortMoves`, and each move keeps the ledger in order.
-/
import ForwardX.Lib.Run
import ForwardX.Panel.PortMoves
import Mathlib.Data.Int.Interval

namespace ForwardX.Panel.GlobalPorts

open Checks Table Tx Call List

/-! ## The invariant -/

structure HeldBy (Q : Naming) (references : List ReferenceRow) (row : AllocationRow) (r : ReferenceRow) :
    Prop where
  allocation : r.allocationId = row.id
  owning : r.isOwning → row.primaryOwnerTag = some r.ownerGroupTag ∧
    (row.status = .known .active ∨ row.status = .known .releasing) ∧
    ∃ type resourceType, row.primaryOwnerType = some (.known type.resource) ∧
      r.resourceType = .known resourceType ∧ Q type r.ownerGroupTag resourceType r.resourceId
  aliased : r.isOwning = false → row.status = .known .active ∧
    row.primaryOwnerType = some (.known .xrayInbound) ∧
    ∃ o ∈ references, o.isOwning ∧ o.allocationId = row.id

structure Kept (Q : Naming) (l : Ledger) : Prop where
  schema : l.Schema
  shaped : ∀ row ∈ l.allocations, ∃ status type, WellShaped row status type
  counted : ∀ row ∈ l.allocations, row.id ≤ l.allocations.length
  held : ∀ r ∈ l.references, ∃ row ∈ l.allocations, HeldBy Q l.references row r

theorem kept_empty (Q : Naming) : Kept Q {} where
  schema := ⟨nodup_nil, nodup_nil, nodup_nil, nodup_nil, nodup_nil⟩
  shaped := forall_mem_nil _
  counted := forall_mem_nil _
  held := forall_mem_nil _

section

variable {Q : Naming} {l l₁ : Ledger} {row row' : AllocationRow} {r : ReferenceRow}

theorem HeldBy.status (h : HeldBy Q l.references row r) :
    row.status = .known .active ∨ row.status = .known .releasing := by
  cases howning : r.isOwning with
  | true => exact (h.owning howning).2.1
  | false => exact .inl (h.aliased howning).1

theorem HeldBy.mono (h : HeldBy Q l.references row r) (hsub : l.references ⊆ l₁.references) :
    HeldBy Q l₁.references row r where
  allocation := h.allocation
  owning := h.owning
  aliased := by
    intro haliased
    obtain ⟨hstatus, htype, o, ho, howning, hoid⟩ := h.aliased haliased
    exact ⟨hstatus, htype, o, hsub ho, howning, hoid⟩

theorem Kept.heldBy (h : Kept Q l) (hrow : row ∈ l.allocations) (hr : r ∈ l.references)
    (hid : r.allocationId = row.id) : HeldBy Q l.references row r := by
  obtain ⟨row', hrow', hheld⟩ := h.held r hr
  obtain rfl := eq_of_key_eq h.schema.ids hrow' hrow (hheld.allocation.symm.trans hid)
  exact hheld

theorem Kept.bare (h : Kept Q l) (hrow : row ∈ l.allocations) (hactive : row.status ≠ .known .active)
    (hreleasing : row.status ≠ .known .releasing) : ∀ r ∈ l.references, r.allocationId ≠ row.id := by
  intro r hr hid
  rcases (h.heldBy hrow hr hid).status with hstatus | hstatus
  · exact hactive hstatus
  · exact hreleasing hstatus

theorem length_le_of_ports (hnodup : (l.allocations.map AllocationRow.port).Nodup)
    (hports : ∀ row ∈ l.allocations, 1 ≤ row.port ∧ row.port ≤ 65535) : l.allocations.length ≤ 65535 := by
  have hcard := toFinset_card_of_nodup hnodup
  have hsub : (l.allocations.map AllocationRow.port).toFinset ⊆ Finset.Icc 1 65535 := by
    intro port hport
    obtain ⟨row, hrow, rfl⟩ := mem_map.mp (mem_toFinset.mp hport)
    exact Finset.mem_Icc.mpr (hports row hrow)
  have hle := Finset.card_le_card hsub
  rw [hcard, length_map, Int.card_Icc] at hle
  exact hle

theorem Kept.length_le (h : Kept Q l) : l.allocations.length ≤ 65535 := by
  apply length_le_of_ports h.schema.ports
  intro row hrow
  obtain ⟨status, type, hshaped⟩ := h.shaped row hrow
  exact ⟨hshaped.port_pos, hshaped.port_le⟩

end

/-! ## Rows keep their shape -/

section

variable {row row' : AllocationRow} {status status' : AllocationStatus} {type type' : Option PrimaryOwnerType}

section

variable (h : WellShaped row status type) (hcount : CanCount row)
  (hkeys : row'.id = row.id ∧ row'.port = row.port ∧ row'.version = row.version + 1)
  (hstatus : row'.status = .known status')

include h hcount hkeys hstatus

theorem WellShaped.next (htype : ownerType row'.primaryOwnerType = .ok type')
    (hshape : hasShape status' type' row') : WellShaped row' status' type' := by
  obtain ⟨hid, hport, hversion⟩ := hkeys
  have hpos := h.version_pos
  exact
    { status_eq := hstatus
      type_eq := htype
      shape := hshape
      id_pos := hid ▸ h.id_pos
      id_le := hid ▸ h.id_le
      port_pos := hport ▸ h.port_pos
      port_le := hport ▸ h.port_le
      version_pos := by omega
      version_lt := hversion ▸ hcount }

theorem WellShaped.keepOwner (hexpects : expectsOwner status' = expectsOwner status)
    (hreserved : status ≠ .reserved) (hreserved' : status' ≠ .reserved)
    (howner : row'.primaryOwnerType = row.primaryOwnerType ∧ row'.primaryOwnerTag = row.primaryOwnerTag)
    (hreservation : row'.reservationTokenHash = row.reservationTokenHash ∧
      row'.reservedUntil = row.reservedUntil) : WellShaped row' status' type := by
  refine h.next hcount hkeys hstatus (by rw [howner.1]; exact h.type_eq) ?_
  have hshape := h.shape
  simp only [hasShape, decide_eq_true_eq, hexpects, hreserved, hreserved', howner.2, hreservation.1,
    hreservation.2] at hshape ⊢
  exact hshape

end

theorem WellShaped.touch (h : WellShaped row .active type) (hcount : CanCount row) (now : ℤ) :
    WellShaped (row.touch now) .active type :=
  h.keepOwner hcount ⟨rfl, rfl, rfl⟩ h.status_eq rfl nofun nofun ⟨rfl, rfl⟩ ⟨rfl, rfl⟩

theorem WellShaped.release (h : WellShaped row .active type) (hcount : CanCount row) (now : ℤ) :
    WellShaped (row.release now) .releasing type :=
  h.keepOwner hcount ⟨rfl, rfl, rfl⟩ rfl rfl nofun nofun ⟨rfl, rfl⟩ ⟨rfl, rfl⟩

theorem WellShaped.reserve (h : WellShaped row status type) (hcount : CanCount row) {owner : Owner}
    {tag hash : JsString} (htag : ownerTag owner = .ok tag) (hhash : isTokenHash hash) (reservedUntil now : ℤ) :
    WellShaped (row.reserve owner tag hash reservedUntil now) .reserved (some owner.type) := by
  refine h.next hcount ⟨rfl, rfl, rfl⟩ rfl (ownerType_resource _) ?_
  have hlength := ownerTag_length htag
  simp [hasShape, AllocationRow.reserve, expectsOwner, dateFromDatabase, hlength, hhash]

theorem WellShaped.activate (h : WellShaped row .reserved type) (hcount : CanCount row) (now : ℤ) :
    WellShaped (row.activate now) .active type := by
  refine h.next hcount ⟨rfl, rfl, rfl⟩ rfl h.type_eq ?_
  have hshape := h.shape
  simp only [hasShape, decide_eq_true_eq] at hshape ⊢
  exact ⟨hshape.1, hshape.2.1, hshape.2.2.1, by simp [AllocationRow.activate],
    by simp [AllocationRow.activate]⟩

theorem WellShaped.quarantine (h : WellShaped row .releasing type) (hcount : CanCount row) (now : ℤ) :
    WellShaped (row.quarantine now) .pendingScan none := by
  refine h.next hcount ⟨rfl, rfl, rfl⟩ rfl rfl ?_
  have hshape := h.shape
  simp only [hasShape, decide_eq_true_eq] at hshape ⊢
  exact ⟨rfl, by simp [AllocationRow.quarantine], rfl, hshape.2.2.2.1, hshape.2.2.2.2⟩

theorem WellShaped.recover (h : WellShaped row .reserved type) (hcount : CanCount row) (now : ℤ) :
    WellShaped (row.recover now) .pendingScan none := by
  refine h.next hcount ⟨rfl, rfl, rfl⟩ rfl rfl ?_
  simp [hasShape, AllocationRow.recover, AllocationRow.quarantine, expectsOwner]

section

variable (h : WellShaped row status type)

include h

theorem WellShaped.free (hcount : CanCount row) (now : ℤ) : WellShaped (row.free now) .free none := by
  refine h.next hcount ⟨rfl, rfl, rfl⟩ rfl rfl ?_
  simp [hasShape, AllocationRow.free, expectsOwner]

theorem WellShaped.of_scanned (hscanned : isScanned row.status) :
    status = .pendingScan ∨ status = .externalOccupied := by
  simpa [isScanned, h.status_eq] using hscanned

theorem WellShaped.startScan (hcount : CanCount row)
    (hscanned : isScanned row.status) (now : ℤ) : WellShaped (row.startScan now) status type := by
  have hreserved : status ≠ .reserved := by
    rcases h.of_scanned hscanned with rfl | rfl <;> exact nofun
  exact h.keepOwner hcount ⟨rfl, rfl, rfl⟩ h.status_eq rfl hreserved hreserved ⟨rfl, rfl⟩ ⟨rfl, rfl⟩

theorem WellShaped.deferScan (hcount : CanCount row)
    (hscanned : isScanned row.status) (now : ℤ) : WellShaped (row.deferScan now) status type := by
  have hreserved : status ≠ .reserved := by
    rcases h.of_scanned hscanned with rfl | rfl <;> exact nofun
  exact h.keepOwner hcount ⟨rfl, rfl, rfl⟩ h.status_eq rfl hreserved hreserved ⟨rfl, rfl⟩ ⟨rfl, rfl⟩

theorem WellShaped.scanAgain (hcount : CanCount row)
    (hscanned : isScanned row.status) (hasOccupied : Bool) (now : ℤ) :
    WellShaped (row.scanAgain hasOccupied now) (if hasOccupied then .externalOccupied else status) type := by
  have hcase := h.of_scanned hscanned
  refine h.keepOwner hcount ⟨rfl, rfl, rfl⟩ ?_ ?_ ?_ ?_ ⟨rfl, rfl⟩ ⟨rfl, rfl⟩
  · cases hasOccupied with
    | true => rfl
    | false => exact h.status_eq
  all_goals rcases hcase with rfl | rfl <;> cases hasOccupied <;> simp [expectsOwner]

end

end

/-! ## Every move keeps the invariant -/

section

variable {Q : Naming} {now : ℤ} {l l₁ l' : Ledger} {row : AllocationRow} {r : ReferenceRow}

variable {f : AllocationRow → AllocationRow} {r' : ReferenceRow}

theorem mem_setRow {id : ℤ} {row' : AllocationRow} :
    row' ∈ (l.setRow id f).allocations ↔
      ∃ row ∈ l.allocations, (if row.id = id then f row else row) = row' := by
  simp only [Ledger.setRow, mem_updateWhere, decide_eq_true_eq]

/-- **One row changes, and some references.** The references of the other rows stay where they are. -/
theorem Kept.setRow (h : Kept Q l) (hallocations : l₁.allocations = l.allocations) (hschema : l₁.Schema)
    (hrow : row ∈ l.allocations) {status : AllocationStatus} {type : Option PrimaryOwnerType}
    (hf : ∀ row, (f row).id = row.id ∧ (f row).port = row.port ∧ (f row).allocationTag = row.allocationTag)
    (hshape : WellShaped (f row) status type)
    (hother : ∀ r ∈ l₁.references, r.allocationId ≠ row.id →
      ∃ row' ∈ l.allocations, HeldBy Q l₁.references row' r)
    (hheld : ∀ r ∈ l₁.references, r.allocationId = row.id → HeldBy Q l₁.references (f row) r) :
    Kept Q (l₁.setRow row.id f) where
  schema := setRow_schema hschema hf
  shaped := by
    intro row' hrow'
    obtain ⟨row₀, hrow₀, rfl⟩ := mem_setRow.mp hrow'
    rw [hallocations] at hrow₀
    split
    · rename_i hid
      rw [eq_of_key_eq h.schema.ids hrow₀ hrow hid]
      exact ⟨status, type, hshape⟩
    · exact h.shaped row₀ hrow₀
  counted := by
    intro row' hrow'
    obtain ⟨row₀, hrow₀, rfl⟩ := mem_setRow.mp hrow'
    rw [hallocations] at hrow₀
    have hcounted := h.counted row₀ hrow₀
    simp only [Ledger.setRow, updateWhere, length_map, hallocations]
    split
    · rw [(hf row₀).1]
      exact hcounted
    · exact hcounted
  held := by
    intro r hr
    by_cases hid : r.allocationId = row.id
    · refine ⟨f row, mem_setRow.mpr ⟨row, ?_, if_pos rfl⟩, hheld r hr hid⟩
      rwa [hallocations]
    · obtain ⟨row', hrow', hheld'⟩ := hother r hr hid
      refine ⟨row', mem_setRow.mpr ⟨row', ?_, if_neg ?_⟩, hheld'⟩
      · rwa [hallocations]
      · rw [← hheld'.allocation]
        exact hid

theorem Kept.setBare (h : Kept Q l) (hrow : row ∈ l.allocations)
    {status : AllocationStatus} {type : Option PrimaryOwnerType}
    (hf : ∀ row, (f row).id = row.id ∧ (f row).port = row.port ∧ (f row).allocationTag = row.allocationTag)
    (hshape : WellShaped (f row) status type) (hbare : ∀ r ∈ l.references, r.allocationId ≠ row.id) :
    Kept Q (l.setRow row.id f) :=
  h.setRow rfl h.schema hrow hf hshape (fun r hr _ => h.held r hr) fun r hr hid => absurd hid (hbare r hr)

theorem HeldBy.congr {references : List ReferenceRow} {row row' : AllocationRow}
    (h : HeldBy Q references row r) (hid : row'.id = row.id) (hstatus : row'.status = row.status)
    (howner : row'.primaryOwnerType = row.primaryOwnerType ∧ row'.primaryOwnerTag = row.primaryOwnerTag) :
    HeldBy Q references row' r where
  allocation := h.allocation.trans hid.symm
  owning := by
    rw [hstatus, howner.1, howner.2]
    exact h.owning
  aliased := by
    rw [hstatus, howner.1, hid]
    exact h.aliased

/-! ### References that come -/

theorem subset_insertReferenceRow (h : l.insertReferenceRow r = some l') : l.references ⊆ l'.references := by
  rw [(insertReferenceRow_eq_some h).1]
  exact subset_append_left _ _

theorem mem_insertReferenceRow (h : l.insertReferenceRow r = some l')
    (hr' : r' ∈ l'.references) : r' ∈ l.references ∨ ∃ id, r' = { r with id := id } := by
  rw [(insertReferenceRow_eq_some h).1] at hr'
  rcases mem_append.mp hr' with hold | hnew
  · exact .inl hold
  · exact .inr ⟨_, mem_singleton.mp hnew⟩

theorem ReferencesInserted.subset {P : ReferenceRow → Prop} (h : ReferencesInserted P l l') :
    l.references ⊆ l'.references := by
  induction h with
  | refl => exact List.Subset.refl _
  | insert _ hinsert _ ih => exact fun r hr => ih (subset_insertReferenceRow hinsert hr)

theorem ReferencesInserted.mem {P : ReferenceRow → Prop} (h : ReferencesInserted P l l')
    (hr' : r' ∈ l'.references) : r' ∈ l.references ∨ ∃ r, P r ∧ ∃ id, r' = { r with id := id } := by
  induction h with
  | refl => exact .inl hr'
  | insert hP hinsert _ ih =>
    rcases ih hr' with hmid | hnew
    · rcases mem_insertReferenceRow hinsert hmid with hold | hnew
      · exact .inl hold
      · exact .inr ⟨_, hP, hnew⟩
    · exact .inr hnew

theorem OwningOf.heldBy {references : List ReferenceRow} {type : PrimaryOwnerType} {tag : JsString}
    (h : OwningOf Q row.id type tag r) (id : ℤ)
    (hstatus : row.status = .known .active ∨ row.status = .known .releasing)
    (htype : row.primaryOwnerType = some (.known type.resource)) (htag : row.primaryOwnerTag = some tag) :
    HeldBy Q references row { r with id := id } where
  allocation := h.allocation
  owning := by
    intro _
    obtain ⟨resourceType, hresource, hnamed⟩ := h.named
    exact ⟨by rw [htag, ← h.owner], hstatus, type, resourceType, htype, hresource, h.owner ▸ hnamed⟩
  aliased := by
    intro haliased
    rw [h.owning] at haliased
    cases haliased

theorem Kept.held_of_subset (h : Kept Q l) (hsub : l.references ⊆ l₁.references) (hr : r ∈ l.references) :
    ∃ row ∈ l.allocations, HeldBy Q l₁.references row r := by
  obtain ⟨row, hrow, hheld⟩ := h.held r hr
  exact ⟨row, hrow, hheld.mono hsub⟩

theorem Kept.reserveNew (h : Kept Q l) {port reservedUntil : ℤ} {owner : Owner} {tag hash : JsString}
    (hport : 1000 ≤ port ∧ port ≤ 65535) (htag : ownerTag owner = .ok tag) (hhash : isTokenHash hash)
    (hinsert : l.insertAllocation (reservedRow port owner tag hash reservedUntil now) = some (row, l')) :
    Kept Q l' := by
  have hschema := schema_insertAllocation h.schema hinsert
  obtain ⟨rfl, rfl, -⟩ := insertAllocation_eq_some hinsert
  have hnext : nextKey AllocationRow.id l.allocations ≤ l.allocations.length + 1 :=
    nextKey_le _ (Int.natCast_nonneg _) h.counted
  have hlength := h.length_le
  have hshape := ownerTag_length htag
  have hshaped : WellShaped { reservedRow port owner tag hash reservedUntil now with
      id := nextKey AllocationRow.id l.allocations } .reserved (some owner.type) :=
    { status_eq := rfl
      type_eq := ownerType_resource _
      shape := by simp [hasShape, reservedRow, expectsOwner, dateFromDatabase, hshape, hhash]
      id_pos := nextKey_pos _ _
      id_le := by
        simp only [maxSafeInteger]
        omega
      port_pos := by
        simp only [reservedRow]
        omega
      port_le := hport.2
      version_pos := by simp [reservedRow]
      version_lt := by simp [reservedRow, maxSafeInteger] }
  refine ⟨hschema, ?_, ?_, ?_⟩
  · intro row' hrow'
    rcases mem_append.mp hrow' with hold | hnew
    · exact h.shaped row' hold
    · rw [mem_singleton.mp hnew]
      exact ⟨_, _, hshaped⟩
  · intro row' hrow'
    rw [length_append, length_singleton, Nat.cast_succ]
    rcases mem_append.mp hrow' with hold | hnew
    · have hcounted := h.counted row' hold
      omega
    · rw [mem_singleton.mp hnew]
      exact hnext
  · intro r hr
    obtain ⟨row', hrow', hheld⟩ := h.held r hr
    exact ⟨row', mem_append_left _ hrow', hheld⟩

theorem Kept.activate (h : Kept Q l) {type : PrimaryOwnerType} {tag : JsString} (hrow : row ∈ l.allocations)
    (hstatus : row.status = .known .reserved) (htype : row.primaryOwnerType = some (.known type.resource))
    (htag : row.primaryOwnerTag = some tag)
    (hinsert : ReferencesInserted (OwningOf Q row.id type tag) l l₁) (hversion : CanCount row) :
    Kept Q (l₁.setRow row.id fun row => row.activate now) := by
  obtain ⟨status, type', hshaped⟩ := h.shaped row hrow
  obtain rfl : status = .reserved := Column.known.inj (hshaped.status_eq.symm.trans hstatus)
  have hbare := h.bare hrow (by rw [hstatus]; nofun) (by rw [hstatus]; nofun)
  refine h.setRow hinsert.allocations (hinsert.schema h.schema) hrow (fun _ => ⟨rfl, rfl, rfl⟩)
    (hshaped.activate hversion now) ?_ ?_
  · intro r hr hid
    rcases hinsert.mem hr with hold | ⟨r₀, hr₀, id, rfl⟩
    · exact h.held_of_subset hinsert.subset hold
    · exact absurd hr₀.allocation hid
  · intro r hr hid
    rcases hinsert.mem hr with hold | ⟨r₀, hr₀, id, rfl⟩
    · exact absurd hid (hbare r hold)
    · have hr₁ : OwningOf Q (row.activate now).id type tag r₀ := hr₀
      exact hr₁.heldBy id (.inl rfl) htype htag

theorem Kept.insertReference (h : Kept Q l) (hrow : row ∈ l.allocations)
    (hstatus : row.status = .known .active) (hinsert : l.insertReferenceRow r = some l₁)
    (hversion : CanCount row) (hid : r.allocationId = row.id)
    (hheld : ∀ id, HeldBy Q l₁.references (row.touch now) { r with id := id }) :
    Kept Q (l₁.setRow row.id fun row => row.touch now) := by
  obtain ⟨status, type, hshaped⟩ := h.shaped row hrow
  obtain rfl : status = .active := Column.known.inj (hshaped.status_eq.symm.trans hstatus)
  have hsub := subset_insertReferenceRow hinsert
  have hallocations : l₁.allocations = l.allocations := by rw [(insertReferenceRow_eq_some hinsert).1]
  refine h.setRow hallocations (schema_insertReferenceRow h.schema hinsert) hrow
    (fun _ => ⟨rfl, rfl, rfl⟩) (hshaped.touch hversion now) ?_ ?_
  · intro r' hr' hid'
    rcases mem_insertReferenceRow hinsert hr' with hold | ⟨id, rfl⟩
    · exact h.held_of_subset hsub hold
    · exact absurd hid hid'
  · intro r' hr' hid'
    rcases mem_insertReferenceRow hinsert hr' with hold | ⟨id, rfl⟩
    · exact ((h.heldBy hrow hold hid').mono hsub).congr rfl rfl ⟨rfl, rfl⟩
    · exact hheld id

theorem mem_dropReference (hschema : l.Schema) (hr : r ∈ l.references) :
    r' ∈ (l.dropReference r).references ↔ r' ∈ l.references ∧ r' ≠ r := by
  simp only [Ledger.dropReference, mem_filter, decide_eq_true_eq, and_congr_right_iff]
  intro hr'
  constructor
  · rintro hother rfl
    exact hother ⟨rfl, rfl⟩
  · rintro hne ⟨hid, -⟩
    exact hne (eq_of_key_eq hschema.referenceIds hr' hr hid)

section

variable (h : Kept Q l)

include h

theorem Kept.held_of_drop (hr : r ∈ l.references) (hid : r.allocationId = row.id)
    (hr' : r' ∈ l.references) (hid' : r'.allocationId ≠ row.id) :
    ∃ row' ∈ l.allocations, HeldBy Q (l.dropReference r).references row' r' := by
  obtain ⟨row', hrow', hheld⟩ := h.held r' hr'
  refine ⟨row', hrow', hheld.allocation, hheld.owning, ?_⟩
  intro haliased
  obtain ⟨hactive, htype, o, ho, howning, hoid⟩ := hheld.aliased haliased
  refine ⟨hactive, htype, o, (mem_dropReference h.schema hr).mpr ⟨ho, ?_⟩, howning, hoid⟩
  rintro rfl
  exact hid' (hheld.allocation.trans (hoid.symm.trans hid))

theorem Kept.drop {o : ReferenceRow} (hrow : row ∈ l.allocations)
    (hstatus : row.status = .known .active) (hr : r ∈ l.references) (hid : r.allocationId = row.id)
    (ho : o ∈ l.references) (hne : o.id ≠ r.id) (howning : o.isOwning) (hoid : o.allocationId = row.id)
    (hversion : CanCount row) :
    Kept Q ((l.dropReference r).setRow row.id fun row => row.touch now) := by
  obtain ⟨status, type, hshaped⟩ := h.shaped row hrow
  obtain rfl : status = .active := Column.known.inj (hshaped.status_eq.symm.trans hstatus)
  have hallocations : (l.dropReference r).allocations = l.allocations := rfl
  refine h.setRow hallocations (dropReference_schema h.schema r) hrow (fun _ => ⟨rfl, rfl, rfl⟩)
    (hshaped.touch hversion now) ?_ ?_
  · intro r' hr' hid'
    exact h.held_of_drop hr hid ((mem_dropReference h.schema hr).mp hr').1 hid'
  · intro r' hr' hid'
    have hheld := h.heldBy hrow ((mem_dropReference h.schema hr).mp hr').1 hid'
    refine ⟨hid', hheld.owning, ?_⟩
    intro haliased
    obtain ⟨hactive, htype, -⟩ := hheld.aliased haliased
    refine ⟨hactive, htype, o, (mem_dropReference h.schema hr).mpr ⟨ho, ?_⟩, howning, hoid⟩
    rintro rfl
    exact hne rfl

theorem Kept.owning_of_only (hrow : row ∈ l.allocations) (hr : r ∈ l.references)
    (hid : r.allocationId = row.id) (honly : ∀ o ∈ l.references, o.allocationId = row.id → o.id = r.id) :
    r.isOwning := by
  by_contra hnot
  obtain ⟨-, -, o, ho, howning, hoid⟩ := (h.heldBy hrow hr hid).aliased (Bool.eq_false_iff.mpr hnot)
  rw [eq_of_key_eq h.schema.referenceIds ho hr (honly o ho hoid)] at howning
  exact hnot howning

theorem Kept.beginRelease (hrow : row ∈ l.allocations) (hstatus : row.status = .known .active)
    (hr : r ∈ l.references) (hid : r.allocationId = row.id)
    (honly : ∀ o ∈ l.references, o.allocationId = row.id → o.id = r.id) (hversion : CanCount row) :
    Kept Q (l.setRow row.id fun row => row.release now) := by
  obtain ⟨status, type, hshaped⟩ := h.shaped row hrow
  obtain rfl : status = .active := Column.known.inj (hshaped.status_eq.symm.trans hstatus)
  have howning := h.owning_of_only hrow hr hid honly
  refine h.setRow rfl h.schema hrow (fun _ => ⟨rfl, rfl, rfl⟩) (hshaped.release hversion now)
    (fun r' hr' _ => h.held r' hr') ?_
  intro r' hr' hid'
  obtain rfl := eq_of_key_eq h.schema.referenceIds hr' hr (honly r' hr' hid')
  obtain ⟨htag, -, hnamed⟩ := (h.heldBy hrow hr hid).owning howning
  refine ⟨hid, fun _ => ⟨htag, .inr rfl, hnamed⟩, ?_⟩
  intro haliased
  rw [howning] at haliased
  cases haliased

theorem Kept.confirm (hrow : row ∈ l.allocations) (hstatus : row.status = .known .releasing)
    (hr : r ∈ l.references) (hid : r.allocationId = row.id)
    (honly : ∀ o ∈ l.references, o.allocationId = row.id → o.id = r.id) (hversion : CanCount row) :
    Kept Q ((l.dropReference r).setRow row.id fun row => row.quarantine now) := by
  obtain ⟨status, type, hshaped⟩ := h.shaped row hrow
  obtain rfl : status = .releasing := Column.known.inj (hshaped.status_eq.symm.trans hstatus)
  have hallocations : (l.dropReference r).allocations = l.allocations := rfl
  refine h.setRow hallocations (dropReference_schema h.schema r) hrow (fun _ => ⟨rfl, rfl, rfl⟩)
    (hshaped.quarantine hversion now) ?_ ?_
  · intro r' hr' hid'
    exact h.held_of_drop hr hid ((mem_dropReference h.schema hr).mp hr').1 hid'
  · intro r' hr' hid'
    obtain ⟨hr₁, hne⟩ := (mem_dropReference h.schema hr).mp hr'
    exact absurd (eq_of_key_eq h.schema.referenceIds hr₁ hr (honly r' hr₁ hid')) hne

theorem Kept.recover (hversion : ∀ row ∈ l.allocations, isExpiredReservation l now row → CanCount row) :
    Kept Q { l with
      allocations := updateWhere (isExpiredReservation l now) (fun row => row.recover now)
        l.allocations } where
  schema := schema_updateWhere h.schema fun _ => ⟨rfl, rfl, rfl⟩
  shaped := by
    intro row' hrow'
    obtain ⟨row, hrow, rfl⟩ := mem_updateWhere.mp hrow'
    obtain ⟨status, type, hshaped⟩ := h.shaped row hrow
    split
    · rename_i hexpired
      have hreserved := (of_decide_eq_true hexpired).1
      obtain rfl : status = .reserved := Column.known.inj (hshaped.status_eq.symm.trans hreserved)
      exact ⟨_, _, hshaped.recover (hversion row hrow hexpired) now⟩
    · exact ⟨status, type, hshaped⟩
  counted := by
    intro row' hrow'
    obtain ⟨row, hrow, rfl⟩ := mem_updateWhere.mp hrow'
    have hcounted := h.counted row hrow
    simp only [updateWhere, length_map]
    split
    · exact hcounted
    · exact hcounted
  held := by
    intro r hr
    obtain ⟨row, hrow, hheld⟩ := h.held r hr
    have hnot : ¬ isExpiredReservation l now row := by
      intro hexpired
      have hstatus := (of_decide_eq_true hexpired).1
      rcases hheld.status with hactive | hreleasing
      · rw [hactive] at hstatus
        cases hstatus
      · rw [hreleasing] at hstatus
        cases hstatus
    exact ⟨row, mem_updateWhere.mpr ⟨row, hrow, by rw [if_neg hnot]⟩, hheld⟩

theorem Move.kept (hmove : Move Q now l l') : Kept Q l' := by
  cases hmove with
  | reserveNew hport htag hhash hinsert => exact h.reserveNew hport htag hhash hinsert
  | reserveFree hrow hstatus htag hhash hversion =>
    obtain ⟨status, type, hshaped⟩ := h.shaped _ hrow
    exact h.setBare hrow (fun _ => ⟨rfl, rfl, rfl⟩) (hshaped.reserve hversion htag hhash _ now)
      (h.bare hrow (by rw [hstatus]; nofun) (by rw [hstatus]; nofun))
  | activate hrow hstatus htype htag hinsert hversion =>
    exact h.activate hrow hstatus htype htag hinsert hversion
  | @add row type tag r l₁ hrow hstatus htype htag hr hinsert hversion =>
    have hr₁ : OwningOf Q (row.touch now).id type tag r := hr
    exact h.insertReference hrow hstatus hinsert hversion hr.allocation
      fun id => hr₁.heldBy id (.inl hstatus) htype htag
  | attach hrow hstatus htype hr hid ho howning hoid hinsert hversion =>
    refine h.insertReference hrow hstatus hinsert hversion hid fun id => ⟨hid, ?_, ?_⟩
    · intro hnot
      rw [hr] at hnot
      cases hnot
    · exact fun _ => ⟨hstatus, htype, _, subset_insertReferenceRow hinsert ho, howning, hoid⟩
  | drop hrow hstatus hr hid ho hne howning hoid hversion =>
    exact h.drop hrow hstatus hr hid ho hne howning hoid hversion
  | beginRelease hrow hstatus hr hid honly hversion =>
    exact h.beginRelease hrow hstatus hr hid honly hversion
  | confirm hrow hstatus hr hid honly hversion => exact h.confirm hrow hstatus hr hid honly hversion
  | recover hversion => exact h.recover hversion
  | startScan hrow hstatus hrefs hversion =>
    obtain ⟨status, type, hshaped⟩ := h.shaped _ hrow
    exact h.setBare hrow (fun _ => ⟨rfl, rfl, rfl⟩) (hshaped.startScan hversion hstatus now) hrefs
  | deferScan hrow hstatus hrefs hversion =>
    obtain ⟨status, type, hshaped⟩ := h.shaped _ hrow
    exact h.setBare hrow (fun _ => ⟨rfl, rfl, rfl⟩) (hshaped.deferScan hversion hstatus now) hrefs
  | free hrow hstatus hrefs hversion =>
    obtain ⟨status, type, hshaped⟩ := h.shaped _ hrow
    exact h.setBare hrow (fun _ => ⟨rfl, rfl, rfl⟩) (hshaped.free hversion now) hrefs
  | scanAgain hrow hstatus hrefs hversion =>
    obtain ⟨status, type, hshaped⟩ := h.shaped _ hrow
    exact h.setBare hrow (fun _ => ⟨rfl, rfl, rfl⟩) (hshaped.scanAgain hversion hstatus _ now) hrefs

end

theorem Moves.kept {at' : ℤ → Prop} (h : Kept Q l) (hmoves : Moves Q at' l l') : Kept Q l' := by
  induction hmoves with
  | refl => exact h
  | tail _ hmove ih =>
    obtain ⟨now, -, hmove⟩ := hmove
    exact hmove.kept ih

end

/-! ## Runs -/

/-- What can happen: the operations of the allocation service, the steps of the reclaim
scans, each with whatever it is given, and changes of the tables that they read. -/
inductive LedgerEvent where
  | reserve (port : ℤ) (owner : Owner) (now ttlMs : ℤ) (token : JsString)
  | activate (allocationId expectedVersion : ℤ) (owner : Owner) (token : JsString)
      (references : List ReferenceInput) (now : ℤ)
  | addActive (allocationId expectedVersion : ℤ) (owner : Owner) (reference : ReferenceInput) (now : ℤ)
  | acquire (inTransaction : Bool) (port : ℤ) (owner : Owner) (reference : ReferenceInput)
      (now later : ℤ) (token : JsString)
  | attachAlias (allocationId expectedVersion : ℤ) (sourceOwner aliasOwner : Owner)
      (reference : ReferenceInput) (now : ℤ)
  | beginRelease (reference : ReferenceInput) (expectedVersion now : ℤ)
  | confirmReleased (reference : ReferenceInput) (expectedVersion now : ℤ)
  | releaseAfterRuntimeCleanup (reference : ReferenceInput) (now : ℤ)
  | promoteStaged (owner : Owner) (publicReference : ReferenceInput)
      (nextPublicReference : Option ReferenceInput) (stagedReference : ReferenceInput) (now : ℤ)
  | promoteOrphanedStaged (owner : Owner) (next staged : ReferenceInput) (now : ℤ)
  | recoverExpired (now : ℤ)
  | startProbeRun (allocationId port : ℤ) (hosts : List HostRow) (now : ℤ)
  | persistOutcome (runId : ℤ) (outcome : ProbeOutcome) (expiresAt : ℤ)
  | finalizeProbeRun (runId allocationId allocationVersion : ℤ) (expectedHosts : List HostRow)
      (leaseOwnerHash : JsString) (now : ℤ)
  | failRun (runId now : ℤ)
  | markDriftDeferred (allocationId now : ℤ)
  | acquireLease (ownerHash : JsString) (now : ℤ)
  | releaseLease (ownerHash : JsString) (now : ℤ)
  | otherTables (quickConfigs : List QuickConfigRow) (listeners : ListenerTables) (hosts : List HostRow)

def ended {α : Type} (m : PortCall α) : PortCall Unit := m >>= fun _ => pure ()

/-- A caller of an acquisition who opens a transaction, or does not. -/
def inTransactionIf {α : Type} : Bool → PortCall α → PortCall α
  | true, m => withDatabaseTransaction m
  | false, m => m

def ledgerCall (sha256 : Sha256) : LedgerEvent → PortCall Unit
  | .reserve port owner now ttlMs token =>
    ended (reserveGlobalPortAllocation sha256 port owner now ttlMs token)
  | .activate allocationId expectedVersion owner token references now =>
    ended (activateReservedGlobalPortAllocation sha256 allocationId expectedVersion owner token references now)
  | .addActive allocationId expectedVersion owner reference now =>
    ended (addActiveGlobalPortOwningReference allocationId expectedVersion owner reference now)
  | .acquire inTransaction port owner reference now later token =>
    ended (inTransactionIf inTransaction
      (acquireGlobalPortOwningReference sha256 port owner reference now later token))
  | .attachAlias allocationId expectedVersion sourceOwner aliasOwner reference now =>
    ended (attachGlobalPortTargetAlias allocationId expectedVersion sourceOwner aliasOwner reference now)
  | .beginRelease reference expectedVersion now =>
    ended (beginGlobalPortReferenceRelease reference expectedVersion now)
  | .confirmReleased reference expectedVersion now =>
    ended (confirmGlobalPortReferenceReleased reference expectedVersion now)
  | .releaseAfterRuntimeCleanup reference now =>
    ended (releaseGlobalPortReferenceAfterRuntimeCleanup reference now)
  | .promoteStaged owner publicReference nextPublicReference stagedReference now =>
    ended (promoteStagedGlobalPortOwningReference owner publicReference nextPublicReference stagedReference now)
  | .promoteOrphanedStaged owner next staged now =>
    ended (promoteOrphanedStagedGlobalPortOwningReference owner next staged now)
  | .recoverExpired now => ended (recoverExpiredGlobalPortReservations now)
  | .startProbeRun allocationId port hosts now => ended (startProbeRun sha256 allocationId port hosts now)
  | .persistOutcome runId outcome expiresAt => persistOutcome runId outcome expiresAt
  | .finalizeProbeRun runId allocationId allocationVersion expectedHosts leaseOwnerHash now =>
    ended (finalizeProbeRun sha256 runId allocationId allocationVersion expectedHosts leaseOwnerHash now)
  | .failRun runId now => failRun runId now
  | .markDriftDeferred allocationId now => markDriftDeferred allocationId now
  | .acquireLease ownerHash now => ended (acquireLease ownerHash now)
  | .releaseLease ownerHash now => releaseLease ownerHash now
  | .otherTables quickConfigs listeners hosts => execute fun db => { db with quickConfigs, listeners, hosts }

/-- An event, and the statements of it that the database refuses. -/
abbrev LedgerStep := LedgerEvent × (ℕ → Option PortError)

def LedgerStep.answer (sha256 : Sha256) (db : PortDb) (e : LedgerStep) : Except PortError Unit :=
  ((ledgerCall sha256 e.1).run e.2 db).1

def stepLedger (sha256 : Sha256) (db : PortDb) (e : LedgerStep) : PortDb :=
  ((ledgerCall sha256 e.1).run e.2 db).2

/-! ### What a run may do -/

/-- The owning references that an event can bring, with the owner they are for. -/
def LedgerEvent.owningReferences : LedgerEvent → List (Owner × ReferenceInput)
  | .activate _ _ owner _ references _ => references.map fun reference => (owner, reference)
  | .addActive _ _ owner reference _ => [(owner, reference)]
  | .acquire _ _ owner reference _ _ _ => [(owner, reference)]
  | .promoteStaged owner publicReference nextPublicReference _ _ =>
    [(owner, nextPublicReference.getD publicReference)]
  | .promoteOrphanedStaged owner next _ _ => [(owner, next)]
  | _ => []

/-- The references of an Xray inbound are those of the inbound with its tag. -/
def inboundNaming (inboundOf : JsString → ℤ) : Naming := fun type tag resourceType resourceId =>
  type = .xrayInbound → resourceType = .xrayInbound ∧ resourceId = inboundOf tag

def LedgerEvent.Names (Q : Naming) (e : LedgerEvent) : Prop :=
  ∀ x ∈ e.owningReferences, ∀ tag, ownerTag x.1 = .ok tag → Q x.1.type tag x.2.resourceType x.2.resourceId

def LedgerEvent.acquiresInTransaction : LedgerEvent → Bool
  | .acquire inTransaction _ _ _ _ _ _ => inTransaction
  | _ => true

/-- Acquisitions are made inside a transaction, versions have not run out, and inbounds
are called by their tags. -/
structure Permitted (inboundOf : JsString → ℤ) (db : PortDb) (e : LedgerStep) : Prop where
  acquires : e.1.acquiresInTransaction
  versions : VersionsLeft db.ledger
  names : e.1.Names (inboundNaming inboundOf)

/-! ### Every event moves the ledger, or fails and leaves it -/

section

variable {sha256 : Sha256} {inboundOf : JsString → ℤ} {db db' : PortDb}

theorem returns_ended {α : Type} {m : PortCall α} {u : Unit} (h : Returns (ended m) db u db') :
    ∃ a, Returns m db a db' := by
  obtain ⟨a, db₁, hm, hend⟩ := h.of_bind
  obtain ⟨-, rfl⟩ := hend.of_pure
  exact ⟨a, hm⟩

theorem failsClean_ended {α : Type} {m : PortCall α} (h : FailsClean m) : FailsClean (ended m) :=
  h.bind_pure fun _ => ()

theorem failsClean_persistOutcome (runId : ℤ) (outcome : ProbeOutcome) (expiresAt : ℤ) :
    FailsClean (persistOutcome runId outcome expiresAt) := by
  intro fault n s e n' s' h
  simp only [persistOutcome, bind, Call.bind, statement] at h
  cases hfault : fault n with
  | some e' =>
    simp only [hfault, Prod.mk.injEq] at h
    exact h.2.2.symm
  | none =>
    simp only [hfault] at h
    split at h
    · simp only [orThrow, Call.throw, Prod.mk.injEq] at h
      exact h.2.2.symm
    · simp only [orThrow, Call.pure, Prod.mk.injEq, reduceCtorEq, false_and] at h

theorem failsClean_ledgerCall (e : LedgerEvent) (hreserve : ∀ port owner now ttlMs token,
    e ≠ .reserve port owner now ttlMs token) (hacquires : e.acquiresInTransaction) :
    FailsClean (ledgerCall sha256 e) := by
  cases e with
  | reserve port owner now ttlMs token => exact absurd rfl (hreserve port owner now ttlMs token)
  | activate | addActive =>
    exact failsClean_ended (FailsClean.rethrow_bind fun _ => FailsClean.rethrow_bind fun _ =>
      FailsClean.rethrow_bind fun _ => FailsClean.throwIf_bind (failsClean_transaction _))
  | acquire inTransaction =>
    obtain rfl : inTransaction = true := hacquires
    exact failsClean_ended (failsClean_transaction _)
  | attachAlias =>
    exact failsClean_ended (FailsClean.rethrow_bind fun _ => FailsClean.rethrow_bind fun _ =>
      FailsClean.rethrow_bind fun _ => FailsClean.rethrow_bind fun _ =>
      FailsClean.throwIf_bind (failsClean_transaction _))
  | beginRelease | confirmReleased =>
    exact failsClean_ended (FailsClean.rethrow_bind fun _ => FailsClean.rethrow_bind fun _ =>
      failsClean_transaction _)
  | releaseAfterRuntimeCleanup => exact failsClean_ended (failsClean_transaction _)
  | promoteStaged | promoteOrphanedStaged =>
    exact failsClean_ended (FailsClean.rethrow_bind fun _ =>
      FailsClean.throwIf_bind (failsClean_transaction _))
  | recoverExpired => exact failsClean_ended (failsClean_statement _)
  | startProbeRun => exact failsClean_ended (failsClean_transaction _)
  | persistOutcome runId outcome expiresAt => exact failsClean_persistOutcome runId outcome expiresAt
  | finalizeProbeRun => exact failsClean_ended (failsClean_transaction _)
  | failRun | markDriftDeferred => exact failsClean_statement _
  | acquireLease => exact failsClean_ended (failsClean_statement _)
  | releaseLease | otherTables => exact failsClean_statement _

theorem reserveRow_spec {Q : Naming} (hkept : Kept Q db.ledger) (hversions : VersionsLeft db.ledger)
    {port reservedUntil now : ℤ} {owner : Owner} {tag hash : JsString} (hport : 1000 ≤ port ∧ port ≤ 65535)
    (htag : ownerTag owner = .ok tag) (hhash : isTokenHash hash) {result : Option AllocationRow}
    (h : Returns (reserveRow port owner tag hash reservedUntil now) db result db') :
    ∃ row dto, result = some row ∧ allocationDto row = .ok dto := by
  have hread : ∀ {l' : Ledger} {row : AllocationRow}, Move Q now db.ledger l' → row ∈ l'.allocations →
      ∃ dto, byKey AllocationRow.id row.id l'.allocations = some row ∧ allocationDto row = .ok dto := by
    intro l' row hmove hrow
    have hkept' := hmove.kept hkept
    obtain ⟨status, type, hshaped⟩ := hkept'.shaped row hrow
    exact ⟨_, byKey_of_mem hkept'.schema.ids hrow, hshaped.dto⟩
  have h := h.bind_query
  split at h
  · obtain ⟨row, db₁, hinsert, hlast⟩ := h.of_bind
    obtain ⟨rfl, rfl⟩ := hlast.of_query
    obtain ⟨l', hl', rfl⟩ := insertAllocation_spec hinsert
    have hrow : row ∈ l'.allocations := by
      rw [(insertAllocation_eq_some hl').2.1]
      exact mem_append_right _ (mem_singleton.mpr rfl)
    obtain ⟨dto, hbyKey, hdto⟩ := hread (.reserveNew hport htag hhash hl') hrow
    exact ⟨row, dto, hbyKey, hdto⟩
  · obtain ⟨current, -, h⟩ := h.bind_rethrow
    obtain ⟨-, h⟩ := h.bind_throwIf
    obtain ⟨_, db₁, hupdate, hlast⟩ := h.of_bind
    obtain ⟨rfl, rfl⟩ := hlast.of_query
    obtain ⟨row, hrow, hid, -, hstatus, rfl⟩ := updateAllocation_spec hkept.schema hupdate
    have hreserved : row.reserve owner tag hash reservedUntil now ∈
        (db.ledger.setRow row.id fun row => row.reserve owner tag hash reservedUntil now).allocations :=
      mem_setRow.mpr ⟨row, hrow, if_pos rfl⟩
    obtain ⟨dto, hbyKey, hdto⟩ := hread
      (.reserveFree hrow hstatus htag hhash (hversions row hrow)) hreserved
    rw [← hid]
    exact ⟨_, dto, hbyKey, hdto⟩

theorem ends_reserve {Q : Naming} (hkept : Kept Q db.ledger) (hversions : VersionsLeft db.ledger)
    (port : ℤ) (owner : Owner) (now ttlMs : ℤ) (token : JsString) :
    Ends (reserveGlobalPortAllocation sha256 port owner now ttlMs token) db
      fun answer db' => ∀ e, answer = .error e → db' = db := by
  refine Ends.bind_rethrow (fun port hport => ?_) fun _ _ _ => rfl
  refine Ends.bind_throwIf (fun _ => ?_) fun _ _ => rfl
  refine Ends.bind_rethrow (fun tag htag => ?_) fun _ _ _ => rfl
  refine Ends.bind_rethrow (fun hash hhash => ?_) fun _ _ _ => rfl
  refine Ends.bind ((failsClean_transaction _).ends db) ?_ ?_
  · rintro result db' (⟨e, hfalse, -⟩ | ⟨result', hresult, hreturns⟩)
    · cases hfalse
    · obtain rfl := Except.ok.inj hresult
      obtain ⟨row, dto, rfl, hdto⟩ := reserveRow_spec hkept hversions (newListenerPort_ok hport) htag
        (isTokenHash_tokenHash hhash) hreturns.of_transaction
      refine Ends.bind_orThrow ?_ ?_
      · rintro row' ⟨⟩
        rw [hdto]
        exact ends_pure fun e he => nomatch he
      · exact nofun
  · rintro e db' (⟨_, -, rfl⟩ | ⟨a, hfalse, -⟩) _ _
    · rfl
    · cases hfalse

theorem returns_acquireOf {inTransaction : Bool} {α : Type} {m : PortCall α} {a : α}
    (h : Returns (inTransactionIf inTransaction m) db a db') : Returns m db a db' := by
  cases inTransaction with
  | true => exact h.of_transaction
  | false => exact h

theorem moves_ledgerCall {Q : Naming} (hkept : Kept Q db.ledger) (hversions : VersionsLeft db.ledger)
    {e : LedgerEvent} (hnames : e.Names Q) {u : Unit} (h : Returns (ledgerCall sha256 e) db u db') :
    Moves Q (fun _ => True) db.ledger db'.ledger := by
  have hschema := hkept.schema
  have hledger : MovesLedger Q (fun _ => True) db db' → Moves Q (fun _ => True) db.ledger db'.ledger := by
    rintro ⟨l', hmoves, -, rfl⟩
    exact hmoves
  have hstays : db'.ledger = db.ledger → Moves Q (fun _ => True) db.ledger db'.ledger := by
    intro hsame
    rw [hsame]
    exact .refl
  cases e with
  | reserve =>
    obtain ⟨dto, h⟩ := returns_ended h
    exact hledger (moves_reserve hschema trivial h)
  | activate allocationId expectedVersion owner token references now =>
    obtain ⟨dto, h⟩ := returns_ended h
    refine hledger (moves_activate hschema trivial ?_ h)
    intro tag htag reference hreference
    exact hnames (owner, reference) (mem_map_of_mem hreference) tag htag
  | addActive allocationId expectedVersion owner reference now =>
    obtain ⟨dto, h⟩ := returns_ended h
    exact hledger (moves_addActive hschema trivial (hnames (owner, reference) mem_cons_self) h)
  | acquire inTransaction port owner reference now later token =>
    obtain ⟨dto, h⟩ := returns_ended h
    exact hledger (moves_acquire hschema trivial trivial (hnames (owner, reference) mem_cons_self)
      (returns_acquireOf h))
  | attachAlias =>
    obtain ⟨dto, h⟩ := returns_ended h
    exact hledger (moves_attach hschema trivial h)
  | beginRelease =>
    obtain ⟨dto, h⟩ := returns_ended h
    exact hledger (moves_begin hschema trivial h)
  | confirmReleased =>
    obtain ⟨dto, h⟩ := returns_ended h
    exact hledger (moves_confirm hschema trivial h)
  | releaseAfterRuntimeCleanup =>
    obtain ⟨dto, h⟩ := returns_ended h
    exact hledger (moves_releaseAfterRuntimeCleanup hschema trivial h)
  | promoteStaged owner publicReference nextPublicReference stagedReference now =>
    obtain ⟨dto, h⟩ := returns_ended h
    exact hledger (moves_promoteStaged hschema trivial
      (hnames (owner, nextPublicReference.getD publicReference) mem_cons_self) h)
  | promoteOrphanedStaged owner next staged now =>
    obtain ⟨dto, h⟩ := returns_ended h
    exact hledger (moves_promoteOrphaned hschema trivial (hnames (owner, next) mem_cons_self) h)
  | recoverExpired =>
    obtain ⟨n, h⟩ := returns_ended h
    exact hledger (moves_recover hschema trivial hversions h)
  | startProbeRun =>
    obtain ⟨started, h⟩ := returns_ended h
    exact moves_startProbeRun hschema hversions trivial h
  | persistOutcome =>
    have h := h.bind_statement
    obtain ⟨-, rfl⟩ := h.of_orThrow
    apply hstays
    split <;> rfl
  | finalizeProbeRun =>
    obtain ⟨outcome, h⟩ := returns_ended h
    exact moves_finalizeProbeRun hschema hversions trivial h
  | failRun =>
    obtain rfl := closeRun_spec h
    exact .refl
  | markDriftDeferred => exact moves_markDriftDeferred hschema hversions trivial h
  | acquireLease =>
    obtain ⟨acquired, h⟩ := returns_ended h
    have hs := congrArg Prod.snd h.of_statement
    subst hs
    apply hstays
    split <;> rfl
  | releaseLease =>
    obtain rfl := h.of_execute
    apply hstays
    split <;> rfl
  | otherTables =>
    obtain rfl := h.of_execute
    exact .refl

section

variable (hkept : Kept (inboundNaming inboundOf) db.ledger) {e : LedgerStep}
  (hok : Permitted inboundOf db e)

include hkept hok

theorem run_error_eq {error : PortError}
    (h : (ledgerCall sha256 e.1).run e.2 db = (.error error, db')) : db' = db := by
  obtain ⟨event, fault⟩ := e
  by_cases hreserve : ∃ port owner now ttlMs token, event = .reserve port owner now ttlMs token
  · obtain ⟨port, owner, now, ttlMs, token, rfl⟩ := hreserve
    have hends : Ends (ledgerCall sha256 (.reserve port owner now ttlMs token)) db
        fun answer db' => ∀ e, answer = .error e → db' = db := by
      refine Ends.bind (ends_reserve hkept hok.versions port owner now ttlMs token) ?_ ?_
      · intro _ _ _
        exact ends_pure fun e he => nomatch he
      · intro e s' hs' _ _
        exact hs' e rfl
    have hfails := hends.run fault error
    rw [h] at hfails
    exact hfails rfl
  · refine (failsClean_ledgerCall event ?_ hok.acquires).run_error h
    rintro port owner now ttlMs token rfl
    exact hreserve ⟨port, owner, now, ttlMs, token, rfl⟩

theorem stepLedger_of_error {error : PortError} (h : LedgerStep.answer sha256 db e = .error error) :
    stepLedger sha256 db e = db :=
  run_error_eq hkept hok (Prod.ext h rfl)

theorem Kept.stepLedger : Kept (inboundNaming inboundOf) (stepLedger sha256 db e).ledger := by
  rcases hanswer : LedgerStep.answer sha256 db e with error | u
  · rw [stepLedger_of_error hkept hok hanswer]
    exact hkept
  · have hreturns : Returns (ledgerCall sha256 e.1) db u (GlobalPorts.stepLedger sha256 db e) :=
      Returns.of_run (Prod.ext hanswer rfl)
    exact (moves_ledgerCall hkept hok.versions hok.names hreturns).kept hkept

end

end

/-! ### What the ledger says after a run -/

structure InOrder (inboundOf : JsString → ℤ) (l : Ledger) : Prop where
  onePerPort : (l.allocations.map AllocationRow.port).Nodup
  shaped : ∀ row ∈ l.allocations, ∃ dto, allocationDto row = .ok dto
  owned : ∀ r ∈ l.references, r.isOwning → ∃ row ∈ l.allocations, row.id = r.allocationId ∧
    row.primaryOwnerTag = some r.ownerGroupTag ∧
    (row.status = .known .active ∨ row.status = .known .releasing)
  bare : ∀ row ∈ l.allocations, row.status = .known .free ∨ row.status = .known .reserved ∨
    row.status = .known .pendingScan → ∀ r ∈ l.references, r.allocationId ≠ row.id
  aliased : ∀ r ∈ l.references, r.isOwning = false → ∃ o ∈ l.references, o.isOwning ∧
    o.allocationId = r.allocationId ∧ o.resourceType = .known .xrayInbound ∧
    ∃ row ∈ l.allocations, row.id = r.allocationId ∧ ∃ tag, row.primaryOwnerTag = some tag ∧
      o.resourceId = inboundOf tag

theorem Kept.inOrder {inboundOf : JsString → ℤ} {l : Ledger} (h : Kept (inboundNaming inboundOf) l) :
    InOrder inboundOf l where
  onePerPort := h.schema.ports
  shaped := by
    intro row hrow
    obtain ⟨status, type, hshaped⟩ := h.shaped row hrow
    exact ⟨_, hshaped.dto⟩
  owned := by
    intro r hr howning
    obtain ⟨row, hrow, hheld⟩ := h.held r hr
    obtain ⟨htag, hstatus, -⟩ := hheld.owning howning
    exact ⟨row, hrow, hheld.allocation.symm, htag, hstatus⟩
  bare := by
    intro row hrow hstatus
    apply h.bare hrow
    · rcases hstatus with hstatus | hstatus | hstatus <;> rw [hstatus] <;> nofun
    · rcases hstatus with hstatus | hstatus | hstatus <;> rw [hstatus] <;> nofun
  aliased := by
    intro r hr haliased
    obtain ⟨row, hrow, hheld⟩ := h.held r hr
    obtain ⟨-, htype, o, ho, howning, hoid⟩ := hheld.aliased haliased
    -- the owning reference beside the alias is the inbound's
    obtain ⟨htag, -, type, resourceType, htype', hresource, hnamed⟩ := (h.heldBy hrow ho hoid).owning howning
    have hinbound : type.resource = .xrayInbound := Column.known.inj (Option.some.inj (htype'.symm.trans htype))
    obtain ⟨rfl, hid⟩ := hnamed (PrimaryOwnerType.resource_injective hinbound)
    exact ⟨o, ho, howning, hoid.trans hheld.allocation.symm, hresource, row, hrow, hheld.allocation.symm,
      o.ownerGroupTag, htag, hid⟩

/-- **The ledger stays in order**, and a step that fails leaves it as it was, in every run of
permitted steps that begins with a ledger that the invariant holds of. -/
theorem ledger_in_order (sha256 : Sha256) (inboundOf : JsString → ℤ) (db : PortDb)
    (hstart : Kept (inboundNaming inboundOf) db.ledger) (steps : List LedgerStep)
    (hrun : Run.Admissible (Permitted inboundOf) (stepLedger sha256) db steps) :
    InOrder inboundOf (Run.run (stepLedger sha256) db steps).ledger ∧
      ∀ e, Permitted inboundOf (Run.run (stepLedger sha256) db steps) e →
        ∀ error, LedgerStep.answer sha256 (Run.run (stepLedger sha256) db steps) e = .error error →
          (stepLedger sha256 (Run.run (stepLedger sha256) db steps) e).ledger
            = (Run.run (stepLedger sha256) db steps).ledger := by
  have hkept := Run.run_invariant_of_admissible (I := fun db => Kept (inboundNaming inboundOf) db.ledger)
    (fun _ _ hok hkept => hkept.stepLedger hok) steps db hrun hstart
  refine ⟨hkept.inOrder, ?_⟩
  intro e hok error hanswer
  rw [stepLedger_of_error hkept hok hanswer]

/-! ### A run, and an acquisition that is no transaction -/

/-- SHA-256 on the one text that the runs below hash. -/
def acquiringSha256 : Sha256 where
  digest s :=
    if s = js "forwardx-global-port-reservation:v1" ++ 0x0A :: List.replicate 43 0x41 then
      [0x80, 0x97, 0xc3, 0x98, 0x00, 0xf5, 0x81, 0xfb, 0xf0, 0x74, 0x66, 0x4b, 0x6f, 0x8e, 0x40, 0x16,
        0x98, 0x37, 0xc7, 0x9c, 0x93, 0xa5, 0x0d, 0x37, 0xa2, 0x3c, 0xde, 0x88, 0x73, 0xa9, 0xdb, 0x96]
    else List.replicate 32 0
  length_digest s := by
    split
    · rfl
    · exact List.length_replicate

def acquiringInbound (inTransaction : Bool) : LedgerEvent :=
  .acquire inTransaction 20001 (.xrayInbound (js "in-7"))
    { resourceType := .xrayInbound
      resourceId := 7
      hostId := some 1
      network := .tcp
      role := .publicListener
      isOwning := true }
    1700000000000 1700000000000 (List.replicate 43 0x41)

theorem ledger_in_order_acquired :
    InOrder (fun _ => 7) (stepLedger acquiringSha256 {} (acquiringInbound true, fun _ => none)).ledger ∧
      (stepLedger acquiringSha256 {} (acquiringInbound true, fun _ => none)).ledger.references.length = 1 := by
  have hpermitted : Permitted (fun _ => 7) {} (acquiringInbound true, fun _ => none) := by
    refine ⟨rfl, List.forall_mem_nil _, ?_⟩
    intro x hx tag _ _
    obtain rfl := List.mem_singleton.mp hx
    exact ⟨rfl, rfl⟩
  exact ⟨(ledger_in_order acquiringSha256 (fun _ => 7) {} (kept_empty _)
    [(acquiringInbound true, fun _ => none)] ⟨hpermitted, trivial⟩).1, by decide +kernel⟩

/-- The database refuses the first statement of the activation: the acquisition fails, and
the port stays reserved. -/
theorem acquire_leaves_reservation :
    LedgerStep.answer acquiringSha256 {}
        (acquiringInbound false, fun n => if n = 6 then some .database else none) = .error .database ∧
      (stepLedger acquiringSha256 {}
        (acquiringInbound false, fun n => if n = 6 then some .database else none)).ledger ≠ {} := by
  decide +kernel

end ForwardX.Panel.GlobalPorts
