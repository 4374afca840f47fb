/-
Importing the snapshot of another panel, third part: the rows of one table in bulk.

The import looks all rows up at once in an image of the table, inserts the others in batches, and
halves a batch that the destination does not accept. `bulk_agrees` compares that with taking the rows
one at a time, for a table with a unique key: the same rows are inserted, and each row is reused,
inserted or skipped alike.
-/
import ForwardX.Panel.ImportReferences

namespace ForwardX.PanelImport

open DatabaseSwitch List

inductive Outcome.Kind where
  | inserted
  | reused
  | skipped
  deriving DecidableEq

/-- What happened to a row, whatever the id. -/
def Outcome.kind : Outcome → Outcome.Kind
  | .inserted _ => .inserted
  | .reused _ => .reused
  | .skipped => .skipped

/-! ## Keys -/

/-- A table of the destination: its lookup columns, which form a unique key, the rows that are
rejected on their own, and whether the bulk lookup is answered. `lower` is `toLocaleLowerCase`. -/
structure KeyedTable where
  js : Conversions
  kind : DatabaseKind
  lower : String → String
  columns : List Column
  columns_ne : columns ≠ []
  rejects : PreparedGeneratedRow → Bool
  newId : ℕ → ℕ
  newId_pos : ∀ old, 0 < newId old
  preloads : Bool
  parameterLimit : ℕ

namespace KeyedTable

variable (T : KeyedTable)

def normalizeValue : JsValue → JsValue
  | .date ms => .number (ms / 1000)
  | .bool b => if T.kind = .postgresql then .bool b else .number (if b then 1 else 0)
  | value => value

def canonicalImportLookupValue (value : JsValue) : String :=
  match T.normalizeValue value with
  | .bool b => "n:" ++ if b then "1" else "0"
  | .number n | .bigint n => "n:" ++ n.repr
  | value => "s:" ++ if T.kind = .mysql then T.lower (T.js.stringOf value) else T.js.stringOf value

structure ImportLookupDescriptor where
  columns : List Column
  signature : String
  key : String

/-- The order of the entries of a condition. -/
def columnOrder (a b : Column) : Prop := a.name ≤ b.name

instance : DecidableRel columnOrder := fun a b => inferInstanceAs (Decidable (a.name ≤ b.name))

def importLookupDescriptor (existing : Where) : Option ImportLookupDescriptor :=
  let entries := (importLookupEntries existing).insertionSort fun a b => columnOrder a.1 b.1
  if entries = [] then none
  else
    let signature := String.intercalate "\u001f" (entries.map fun e => e.1.name)
    some {
      columns := entries.map Prod.fst
      signature
      key := signature ++ "\u001d" ++
        String.intercalate "\u001e" (entries.map fun e => T.canonicalImportLookupValue e.2) }

/-- For each list of columns that a row is looked up by, an image of the table. -/
def preloadExistingImportIds (entries : List Entry) (lookups : List Where) : JsMap String ℕ :=
  let groups : JsMap String (List Column) := lookups.foldl (fun groups existing =>
    match T.importLookupDescriptor existing with
    | some descriptor => groups.set descriptor.signature descriptor.columns
    | none => groups) ∅
  groups.entries.foldl (fun ids group =>
    entries.foldl (fun (ids : JsMap String ℕ) existing =>
      match T.importLookupDescriptor (group.2.map fun c => (c, cell existing.row c)) with
      | some descriptor => if 0 < existing.id then ids.set descriptor.key existing.id else ids
      | none => ids) ids) ∅

def sameKey (a b : Record) : Bool :=
  T.columns.all fun c => T.canonicalImportLookupValue (cell a c) == T.canonicalImportLookupValue (cell b c)

/-- Whether all rows can be inserted one after the other. -/
def insertable (records : List Record) : List PreparedGeneratedRow → Bool
  | [] => true
  | row :: rows =>
    !T.rejects row && !records.any (T.sameKey · row.payload) && insertable (records ++ [row.payload]) rows

/-- The destination that has the table. -/
def destination : Destination where
  newId _ := T.newId
  accepts db t rows := T.insertable ((db t).map Entry.row) rows
  select db t existing := ((db t).find? fun e => existing.all fun x =>
    T.canonicalImportLookupValue (cell e.row x.1) == T.canonicalImportLookupValue x.2).map Entry.id
  preload db t lookups := if T.preloads then some fun existing =>
      (T.importLookupDescriptor existing).bind fun descriptor =>
        (T.preloadExistingImportIds (db t) lookups).get descriptor.key
    else none
  parameterLimit := T.parameterLimit

/-! ## One row at a time -/

/-- The row of the table with the key of `row`. -/
def lookup (entries : List Entry) (row : PreparedGeneratedRow) : Option Entry :=
  entries.find? fun e => T.sameKey e.row row.payload

def importRow (newId : ℕ → ℕ) (entries : List Entry) (row : PreparedGeneratedRow) : List Entry × Outcome :=
  match T.lookup entries row with
  | some e => (entries, .reused e.id)
  | none =>
    if T.rejects row then (entries, .skipped)
    else (entries ++ [⟨newId row.oldId, row.payload⟩], .inserted (newId row.oldId))

def rowByRow (newId : ℕ → ℕ) (entries : List Entry) :
    List PreparedGeneratedRow → List Entry × List (PreparedGeneratedRow × Outcome)
  | [] => (entries, [])
  | row :: rows =>
    let next := T.importRow newId entries row
    let rest := rowByRow newId next.1 rows
    (rest.1, (row, next.2) :: rest.2)

/-- A value that a lookup says something with. -/
def Told (value : JsValue) : Prop := value ≠ .undefined ∧ value ≠ .null ∧ value ≠ .text ""

instance (value : JsValue) : Decidable (Told value) := inferInstanceAs (Decidable (_ ∧ _ ∧ _))

/-- The row is looked up by its own key. -/
def Prepared (row : PreparedGeneratedRow) : Prop :=
  ∃ key : Column → JsValue, row.existingWhere = some (T.columns.map fun c => (c, key c)) ∧
    ∀ c ∈ T.columns, Told (key c) ∧
      T.canonicalImportLookupValue (cell row.payload c) = T.canonicalImportLookupValue (key c)

/-! ## What an import does to the table -/

section

variable {T} {newId : ℕ → ℕ} {entries : List Entry} {row : PreparedGeneratedRow}

theorem rowByRow_append (newId : ℕ → ℕ) (entries : List Entry) (rows rows' : List PreparedGeneratedRow) :
    T.rowByRow newId entries (rows ++ rows')
      = ((T.rowByRow newId (T.rowByRow newId entries rows).1 rows').1,
          (T.rowByRow newId entries rows).2 ++
            (T.rowByRow newId (T.rowByRow newId entries rows).1 rows').2) := by
  induction rows generalizing entries with
  | nil => rfl
  | cons row rows ih =>
    rw [cons_append, rowByRow, ih]
    rfl

theorem rowByRow_fst (newId : ℕ → ℕ) (entries : List Entry) (rows : List PreparedGeneratedRow) :
    (T.rowByRow newId entries rows).2.map Prod.fst = rows := by
  induction rows generalizing entries with
  | nil => rfl
  | cons row rows ih => rw [rowByRow, map_cons, ih]

/-- A row adds nothing to the table, or itself. -/
theorem importRow_cases (T : KeyedTable) (newId : ℕ → ℕ) (entries : List Entry) (row : PreparedGeneratedRow) :
    (∃ e, T.lookup entries row = some e ∧ T.importRow newId entries row = (entries, .reused e.id)) ∨
    (T.lookup entries row = none ∧ T.rejects row = true ∧ T.importRow newId entries row = (entries, .skipped)) ∨
    (T.lookup entries row = none ∧ T.rejects row = false ∧
      T.importRow newId entries row
        = (entries ++ [⟨newId row.oldId, row.payload⟩], .inserted (newId row.oldId))) := by
  unfold importRow
  cases hlookup : T.lookup entries row with
  | some e => exact .inl ⟨e, rfl, rfl⟩
  | none =>
    cases hrejects : T.rejects row with
    | true => exact .inr (.inl ⟨rfl, rfl, rfl⟩)
    | false => exact .inr (.inr ⟨rfl, rfl, rfl⟩)

theorem mem_rowByRow {e : Entry} (he : e ∈ entries) (rows : List PreparedGeneratedRow) :
    e ∈ (T.rowByRow newId entries rows).1 := by
  induction rows generalizing entries with
  | nil => exact he
  | cons row rows ih =>
    refine ih ?_
    rcases importRow_cases T newId entries row with ⟨_, -, hnext⟩ | ⟨-, -, hnext⟩ | ⟨-, -, hnext⟩ <;> rw [hnext]
    · exact he
    · exact he
    · exact mem_append_left _ he

theorem pos_rowByRow (hpos : ∀ e ∈ entries, 0 < e.id)
    (rows : List PreparedGeneratedRow) : ∀ e ∈ (T.rowByRow T.newId entries rows).1, 0 < e.id := by
  induction rows generalizing entries with
  | nil => exact hpos
  | cons row rows ih =>
    refine ih ?_
    rcases importRow_cases T T.newId entries row with ⟨_, -, hnext⟩ | ⟨-, -, hnext⟩ | ⟨-, -, hnext⟩ <;>
      rw [hnext]
    · exact hpos
    · exact hpos
    · intro e he
      rcases mem_append.1 he with he | he
      · exact hpos e he
      · obtain rfl := mem_singleton.1 he
        exact T.newId_pos _

theorem sameKey_self (record : Record) : T.sameKey record record = true := by simp [sameKey]

theorem sameKey_of_lookup {e : Entry} (h : T.lookup entries row = some e) :
    e ∈ entries ∧ T.sameKey e.row row.payload = true :=
  ⟨mem_of_find?_eq_some h, by simpa using find?_some h⟩

/-- Whatever a row is mapped to is in the table, with the key of the row. -/
theorem own_key {rows : List PreparedGeneratedRow} {x : PreparedGeneratedRow × Outcome} {id : ℕ}
    (hx : x ∈ (T.rowByRow newId entries rows).2) (hid : x.2.id? = some id) :
    ∃ e ∈ (T.rowByRow newId entries rows).1, e.id = id ∧ T.sameKey e.row x.1.payload = true := by
  induction rows generalizing entries with
  | nil => cases hx
  | cons row rows ih =>
    rcases mem_cons.1 hx with rfl | hx
    · rcases importRow_cases T newId entries row with ⟨e, hlookup, hnext⟩ | ⟨-, -, hnext⟩ | ⟨-, -, hnext⟩ <;>
        rw [hnext] at hid
      · obtain ⟨he, hkey⟩ := sameKey_of_lookup hlookup
        refine ⟨e, mem_rowByRow ?_ rows, Option.some.inj hid, hkey⟩
        rwa [hnext]
      · cases hid
      · refine ⟨⟨newId row.oldId, row.payload⟩, mem_rowByRow ?_ rows, Option.some.inj hid, sameKey_self _⟩
        rw [hnext]
        exact mem_append_right _ (mem_singleton_self _)
    · exact ih hx

/-! ## The ids do not matter -/

theorem isSome_lookup (entries : List Entry) (row : PreparedGeneratedRow) :
    (T.lookup entries row).isSome = (entries.map Entry.row).any (T.sameKey · row.payload) := by
  rw [lookup, Bool.eq_iff_iff, find?_isSome, any_map, any_eq_true]
  rfl

theorem rowByRow_congr (newId newId' : ℕ → ℕ) {entries' : List Entry}
    (h : entries.map Entry.row = entries'.map Entry.row) (rows : List PreparedGeneratedRow) :
    (T.rowByRow newId entries rows).1.map Entry.row = (T.rowByRow newId' entries' rows).1.map Entry.row ∧
      (T.rowByRow newId entries rows).2.map (fun x => (x.1, x.2.kind))
        = (T.rowByRow newId' entries' rows).2.map fun x => (x.1, x.2.kind) := by
  induction rows generalizing entries entries' with
  | nil => exact ⟨h, rfl⟩
  | cons row rows ih =>
    have hsome : (T.lookup entries row).isSome = (T.lookup entries' row).isSome := by
      rw [isSome_lookup, isSome_lookup, h]
    have hnext : (T.importRow newId entries row).1.map Entry.row
        = (T.importRow newId' entries' row).1.map Entry.row ∧
        (T.importRow newId entries row).2.kind = (T.importRow newId' entries' row).2.kind := by
      unfold importRow
      cases hlookup : T.lookup entries row <;> cases hlookup' : T.lookup entries' row <;>
        simp only [hlookup, hlookup', Option.isSome_none, Option.isSome_some, Bool.false_eq_true,
          Bool.true_eq_false] at hsome
      · cases T.rejects row <;> simp [h, Outcome.kind]
      · exact ⟨h, rfl⟩
    obtain ⟨htable, hkinds⟩ := ih hnext.1
    refine ⟨htable, ?_⟩
    simp only [rowByRow, map_cons, hnext.2, hkinds]

end

/-- What a loop that sets an entry for some of the rows leaves under a key. -/
theorem get_foldl_set {ρ κ : Type} [DecidableEq κ] (item : ρ → Option (κ × ℕ)) (rows : List ρ) (k : κ) :
    let m := rows.foldl (fun (m : JsMap κ ℕ) row => (item row).elim m fun e => m.set e.1 e.2) ∅
    (∀ id, m.get k = some id → ∃ row ∈ rows, item row = some (k, id)) ∧
      ∀ row ∈ rows, ∀ id, item row = some (k, id) → (m.get k).isSome := by
  intro m
  unfold m
  induction rows using List.reverseRecOn with
  | nil => simp
  | append_singleton rows last ih =>
    rw [foldl_append, foldl_cons, foldl_nil]
    simp only [mem_append, mem_singleton, or_imp, forall_and, forall_eq, or_and_right, exists_or,
      exists_eq_left]
    cases hlast : item last with
    | none => simpa using ih
    | some e =>
      rw [Option.elim_some, JsMap.get_set]
      by_cases hk : k = e.1
      · subst hk
        rw [if_pos rfl]
        exact ⟨fun id hid => .inr (by rw [← Option.some.inj hid]), fun _ _ _ _ => rfl, fun _ _ => rfl⟩
      · rw [if_neg hk]
        refine ⟨fun id hid => .inl (ih.1 id hid), ih.2, fun id heq => ?_⟩
        exact absurd (congrArg Prod.fst (Option.some.inj heq)).symm hk

/-! ## Batches -/

section

variable {T} {t : ImportTable} {db : Database}
  {row : PreparedGeneratedRow} {rows : List PreparedGeneratedRow}

theorem importLookupEntries_told {cs : List Column} {f : Column → JsValue} (h : ∀ c ∈ cs, Told (f c)) :
    importLookupEntries (cs.map fun c => (c, f c)) = cs.map fun c => (c, f c) := by
  rw [importLookupEntries, filter_eq_self]
  intro e he
  obtain ⟨c, hc, rfl⟩ := mem_map.1 he
  simpa [Told] using h c hc

theorem findExistingId_eq (hprepared : T.Prepared row) (hpos : ∀ e ∈ db t, 0 < e.id) :
    row.existingWhere.bind (findExistingId T.destination db t)
      = (T.lookup (db t) row).map Entry.id := by
  obtain ⟨key, hwhere, hkey⟩ := hprepared
  have hsame : (fun e : Entry => (T.columns.map fun c => (c, key c)).all fun x =>
      T.canonicalImportLookupValue (cell e.row x.1) == T.canonicalImportLookupValue x.2)
        = fun e => T.sameKey e.row row.payload := by
    funext e
    rw [sameKey, all_map, Bool.eq_iff_iff, all_eq_true, all_eq_true]
    refine forall₂_congr fun c hc => ?_
    rw [Function.comp_apply, (hkey c hc).2]
  rw [hwhere, Option.bind_some, findExistingId, importLookupEntries_told fun c hc => (hkey c hc).1,
    if_neg (by simpa using T.columns_ne)]
  dsimp only [destination]
  rw [hsame]
  cases hlookup : (db t).find? fun e => T.sameKey e.row row.payload with
  | none => rw [lookup, hlookup]; rfl
  | some e =>
    have hid := hpos e (mem_of_find?_eq_some hlookup)
    simp [lookup, hlookup, hid]

theorem rowByRow_of_insertable {newId : ℕ → ℕ} {entries : List Entry}
    (h : T.insertable (entries.map Entry.row) rows = true) :
    T.rowByRow newId entries rows = (entries ++ rows.map fun row => ⟨newId row.oldId, row.payload⟩,
      rows.map fun row => (row, .inserted (newId row.oldId))) := by
  induction rows generalizing entries with
  | nil => simp [rowByRow]
  | cons row rows ih =>
    rw [insertable, Bool.and_eq_true, Bool.and_eq_true, Bool.not_eq_true', Bool.not_eq_true', ← isSome_lookup,
      Option.isSome_eq_false_iff, Option.isNone_iff_eq_none] at h
    obtain ⟨⟨hrejects, hlookup⟩, hrest⟩ := h
    have hnext : T.importRow newId entries row
        = (entries ++ [⟨newId row.oldId, row.payload⟩], .inserted (newId row.oldId)) := by
      rw [importRow, hlookup]
      exact if_neg (by simp [hrejects])
    rw [rowByRow, hnext, ih (by simpa using hrest)]
    simp

/-- A row that cannot be inserted is there, or rejected. -/
theorem importRow_of_not_insertable {newId : ℕ → ℕ} {entries : List Entry}
    (h : T.insertable (entries.map Entry.row) [row] = false) :
    T.importRow newId entries row = (entries, match (T.lookup entries row).map Entry.id with
      | some id => .reused id
      | none => .skipped) := by
  rcases importRow_cases T newId entries row with
    ⟨e, hlookup, hnext⟩ | ⟨hlookup, -, hnext⟩ | ⟨hlookup, hrejects, -⟩
  · rw [hnext, hlookup]; rfl
  · rw [hnext, hlookup]; rfl
  · have hnone := isSome_lookup entries row (T := T)
    rw [hlookup, Option.isSome_none] at hnone
    simp [insertable, hrejects, ← hnone] at h

theorem insertGeneratedBatchWithIsolation_eq (fuel : ℕ)
    (hfuel : rows.length ≤ fuel) (hprepared : ∀ row ∈ rows, T.Prepared row) (hpos : ∀ e ∈ db t, 0 < e.id) :
    insertGeneratedBatchWithIsolation T.destination t fuel db rows
      = (Function.update db t (T.rowByRow T.newId (db t) rows).1, (T.rowByRow T.newId (db t) rows).2) := by
  induction fuel generalizing db rows with
  | zero =>
    obtain rfl := length_eq_zero_iff.1 (Nat.le_zero.1 hfuel)
    simp [insertGeneratedBatchWithIsolation, rowByRow]
  | succ fuel ih =>
    unfold insertGeneratedBatchWithIsolation executeGeneratedBatch
    by_cases haccepts : T.insertable ((db t).map Entry.row) rows = true
    · rw [show T.destination.accepts db t rows = true from haccepts, if_pos rfl,
        rowByRow_of_insertable haccepts]
      rfl
    · rw [show T.destination.accepts db t rows = false from Bool.eq_false_iff.2 haccepts,
        if_neg (by decide)]
      rcases rows with _ | ⟨row, _ | ⟨row', rows⟩⟩
      · exact absurd rfl haccepts
      · dsimp only
        rw [findExistingId_eq (hprepared row (mem_singleton_self row)) hpos, rowByRow,
          importRow_of_not_insertable (by simpa using haccepts)]
        cases (T.lookup (db t) row).map Entry.id <;> simp [rowByRow]
      · -- each half is shorter, and the second finds what the first one left
        dsimp only
        generalize hall : row :: row' :: rows = all at *
        have hlength : 2 ≤ all.length := by
          rw [← hall]
          simp
        rw [ih (by rw [length_take]; omega)
            (fun row hrow => hprepared row (mem_of_mem_take hrow)) hpos,
          ih (by rw [length_drop]; omega) (fun row hrow => hprepared row (mem_of_mem_drop hrow))
            (by simpa using pos_rowByRow hpos _)]
        dsimp only
        rw [Function.update_self, Function.update_idem]
        have hboth := rowByRow_append (T := T) T.newId (db t) (all.take ((all.length + 1) / 2))
          (all.drop ((all.length + 1) / 2))
        rw [take_append_drop] at hboth
        rw [hboth]

theorem entries_group {κ : Type} [DecidableEq κ] {key : PreparedGeneratedRow → κ} {k : κ} (hne : rows ≠ [])
    (h : ∀ row ∈ rows, key row = k) : (JsMap.group key rows).entries = [(k, rows)] := by
  induction rows using List.reverseRecOn with
  | nil => exact absurd rfl hne
  | append_singleton rows row ih =>
    have hkey := h row (by simp)
    have hstep : JsMap.group key (rows ++ [row])
        = (JsMap.group key rows).set (key row) (((JsMap.group key rows).get (key row)).getD [] ++ [row]) := by
      simp [JsMap.group]
    rw [hstep, hkey]
    by_cases hrows : rows = []
    · subst hrows
      rfl
    · have hentries := ih hrows fun row hrow => h row (mem_append_left _ hrow)
      have hget : (JsMap.group key rows).get k = some rows :=
        JsMap.get_eq_some_iff.2 (by rw [hentries]; exact mem_singleton_self _)
      rw [hget]
      simp [JsMap.set, Table.upsert, hentries, Table.byKey, Table.updateWhere]

theorem flatten_generatedBatches (dest : Destination)
    (h : ∀ row ∈ rows, ∀ row' ∈ rows, restoreRowSignature row.payload = restoreRowSignature row'.payload) :
    (generatedBatches dest rows).flatten = rows := by
  cases rows with
  | nil => rfl
  | cons row rows =>
    rw [generatedBatches, entries_group (k := restoreRowSignature row.payload) (cons_ne_nil _ _)
      fun row' hrow' => h row' hrow' row mem_cons_self]
    rw [flatMap_cons, flatMap_nil, append_nil, flatten_cut (by omega)]

theorem insertGeneratedRows_eq (hprepared : ∀ row ∈ rows, T.Prepared row) (hpos : ∀ e ∈ db t, 0 < e.id)
    (h : ∀ row ∈ rows, ∀ row' ∈ rows, restoreRowSignature row.payload = restoreRowSignature row'.payload) :
    insertGeneratedRows T.destination t db rows
      = (Function.update db t (T.rowByRow T.newId (db t) rows).1, (T.rowByRow T.newId (db t) rows).2) := by
  have hloop : ∀ (batches : List (List PreparedGeneratedRow)) (db : Database)
      (out : List (PreparedGeneratedRow × Outcome)), (∀ row ∈ batches.flatten, T.Prepared row) →
      (∀ e ∈ db t, 0 < e.id) →
      batches.foldl (fun done batch =>
        let next := insertGeneratedBatchWithIsolation T.destination t batch.length done.1 batch
        (next.1, done.2 ++ next.2)) (db, out)
        = (Function.update db t (T.rowByRow T.newId (db t) batches.flatten).1,
            out ++ (T.rowByRow T.newId (db t) batches.flatten).2) := by
    intro batches
    induction batches with
    | nil => intro db out _ _; simp [rowByRow]
    | cons batch batches ih =>
      intro db out hprepared hpos
      rw [flatten_cons] at hprepared
      rw [foldl_cons]
      dsimp only
      rw [insertGeneratedBatchWithIsolation_eq _ le_rfl
        (fun row hrow => hprepared row (mem_append_left _ hrow)) hpos,
        ih _ _ (fun row hrow => hprepared row (mem_append_right _ hrow))
          (by simpa using pos_rowByRow hpos _)]
      dsimp only
      rw [Function.update_self, Function.update_idem, flatten_cons, rowByRow_append, append_assoc]
  have hflat := flatten_generatedBatches T.destination h
  rw [insertGeneratedRows, hloop _ db [] (by rwa [hflat]) hpos, hflat, nil_append]

end

/-! ## The image of the table -/

section

/-- The columns in the order of a descriptor. -/
def sortedColumns : List Column := T.columns.insertionSort columnOrder

def keySignature : String := String.intercalate "\u001f" (T.sortedColumns.map Column.name)

/-- The text that stands for a key. -/
def keyText (value : Column → JsValue) : String :=
  T.keySignature ++ "\u001d" ++
    String.intercalate "\u001e" (T.sortedColumns.map fun c => T.canonicalImportLookupValue (value c))

variable {T}

instance : Std.Total columnOrder := ⟨fun a b => le_total a.name b.name⟩

instance : IsTrans Column columnOrder := ⟨fun _ _ _ h h' => le_trans h h'⟩

theorem mem_sortedColumns {c : Column} : c ∈ T.sortedColumns ↔ c ∈ T.columns :=
  (perm_insertionSort _ _).mem_iff

theorem descriptor_eq {cs : List Column} {f : Column → JsValue}
    (hcs : cs.insertionSort columnOrder = T.sortedColumns) (h : ∀ c ∈ cs, Told (f c)) :
    T.importLookupDescriptor (cs.map fun c => (c, f c))
      = some ⟨T.sortedColumns, T.keySignature, T.keyText f⟩ := by
  have hsorted : (cs.map fun c => (c, f c)).insertionSort (fun a b => columnOrder a.1 b.1)
      = T.sortedColumns.map fun c => (c, f c) := by
    rw [← hcs]
    exact (map_insertionSort columnOrder (fun a b => columnOrder a.1 b.1) (fun c => (c, f c)) cs
      fun _ _ _ _ => Iff.rfl).symm
  have hne : T.sortedColumns ≠ [] := by
    intro hnil
    refine T.columns_ne (eq_nil_iff_forall_not_mem.2 fun c hc => ?_)
    simpa [hnil] using mem_sortedColumns.2 hc
  unfold importLookupDescriptor
  rw [importLookupEntries_told h, hsorted, if_neg (by simpa using hne)]
  simp [keyText, keySignature, Function.comp_def]

/-- A table whose key is unique and says something, and rows for it. No row has the text of another
key of the table. -/
structure Keyed (T : KeyedTable) (entries : List Entry) (rows : List PreparedGeneratedRow) : Prop where
  pos : ∀ e ∈ entries, 0 < e.id
  told : ∀ e ∈ entries, ∀ c ∈ T.columns, Told (cell e.row c)
  unique : ∀ e ∈ entries, ∀ e' ∈ entries, T.sameKey e.row e'.row = true → e = e'
  prepared : ∀ row ∈ rows, T.Prepared row
  same_columns : ∀ row ∈ rows, ∀ row' ∈ rows, restoreRowSignature row.payload = restoreRowSignature row'.payload
  apart : ∀ row ∈ rows, ∀ e ∈ entries, T.keyText (cell e.row) = T.keyText (cell row.payload) →
    T.sameKey e.row row.payload = true

variable {entries : List Entry} {rows : List PreparedGeneratedRow} {row : PreparedGeneratedRow}

theorem sameKey_iff {a b : Record} : T.sameKey a b = true ↔
    ∀ c ∈ T.columns, T.canonicalImportLookupValue (cell a c) = T.canonicalImportLookupValue (cell b c) := by
  simp [sameKey]

theorem keyText_congr {f g : Column → JsValue}
    (h : ∀ c ∈ T.columns, T.canonicalImportLookupValue (f c) = T.canonicalImportLookupValue (g c)) :
    T.keyText f = T.keyText g := by
  rw [keyText, keyText, map_congr_left fun c hc => h c (mem_sortedColumns.1 hc)]

theorem descriptor_of_prepared (h : T.Prepared row) :
    ∃ existing, row.existingWhere = some existing ∧ importLookupEntries existing = existing ∧ existing ≠ [] ∧
      T.importLookupDescriptor existing
        = some ⟨T.sortedColumns, T.keySignature, T.keyText (cell row.payload)⟩ := by
  obtain ⟨key, hwhere, hkey⟩ := h
  refine ⟨_, hwhere, importLookupEntries_told fun c hc => (hkey c hc).1, by simpa using T.columns_ne, ?_⟩
  rw [descriptor_eq rfl fun c hc => (hkey c hc).1, keyText_congr fun c hc => (hkey c hc).2]

theorem preloadExistingImportIds_eq (h : Keyed T entries rows) (hrows : rows ≠ []) :
    T.preloadExistingImportIds entries (rows.filterMap PreparedGeneratedRow.existingWhere)
      = entries.foldl (fun (ids : JsMap String ℕ) e => ids.set (T.keyText (cell e.row)) e.id) ∅ := by
  -- all rows are looked up by the same columns
  have hgroups : ∀ lookups : List Where, lookups ≠ [] → (∀ existing ∈ lookups, ∃ key,
      T.importLookupDescriptor existing = some ⟨T.sortedColumns, T.keySignature, key⟩) →
      lookups.foldl (fun (groups : JsMap String (List Column)) existing =>
        match T.importLookupDescriptor existing with
        | some descriptor => groups.set descriptor.signature descriptor.columns
        | none => groups) ∅ = (∅ : JsMap String (List Column)).set T.keySignature T.sortedColumns := by
    intro lookups
    induction lookups using List.reverseRecOn with
    | nil => intro hne; exact absurd rfl hne
    | append_singleton lookups last ih =>
      intro _ hall
      obtain ⟨key, hlast⟩ := hall last (by simp)
      rw [foldl_append, foldl_cons, foldl_nil, hlast]
      by_cases hlookups : lookups = []
      · rw [hlookups]
        rfl
      · rw [ih hlookups fun existing hmem => hall existing (mem_append_left _ hmem)]
        simp [JsMap.set, Table.upsert, Table.byKey, Table.updateWhere, EmptyCollection.emptyCollection,
          JsMap.empty]
  have hlookups : ∀ existing ∈ rows.filterMap PreparedGeneratedRow.existingWhere, ∃ key,
      T.importLookupDescriptor existing = some ⟨T.sortedColumns, T.keySignature, key⟩ := by
    intro existing hmem
    obtain ⟨row, hrow, hwhere⟩ := mem_filterMap.1 hmem
    obtain ⟨existing', hwhere', -, -, hdescriptor⟩ := descriptor_of_prepared (h.prepared row hrow)
    obtain rfl := Option.some.inj (hwhere.symm.trans hwhere')
    exact ⟨_, hdescriptor⟩
  have hne : rows.filterMap PreparedGeneratedRow.existingWhere ≠ [] := by
    obtain ⟨row, hrow⟩ := exists_mem_of_ne_nil rows hrows
    obtain ⟨existing, hwhere, -⟩ := descriptor_of_prepared (h.prepared row hrow)
    exact ne_nil_of_mem (mem_filterMap.2 ⟨row, hrow, hwhere⟩)
  have hcs : T.sortedColumns.insertionSort columnOrder = T.sortedColumns :=
    (pairwise_insertionSort columnOrder T.columns).insertionSort_eq
  unfold preloadExistingImportIds
  rw [hgroups _ hne hlookups]
  show entries.foldl _ ∅ = _
  refine foldl_ext _ _ _ fun ids e he => ?_
  rw [descriptor_eq hcs fun c hc => h.told e he c (mem_sortedColumns.1 hc)]
  exact if_pos (h.pos e he)

/-- The bulk lookup finds the row of the table with the same key. -/
theorem get_preload (h : Keyed T entries rows) (hrow : row ∈ rows) :
    (T.preloadExistingImportIds entries (rows.filterMap PreparedGeneratedRow.existingWhere)).get
        (T.keyText (cell row.payload)) = (T.lookup entries row).map Entry.id := by
  rw [preloadExistingImportIds_eq h (ne_nil_of_mem hrow)]
  obtain ⟨hsound, hcomplete⟩ := get_foldl_set (fun e => some (T.keyText (cell e.row), e.id)) entries
    (T.keyText (cell row.payload))
  dsimp only [Option.elim_some] at hsound hcomplete
  generalize (entries.foldl (fun (ids : JsMap String ℕ) e => ids.set (T.keyText (cell e.row)) e.id) ∅).get
    (T.keyText (cell row.payload)) = got at *
  cases hlookup : T.lookup entries row with
  | none =>
    cases got with
    | none => rfl
    | some id =>
      obtain ⟨e, he, hitem⟩ := hsound id rfl
      have hkey := h.apart row hrow e he (congrArg Prod.fst (Option.some.inj hitem))
      exact absurd hkey (by simpa using find?_eq_none.1 hlookup e he)
  | some e =>
    obtain ⟨he, hsame⟩ := sameKey_of_lookup hlookup
    obtain ⟨id, rfl⟩ := Option.isSome_iff_exists.1 (hcomplete e he e.id
      (by rw [keyText_congr (sameKey_iff.1 hsame)]))
    obtain ⟨e', he', hitem⟩ := hsound id rfl
    obtain ⟨hkey, rfl⟩ := Prod.mk.inj (Option.some.inj hitem)
    have hsame' := h.apart row hrow e' he' hkey
    have heq : T.sameKey e.row e'.row = true := sameKey_iff.2 fun c hc =>
      (sameKey_iff.1 hsame c hc).trans (sameKey_iff.1 hsame' c hc).symm
    rw [h.unique e he e' he' heq]
    rfl

end

/-! ## The import of a table -/

/-- The part of `importBestEffort` after the rows are prepared. -/
def bulk (dest : Destination) (t : ImportTable) (db : Database) (rows : List PreparedGeneratedRow) :
    Database × List (PreparedGeneratedRow × Outcome) :=
  let ids := preloadBestEffort dest db t rows
  let next := insertGeneratedRows dest t db (generated dest db t ids rows)
  (next.1, found dest db t ids rows ++ next.2)

theorem importBestEffort_eq (js : Conversions) (dest : Destination) (s : ImportState) (t : ImportTable)
    (rows : List Record) :
    (importBestEffort js dest s t rows).db = (bulk dest t s.db (preparedRows js dest s t rows)).1 ∧
      (importBestEffort js dest s t rows).maps = Function.update s.maps (.of t)
        (mapsAfter (s.maps (.of t)) (bulk dest t s.db (preparedRows js dest s t rows)).2) := by
  simp [importBestEffort, conclude, recordAll_eq, bulk, mapsAfter, foldl_append]

section

variable {T} {t : ImportTable} {db : Database}
  {rows : List PreparedGeneratedRow}

theorem existingId_eq {row : PreparedGeneratedRow} (h : Keyed T (db t) rows) (hrow : row ∈ rows) :
    existingId T.destination db t
        (preloadBestEffort T.destination db t rows) row
      = (T.lookup (db t) row).map Entry.id := by
  obtain ⟨existing, hwhere, hentries, hne, hdescriptor⟩ := descriptor_of_prepared (h.prepared row hrow)
  unfold existingId
  by_cases hempty : (db t).isEmpty = true
  · rw [if_pos hempty, isEmpty_iff.1 hempty]
    rfl
  · have hany : rows.any (fun row => row.existingWhere.isSome) = true :=
      any_eq_true.2 ⟨row, hrow, by rw [hwhere]; rfl⟩
    rw [if_neg hempty, preloadBestEffort, if_pos ⟨Bool.eq_false_iff.2 hempty, hany⟩]
    dsimp only [destination]
    cases T.preloads with
    | false => exact findExistingId_eq (h.prepared row hrow) h.pos
    | true =>
      rw [hwhere, Option.bind_some, if_pos rfl]
      dsimp only
      rw [hentries, if_neg hne, hdescriptor, Option.bind_some, get_preload h hrow]
      cases hlookup : T.lookup (db t) row with
      | none => rfl
      | some e =>
        have hid := h.pos e (sameKey_of_lookup hlookup).1
        simp [hid]

/-- The rows that are there beforehand can be reported first. -/
theorem rowByRow_split (newId : ℕ → ℕ) (entries extra : List Entry) (rows : List PreparedGeneratedRow) :
    (T.rowByRow newId (entries ++ extra) rows).1
        = (T.rowByRow newId (entries ++ extra) (rows.filter fun row => (T.lookup entries row).isNone)).1 ∧
      (T.rowByRow newId (entries ++ extra) rows).2.Perm
        ((rows.filterMap fun row => (T.lookup entries row).map fun e => (row, Outcome.reused e.id)) ++
          (T.rowByRow newId (entries ++ extra) (rows.filter fun row => (T.lookup entries row).isNone)).2) := by
  induction rows generalizing extra with
  | nil => exact ⟨rfl, .refl _⟩
  | cons row rows ih =>
    cases hlookup : T.lookup entries row with
    | some e =>
      have hnext : T.importRow newId (entries ++ extra) row = (entries ++ extra, .reused e.id) := by
        have hfound : T.lookup (entries ++ extra) row = some e := by
          rw [lookup, find?_append, ← lookup, hlookup, Option.some_or]
        rw [importRow, hfound]
      rw [rowByRow, hnext, filterMap_cons_some (by rw [hlookup]; rfl),
        filter_cons_of_neg (by simp [hlookup])]
      exact ⟨(ih extra).1, (ih extra).2.cons _⟩
    | none =>
      obtain ⟨extra', hextra⟩ : ∃ extra', (T.importRow newId (entries ++ extra) row).1 = entries ++ extra' := by
        rcases importRow_cases T newId (entries ++ extra) row with
          ⟨_, -, hnext⟩ | ⟨-, -, hnext⟩ | ⟨-, -, hnext⟩ <;> rw [hnext]
        · exact ⟨extra, rfl⟩
        · exact ⟨extra, rfl⟩
        · exact ⟨_, append_assoc _ _ _⟩
      rw [filterMap_cons_none (by rw [hlookup]; rfl), filter_cons_of_pos (by simp [hlookup]),
        rowByRow, rowByRow]
      dsimp only
      rw [hextra]
      exact ⟨(ih extra').1, ((ih extra').2.cons _).trans perm_middle.symm⟩

/-- In bulk the table is left as one row at a time leaves it, and the outcomes are the same. -/
theorem bulk_eq (h : Keyed T (db t) rows) :
    (bulk T.destination t db rows).1
        = Function.update db t (T.rowByRow T.newId (db t) rows).1 ∧
      (T.rowByRow T.newId (db t) rows).2.Perm (bulk T.destination t db rows).2 := by
  have hfound : found T.destination db t
      (preloadBestEffort T.destination db t rows) rows
        = rows.filterMap fun row => (T.lookup (db t) row).map fun e => (row, .reused e.id) := by
    refine filterMap_congr fun row hrow => ?_
    rw [existingId_eq h hrow, Option.map_map]
    rfl
  have hgenerated : generated T.destination db t
      (preloadBestEffort T.destination db t rows) rows
        = rows.filter fun row => (T.lookup (db t) row).isNone := by
    refine filter_congr fun row hrow => ?_
    rw [existingId_eq h hrow, Option.isNone_map]
  have hsub : ∀ row ∈ rows.filter fun row => (T.lookup (db t) row).isNone, row ∈ rows := fun row hrow =>
    (mem_filter.1 hrow).1
  have hrest := insertGeneratedRows_eq (fun row hrow => h.prepared row (hsub row hrow)) h.pos
    (fun row hrow row' hrow' => h.same_columns row (hsub row hrow) row' (hsub row' hrow'))
  obtain ⟨htable, hperm⟩ := rowByRow_split (T := T) T.newId (db t) [] rows
  rw [append_nil] at htable hperm
  dsimp only [bulk]
  rw [hgenerated, hfound, hrest, htable]
  exact ⟨rfl, hperm⟩

/-- **In bulk as row by row**: the same rows are inserted, every row is reported once and as it is
one row at a time, and old ids are mapped to rows with the key of theirs. -/
theorem bulk_agrees (h : Keyed T (db t) rows) (newId' : ℕ → ℕ) :
    let done := bulk T.destination t db rows
    let single := T.rowByRow newId' (db t) rows
    done.1 = Function.update db t (done.1 t) ∧ (done.1 t).map Entry.row = single.1.map Entry.row ∧
      (done.2.map Prod.fst).Perm rows ∧
      (done.2.map fun x => (x.1, x.2.kind)).Perm (single.2.map fun x => (x.1, x.2.kind)) ∧
      (∀ x ∈ done.2, ∀ id, x.2.id? = some id →
        (∃ e ∈ done.1 t, e.id = id ∧ T.sameKey e.row x.1.payload = true) ∧
          ((mapsAfter ∅ done.2).get x.1.oldId).isSome) ∧
      ∀ old id, (mapsAfter ∅ done.2).get old = some id →
        ∃ row ∈ rows, row.oldId = old ∧ ∃ e ∈ done.1 t, e.id = id ∧ T.sameKey e.row row.payload = true := by
  obtain ⟨hdb, hperm⟩ := bulk_eq h
  have hkinds := rowByRow_congr (T := T) T.newId newId' (rfl : (db t).map Entry.row = _) rows
  have hfst : ((bulk T.destination t db rows).2.map Prod.fst).Perm rows := by
    have hmap := (hperm.map Prod.fst).symm
    rwa [rowByRow_fst] at hmap
  have hown : ∀ x ∈ (bulk T.destination t db rows).2, ∀ id, x.2.id? = some id →
      ∃ e ∈ (T.rowByRow T.newId (db t) rows).1, e.id = id ∧ T.sameKey e.row x.1.payload = true :=
    fun x hx id hid => own_key (hperm.mem_iff.2 hx) hid
  have hmaps : ∀ outcomes, mapsAfter ∅ outcomes = outcomes.foldl (fun m x =>
      (x.2.id?.map fun id => (x.1.oldId, id)).elim m fun e => m.set e.1 e.2) ∅ := by
    intro outcomes
    refine List.foldl_ext _ _ _ fun m x _ => ?_
    cases x.2.id? <;> rfl
  dsimp only
  rw [hdb, Function.update_self, hmaps]
  refine ⟨rfl, hkinds.1, hfst, hkinds.2 ▸ (hperm.map _).symm, fun x hx id hid => ⟨hown x hx id hid, ?_⟩, ?_⟩
  · exact (get_foldl_set _ _ _).2 x hx id (by rw [hid]; rfl)
  · intro old id hget
    obtain ⟨x, hx, hitem⟩ := (get_foldl_set _ _ _).1 id hget
    obtain ⟨id', hid, heq⟩ := Option.map_eq_some_iff.1 hitem
    obtain ⟨rfl, rfl⟩ := Prod.mk.inj heq
    exact ⟨x.1, hfst.mem_iff.1 (List.mem_map_of_mem hx), rfl, hown x hx id' hid⟩

end

/-! ## A table with a key of three texts -/

def pluginStoreSources : KeyedTable where
  js := decimal
  kind := .sqlite
  lower := id
  columns := [.other "repository", .other "branch", .other "catalogPath"]
  columns_ne := List.cons_ne_nil _ _
  rejects _ := false
  newId old := old + 1
  newId_pos := Nat.succ_pos
  preloads := true
  parameterLimit := 900

def storeSource (oldId : ℕ) (branch catalogPath : String) : PreparedGeneratedRow :=
  let payload := recordOf [(.other "repository", .text "plugins"), (.other "branch", .text branch),
    (.other "catalogPath", .text catalogPath)]
  { source := payload, oldId, payload
    existingWhere := some (pluginStoreSources.columns.map fun c => (c, cell payload c)) }

def storedSource (branch catalogPath : String) : Database :=
  fun _ => [⟨1, (storeSource 0 branch catalogPath).payload⟩]

/-- What becomes of an imported source, in bulk and row by row. -/
def storeOutcomes (db : Database) (row : PreparedGeneratedRow) : List Outcome.Kind × List Outcome.Kind :=
  ((bulk pluginStoreSources.destination .users db [row]).2.map fun x => x.2.kind,
    (pluginStoreSources.rowByRow id (db .users) [row]).2.map fun x => x.2.kind)

/-- **An empty text is not looked up**, so a source without a path is taken for another one. -/
theorem other_key_reused :
    (∀ c ∈ pluginStoreSources.columns, cell (storeSource 5 "main" "").payload c ≠ .null ∧
      cell (storeSource 5 "main" "").payload c ≠ .undefined) ∧
    ¬ (storeOutcomes (storedSource "main" "a.json") (storeSource 5 "main" "")).1.Perm
      (storeOutcomes (storedSource "main" "a.json") (storeSource 5 "main" "")).2 ∧
    ¬ (storeOutcomes (storedSource "a" "b\u001es:c") (storeSource 5 "a\u001es:b" "c")).1.Perm
      (storeOutcomes (storedSource "a" "b\u001es:c") (storeSource 5 "a\u001es:b" "c")).2 := by
  decide +kernel

/-- A source that is there, a new one, and that one again. -/
def storeRows : List PreparedGeneratedRow :=
  [storeSource 5 "main" "a.json", storeSource 6 "dev" "b.json", storeSource 7 "dev" "b.json"]

theorem bulk_agrees_store_sources :
    ((bulk pluginStoreSources.destination .users (storedSource "main" "a.json")
        storeRows).2.map fun x => (x.1, x.2.kind)).Perm
      ((pluginStoreSources.rowByRow (fun old => old + 9) (storedSource "main" "a.json" .users)
        storeRows).2.map fun x => (x.1, x.2.kind)) := by
  have hkeyed : Keyed pluginStoreSources (storedSource "main" "a.json" .users)
      storeRows := by
    refine ⟨by decide, by decide +kernel, ?_, ?_, by decide +kernel, by decide +kernel⟩
    · intro e he e' he' _
      exact (List.mem_singleton.1 he).trans (List.mem_singleton.1 he').symm
    · simp only [storeRows, List.forall_mem_cons, List.not_mem_nil, false_implies, implies_true, and_true]
      exact ⟨⟨cell (storeSource 5 "main" "a.json").payload, rfl, by decide +kernel⟩,
        ⟨cell (storeSource 6 "dev" "b.json").payload, rfl, by decide +kernel⟩,
        ⟨cell (storeSource 7 "dev" "b.json").payload, rfl, by decide +kernel⟩⟩
  exact (bulk_agrees hkeyed _).2.2.2.1

end KeyedTable

end ForwardX.PanelImport
