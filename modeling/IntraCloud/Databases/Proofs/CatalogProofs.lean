import IntraCloud.Databases.Agreement
import IntraCloud.Databases.Proofs.TenantProofs

/-!
# The catalog and what it describes

The catalog's own invariant (keys, fresh ids, links between rows), and for each write of the services:
it keeps the invariant, and with the DDL it goes with it keeps the agreement.
-/

namespace Databases

open Relational

/-- What holds of the rows of tables and columns, with `fresh` above every id. -/
structure TableRows (cat : Catalog) (fresh : Uuid) : Prop where
  tableIds : Keyed (·.id) cat.tables
  columnIds : Keyed (·.id) cat.columns
  tableNames : Keyed (·.physical) cat.tables
  columnNames : Keyed (fun c => (c.table, c.name)) cat.columns
  tableFresh : ∀ t ∈ cat.tables, t.id < fresh
  columnFresh : ∀ c ∈ cat.columns, c.id < fresh
  columnTable : ∀ c ∈ cat.columns, ∃ t ∈ cat.tables, t.id = c.table

/-- What holds of the catalog's rows. -/
structure WellFormed (cat : Catalog) (fresh : Uuid) : Prop extends TableRows cat fresh where
  databaseIds : Keyed (·.id) cat.databases
  foreignKeyColumns : Keyed (·.column) cat.foreignKeys
  databaseFresh : ∀ d ∈ cat.databases, d.id < fresh
  tableDatabase : ∀ t ∈ cat.tables, ∃ d ∈ cat.databases, d.id = t.tenantDatabase
  resolves : ∀ fk ∈ cat.foreignKeys, ∃ c t rt rc, cat.Resolves fk c t rt rc ∧
    rt.tenantDatabase = t.tenantDatabase

theorem wellFormed_empty (fresh : Uuid) : WellFormed Catalog.empty fresh := by
  refine ⟨⟨?_, ?_, ?_, ?_, ?_, ?_, ?_⟩, ?_, ?_, ?_, ?_, ?_⟩ <;> simp [Catalog.empty, Keyed]

/-! ## What the rows describe -/

theorem mem_physicalColumns {cat : Catalog} {x : PhysicalColumn} :
    x ∈ cat.physicalColumns ↔
      ∃ c ∈ cat.columns, ∃ t ∈ cat.tables, t.id = c.table ∧ t.physicalColumn c = x := by
  simp only [Catalog.physicalColumns, List.mem_flatMap, List.mem_map, List.mem_filter, beq_iff_eq,
    and_assoc]

theorem mem_physicalForeignKeys {cat : Catalog} {x : PhysicalForeignKey} :
    x ∈ cat.physicalForeignKeys ↔ ∃ fk ∈ cat.foreignKeys, ∃ c t rt rc,
      cat.Resolves fk c t rt rc ∧ t.physicalForeignKey c rt rc fk.onDelete = x := by
  simp only [Catalog.physicalForeignKeys, List.mem_flatMap, List.mem_map, List.mem_filter,
    beq_iff_eq]
  constructor
  · rintro ⟨fk, hfk, c, ⟨hc, hcid⟩, t, ⟨ht, htid⟩, rt, ⟨hrt, hrtid⟩, rc, ⟨hrc, hrcid⟩, hx⟩
    exact ⟨fk, hfk, c, t, rt, rc, ⟨hc, hcid, ht, htid, hrt, hrtid, hrc, hrcid⟩, hx⟩
  · rintro ⟨fk, hfk, c, t, rt, rc, ⟨hc, hcid, ht, htid, hrt, hrtid, hrc, hrcid⟩, hx⟩
    exact ⟨fk, hfk, c, ⟨hc, hcid⟩, t, ⟨ht, htid⟩, rt, ⟨hrt, hrtid⟩, rc, ⟨hrc, hrcid⟩, hx⟩

theorem Catalog.Resolves.mono {cat cat' : Catalog} {fk : DBForeignKey} {c : DBColumn}
    {t rt : DBTable} {rc : DBColumn} (h : cat.Resolves fk c t rt rc)
    (hcols : ∀ x ∈ cat.columns, x ∈ cat'.columns) (htables : ∀ x ∈ cat.tables, x ∈ cat'.tables) :
    cat'.Resolves fk c t rt rc :=
  { h with
    column_mem := hcols c h.column_mem
    table_mem := htables t h.table_mem
    refTable_mem := htables rt h.refTable_mem
    refColumn_mem := hcols rc h.refColumn_mem }

section WellFormed

variable {cat : Catalog} {fresh : Uuid} (hw : WellFormed cat fresh)

include hw

omit hw in
theorem TableRows.mono (hw : TableRows cat fresh) {fresh' : Uuid} (hle : fresh ≤ fresh') :
    TableRows cat fresh' :=
  { hw with
    tableFresh := fun t ht => Nat.lt_of_lt_of_le (hw.tableFresh t ht) hle
    columnFresh := fun c hc => Nat.lt_of_lt_of_le (hw.columnFresh c hc) hle }

theorem WellFormed.mono {fresh' : Uuid} (hle : fresh ≤ fresh') : WellFormed cat fresh' :=
  { hw with
    toTableRows := hw.toTableRows.mono hle
    databaseFresh := fun d hd => Nat.lt_of_lt_of_le (hw.databaseFresh d hd) hle }

/-- A foreign-key row refers to its rows uniquely. -/
theorem WellFormed.resolves_unique {fk : DBForeignKey} {c c' : DBColumn} {t t' rt rt' : DBTable}
    {rc rc' : DBColumn} (h : cat.Resolves fk c t rt rc) (h' : cat.Resolves fk c' t' rt' rc') :
    c = c' ∧ t = t' ∧ rt = rt' ∧ rc = rc' := by
  have hc : c = c' :=
    hw.columnIds c h.column_mem c' h'.column_mem (h.column_id.trans h'.column_id.symm)
  subst hc
  refine ⟨rfl, ?_, ?_, ?_⟩
  · exact hw.tableIds t h.table_mem t' h'.table_mem (h.table_id.trans h'.table_id.symm)
  · exact hw.tableIds rt h.refTable_mem rt' h'.refTable_mem
      (h.refTable_id.trans h'.refTable_id.symm)
  · exact hw.columnIds rc h.refColumn_mem rc' h'.refColumn_mem
      (h.refColumn_id.trans h'.refColumn_id.symm)

theorem WellFormed.sameDatabase {fk : DBForeignKey} (hfk : fk ∈ cat.foreignKeys) {c : DBColumn}
    {t rt : DBTable} {rc : DBColumn} (h : cat.Resolves fk c t rt rc) :
    rt.tenantDatabase = t.tenantDatabase := by
  obtain ⟨c', t', rt', rc', h', hdb⟩ := hw.resolves fk hfk
  obtain ⟨-, rfl, rfl, -⟩ := hw.resolves_unique h h'
  exact hdb

end WellFormed

/-! ## A new database -/

section InsertDatabase

variable {cat cat' : Catalog} {fresh : Uuid} {d : TenantDatabase}

theorem insertDatabase_some (h : cat.insertDatabase d = some cat') :
    cat' = { cat with databases := cat.databases ++ [d] } := by
  unfold Catalog.insertDatabase at h
  split at h
  · cases h
  · exact (Option.some.inj h).symm

theorem WellFormed.insertDatabase (hw : WellFormed cat fresh) (hd : d.id = fresh)
    (h : cat.insertDatabase d = some cat') : WellFormed cat' (fresh + 2) := by
  obtain rfl := insertDatabase_some h
  have hnew : ∀ a ∈ cat.databases, a.id ≠ d.id :=
    fun a ha => Nat.ne_of_lt (hd ▸ hw.databaseFresh a ha)
  have hw' := hw.mono (Nat.le_add_right fresh 2)
  have hfresh : ∀ x ∈ cat.databases ++ [d], x.id < fresh + 2 := by
    intro x hx
    rcases mem_concat.1 hx with hx | rfl
    · exact hw'.databaseFresh x hx
    · rw [hd]
      exact Nat.lt_add_of_pos_right Nat.two_pos
  have hlink : ∀ t ∈ cat.tables, ∃ x ∈ cat.databases ++ [d], x.id = t.tenantDatabase := by
    intro t ht
    obtain ⟨x, hx, hid⟩ := hw.tableDatabase t ht
    exact ⟨x, List.mem_append_left _ hx, hid⟩
  have hresolves : ∀ fk ∈ cat.foreignKeys, ∃ c t rt rc,
      Catalog.Resolves { cat with databases := cat.databases ++ [d] } fk c t rt rc ∧
        rt.tenantDatabase = t.tenantDatabase := by
    intro fk hfk
    obtain ⟨c, t, rt, rc, hres, hdb⟩ := hw.resolves fk hfk
    exact ⟨c, t, rt, rc, hres.mono (fun _ h => h) (fun _ h => h), hdb⟩
  exact { hw' with
    databaseIds := hw.databaseIds.concat hnew
    databaseFresh := hfresh
    tableDatabase := hlink
    resolves := hresolves }

theorem Agrees.insertDatabase {ten ten' : Tenant} (ha : Agrees cat ten)
    (hexec : ten.exec (.createSchema d.schemaName) = some ten')
    (h : cat.insertDatabase d = some cat') : Agrees cat' ten' := by
  obtain rfl := insertDatabase_some h
  obtain ⟨-, rfl⟩ := Tenant.exec_createSchema hexec
  refine ⟨sameMembers_iff.2 fun x => ?_, ha.tables, ha.columns, ha.foreignKeys⟩
  simp only [Catalog.describes, List.map_append, List.map_cons, List.map_nil, mem_concat]
  rw [ha.schemas.mem_iff]
  rfl

end InsertDatabase

/-! ## A new table -/

section InsertTable

variable {cat cat' : Catalog} {fresh : Uuid} {t : DBTable} {pk : DBColumn}

theorem insertTable_some (h : cat.insertTable t pk = some cat') :
    (∃ d ∈ cat.databases, d.id = t.tenantDatabase) ∧
      (∀ x ∈ cat.tables, x.physical ≠ t.physical) ∧
      cat' = { cat with tables := cat.tables ++ [t], columns := cat.columns ++ [pk] } := by
  unfold Catalog.insertTable at h
  split at h
  · cases h
  rename_i hdb
  split at h
  · cases h
  rename_i hname
  refine ⟨by simpa using hdb, fun x hx heq => hname ?_, (Option.some.inj h).symm⟩
  simp only [DBTable.physical, Prod.mk.injEq, SchemaName.mk.injEq] at heq
  exact List.any_eq_true.2 ⟨x, hx, by simp [heq]⟩

theorem TableRows.insertTable {fresh' : Uuid} (hw : TableRows cat fresh) (hle : fresh ≤ fresh')
    (hnewTable : ∀ a ∈ cat.tables, a.id ≠ t.id) (ht : t.id < fresh')
    (hnewColumn : ∀ a ∈ cat.columns, a.id ≠ pk.id) (hpk : pk.id < fresh') (hlink : pk.table = t.id)
    (h : cat.insertTable t pk = some cat') : TableRows cat' fresh' := by
  obtain ⟨-, hname, rfl⟩ := insertTable_some h
  have hw' := hw.mono hle
  have hnewName : ∀ a ∈ cat.columns, (a.table, a.name) ≠ (pk.table, pk.name) := by
    intro a ha heq
    obtain ⟨x, hx, hid⟩ := hw.columnTable a ha
    exact hnewTable x hx (by rw [hid, (Prod.mk.inj heq).1, hlink])
  refine
    { tableIds := hw.tableIds.concat hnewTable
      columnIds := hw.columnIds.concat hnewColumn
      tableNames := hw.tableNames.concat hname
      columnNames := hw.columnNames.concat hnewName
      tableFresh := ?_
      columnFresh := ?_
      columnTable := ?_ }
  · -- tableFresh
    intro x hx
    rcases mem_concat.1 hx with hx | rfl
    · exact hw'.tableFresh x hx
    · exact ht
  · -- columnFresh
    intro x hx
    rcases mem_concat.1 hx with hx | rfl
    · exact hw'.columnFresh x hx
    · exact hpk
  · -- columnTable
    intro x hx
    rcases mem_concat.1 hx with hx | rfl
    · obtain ⟨y, hy, hid⟩ := hw.columnTable x hx
      exact ⟨y, List.mem_append_left _ hy, hid⟩
    · exact ⟨t, mem_concat.2 (Or.inr rfl), hlink.symm⟩

theorem WellFormed.insertTable (hw : WellFormed cat fresh) (ht : t.id = fresh)
    (hpk : pk.id = fresh + 1) (hlink : pk.table = t.id) (h : cat.insertTable t pk = some cat') :
    WellFormed cat' (fresh + 2) := by
  have hnewTable : ∀ a ∈ cat.tables, a.id ≠ t.id :=
    fun a ha => Nat.ne_of_lt (ht ▸ hw.tableFresh a ha)
  have hnewColumn : ∀ a ∈ cat.columns, a.id ≠ pk.id := by
    intro a ha heq
    exact Nat.lt_asymm (hw.columnFresh a ha) (by rw [heq, hpk]; exact Nat.lt_succ_self fresh)
  have hrows : TableRows cat' (fresh + 2) :=
    hw.toTableRows.insertTable (Nat.le_add_right fresh 2) hnewTable
      (by rw [ht]; exact Nat.lt_add_of_pos_right Nat.two_pos) hnewColumn
      (by rw [hpk]; exact Nat.lt_succ_self (fresh + 1)) hlink h
  obtain ⟨hdb, -, rfl⟩ := insertTable_some h
  refine
    { hw.mono (Nat.le_add_right fresh 2) with
      toTableRows := hrows
      tableDatabase := ?_
      resolves := ?_ }
  · -- tableDatabase
    intro x hx
    rcases mem_concat.1 hx with hx | rfl
    · exact hw.tableDatabase x hx
    · exact hdb
  · -- resolves
    intro fk hfk
    obtain ⟨c, t', rt, rc, hres, hdb'⟩ := hw.resolves fk hfk
    exact ⟨c, t', rt, rc, hres.mono (fun _ h => List.mem_append_left _ h)
      (fun _ h => List.mem_append_left _ h), hdb'⟩

/-- A new row that no old link points to leaves the other columns as they were. -/
theorem mem_physicalColumns_insertTable (hw : WellFormed cat fresh) (ht : t.id = fresh)
    (hlink : pk.table = t.id) {x : PhysicalColumn} :
    x ∈ Catalog.physicalColumns
        { cat with tables := cat.tables ++ [t], columns := cat.columns ++ [pk] } ↔
      x ∈ cat.physicalColumns ∨ x = t.physicalColumn pk := by
  rw [mem_physicalColumns, mem_physicalColumns]
  have hold : ∀ c ∈ cat.columns, t.id ≠ c.table := by
    intro c hc heq
    obtain ⟨y, hy, hid⟩ := hw.columnTable c hc
    exact absurd (hw.tableFresh y hy) (by rw [hid, ← heq, ht]; exact Nat.lt_irrefl _)
  constructor
  · rintro ⟨c, hc, t', ht', hid, rfl⟩
    rcases mem_concat.1 hc with hold' | rfl
    · rcases mem_concat.1 ht' with ht' | rfl
      · exact Or.inl ⟨c, hold', t', ht', hid, rfl⟩
      · exact absurd hid (hold c hold')
    · rcases mem_concat.1 ht' with ht' | rfl
      · exact absurd (hw.tableFresh t' ht') (by rw [hid, hlink, ht]; exact Nat.lt_irrefl _)
      · exact Or.inr rfl
  · rintro (⟨c, hc, t', ht', hid, rfl⟩ | rfl)
    · exact ⟨c, List.mem_append_left _ hc, t', List.mem_append_left _ ht', hid, rfl⟩
    · exact ⟨pk, mem_concat.2 (Or.inr rfl), t, mem_concat.2 (Or.inr rfl), hlink.symm, rfl⟩

/-- Rows added to a catalog whose foreign keys resolve already describe no more constraints. -/
theorem mem_physicalForeignKeys_mono {cat₂ : Catalog} {fresh₂ : Uuid} (hw : WellFormed cat fresh)
    (hw₂ : WellFormed cat₂ fresh₂) (hcols : ∀ x ∈ cat.columns, x ∈ cat₂.columns)
    (htables : ∀ x ∈ cat.tables, x ∈ cat₂.tables) (hfks : cat₂.foreignKeys = cat.foreignKeys)
    {x : PhysicalForeignKey} : x ∈ cat₂.physicalForeignKeys ↔ x ∈ cat.physicalForeignKeys := by
  rw [mem_physicalForeignKeys, mem_physicalForeignKeys, hfks]
  constructor
  · rintro ⟨fk, hfk, c, t, rt, rc, hres, rfl⟩
    obtain ⟨c', t', rt', rc', hres', -⟩ := hw.resolves fk hfk
    obtain ⟨rfl, rfl, rfl, rfl⟩ := hw₂.resolves_unique hres (hres'.mono hcols htables)
    exact ⟨fk, hfk, c, t, rt, rc, hres', rfl⟩
  · rintro ⟨fk, hfk, c, t, rt, rc, hres, rfl⟩
    exact ⟨fk, hfk, c, t, rt, rc, hres.mono hcols htables, rfl⟩

theorem Agrees.insertTable {ten ten' : Tenant} (hw : WellFormed cat fresh) (ha : Agrees cat ten)
    (ht : t.id = fresh) (hpk : pk.id = fresh + 1) (hlink : pk.table = t.id)
    (hcol : t.physicalColumn pk = Tenant.idColumn ⟨t.tenantDatabase⟩ t.name)
    (hexec : ten.exec (.createTable ⟨t.tenantDatabase⟩ t.name) = some ten')
    (h : cat.insertTable t pk = some cat') : Agrees cat' ten' := by
  have hw' := hw.insertTable ht hpk hlink h
  obtain ⟨-, -, rfl⟩ := insertTable_some h
  obtain ⟨-, -, rfl⟩ := Tenant.exec_createTable hexec
  refine ⟨ha.schemas, sameMembers_iff.2 fun x => ?_, sameMembers_iff.2 fun x => ?_,
    sameMembers_iff.2 fun x => ?_⟩
  · simp only [Catalog.describes, List.map_append, List.map_cons, List.map_nil, mem_concat]
    rw [ha.tables.mem_iff]
    rfl
  · rw [mem_concat, ha.columns.mem_iff, ← hcol]
    exact (mem_physicalColumns_insertTable hw ht hlink).symm
  · rw [ha.foreignKeys.mem_iff]
    exact (mem_physicalForeignKeys_mono hw hw' (fun _ h => List.mem_append_left _ h)
      (fun _ h => List.mem_append_left _ h) rfl).symm

end InsertTable

/-! ## A new column -/

section InsertColumn

variable {cat cat' : Catalog} {fresh : Uuid} {c : DBColumn} {index : Option DBIndex}

theorem insertColumn_some (h : cat.insertColumn c index = some cat') :
    (∃ t ∈ cat.tables, t.id = c.table) ∧
      (∀ x ∈ cat.columns, (x.table, x.name) ≠ (c.table, c.name)) ∧ cat' =
      { cat with columns := cat.columns ++ [c], indexes := cat.indexes ++ index.toList } := by
  unfold Catalog.insertColumn at h
  split at h
  · cases h
  rename_i htable
  split at h
  · cases h
  rename_i hname
  split at h
  · cases h
  refine ⟨by simpa using htable, fun x hx heq => hname ?_, (Option.some.inj h).symm⟩
  simp only [Prod.mk.injEq] at heq
  exact List.any_eq_true.2 ⟨x, hx, by simp [heq]⟩

theorem TableRows.insertColumn {fresh' : Uuid} (hw : TableRows cat fresh) (hle : fresh ≤ fresh')
    (hnew : ∀ a ∈ cat.columns, a.id ≠ c.id) (hc : c.id < fresh')
    (h : cat.insertColumn c index = some cat') : TableRows cat' fresh' := by
  obtain ⟨htable, hname, rfl⟩ := insertColumn_some h
  refine
    { hw.mono hle with
      columnIds := hw.columnIds.concat hnew
      columnNames := hw.columnNames.concat hname
      columnFresh := ?_
      columnTable := ?_ }
  · -- columnFresh
    intro x hx
    rcases mem_concat.1 hx with hx | rfl
    · exact (hw.mono hle).columnFresh x hx
    · exact hc
  · -- columnTable
    intro x hx
    rcases mem_concat.1 hx with hx | rfl
    · exact hw.columnTable x hx
    · exact htable

theorem WellFormed.insertColumn (hw : WellFormed cat fresh) (hc : c.id = fresh)
    (h : cat.insertColumn c index = some cat') : WellFormed cat' (fresh + 2) := by
  have hnew : ∀ a ∈ cat.columns, a.id ≠ c.id :=
    fun a ha => Nat.ne_of_lt (hc ▸ hw.columnFresh a ha)
  have hrows : TableRows cat' (fresh + 2) :=
    hw.toTableRows.insertColumn (Nat.le_add_right fresh 2) hnew
      (by rw [hc]; exact Nat.lt_add_of_pos_right Nat.two_pos) h
  obtain ⟨-, -, rfl⟩ := insertColumn_some h
  refine
    { hw.mono (Nat.le_add_right fresh 2) with
      toTableRows := hrows
      resolves := ?_ }
  intro fk hfk
  obtain ⟨c', t', rt, rc, hres, hdb⟩ := hw.resolves fk hfk
  exact ⟨c', t', rt, rc, hres.mono (fun _ h => List.mem_append_left _ h) (fun _ h => h), hdb⟩

theorem Agrees.insertColumn {ten ten' : Tenant} {t : DBTable} (hw : WellFormed cat fresh)
    (ha : Agrees cat ten) (hc : c.id = fresh) (ht : t ∈ cat.tables) (hlink : t.id = c.table)
    (hexec : ten.exec (.addColumn (t.physicalColumn c)) = some ten')
    (h : cat.insertColumn c index = some cat') : Agrees cat' ten' := by
  have hw' := hw.insertColumn hc h
  obtain ⟨-, -, rfl⟩ := insertColumn_some h
  obtain ⟨-, -, rfl⟩ := Tenant.exec_addColumn hexec
  refine ⟨ha.schemas, ha.tables, sameMembers_iff.2 fun x => ?_, sameMembers_iff.2 fun x => ?_⟩
  · rw [mem_concat, ha.columns.mem_iff]
    show x ∈ cat.physicalColumns ∨ x = t.physicalColumn c ↔ x ∈ Catalog.physicalColumns _
    rw [mem_physicalColumns, mem_physicalColumns]
    constructor
    · rintro (⟨c', hc', t', ht', hid, rfl⟩ | rfl)
      · exact ⟨c', List.mem_append_left _ hc', t', ht', hid, rfl⟩
      · exact ⟨c, mem_concat.2 (Or.inr rfl), t, ht, hlink, rfl⟩
    · rintro ⟨c', hc', t', ht', hid, rfl⟩
      rcases mem_concat.1 hc' with hc' | rfl
      · exact Or.inl ⟨c', hc', t', ht', hid, rfl⟩
      · rw [hw.tableIds t ht t' ht' (hlink.trans hid.symm)]
        exact Or.inr rfl
  · rw [ha.foreignKeys.mem_iff]
    exact (mem_physicalForeignKeys_mono hw hw' (fun _ h => List.mem_append_left _ h)
      (fun _ h => h) rfl).symm

end InsertColumn

/-! ## A new foreign key -/

section InsertForeignKey

variable {cat cat' : Catalog} {fresh : Uuid} {fk : DBForeignKey}

theorem insertForeignKey_some (h : cat.insertForeignKey fk = some cat') :
    (∀ x ∈ cat.foreignKeys, x.column ≠ fk.column) ∧
      cat' = { cat with foreignKeys := cat.foreignKeys ++ [fk] } := by
  unfold Catalog.insertForeignKey at h
  split at h
  · cases h
  split at h
  · cases h
  split at h
  · cases h
  split at h
  · cases h
  rename_i hcol
  exact ⟨by simpa using hcol, (Option.some.inj h).symm⟩

theorem WellFormed.insertForeignKey (hw : WellFormed cat fresh) {c : DBColumn} {t rt : DBTable}
    {rc : DBColumn} (hres : cat.Resolves fk c t rt rc) (hdb : rt.tenantDatabase = t.tenantDatabase)
    (h : cat.insertForeignKey fk = some cat') : WellFormed cat' (fresh + 2) := by
  obtain ⟨hcol, rfl⟩ := insertForeignKey_some h
  refine
    { hw.mono (Nat.le_add_right fresh 2) with
      foreignKeyColumns := hw.foreignKeyColumns.concat hcol
      resolves := ?_ }
  intro x hx
  rcases mem_concat.1 hx with hx | rfl
  · obtain ⟨c', t', rt', rc', hres', hdb'⟩ := hw.resolves x hx
    exact ⟨c', t', rt', rc', hres'.mono (fun _ h => h) (fun _ h => h), hdb'⟩
  · exact ⟨c, t, rt, rc, hres.mono (fun _ h => h) (fun _ h => h), hdb⟩

theorem Agrees.insertForeignKey {ten ten' : Tenant} (hw : WellFormed cat fresh)
    (ha : Agrees cat ten) {c : DBColumn} {t rt : DBTable} {rc : DBColumn}
    (hres : cat.Resolves fk c t rt rc)
    (hexec : ten.exec (.addForeignKey (t.physicalForeignKey c rt rc fk.onDelete)) = some ten')
    (h : cat.insertForeignKey fk = some cat') : Agrees cat' ten' := by
  obtain ⟨-, rfl⟩ := insertForeignKey_some h
  obtain ⟨-, -, rfl⟩ := Tenant.exec_addForeignKey hexec
  refine ⟨ha.schemas, ha.tables, ha.columns, sameMembers_iff.2 fun x => ?_⟩
  rw [mem_concat, ha.foreignKeys.mem_iff]
  show x ∈ cat.physicalForeignKeys ∨ _ ↔ x ∈ Catalog.physicalForeignKeys _
  rw [mem_physicalForeignKeys, mem_physicalForeignKeys]
  constructor
  · rintro (⟨fk', hfk', c', t', rt', rc', hres', rfl⟩ | rfl)
    · exact ⟨fk', List.mem_append_left _ hfk', c', t', rt', rc',
        hres'.mono (fun _ h => h) (fun _ h => h), rfl⟩
    · exact ⟨fk, mem_concat.2 (Or.inr rfl), c, t, rt, rc,
        hres.mono (fun _ h => h) (fun _ h => h), rfl⟩
  · rintro ⟨fk', hfk', c', t', rt', rc', hres', rfl⟩
    have hres₀ : cat.Resolves fk' c' t' rt' rc' := hres'.mono (fun _ h => h) (fun _ h => h)
    rcases mem_concat.1 hfk' with hfk' | rfl
    · exact Or.inl ⟨fk', hfk', c', t', rt', rc', hres₀, rfl⟩
    · obtain ⟨rfl, rfl, rfl, rfl⟩ := hw.resolves_unique hres₀ hres
      exact Or.inr rfl

end InsertForeignKey

/-! ## Deleted tables -/

section DeleteTables

variable {cat : Catalog} {fresh : Uuid} {gone : DBTable → Bool}

theorem goneTable_eq (hw : TableRows cat fresh) {t : DBTable} {id : Uuid} (ht : t ∈ cat.tables)
    (hid : t.id = id) : cat.goneTable gone id = gone t := by
  rw [Bool.eq_iff_iff]
  simp only [Catalog.goneTable, List.any_eq_true, Bool.and_eq_true, beq_iff_eq]
  constructor
  · rintro ⟨x, hx, hxid, hgone⟩
    rwa [← hw.tableIds x hx t ht (hxid.trans hid.symm)]
  · exact fun hgone => ⟨t, ht, hid, hgone⟩

theorem goneColumn_eq (hw : TableRows cat fresh) {c : DBColumn} {t : DBTable} {id : Uuid}
    (hc : c ∈ cat.columns) (ht : t ∈ cat.tables) (hid : c.id = id) (htid : t.id = c.table) :
    cat.goneColumn gone id = gone t := by
  have htable : cat.goneTable gone c.table = gone t := goneTable_eq hw ht htid
  rw [← htable, Bool.eq_iff_iff]
  simp only [Catalog.goneColumn, List.any_eq_true, Bool.and_eq_true, beq_iff_eq]
  constructor
  · rintro ⟨x, hx, hxid, hgone⟩
    rwa [← hw.columnIds x hx c hc (hxid.trans hid.symm)]
  · exact fun hgone => ⟨c, hc, hid, hgone⟩

theorem mem_deleteTables_tables {t : DBTable} :
    t ∈ (cat.deleteTables gone).tables ↔ t ∈ cat.tables ∧ gone t = false := by
  simp [Catalog.deleteTables]

theorem mem_deleteTables_columns {c : DBColumn} :
    c ∈ (cat.deleteTables gone).columns ↔ c ∈ cat.columns ∧ cat.goneTable gone c.table = false := by
  simp [Catalog.deleteTables]

theorem mem_deleteTables_foreignKeys {fk : DBForeignKey} :
    fk ∈ (cat.deleteTables gone).foreignKeys ↔ fk ∈ cat.foreignKeys ∧
      cat.goneColumn gone fk.column = false ∧ cat.goneTable gone fk.referencesTable = false ∧
      cat.goneColumn gone fk.referencesColumn = false := by
  simp [Catalog.deleteTables, and_assoc]

/-- A row whose own table, referenced table and referenced column stay still resolves. -/
theorem resolves_deleteTables (hw : TableRows cat fresh) {fk : DBForeignKey} {c : DBColumn}
    {t rt : DBTable} {rc : DBColumn} :
    (cat.deleteTables gone).Resolves fk c t rt rc ↔ cat.Resolves fk c t rt rc ∧ gone t = false ∧
      gone rt = false ∧ cat.goneTable gone rc.table = false := by
  constructor
  · rintro ⟨h1, h2, h3, h4, h5, h6, h7, h8⟩
    rw [mem_deleteTables_columns] at h1 h7
    rw [mem_deleteTables_tables] at h3 h5
    exact ⟨⟨h1.1, h2, h3.1, h4, h5.1, h6, h7.1, h8⟩, h3.2, h5.2, h7.2⟩
  · rintro ⟨⟨h1, h2, h3, h4, h5, h6, h7, h8⟩, ht, hrt, hrc⟩
    refine ⟨mem_deleteTables_columns.2 ⟨h1, ?_⟩, h2, mem_deleteTables_tables.2 ⟨h3, ht⟩, h4,
      mem_deleteTables_tables.2 ⟨h5, hrt⟩, h6, mem_deleteTables_columns.2 ⟨h7, hrc⟩, h8⟩
    rw [goneTable_eq hw h3 h4]
    exact ht

theorem TableRows.deleteTables (hw : TableRows cat fresh) (gone : DBTable → Bool) :
    TableRows (cat.deleteTables gone) fresh := by
  refine ⟨hw.tableIds.filter _, hw.columnIds.filter _, hw.tableNames.filter _,
    hw.columnNames.filter _, fun t ht => hw.tableFresh t (mem_deleteTables_tables.1 ht).1,
    fun c hc => hw.columnFresh c (mem_deleteTables_columns.1 hc).1, fun c hc => ?_⟩
  obtain ⟨hc, hkeep⟩ := mem_deleteTables_columns.1 hc
  obtain ⟨t, ht, hid⟩ := hw.columnTable c hc
  rw [goneTable_eq hw ht hid] at hkeep
  exact ⟨t, mem_deleteTables_tables.2 ⟨ht, hkeep⟩, hid⟩

theorem WellFormed.deleteTables (hw : WellFormed cat fresh) (gone : DBTable → Bool) :
    WellFormed (cat.deleteTables gone) fresh := by
  have hrows := hw.toTableRows
  refine ⟨hrows.deleteTables gone, hw.databaseIds, hw.foreignKeyColumns.filter _, hw.databaseFresh,
    fun t ht => hw.tableDatabase t (mem_deleteTables_tables.1 ht).1, fun fk hfk => ?_⟩
  obtain ⟨hfk, hcol, hrt, hrc⟩ := mem_deleteTables_foreignKeys.1 hfk
  obtain ⟨c, t, rt, rc, hres, hdb⟩ := hw.resolves fk hfk
  obtain ⟨y, hy, hyid⟩ := hw.columnTable rc hres.refColumn_mem
  rw [goneColumn_eq hrows hres.column_mem hres.table_mem hres.column_id hres.table_id] at hcol
  rw [goneTable_eq hrows hres.refTable_mem hres.refTable_id] at hrt
  have hrcTable : cat.goneTable gone rc.table = gone y := goneTable_eq hrows hy hyid
  rw [goneColumn_eq hrows hres.refColumn_mem hy hres.refColumn_id hyid, ← hrcTable] at hrc
  exact ⟨c, t, rt, rc, (resolves_deleteTables hrows).2 ⟨hres, hcol, hrt, hrc⟩, hdb⟩

/-- Where no row is severed and a referenced table only goes together with the table that refers to it,
the deletion takes exactly the rows whose own table goes. -/
theorem mem_deleteTables_foreignKeys_of_unsevered (hw : WellFormed cat fresh) {fk : DBForeignKey}
    {c : DBColumn} {t rt : DBTable} {rc : DBColumn} (hfk : fk ∈ cat.foreignKeys)
    (hres : cat.Resolves fk c t rt rc) (hsever : cat.severs gone fk = false)
    (href : gone rt = true → gone t = true) :
    fk ∈ (cat.deleteTables gone).foreignKeys ↔ gone t = false := by
  rw [mem_deleteTables_foreignKeys]
  have hcol : cat.goneColumn gone fk.column = gone t :=
    goneColumn_eq hw.toTableRows hres.column_mem hres.table_mem hres.column_id hres.table_id
  have hrt : cat.goneTable gone fk.referencesTable = gone rt :=
    goneTable_eq hw.toTableRows hres.refTable_mem hres.refTable_id
  rw [Catalog.severs, hcol, hrt] at hsever
  rw [hcol, hrt]
  refine ⟨fun h => h.2.1, fun ht => ⟨hfk, ht, ?_⟩⟩
  have hrt' : gone rt = false := by
    by_contra hne
    rw [href (by simpa using hne)] at ht
    cases ht
  refine ⟨hrt', ?_⟩
  simpa [ht, hrt'] using hsever

/-- The tenant database without the tables `keep` does not hold of agrees with the catalog without the
tables `gone` holds of. -/
theorem Agrees.deleteTables {ten : Tenant} (hw : WellFormed cat fresh) (ha : Agrees cat ten)
    (gone : DBTable → Bool) (keep : SchemaName × String → Bool)
    (hkeep : ∀ t ∈ cat.tables, keep t.physical = !gone t)
    (hsever : ∀ fk ∈ cat.foreignKeys, cat.severs gone fk = false)
    (href : ∀ fk ∈ cat.foreignKeys, ∀ c t rt rc, cat.Resolves fk c t rt rc → gone rt = true →
      gone t = true) :
    Agrees (cat.deleteTables gone)
      { schemas := ten.schemas, tables := ten.tables.filter keep,
        columns := ten.columns.filter fun c => keep (c.schema, c.table),
        foreignKeys := ten.foreignKeys.filter fun fk => keep (fk.schema, fk.table) } := by
  refine ⟨ha.schemas, sameMembers_iff.2 fun x => ?_, sameMembers_iff.2 fun x => ?_,
    sameMembers_iff.2 fun x => ?_⟩
  · rw [List.mem_filter, ha.tables.mem_iff]
    simp only [Catalog.describes, List.mem_map, mem_deleteTables_tables]
    constructor
    · rintro ⟨⟨t, ht, rfl⟩, hk⟩
      rw [hkeep t ht, Bool.not_eq_true'] at hk
      exact ⟨t, ⟨ht, hk⟩, rfl⟩
    · rintro ⟨t, ⟨ht, hg⟩, rfl⟩
      exact ⟨⟨t, ht, rfl⟩, by rw [hkeep t ht, hg]; rfl⟩
  · rw [List.mem_filter, ha.columns.mem_iff]
    show x ∈ cat.physicalColumns ∧ _ ↔ x ∈ (cat.deleteTables gone).physicalColumns
    simp only [mem_physicalColumns, mem_deleteTables_tables, mem_deleteTables_columns]
    constructor
    · rintro ⟨⟨c, hc, t, ht, hid, rfl⟩, hk⟩
      have hg : gone t = false := by simpa using (hkeep t ht).symm.trans hk
      exact ⟨c, ⟨hc, (goneTable_eq hw.toTableRows ht hid).trans hg⟩, t, ⟨ht, hg⟩, hid, rfl⟩
    · rintro ⟨c, ⟨hc, -⟩, t, ⟨ht, hg⟩, hid, rfl⟩
      exact ⟨⟨c, hc, t, ht, hid, rfl⟩, (hkeep t ht).trans (by rw [hg]; rfl)⟩
  · rw [List.mem_filter, ha.foreignKeys.mem_iff]
    show x ∈ cat.physicalForeignKeys ∧ _ ↔ x ∈ (cat.deleteTables gone).physicalForeignKeys
    rw [mem_physicalForeignKeys, mem_physicalForeignKeys]
    constructor
    · rintro ⟨⟨fk, hfk, c, t, rt, rc, hres, rfl⟩, hk⟩
      have hg : gone t = false := by simpa using (hkeep t hres.table_mem).symm.trans hk
      have hfk' := (mem_deleteTables_foreignKeys_of_unsevered hw hfk hres (hsever fk hfk)
        (href fk hfk c t rt rc hres)).2 hg
      obtain ⟨c', t', rt', rc', hres', -⟩ := (hw.deleteTables gone).resolves fk hfk'
      obtain ⟨rfl, rfl, rfl, rfl⟩ :=
        hw.resolves_unique hres ((resolves_deleteTables hw.toTableRows).1 hres').1
      exact ⟨fk, hfk', c, t, rt, rc, hres', rfl⟩
    · rintro ⟨fk, hfk, c, t, rt, rc, hres, rfl⟩
      obtain ⟨hres₀, hg, -⟩ := (resolves_deleteTables hw.toTableRows).1 hres
      exact ⟨⟨fk, (mem_deleteTables_foreignKeys.1 hfk).1, c, t, rt, rc, hres₀, rfl⟩,
        (hkeep t hres₀.table_mem).trans (by rw [hg]; rfl)⟩

/-- `DROP TABLE` and `table.delete()`. -/
theorem Agrees.deleteTable {ten ten' : Tenant} {t : DBTable} (hw : WellFormed cat fresh)
    (ha : Agrees cat ten) (ht : t ∈ cat.tables)
    (hsever : ∀ fk ∈ cat.foreignKeys, cat.severs (fun x => x.id == t.id) fk = false)
    (hexec : ten.exec (.dropTable ⟨t.tenantDatabase⟩ t.name) = some ten') :
    Agrees (cat.deleteTable t) ten' := by
  obtain ⟨⟨-, href⟩, rfl⟩ := Tenant.exec_dropTable.1 hexec
  refine ha.deleteTables hw _ (· != (⟨t.tenantDatabase⟩, t.name)) (fun x hx => ?_) hsever ?_
  · have hiff : (x.physical = t.physical) ↔ x.id = t.id :=
      ⟨fun h => by rw [hw.tableNames x hx t ht h], fun h => by rw [hw.tableIds x hx t ht h]⟩
    rw [Bool.eq_iff_iff, bne_iff_ne, Bool.not_eq_true', beq_eq_false_iff_ne, ne_eq, ne_eq, ← hiff]
    rfl
  · -- the statement was accepted, so the only keys that refer to the table are on the table
    intro fk hfk c t' rt rc hres hgone
    obtain rfl : rt = t := hw.tableIds rt hres.refTable_mem t ht (by simpa using hgone)
    have hphys : t'.physicalForeignKey c rt rc fk.onDelete ∈ ten.foreignKeys :=
      ha.foreignKeys.mem_iff.2 (mem_physicalForeignKeys.2 ⟨fk, hfk, c, t', rt, rc, hres, rfl⟩)
    have hdb := hw.sameDatabase hfk hres
    have hname : t'.name = rt.name := href _ hphys (by rw [hdb]; rfl) rfl
    have heq : t' = rt := by
      refine hw.tableNames t' hres.table_mem rt ht ?_
      simp only [DBTable.physical, hdb, hname]
    simp [heq]

theorem WellFormed.deleteDatabase (hw : WellFormed cat fresh) (d : TenantDatabase) :
    WellFormed (cat.deleteDatabase d) fresh := by
  have hw' := hw.deleteTables fun x => x.tenantDatabase == d.id
  have hlink : ∀ t ∈ (cat.deleteDatabase d).tables,
      ∃ x ∈ (cat.deleteDatabase d).databases, x.id = t.tenantDatabase := by
    intro t ht
    obtain ⟨ht, hne⟩ := mem_deleteTables_tables.1 ht
    obtain ⟨x, hx, hid⟩ := hw.tableDatabase t ht
    refine ⟨x, List.mem_filter.2 ⟨hx, ?_⟩, hid⟩
    rw [bne_iff_ne, hid]
    exact beq_eq_false_iff_ne.1 hne
  have hresolves : ∀ fk ∈ (cat.deleteDatabase d).foreignKeys, ∃ c t rt rc,
      (cat.deleteDatabase d).Resolves fk c t rt rc ∧ rt.tenantDatabase = t.tenantDatabase := by
    intro fk hfk
    obtain ⟨c, t, rt, rc, hres, hdb⟩ := hw'.resolves fk hfk
    exact ⟨c, t, rt, rc, hres.mono (fun _ h => h) (fun _ h => h), hdb⟩
  exact { hw' with
    databaseIds := hw.databaseIds.filter _
    databaseFresh := fun x hx => hw.databaseFresh x (List.mem_filter.1 hx).1
    tableDatabase := hlink
    resolves := hresolves }

/-- `DROP SCHEMA ... CASCADE` and `tenant_database.delete()`. -/
theorem Agrees.deleteDatabase {ten ten' : Tenant} {d : TenantDatabase} (hw : WellFormed cat fresh)
    (ha : Agrees cat ten)
    (hsever : ∀ fk ∈ cat.foreignKeys,
      cat.severs (fun x => x.tenantDatabase == d.id) fk = false)
    (hexec : ten.exec (.dropSchemaCascade d.schemaName) = some ten') :
    Agrees (cat.deleteDatabase d) ten' := by
  obtain ⟨-, rfl⟩ := Tenant.exec_dropSchemaCascade.1 hexec
  have hdel := ha.deleteTables hw (fun x => x.tenantDatabase == d.id)
    (fun x => x.1 != d.schemaName)
    (fun t _ => by simp [DBTable.physical, TenantDatabase.schemaName, bne]) hsever
    (fun fk hfk c t rt rc hres hgone => by rw [← hw.sameDatabase hfk hres]; exact hgone)
  refine ⟨sameMembers_iff.2 fun x => ?_, hdel.tables, hdel.columns, hdel.foreignKeys⟩
  rw [List.mem_filter, ha.schemas.mem_iff]
  simp only [Catalog.describes, Catalog.deleteDatabase, Catalog.deleteTables, List.mem_map,
    List.mem_filter, bne_iff_ne, TenantDatabase.schemaName]
  constructor
  · rintro ⟨⟨y, hy, rfl⟩, hne⟩
    exact ⟨y, ⟨hy, fun heq => hne (by rw [heq])⟩, rfl⟩
  · rintro ⟨y, ⟨hy, hne⟩, rfl⟩
    exact ⟨⟨y, hy, rfl⟩, fun heq => hne (SchemaName.mk.inj heq)⟩

end DeleteTables

end Databases
