import IntraCloud.Databases.Proofs.AgreementProofs

/-!
# Nothing in the tenant database is without its row

A creation that fails at the catalog is undone in the tenant database, and a deletion that fails there leaves rows
behind, not tables. So the catalog knows of everything there is, whatever fails along the way.
-/

namespace Databases

open Audit Organizations Permissions Transition

variable {cat cat' : Catalog} {ten ten' : Tenant}

theorem covers_empty : Covers Catalog.empty Tenant.empty := by
  refine ⟨?_, ?_, ?_⟩ <;> simp [Tenant.empty]

/-- Rows may be added, and tables and columns may go. -/
theorem Covers.mono (h : Covers cat ten) (hdatabases : ∀ d ∈ cat.databases, d ∈ cat'.databases)
    (htables : ∀ t ∈ cat.tables, t ∈ cat'.tables) (hcolumns : ∀ c ∈ cat.columns, c ∈ cat'.columns) :
    Covers cat' ten where
  schemas := by
    intro schema hschema
    obtain ⟨d, hd, heq⟩ := h.schemas schema hschema
    exact ⟨d, hdatabases d hd, heq⟩
  tables := by
    intro x hx
    obtain ⟨t, ht, heq⟩ := h.tables x hx
    exact ⟨t, htables t ht, heq⟩
  columns := by
    intro x hx
    obtain ⟨c, hc, t, ht, hid, heq⟩ := h.columns x hx
    exact ⟨c, hcolumns c hc, t, htables t ht, hid, heq⟩

/-! ## Creations -/

theorem Covers.insertDatabase {d : TenantDatabase} (h : Covers cat ten)
    (hexec : ten.exec (.createSchema d.schemaName) = some ten') (hwrite : cat.insertDatabase d = some cat') :
    Covers cat' ten' := by
  obtain rfl := insertDatabase_some hwrite
  obtain ⟨-, rfl⟩ := Tenant.exec_createSchema hexec
  have hold : Covers { cat with databases := cat.databases ++ [d] } ten := h.mono
    (fun _ hd => List.mem_append_left _ hd) (fun _ ht => ht) fun _ hc => hc
  refine ⟨?_, hold.tables, hold.columns⟩
  intro schema hschema
  rcases List.mem_append.mp hschema with hin | hlast
  · exact hold.schemas schema hin
  · rw [List.mem_singleton.mp hlast]
    exact ⟨d, List.mem_append_right _ (List.mem_singleton_self d), rfl⟩

theorem Covers.insertTable {t : DBTable} {pk : DBColumn} (h : Covers cat ten) (hlink : pk.table = t.id)
    (hcol : t.physicalColumn pk = Tenant.idColumn ⟨t.tenantDatabase⟩ t.name)
    (hexec : ten.exec (.createTable ⟨t.tenantDatabase⟩ t.name) = some ten')
    (hwrite : cat.insertTable t pk = some cat') : Covers cat' ten' := by
  obtain ⟨-, -, rfl⟩ := insertTable_some hwrite
  obtain ⟨-, -, rfl⟩ := Tenant.exec_createTable hexec
  have hold : Covers { cat with tables := cat.tables ++ [t], columns := cat.columns ++ [pk] } ten := h.mono
    (fun _ hd => hd) (fun _ ht => List.mem_append_left _ ht) fun _ hc => List.mem_append_left _ hc
  have htable : t ∈ cat.tables ++ [t] := List.mem_append_right _ (List.mem_singleton_self t)
  refine ⟨hold.schemas, ?_, ?_⟩
  · intro x hx
    rcases List.mem_append.mp hx with hin | hlast
    · exact hold.tables x hin
    · rw [List.mem_singleton.mp hlast]
      exact ⟨t, htable, rfl⟩
  · intro x hx
    rcases List.mem_append.mp hx with hin | hlast
    · exact hold.columns x hin
    · rw [List.mem_singleton.mp hlast]
      exact ⟨pk, List.mem_append_right _ (List.mem_singleton_self pk), t, htable, hlink.symm, hcol⟩

theorem Covers.insertColumn {t : DBTable} {c : DBColumn} {index : Option DBIndex} (h : Covers cat ten)
    (ht : t ∈ cat.tables) (hlink : t.id = c.table)
    (hexec : ten.exec (.addColumn (t.physicalColumn c)) = some ten')
    (hwrite : cat.insertColumn c index = some cat') : Covers cat' ten' := by
  obtain ⟨-, -, rfl⟩ := insertColumn_some hwrite
  obtain ⟨-, -, rfl⟩ := Tenant.exec_addColumn hexec
  have hold : Covers { cat with columns := cat.columns ++ [c], indexes := cat.indexes ++ index.toList } ten := h.mono
    (fun _ hd => hd) (fun _ ht => ht) fun _ hc => List.mem_append_left _ hc
  refine ⟨hold.schemas, hold.tables, ?_⟩
  intro x hx
  rcases List.mem_append.mp hx with hin | hlast
  · exact hold.columns x hin
  · rw [List.mem_singleton.mp hlast]
    exact ⟨c, List.mem_append_right _ (List.mem_singleton_self c), t, ht, hlink, rfl⟩

/-! ## Deletions -/

/-- The rows go of the tables that `gone` holds of, and nothing else had been covered by them. -/
theorem Covers.deleteTables {fresh : Uuid} (hw : WellFormed cat fresh) (h : Covers cat ten) (gone : DBTable → Bool)
    (hschemas : ∀ schema ∈ ten'.schemas, schema ∈ ten.schemas)
    (htables : ∀ x ∈ ten'.tables, x ∈ ten.tables ∧ ∀ t ∈ cat.tables, t.physical = x → gone t = false)
    (hcolumns : ∀ x ∈ ten'.columns, x ∈ ten.columns ∧
      ∀ t ∈ cat.tables, t.physical = (x.schema, x.table) → gone t = false) :
    Covers (cat.deleteTables gone) ten' where
  schemas := fun schema hschema => h.schemas schema (hschemas schema hschema)
  tables := by
    intro x hx
    obtain ⟨hin, hstays⟩ := htables x hx
    obtain ⟨t, ht, heq⟩ := h.tables x hin
    exact ⟨t, mem_deleteTables_tables.mpr ⟨ht, hstays t ht heq⟩, heq⟩
  columns := by
    intro x hx
    obtain ⟨hin, hstays⟩ := hcolumns x hx
    obtain ⟨c, hc, t, ht, hid, heq⟩ := h.columns x hin
    have hgone : gone t = false := hstays t ht (by rw [← heq]; rfl)
    refine ⟨c, mem_deleteTables_columns.mpr ⟨hc, ?_⟩, t, mem_deleteTables_tables.mpr ⟨ht, hgone⟩, hid, heq⟩
    exact (goneTable_eq hw.toTableRows ht hid).trans hgone

theorem Covers.deleteTable {fresh : Uuid} {t : DBTable} (hw : WellFormed cat fresh) (h : Covers cat ten)
    (ht : t ∈ cat.tables) (hexec : ten.exec (.dropTable ⟨t.tenantDatabase⟩ t.name) = some ten') :
    Covers (cat.deleteTable t) ten' := by
  obtain ⟨-, rfl⟩ := Tenant.exec_dropTable.mp hexec
  have hother : ∀ x, x ≠ t.physical → ∀ u ∈ cat.tables, u.physical = x → (u.id == t.id) = false := by
    rintro x hne u hu rfl
    rw [beq_eq_false_iff_ne]
    intro hid
    exact hne (by rw [hw.tableIds u hu t ht hid])
  refine h.deleteTables hw _ (fun _ hschema => hschema) ?_ ?_
  · intro x hx
    obtain ⟨hin, hne⟩ := List.mem_filter.mp hx
    exact ⟨hin, hother x (bne_iff_ne.mp hne)⟩
  · intro x hx
    obtain ⟨hin, hne⟩ := List.mem_filter.mp hx
    exact ⟨hin, hother _ (bne_iff_ne.mp hne)⟩

theorem Covers.deleteDatabase {fresh : Uuid} {d : TenantDatabase} (hw : WellFormed cat fresh) (h : Covers cat ten)
    (hexec : ten.exec (.dropSchemaCascade d.schemaName) = some ten') : Covers (cat.deleteDatabase d) ten' := by
  obtain ⟨-, hten⟩ := Tenant.exec_dropSchemaCascade.mp hexec
  have hother : ∀ x : SchemaName × String, x.1 ≠ d.schemaName →
      ∀ u ∈ cat.tables, u.physical = x → (u.tenantDatabase == d.id) = false := by
    rintro x hne u hu rfl
    rw [beq_eq_false_iff_ne]
    intro hid
    refine hne ?_
    show (⟨u.tenantDatabase⟩ : SchemaName) = ⟨d.id⟩
    rw [hid]
  have hcovers : Covers (cat.deleteTables fun x => x.tenantDatabase == d.id) ten' := by
    refine h.deleteTables hw _ (fun schema hschema => ?_) (fun x hx => ?_) fun x hx => ?_
    · rw [hten] at hschema
      exact (List.mem_filter.mp hschema).1
    · rw [hten] at hx
      obtain ⟨hin, hne⟩ := List.mem_filter.mp hx
      exact ⟨hin, hother x (bne_iff_ne.mp hne)⟩
    · rw [hten] at hx
      obtain ⟨hin, hne⟩ := List.mem_filter.mp hx
      exact ⟨hin, hother (x.schema, x.table) (bne_iff_ne.mp hne)⟩
  refine ⟨?_, hcovers.tables, hcovers.columns⟩
  intro schema hschema
  rw [hten] at hschema
  obtain ⟨hin, hne⟩ := List.mem_filter.mp hschema
  obtain ⟨x, hx, heq⟩ := h.schemas schema hin
  refine ⟨x, List.mem_filter.mpr ⟨hx, ?_⟩, heq⟩
  rw [bne_iff_ne]
  intro hid
  refine bne_iff_ne.mp hne ?_
  rw [← heq]
  show (⟨x.id⟩ : SchemaName) = ⟨d.id⟩
  rw [hid]

/-! ## Runs -/

theorem SchemaRequest.Resolved.covers_write {s : State} (hw : WellFormed s.catalog s.nextUuid)
    (h : Covers s.catalog s.tenant) {r : SchemaRequest} {svc : Service} (hr : r.Resolved s svc) {plan : Plan}
    (hplan : svc.plan = .ok plan) {ten' : Tenant} {cat' : Catalog} (hexec : s.tenant.exec plan.change.ddl = some ten')
    (hwrite : plan.change.write s.catalog = some cat') : Covers cat' ten' := by
  cases hr with
  | createTenantDatabase project =>
    simp only [Databases.createTenantDatabase] at hplan
    split at hplan
    · cases hplan
    cases hplan
    exact h.insertDatabase hexec hwrite
  | createTable organization d hd hid =>
    simp only [Databases.createTable] at hplan
    split at hplan
    · cases hplan
    cases hplan
    exact h.insertTable rfl rfl hexec hwrite
  | addColumn organization t ht hid =>
    simp only [Databases.addColumn] at hplan
    split at hplan
    · cases hplan
    rename_i x hx
    obtain rfl : x = t.physicalColumn (newColumn s.nextUuid t _) := columnDdl_ok hx
    cases hplan
    exact h.insertColumn ht rfl hexec hwrite
  | addForeignKey organization c t rt rc hc hcid ht htid hrt hrtid hrc hrcid =>
    simp only [Databases.addForeignKey] at hplan
    split at hplan
    · cases hplan
    cases hplan
    obtain ⟨-, rfl⟩ := insertForeignKey_some hwrite
    obtain ⟨-, -, rfl⟩ := Tenant.exec_addForeignKey hexec
    exact ⟨h.schemas, h.tables, h.columns⟩
  | deleteTable organization t ht hid =>
    cases hplan
    cases hwrite
    exact h.deleteTable hw ht hexec
  | deleteTenantDatabase organization d hd hid =>
    cases hplan
    cases hwrite
    exact h.deleteDatabase hw hexec

/-- A deletion only takes away from the tenant database. -/
theorem SchemaRequest.Resolved.covers_delete {s : State} (h : Covers s.catalog s.tenant) {r : SchemaRequest}
    {svc : Service} (hr : r.Resolved s svc) (hdeletes : r.deletes ≠ none) {plan : Plan} (hplan : svc.plan = .ok plan)
    {ten' : Tenant} (hexec : s.tenant.exec plan.change.ddl = some ten') : Covers s.catalog ten' := by
  cases hr with
  | createTenantDatabase project => exact absurd rfl hdeletes
  | createTable organization d hd hid => exact absurd rfl hdeletes
  | addColumn organization t ht hid => exact absurd rfl hdeletes
  | addForeignKey organization c t rt rc hc hcid ht htid hrt hrtid hrc hrcid => exact absurd rfl hdeletes
  | deleteTable organization t ht hid =>
    cases hplan
    obtain ⟨-, rfl⟩ := Tenant.exec_dropTable.mp hexec
    exact ⟨h.schemas, fun x hx => h.tables x (List.mem_filter.mp hx).1,
      fun x hx => h.columns x (List.mem_filter.mp hx).1⟩
  | deleteTenantDatabase organization d hd hid =>
    cases hplan
    obtain ⟨-, rfl⟩ := Tenant.exec_dropSchemaCascade.mp hexec
    exact ⟨fun x hx => h.schemas x (List.mem_filter.mp hx).1, fun x hx => h.tables x (List.mem_filter.mp hx).1,
      fun x hx => h.columns x (List.mem_filter.mp hx).1⟩

theorem covers_step {s : State} (hs : Sound s) (h : Covers s.catalog s.tenant) (a : Action) :
    Covers (step s a).catalog (step s a).tenant := by
  cases a with
  | administer memberships projects roleAssignments => exact h
  | advance seconds => exact h
  | request fault actor requestId r =>
    show Covers (handle s fault actor requestId r).1.catalog (handle s fault actor requestId r).1.tenant
    unfold handle
    cases hr : r.resolve s actor with
    | error e => exact h
    | ok svc =>
      dsimp only
      have hresolved := resolve_ok hr
      rcases call_cases svc s fault actor requestId with
        ⟨hcat, hten, -, -⟩ | ⟨plan, ten', ⟨-, hplan, hexec, -⟩, hout⟩
      · rw [hcat, hten]
        exact h
      rcases hout with ⟨-, hcat, hten, -, -⟩ | ⟨-, hwrite, hten, -, -⟩
      · rw [hcat, hten]
        rcases hresolved.undo hs.valid hplan hexec with ⟨-, hundone⟩ | ⟨hdeletes, -⟩
        · rw [hundone]
          exact h
        · -- a deletion has nothing that undoes it
          have hcovers := hresolved.covers_delete h hdeletes hplan hexec
          cases hundo : plan.change.compensating.bind ten'.exec with
          | none => exact hcovers
          | some ten'' =>
            obtain ⟨ddl, hcompensating, -⟩ := Option.bind_eq_some_iff.mp hundo
            cases hresolved with
            | deleteTable organization t ht hid =>
              cases hplan
              cases hcompensating
            | deleteTenantDatabase organization d hd hid =>
              cases hplan
              cases hcompensating
            | createTenantDatabase project => exact absurd rfl hdeletes
            | createTable organization d hd hid => exact absurd rfl hdeletes
            | addColumn organization t ht hid => exact absurd rfl hdeletes
            | addForeignKey organization c t rt rc hc hcid ht htid hrt hrtid hrc hrcid => exact absurd rfl hdeletes
      · rw [hten]
        exact hresolved.covers_write hs.wellFormed h hplan hexec hwrite

end Databases
